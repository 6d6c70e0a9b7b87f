import RecordFlow.Proofs.Query.Fragments

/-!
# Identifiers in the splitter

What makes up identifiers are letters, digits, `-`, `_` and `.` (`isNameChar`). The splitter knows
the boundaries of words only, and `-` and `.` are no word characters. So it finds separators of one
word inside of names, exactly where a whole run of word characters is one
(`separatorLength?_of_names`), and cuts the name there.

An identifier is one token exactly if none of its runs of word characters is a separator, itself
apart (`tokenize_identifier`).
-/

namespace RecordFlow.Query

/-! ### Characters of names -/

/-- A character that identifiers are made of. -/
def isNameChar (c : Char) : Bool :=
  Text.isAlphanumeric c || c == '-' || c == '_' || c == '.'

theorem all_isNameChar_of_isIdentifier {cs : List Char} (h : isIdentifier cs) :
    cs ≠ [] ∧ cs.all isNameChar := by
  cases cs with
  | nil => cases h
  | cons c rest =>
    obtain ⟨hfirst, hrest⟩ := Bool.and_eq_true_iff.1 h
    refine ⟨List.cons_ne_nil _ _, ?_⟩
    rw [List.all_cons, Bool.and_eq_true]
    refine ⟨?_, hrest⟩
    simp only [isNameChar, Text.isAlphanumeric]
    grind

theorem exists_range_of_inRanges {ranges : List (Nat × Nat)} {code : Nat}
    (h : Text.inRanges ranges code) : ∃ r ∈ ranges, r.1 ≤ code ∧ code ≤ r.2 := by
  induction ranges with
  | nil => cases h
  | cons r ranges ih =>
    obtain ⟨low, high⟩ := r
    simp only [Text.inRanges, Bool.and_eq_true, Bool.or_eq_true, decide_eq_true_eq] at h
    rcases h with ⟨hlow, hhigh | hrest⟩
    · exact ⟨(low, high), List.mem_cons_self, hlow, hhigh⟩
    · obtain ⟨r, hmem, hr⟩ := ih hrest
      exact ⟨r, List.mem_cons_of_mem _ hmem, hr⟩

theorem isBlank_of_isNameChar {c : Char} (h : isNameChar c) : Text.isBlank c = false := by
  have hblanks : ∀ r ∈ Text.blankRanges, ∀ code ∈ List.range' r.1 (r.2 + 1 - r.1),
      isNameChar (Char.ofNat code) = false := by decide +kernel
  cases hblank : Text.isBlank c with
  | false => rfl
  | true =>
    obtain ⟨r, hr, hlow, hhigh⟩ := exists_range_of_inRanges hblank
    have hnot := hblanks r hr c.toNat (List.mem_range'_1.2 ⟨hlow, by omega⟩)
    rw [Char.ofNat_toNat, h] at hnot
    cases hnot

theorem isQuote_of_isNameChar {c : Char} (h : isNameChar c) : isQuote c = false := by
  refine eq_false_of_ne_true fun hquote => ?_
  simp only [isQuote, Bool.or_eq_true, beq_iff_eq] at hquote
  rcases hquote with (rfl | rfl) | rfl <;> exact absurd h (by decide)

theorem toNat_lt_of_isUpper_toUpper {c : Char} (h : c.toUpper.isUpper) : c.toNat < 128 := by
  by_cases hlower : 'a'.val ≤ c.val ∧ c.val ≤ 'z'.val
  · have hle : c.toNat ≤ 122 := UInt32.le_iff_toNat_le.1 hlower.2
    omega
  · have hsame : c.toUpper = c := dif_neg hlower
    rw [hsame] at h
    have hupper : 65 ≤ c.val ∧ c.val ≤ 90 := of_decide_eq_true h
    have hle : c.toNat ≤ 90 := UInt32.le_iff_toNat_le.1 hupper.2
    omega

/-- What stands for a letter goes on a word. -/
theorem isWordChar_of_standsFor {letter c : Char} (hletter : letter.isUpper)
    (h : standsFor letter c) : Text.isWordChar c := by
  have hword : ∀ code ∈ List.range 128 ++ [0x17F, 0x212A],
      (Char.ofNat code).toUpper.isUpper ∨ 128 ≤ code → Text.isWordChar (Char.ofNat code) := by
    decide +kernel
  simp only [standsFor, Bool.or_eq_true, Bool.and_eq_true, beq_iff_eq] at h
  have hcode : c.toNat ∈ List.range 128 ++ [0x17F, 0x212A] ∧
      ((Char.ofNat c.toNat).toUpper.isUpper ∨ 128 ≤ c.toNat) := by
    rw [Char.ofNat_toNat]
    rcases h with (rfl | ⟨-, h⟩) | ⟨-, h⟩
    · have hlt := toNat_lt_of_isUpper_toUpper hletter
      exact ⟨by simp [hlt], .inl hletter⟩
    · simp [h]
    · simp [h]
  have hc := hword c.toNat hcode.1 hcode.2
  rwa [Char.ofNat_toNat] at hc

/-- Words of letters in upper case, or a sign that begins no name. -/
def Separator.isRegular : Separator → Bool
  | .words parts => !parts.isEmpty && parts.all fun part => !part.isEmpty && part.all Char.isUpper
  | .sign mark => mark.head?.any (!isNameChar ·)

theorem isRegular_of_mem_separators : ∀ sep ∈ separators, sep.isRegular := by
  have hall : separators.all Separator.isRegular := by decide
  exact List.all_eq_true.1 hall

/-! ### Separators in names -/

/-- The text is the word of a separator of one word, in any case. -/
def Separator.isWord (cs : List Char) : Separator → Bool
  | .words [word] => dropWord word cs == some []
  | _ => false

/-- The text is a separator of one word: the name of a function or an aggregator, an operator or a
keyword, in any case. -/
def isSeparatorWord (cs : List Char) : Bool :=
  separators.any (·.isWord cs)

theorem dropWord_append {word front : List Char} (h : dropWord word front = some [])
    (rest : List Char) : dropWord word (front ++ rest) = some rest := by
  fun_induction dropWord word front with
  | case1 cs =>
    obtain rfl := Option.some.inj h
    rfl
  | case2 => cases h
  | case3 letter word c cs hstands ih =>
    rw [List.cons_append, dropWord, if_pos hstands]
    exact ih h
  | case4 => cases h

theorem exists_append_of_dropWord {word cs rest : List Char} (h : dropWord word cs = some rest) :
    ∃ front, cs = front ++ rest ∧ dropWord word front = some [] := by
  fun_induction dropWord word cs with
  | case1 cs =>
    obtain rfl := Option.some.inj h
    exact ⟨[], rfl, rfl⟩
  | case2 => cases h
  | case3 letter word c cs hstands ih =>
    obtain ⟨front, rfl, hfront⟩ := ih h
    exact ⟨c :: front, rfl, by rw [dropWord, if_pos hstands, hfront]⟩
  | case4 => cases h

theorem all_isWordChar_of_dropWord {word front : List Char} (hword : word.all Char.isUpper)
    (h : dropWord word front = some []) : front.all Text.isWordChar := by
  fun_induction dropWord word front with
  | case1 cs =>
    obtain rfl := Option.some.inj h
    rfl
  | case2 => cases h
  | case3 letter word c cs hstands ih =>
    rw [List.all_cons, Bool.and_eq_true] at hword ⊢
    exact ⟨isWordChar_of_standsFor hword.1 hstands, ih hword.2 h⟩
  | case4 => cases h

theorem ne_nil_of_dropWord {word front : List Char} (hword : word ≠ [])
    (h : dropWord word front = some []) : front ≠ [] := by
  rintro rfl
  cases word with
  | nil => exact hword rfl
  | cons letter word => cases h

theorem Separator.of_isWord {sep : Separator} (hsep : sep.isRegular) {cs : List Char}
    (h : sep.isWord cs) : cs ≠ [] ∧ cs.all Text.isWordChar ∧
      ∃ word, sep = .words [word] ∧ dropWord word cs = some [] := by
  match sep with
  | .words [word] =>
    have hword : word ≠ [] ∧ word.all Char.isUpper := by simpa [isRegular] using hsep
    have hdrop : dropWord word cs = some [] := by simpa [isWord] using h
    have hall := all_isWordChar_of_dropWord hword.2 hdrop
    exact ⟨ne_nil_of_dropWord hword.1 hdrop, hall, word, rfl, hdrop⟩
  | .sign _ | .words [] | .words (_ :: _ :: _) => cases h

/-- A separator of one word consists of word characters. -/
theorem of_isSeparatorWord {cs : List Char} (h : isSeparatorWord cs) :
    cs ≠ [] ∧ cs.all Text.isWordChar := by
  obtain ⟨sep, hmem, hword⟩ := List.any_eq_true.1 h
  obtain ⟨hne, hall, -⟩ := Separator.of_isWord (isRegular_of_mem_separators sep hmem) hword
  exact ⟨hne, hall⟩

/-- The run of word characters at the start of a text. -/
def leadingWord (cs : List Char) : List Char :=
  cs.takeWhile Text.isWordChar

theorem leadingWord_eq {front rest : List Char} (hfront : front.all Text.isWordChar)
    (hrest : rest.head?.any Text.isWordChar = false) : leadingWord (front ++ rest) = front := by
  have htake : rest.takeWhile Text.isWordChar = [] := by
    cases rest with
    | nil => rfl
    | cons c rest => exact List.takeWhile_cons_of_neg (by simpa using hrest)
  rw [leadingWord, List.takeWhile_append_of_pos (List.all_eq_true.1 hfront), htake, List.append_nil]

/-- What stands behind that run. -/
def behindWord (cs : List Char) : List Char :=
  cs.dropWhile Text.isWordChar

theorem leadingWord_append_behindWord (cs : List Char) : leadingWord cs ++ behindWord cs = cs :=
  List.takeWhile_append_dropWhile

theorem any_head?_behindWord (cs : List Char) :
    (behindWord cs).head?.any Text.isWordChar = false := by
  unfold behindWord
  have hnot := List.head?_dropWhile_not Text.isWordChar cs
  cases hhead : (cs.dropWhile Text.isWordChar).head? with
  | none => rfl
  | some c => rwa [hhead] at hnot

theorem length?_sign_of_names {mark cs : List Char} (hmark : (Separator.sign mark).isRegular)
    (hcs : cs.all isNameChar) (before : Option Char) :
    (Separator.sign mark).length? before cs = none := by
  refine if_neg fun hprefix => ?_
  obtain ⟨rest, rfl⟩ := List.isPrefixOf_iff_prefix.1 hprefix
  cases mark with
  | nil => cases hmark
  | cons c mark =>
    have hc : isNameChar c = false := by simpa [Separator.isRegular] using hmark
    rw [List.cons_append, List.all_cons, hc] at hcs
    cases hcs

/-- Between the words of a separator stands white space, which no name holds. -/
theorem dropWords_of_names {word next cs : List Char} {parts : List (List Char)}
    (hcs : cs.all isNameChar) : dropWords (word :: next :: parts) cs = none := by
  rw [dropWords.eq_3 _ _ _ (by simp)]
  cases h : dropWord word cs with
  | none => rfl
  | some rest =>
    obtain ⟨front, rfl, -⟩ := exists_append_of_dropWord h
    rw [List.all_append, Bool.and_eq_true] at hcs
    refine if_neg ?_
    cases rest with
    | nil => simp
    | cons c rest =>
      have hc : isNameChar c := List.all_eq_true.1 hcs.2 c List.mem_cons_self
      simp [isBlank_of_isNameChar hc]

/-- A word of word characters stands between boundaries if no word character touches it. -/
theorem isBoundary_head?_eq {front : List Char} (hne : front ≠ [])
    (hfront : front.all Text.isWordChar) (before : Option Char) (rest : List Char) :
    isBoundary before (front ++ rest).head? = !before.any Text.isWordChar := by
  obtain ⟨c, front, rfl⟩ := List.exists_cons_of_ne_nil hne
  have hc : Text.isWordChar c := List.all_eq_true.1 hfront c List.mem_cons_self
  simp [isBoundary, hc]

theorem isBoundary_getLast?_eq {front : List Char} (hne : front ≠ [])
    (hfront : front.all Text.isWordChar) (after : Option Char) :
    isBoundary front.getLast? after = !after.any Text.isWordChar := by
  have hlast : Text.isWordChar (front.getLast hne) :=
    List.all_eq_true.1 hfront _ (List.getLast_mem hne)
  simp [isBoundary, List.getLast?_eq_some_getLast hne, hlast]

/-- In a name a separator matches only a whole run of word characters. -/
theorem Separator.of_length?_eq_some {sep : Separator} (hsep : sep.isRegular) {cs : List Char}
    (hcs : cs.all isNameChar) {before : Option Char} {n : Nat}
    (h : sep.length? before cs = some n) :
    before.any Text.isWordChar = false ∧ sep.isWord (leadingWord cs) ∧
      n = (leadingWord cs).length := by
  match sep with
  | .sign mark =>
    rw [length?_sign_of_names hsep hcs] at h
    cases h
  | .words [] => cases hsep
  | .words (word :: next :: parts) =>
    rw [Separator.length?, dropWords_of_names hcs] at h
    cases h
  | .words [word] =>
    rw [Separator.length?] at h
    obtain ⟨rest, hdrop, h⟩ := Option.bind_eq_some_iff.1 h
    obtain ⟨front, rfl, hfront⟩ := exists_append_of_dropWord hdrop
    have hword : (Separator.words [word]).isWord front := by
      rw [isWord, hfront]
      rfl
    obtain ⟨hne, hall, -⟩ := Separator.of_isWord hsep hword
    have hcount : (front ++ rest).length - rest.length = front.length := by
      rw [List.length_append, Nat.add_sub_cancel]
    simp only [hcount, List.take_left, isBoundary_head?_eq hne hall,
      isBoundary_getLast?_eq hne hall, Option.ite_none_right_eq_some, Bool.and_eq_true,
      Bool.not_eq_true'] at h
    obtain ⟨⟨hbefore, hrest⟩, hn⟩ := h
    have hn : front.length = n := Option.some.inj hn
    rw [leadingWord_eq hall hrest]
    exact ⟨hbefore, hword, hn.symm⟩

theorem Separator.length?_of_isWord {sep : Separator} (hsep : sep.isRegular) {cs : List Char}
    {before : Option Char} (hbefore : before.any Text.isWordChar = false)
    (h : sep.isWord (leadingWord cs)) : sep.length? before cs = some (leadingWord cs).length := by
  obtain ⟨hne, hall, word, rfl, hdrop⟩ := Separator.of_isWord hsep h
  have hdrops : dropWords [word] (leadingWord cs ++ behindWord cs) = some (behindWord cs) :=
    dropWord_append hdrop _
  have hstart : isBoundary before (leadingWord cs ++ behindWord cs).head? := by
    rw [isBoundary_head?_eq hne hall, hbefore]
    rfl
  have hend : isBoundary (leadingWord cs).getLast? (behindWord cs).head? := by
    rw [isBoundary_getLast?_eq hne hall, any_head?_behindWord]
    rfl
  have hmatch := Separator.length?_words hdrops hstart hend
  rwa [leadingWord_append_behindWord] at hmatch

/-- Where a name can be cut: in front of a run of word characters that is a separator. -/
theorem separatorLength?_of_names {cs : List Char} (hcs : cs.all isNameChar)
    (before : Option Char) :
    separatorLength? before cs =
      if !before.any Text.isWordChar && isSeparatorWord (leadingWord cs)
      then some (leadingWord cs).length else none := by
  have hsome {n : Nat} (h : separatorLength? before cs = some n) :
      (before.any Text.isWordChar = false ∧ isSeparatorWord (leadingWord cs)) ∧
        n = (leadingWord cs).length := by
    obtain ⟨sep, hmem, hlength⟩ := List.exists_of_findSome?_eq_some h
    obtain ⟨hbefore, hword, hn⟩ :=
      Separator.of_length?_eq_some (isRegular_of_mem_separators sep hmem) hcs hlength
    exact ⟨⟨hbefore, List.any_eq_true.2 ⟨sep, hmem, hword⟩⟩, hn⟩
  cases h : separatorLength? before cs with
  | some n =>
    obtain ⟨hcut, rfl⟩ := hsome h
    rw [hcut.1, hcut.2]
    rfl
  | none =>
    refine (if_neg fun hcut => ?_).symm
    rw [Bool.and_eq_true, Bool.not_eq_true'] at hcut
    obtain ⟨sep, hmem, hword⟩ := List.any_eq_true.1 hcut.2
    have hlength := Separator.length?_of_isWord (isRegular_of_mem_separators sep hmem) hcut.1 hword
    have hnone := List.findSome?_eq_none_iff.1 h sep hmem
    rw [hlength] at hnone
    cases hnone

/-! ### Words of a name -/

/-- The runs of word characters of a text, with an empty one between neighbours that are none. -/
def wordRuns (cs : List Char) : List (List Char) :=
  cs.splitOnP (!Text.isWordChar ·)

/-- The runs that begin in a text, which stands behind a character. -/
def wordRunsBehind (before : Option Char) (cs : List Char) : List (List Char) :=
  if before.any Text.isWordChar then (wordRuns cs).tail else wordRuns cs

theorem wordRuns_eq_cons (cs : List Char) : wordRuns cs = leadingWord cs :: (wordRuns cs).tail := by
  unfold wordRuns leadingWord
  induction cs with
  | nil => rfl
  | cons c cs ih =>
    rw [List.splitOnP_cons_eq_if_modifyHead]
    split
    · next hc =>
      rw [List.takeWhile_cons_of_neg (by simpa using hc)]
      rfl
    · next hc =>
      rw [List.takeWhile_cons_of_pos (by simpa using hc), ih]
      rfl

theorem tail_wordRuns_cons (c : Char) (cs : List Char) :
    (wordRuns (c :: cs)).tail = wordRunsBehind (some c) cs := by
  unfold wordRunsBehind wordRuns
  rw [List.splitOnP_cons_eq_if_modifyHead, Option.any_some]
  cases hc : Text.isWordChar c with
  | false => rfl
  | true => simp

theorem wordRuns_of_all {cs : List Char} (h : cs.all Text.isWordChar) : wordRuns cs = [cs] :=
  List.splitOnP_eq_singleton fun c hc => by simp [List.all_eq_true.1 h c hc]

/-- The runs that begin in a text are the one at its start, where it is not the end of a longer one,
and those that begin behind its first character. -/
theorem mem_wordRunsBehind_iff {before : Option Char} {c : Char} {cs word : List Char} :
    word ∈ wordRunsBehind before (c :: cs) ↔
      (before.any Text.isWordChar = false ∧ word = leadingWord (c :: cs)) ∨
      word ∈ wordRunsBehind (some c) cs := by
  rw [← tail_wordRuns_cons]
  unfold wordRunsBehind
  cases before.any Text.isWordChar with
  | true => simp
  | false =>
    rw [if_neg (by simp), wordRuns_eq_cons]
    simp

/-! ### Fragments of a name -/

/-- A separator at the start of a name is cut off. -/
theorem cut_of_isSeparatorWord {before : Option Char} {word rest : List Char}
    (hcs : (word ++ rest).all isNameChar) (hbefore : before.any Text.isWordChar = false)
    (hrest : rest.head?.any Text.isWordChar = false) (h : isSeparatorWord word)
    (gap : List Char) :
    cut before gap (word ++ rest) = gap.reverse :: word :: cut word.getLast? [] rest := by
  have hlength : separatorLength? before (word ++ rest) = some word.length := by
    rw [separatorLength?_of_names hcs, leadingWord_eq (of_isSeparatorWord h).2 hrest,
      hbefore, h]
    rfl
  obtain ⟨c, letters, rfl⟩ := List.exists_cons_of_ne_nil (of_isSeparatorWord h).1
  exact cut_of_some hlength gap

/-- A name none of whose runs of word characters is a separator is not cut. -/
theorem cut_eq_of_names {before : Option Char} {gap cs : List Char} (hcs : cs.all isNameChar)
    (h : ∀ word ∈ wordRunsBehind before cs, isSeparatorWord word = false) :
    cut before gap cs = [gap.reverse ++ cs] := by
  induction cs generalizing before gap with
  | nil => simp [cut]
  | cons c cs ih =>
    have hnone : separatorLength? before (c :: cs) = none := by
      rw [separatorLength?_of_names hcs]
      refine if_neg fun hcut => ?_
      rw [Bool.and_eq_true, Bool.not_eq_true'] at hcut
      have hfirst := h _ (mem_wordRunsBehind_iff.2 (.inl ⟨hcut.1, rfl⟩))
      rw [hcut.2] at hfirst
      cases hfirst
    rw [List.all_cons, Bool.and_eq_true] at hcs
    have hrest : ∀ word ∈ wordRunsBehind (some c) cs, isSeparatorWord word = false :=
      fun word hword => h word (mem_wordRunsBehind_iff.2 (.inr hword))
    rw [cut_of_none hnone, ih hcs.2 hrest]
    simp

/-- A name one of whose runs of word characters is a separator is cut there. -/
theorem exists_mem_cut_of_names (before : Option Char) (gap : List Char) {cs word : List Char}
    (hcs : cs.all isNameChar) (hmem : word ∈ wordRunsBehind before cs)
    (hword : isSeparatorWord word) : ∃ frag ∈ cut before gap cs, isSeparatorWord frag := by
  induction cs generalizing before gap with
  | nil =>
    have hnil : word = [] := by
      unfold wordRunsBehind at hmem
      split at hmem
      · exact absurd hmem List.not_mem_nil
      · exact List.mem_singleton.1 hmem
    exact absurd hnil (of_isSeparatorWord hword).1
  | cons c cs ih =>
    by_cases hcut : before.any Text.isWordChar = false ∧ isSeparatorWord (leadingWord (c :: cs))
    · refine ⟨leadingWord (c :: cs), ?_, hcut.2⟩
      have hcutoff := cut_of_isSeparatorWord (by rwa [leadingWord_append_behindWord]) hcut.1
        (any_head?_behindWord (c :: cs)) hcut.2 gap
      rw [leadingWord_append_behindWord] at hcutoff
      rw [hcutoff]
      exact List.mem_cons_of_mem _ List.mem_cons_self
    · have hnone : separatorLength? before (c :: cs) = none := by
        rw [separatorLength?_of_names hcs]
        exact if_neg (by simpa using hcut)
      rw [cut_of_none hnone]
      rw [List.all_cons, Bool.and_eq_true] at hcs
      rcases mem_wordRunsBehind_iff.1 hmem with ⟨hbefore, rfl⟩ | hmem
      · exact absurd ⟨hbefore, hword⟩ hcut
      · exact ih _ _ hcs.2 hmem

/-! ### Tokens of a name -/

theorem trim_of_names {cs : List Char} (hcs : cs.all isNameChar) : Text.trim cs = cs :=
  Text.trim_of_not_blank fun c hc => isBlank_of_isNameChar (List.all_eq_true.1 hcs c hc)

/-- No quotation begins in a name, so only the empty fragments are dropped. -/
theorem joinQuotes_of_names {frags : List (List Char)} (h : ∀ frag ∈ frags, frag.all isNameChar) :
    joinQuotes none frags = .ok (frags.filter (!·.isEmpty)) := by
  induction frags with
  | nil => rfl
  | cons frag frags ih =>
    have hrest := ih fun other hother => h other (List.mem_cons_of_mem _ hother)
    have hfrag := h frag List.mem_cons_self
    rw [joinQuotes, trim_of_names hfrag]
    cases frag with
    | nil => exact hrest
    | cons c frag =>
      have hc := isQuote_of_isNameChar (List.all_eq_true.1 hfrag c List.mem_cons_self)
      simp only [hc, Bool.false_and, hrest]
      rfl

theorem flatten_fragments (cs : List Char) : (fragments cs).flatten = cs :=
  flatten_cut none [] cs

/-- The tokens of a name are its fragments. -/
theorem tokenize_of_names {s : String} (hs : s.toList.all isNameChar) :
    tokenize s = .ok (((fragments s.toList).filter (!·.isEmpty)).map fun cs =>
      ⟨String.ofList cs, TokenKind.ofChars cs⟩) := by
  have hfrags : ∀ frag ∈ fragments s.toList, frag.all isNameChar := by
    intro frag hfrag
    rw [← flatten_fragments s.toList, List.all_flatten] at hs
    exact List.all_eq_true.1 hs frag hfrag
  have htrim : ((fragments s.toList).filter (!·.isEmpty)).map Text.trim =
      (fragments s.toList).filter (!·.isEmpty) := by
    rw [List.map_congr_left (g := id), List.map_id]
    exact fun frag hfrag => trim_of_names (hfrags frag (List.mem_filter.1 hfrag).1)
  rw [tokenize, joinQuotes_of_names hfrags, Except.map, htrim, List.filter_filter]
  simp only [Bool.and_self]

/-- A name has one fragment that is not empty exactly if none of its runs of word characters is a
separator, unless it is the whole name. -/
theorem filter_fragments_eq_iff {cs : List Char} (hne : cs ≠ []) (hcs : cs.all isNameChar) :
    (fragments cs).filter (!·.isEmpty) = [cs] ↔
      ∀ word ∈ wordRuns cs, isSeparatorWord word → word = cs := by
  have hnonempty : cs.isEmpty = false := by simpa using hne
  constructor
  · intro hfrags word hmem hword
    obtain ⟨frag, hfrag, hseparator⟩ :=
      exists_mem_cut_of_names none [] hcs hmem hword
    have hfilter : frag ∈ (fragments cs).filter (!·.isEmpty) :=
      List.mem_filter.2 ⟨hfrag, by simpa using (of_isSeparatorWord hseparator).1⟩
    rw [hfrags] at hfilter
    obtain rfl := List.mem_singleton.1 hfilter
    rw [wordRuns_of_all (of_isSeparatorWord hseparator).2] at hmem
    exact List.mem_singleton.1 hmem
  · intro hwords
    by_cases hseparator : isSeparatorWord cs
    · have hcut : cut none [] (cs ++ []) = [] :: cs :: cut cs.getLast? [] [] :=
        cut_of_isSeparatorWord (by rwa [List.append_nil]) rfl rfl hseparator []
      rw [List.append_nil] at hcut
      rw [fragments, hcut]
      simp [cut, hnonempty]
    · have hnone : ∀ word ∈ wordRunsBehind none cs, isSeparatorWord word = false := by
        intro word hmem
        refine eq_false_of_ne_true fun hword => hseparator ?_
        exact hwords word hmem hword ▸ hword
      rw [fragments, cut_eq_of_names hcs hnone]
      simp [hnonempty]

/-- An identifier that stands for a variable has tokens that make it up, and it is one token exactly
if none of its runs of word characters is a separator, unless it is the whole identifier. -/
theorem tokenize_identifier {w : String} (hshape : isIdentifier w.toList)
    (hkind : TokenKind.ofText w = .variable) :
    ∃ tokens, tokenize w = .ok tokens ∧ tokens.flatMap (·.text.toList) = w.toList ∧
      (tokens = [⟨w, .variable⟩] ↔
        ∀ word ∈ wordRuns w.toList, isSeparatorWord word → word = w.toList) := by
  obtain ⟨hne, hnames⟩ := all_isNameChar_of_isIdentifier hshape
  refine ⟨_, tokenize_of_names hnames, ?_, ?_⟩
  · simp only [List.flatMap_map, String.toList_ofList]
    rw [List.flatMap_id', List.flatten_filter_not_isEmpty, flatten_fragments]
  · rw [← filter_fragments_eq_iff hne hnames, List.map_eq_singleton_iff]
    constructor
    · rintro ⟨cs, hcs, htoken⟩
      have htext : String.ofList cs = w := congrArg Token.text htoken
      rw [hcs, ← htext, String.toList_ofList]
    · intro hfrags
      have hkind : TokenKind.ofChars w.toList = .variable := hkind
      exact ⟨w.toList, hfrags, by rw [hkind, String.ofList_toList]⟩

/-- A path of names with hyphens and underscores. -/
theorem tokenize_identifier_path :
    isIdentifier "user-data.first_name".toList ∧
    TokenKind.ofText "user-data.first_name" = .variable ∧
    tokenize "user-data.first_name" = .ok [⟨"user-data.first_name", .variable⟩] := by
  have hshape : isIdentifier "user-data.first_name".toList := by decide
  have hkind : TokenKind.ofText "user-data.first_name" = .variable := by decide
  obtain ⟨tokens, htokens, -, hwhole⟩ := tokenize_identifier hshape hkind
  have hwords : ∀ word ∈ wordRuns "user-data.first_name".toList, isSeparatorWord word →
      word = "user-data.first_name".toList := by decide
  exact ⟨hshape, hkind, by rw [htokens, hwhole.2 hwords]⟩

/-- A path with the name of an aggregator for a step is cut in front of it. -/
theorem tokenize_identifier_not_of_aggregator :
    ¬ ∀ w, isIdentifier w.toList → TokenKind.ofText w = .variable →
      tokenize w = .ok [⟨w, .variable⟩] := by
  intro hwhole
  have htoken := hwhole "user.first" (by decide) (by decide)
  have hcut : (tokenize "user.first").toOption =
      some [⟨"user.", .variable⟩, ⟨"first", .aggregator⟩] := by decide +kernel
  rw [htoken] at hcut
  exact absurd hcut (by decide)

end RecordFlow.Query
