import RecordFlow.Query.TokenStream

/-!
# How expressions are cut

The characters in front of a text often rule a separator out, or decide that it matches, whatever
follows (`separatorLength?_eq_none`, `separatorLength?_eq_some`). Cutting loses nothing
(`flatten_cut`), and a quoted literal that has been cut comes together again
(`joinQuotes_literal_append`).
-/

namespace RecordFlow.Query

/-! ### Separators at the start of a text -/

/-- Two texts differ in a character that both of them have. -/
def clashes (same : Char → Char → Bool) : List Char → List Char → Bool
  | a :: as, b :: bs => !same a b || clashes same as bs
  | _, _ => false

/-- The separator stands at the start of no text that begins with these characters. -/
def Separator.rejects (front : List Char) : Separator → Bool
  | .sign mark => clashes (· == ·) mark front
  | .words parts => clashes standsFor (parts.headD []) front

theorem isPrefixOf_of_clashes {mark front : List Char} (h : clashes (· == ·) mark front)
    (rest : List Char) : mark.isPrefixOf (front ++ rest) = false := by
  induction mark generalizing front with
  | nil => cases front <;> cases h
  | cons a as ih =>
    cases front with
    | nil => cases h
    | cons b bs =>
      rw [clashes, Bool.or_eq_true, Bool.not_eq_true'] at h
      rw [List.cons_append, List.isPrefixOf_cons_cons, Bool.and_eq_false_iff]
      exact h.imp_right ih

theorem dropWord_of_clashes {word front : List Char} (h : clashes standsFor word front)
    (rest : List Char) : dropWord word (front ++ rest) = none := by
  induction word generalizing front with
  | nil => cases front <;> cases h
  | cons a as ih =>
    cases front with
    | nil => cases h
    | cons b bs =>
      rw [clashes, Bool.or_eq_true, Bool.not_eq_true'] at h
      rw [List.cons_append, dropWord]
      by_cases hab : standsFor a b
      · rw [if_pos hab]
        exact ih (h.resolve_left (by simp [hab]))
      · rw [if_neg hab]

theorem Separator.length?_of_rejects {sep : Separator} {front : List Char}
    (h : sep.rejects front) (before : Option Char) (rest : List Char) :
    sep.length? before (front ++ rest) = none := by
  cases sep with
  | sign mark =>
    rw [Separator.length?, isPrefixOf_of_clashes h, if_neg Bool.false_ne_true]
  | words parts =>
    have hdrop : dropWords parts (front ++ rest) = none := by
      match parts with
      | [] => cases front <;> cases h
      | [word] => exact dropWord_of_clashes h rest
      | word :: next :: parts =>
        have hword : dropWord word (front ++ rest) = none := dropWord_of_clashes h rest
        rw [dropWords, hword]
        · rfl
        · simp
    rw [Separator.length?, hdrop]
    rfl

/-- No separator matches where all are ruled out. -/
theorem separatorLength?_eq_none {front : List Char} (h : separators.all (·.rejects front))
    (before : Option Char) (rest : List Char) :
    separatorLength? before (front ++ rest) = none := by
  rw [separatorLength?, List.findSome?_eq_none_iff]
  intro sep hsep
  exact Separator.length?_of_rejects (List.all_eq_true.1 h sep hsep) before rest

/-- The first separator that is not ruled out is the one that matches, if it matches. -/
theorem separatorLength?_eq_some {front rest : List Char} {before : Option Char} {n : Nat}
    {sep : Separator} (hfirst : separators.find? (!·.rejects front) = some sep)
    (hmatch : sep.length? before (front ++ rest) = some n) :
    separatorLength? before (front ++ rest) = some n := by
  obtain ⟨-, earlier, later, hsplit, hearlier⟩ := List.find?_eq_some_iff_append.1 hfirst
  have hnone : earlier.findSome? (·.length? before (front ++ rest)) = none := by
    rw [List.findSome?_eq_none_iff]
    intro other hother
    exact Separator.length?_of_rejects (by simpa using hearlier other hother) before rest
  rw [separatorLength?, hsplit, List.findSome?_append, hnone, List.findSome?_cons, hmatch]
  rfl

/-- Words that stand between boundaries match. -/
theorem Separator.length?_words {parts : List (List Char)} {cs rest : List Char}
    {before : Option Char} (hdrop : dropWords parts (cs ++ rest) = some rest)
    (hbefore : isBoundary before (cs ++ rest).head?)
    (hbehind : isBoundary cs.getLast? rest.head?) :
    (Separator.words parts).length? before (cs ++ rest) = some cs.length := by
  have hcount : (cs ++ rest).length - rest.length = cs.length := by
    rw [List.length_append, Nat.add_sub_cancel]
  simp only [Separator.length?, hdrop, Option.bind_eq_bind, Option.bind_some, hcount,
    List.take_left, hbefore, hbehind, Bool.and_self, if_true]

/-! ### Cutting -/

theorem cut_of_none {before : Option Char} {c : Char} {rest : List Char}
    (h : separatorLength? before (c :: rest) = none) (gap : List Char) :
    cut before gap (c :: rest) = cut (some c) (c :: gap) rest := by
  rw [cut, h]

theorem cut_of_some {before : Option Char} {c : Char} {sep rest : List Char}
    (h : separatorLength? before ((c :: sep) ++ rest) = some (c :: sep).length)
    (gap : List Char) :
    cut before gap ((c :: sep) ++ rest) =
      gap.reverse :: (c :: sep) :: cut (c :: sep).getLast? [] rest := by
  rw [List.cons_append, cut, ← List.cons_append, h]
  simp

/-- The fragments of a text make up the text. -/
theorem flatten_cut (before : Option Char) (gap cs : List Char) :
    (cut before gap cs).flatten = gap.reverse ++ cs := by
  fun_induction cut before gap cs with
  | case1 before gap => simp
  | case2 before gap c rest h ih => simp [ih]
  | case3 before gap c rest count h separator ih => simp [separator, ih]

/-- The first fragment begins with the gap that has been read. -/
theorem exists_cut_eq_cons (before : Option Char) (gap cs : List Char) :
    ∃ more frags, cut before gap cs = (gap.reverse ++ more) :: frags := by
  fun_induction cut before gap cs with
  | case1 before gap => exact ⟨[], [], by simp⟩
  | case2 before gap c rest h ih =>
    obtain ⟨more, frags, hcut⟩ := ih
    exact ⟨c :: more, frags, by simpa using hcut⟩
  | case3 before gap c rest count h separator ih => exact ⟨[], _, by simp; rfl⟩

/-! ### White space at the ends -/

theorem trimStart_append_cons {c : Char} (h : Text.isBlank c = false) (cs rest : List Char) :
    Text.trimStart (cs ++ c :: rest) = Text.trimStart cs ++ c :: rest := by
  unfold Text.trimStart
  rw [List.dropWhile_append]
  split
  · next hempty => simp [h, List.isEmpty_iff.1 hempty]
  · rfl

theorem trimEnd_concat {c : Char} (h : Text.isBlank c = false) (cs : List Char) :
    Text.trimEnd (cs ++ [c]) = cs ++ [c] := by
  simp [Text.trimEnd, h]

/-- What ends in a character that is not blank is trimmed in front only. -/
theorem trim_concat {c : Char} (h : Text.isBlank c = false) (cs : List Char) :
    Text.trim (cs ++ [c]) = Text.trimStart cs ++ [c] := by
  rw [Text.trim, trimStart_append_cons h, trimEnd_concat h]

theorem trimEnd_cons {c : Char} (h : Text.isBlank c = false) (cs : List Char) :
    Text.trimEnd (c :: cs) = c :: Text.trimEnd cs := by
  unfold Text.trimEnd
  rw [List.reverse_cons, List.dropWhile_append]
  split
  · next hempty => simp [h, List.isEmpty_iff.1 hempty]
  · simp

/-- What begins with white space and a character that is not blank is trimmed up to it. -/
theorem trim_append_cons {gap : List Char} (hgap : gap.all Text.isBlank) {c : Char}
    (h : Text.isBlank c = false) (cs : List Char) :
    Text.trim (gap ++ c :: cs) = c :: Text.trimEnd cs := by
  have hstart : Text.trimStart (gap ++ c :: cs) = c :: cs := by
    rw [Text.trimStart, List.dropWhile_append_of_pos (List.all_eq_true.1 hgap),
      List.dropWhile_cons_of_neg (by simp [h])]
  rw [Text.trim, hstart, trimEnd_cons h]

theorem mem_of_mem_trimEnd {c : Char} {cs : List Char} (h : c ∈ Text.trimEnd cs) : c ∈ cs := by
  rw [Text.trimEnd, List.mem_reverse] at h
  exact List.mem_reverse.1 ((List.dropWhile_sublist _).mem h)

theorem mem_of_mem_trim {c : Char} {cs : List Char} (h : c ∈ Text.trim cs) : c ∈ cs :=
  (List.dropWhile_sublist _).mem (mem_of_mem_trimEnd h)

/-! ### Quoted literals -/

theorem joinQuotes_append_of_flatten_eq_nil {frags : List (List Char)} (h : frags.flatten = [])
    (more : List (List Char)) : joinQuotes none (frags ++ more) = joinQuotes none more := by
  induction frags with
  | nil => rfl
  | cons frag frags ih =>
    rw [List.flatten_cons, List.append_eq_nil_iff] at h
    obtain ⟨rfl, hfrags⟩ := h
    rw [List.cons_append, joinQuotes]
    exact ih hfrags

/-- Two texts that end in the same mark, in front of which it does not occur, are split alike. -/
theorem append_eq_concat {a b u : List Char} {mark : Char} (hu : mark ∉ u)
    (h : a ++ b = u ++ [mark]) :
    (b = [] ∧ a = u ++ [mark]) ∨ ∃ v, mark ∉ a ∧ mark ∉ v ∧ u = a ++ v ∧ b = v ++ [mark] := by
  rcases List.append_eq_append_iff.1 h with ⟨v, rfl, hb⟩ | ⟨v, rfl, hb⟩
  · rw [List.mem_append, not_or] at hu
    exact .inr ⟨v, hu.1, hu.2, rfl, hb⟩
  · cases v with
    | nil =>
      rw [List.append_nil] at *
      exact .inr ⟨[], hu, by simp, (List.append_nil _).symm, hb.symm⟩
    | cons d v =>
      obtain ⟨rfl, hnil⟩ := List.cons.inj hb
      obtain ⟨rfl, rfl⟩ := List.append_eq_nil_iff.1 hnil.symm
      exact .inl ⟨rfl, rfl⟩

/-- A quotation takes in all fragments up to the one that ends with its mark. -/
theorem joinQuotes_some_append {mark : Char} (hblank : Text.isBlank mark = false)
    {frags : List (List Char)} {u : List Char} (hu : mark ∉ u)
    (h : frags.flatten = u ++ [mark]) (text : List Char) (more : List (List Char)) :
    joinQuotes (some ⟨mark, text⟩) (frags ++ more) =
      (joinQuotes none more).map ((text ++ (u ++ [mark])) :: ·) := by
  induction frags generalizing u text with
  | nil => simp at h
  | cons frag frags ih =>
    rw [List.flatten_cons] at h
    rcases append_eq_concat hu h with ⟨hfrags, rfl⟩ | ⟨v, hfrag, hv, rfl, hfrags⟩
    · have hlast : (Text.trim (u ++ [mark])).getLast? = some mark := by
        rw [trim_concat hblank, List.getLast?_concat]
      rw [List.cons_append, joinQuotes, hlast, if_pos (by simp),
        joinQuotes_append_of_flatten_eq_nil hfrags]
    · have hlast : (Text.trim frag).getLast? ≠ some mark := fun hlast =>
        hfrag (mem_of_mem_trim (List.mem_of_getLast? hlast))
      rw [List.cons_append, joinQuotes, if_neg (by simpa using hlast)]
      simpa using ih hv hfrags (text ++ frag)

/-- A literal between marks, with white space in front of it, is put together again however it has
been cut behind its first mark. -/
theorem joinQuotes_literal_append {mark : Char} (hblank : Text.isBlank mark = false)
    (hquote : isQuote mark) {gap : List Char} (hgap : gap.all Text.isBlank)
    {frags : List (List Char)} {front u : List Char} (hu : mark ∉ u)
    (h : ((gap ++ mark :: front) :: frags).flatten = gap ++ mark :: (u ++ [mark]))
    (more : List (List Char)) :
    joinQuotes none ((gap ++ mark :: front) :: (frags ++ more)) =
      (joinQuotes none more).map ((gap ++ mark :: (u ++ [mark])) :: ·) := by
  have hstart (cs : List Char) : Text.trim (gap ++ mark :: cs) = mark :: Text.trimEnd cs :=
    trim_append_cons hgap hblank cs
  have hflatten : front ++ frags.flatten = u ++ [mark] := by simpa using h
  rcases append_eq_concat hu hflatten with ⟨hfrags, rfl⟩ | ⟨v, hfront, hv, rfl, hfrags⟩
  · rw [joinQuotes, hstart, trimEnd_concat hblank]
    simp [joinQuotes_append_of_flatten_eq_nil hfrags]
  · have hlast : (Text.trimEnd front).getLast? ≠ some mark := fun hlast =>
      hfront (mem_of_mem_trimEnd (List.mem_of_getLast? hlast))
    have hopen := joinQuotes_some_append hblank hv hfrags (gap ++ mark :: front) more
    rw [joinQuotes, hstart]
    simp [hquote, hlast, hopen]

end RecordFlow.Query
