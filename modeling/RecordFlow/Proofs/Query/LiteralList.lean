import RecordFlow.Proofs.Query.Identifiers
import RecordFlow.Proofs.Query.Lexemes
import RecordFlow.Proofs.Query.QuotedLiteral

/-!
# Lists of quoted literals

No separator holds a quotation mark, and so none reaches from inside of a literal past its end
(`separatorLength?_le`): the mark stays in a gap, however the literal has been cut in front of it
(`exists_cut_append_mark`). In a list the comma or bracket behind the mark is the next separator, the
fragments of the literal come together again, and the next literal is read as if it were the first
(`lexemes_literal`). So a list of literals has the tokens that it is written with
(`tokenize_listQuery`).
-/

namespace RecordFlow.Query

/-! ### Characters that no separator holds -/

/-- The character stands nowhere in the separator. -/
def Separator.lacks (mark : Char) : Separator → Bool
  | .sign cs => !cs.contains mark
  | .words parts => parts.all (·.all (!standsFor · mark))

section Mark

variable {mark : Char}

theorem not_mem_of_dropWord {word front : List Char} (hword : word.all (!standsFor · mark))
    (h : dropWord word front = some []) : mark ∉ front := by
  fun_induction dropWord word front with
  | case1 cs =>
    obtain rfl := Option.some.inj h
    exact List.not_mem_nil
  | case2 => cases h
  | case3 letter word c cs hstands ih =>
    rw [List.all_cons, Bool.and_eq_true] at hword
    have hne : mark ≠ c := by
      rintro rfl
      simp [hstands] at hword
    exact List.not_mem_cons_of_ne_of_not_mem hne (ih hword.2 h)
  | case4 => cases h

/-- What lacks a character at the start of a text ends in front of the character. -/
theorem exists_of_append_eq_append_mark {front rest u tail : List Char} (hfront : mark ∉ front)
    (h : u ++ mark :: tail = front ++ rest) :
    ∃ v, front ++ v = u ∧ rest = v ++ mark :: tail := by
  rcases List.append_eq_append_iff.1 h with ⟨v, rfl, hrest⟩ | ⟨v, hu, hrest⟩
  · cases v with
    | nil => exact ⟨[], by simp, hrest.symm⟩
    | cons c v =>
      obtain ⟨rfl, -⟩ := List.cons.inj hrest
      exact absurd (by simp) hfront
  · exact ⟨v, hu.symm, hrest⟩

theorem exists_of_dropWord_append_mark {word u tail rest : List Char}
    (hword : word.all (!standsFor · mark)) (h : dropWord word (u ++ mark :: tail) = some rest) :
    ∃ v, v <:+ u ∧ rest = v ++ mark :: tail := by
  obtain ⟨front, hsplit, hfront⟩ := exists_append_of_dropWord h
  obtain ⟨v, hu, hrest⟩ :=
    exists_of_append_eq_append_mark (not_mem_of_dropWord hword hfront) hsplit
  exact ⟨v, ⟨front, hu⟩, hrest⟩

theorem exists_of_dropWords_append_mark (hblank : Text.isBlank mark = false)
    {parts : List (List Char)} {u tail rest : List Char}
    (hparts : parts.all (·.all (!standsFor · mark)))
    (h : dropWords parts (u ++ mark :: tail) = some rest) :
    ∃ v, v <:+ u ∧ rest = v ++ mark :: tail := by
  induction parts generalizing u with
  | nil =>
    obtain rfl := Option.some.inj h
    exact ⟨u, List.suffix_rfl, rfl⟩
  | cons word parts ih =>
    rw [List.all_cons, Bool.and_eq_true] at hparts
    cases parts with
    | nil => exact exists_of_dropWord_append_mark hparts.1 h
    | cons next parts =>
      rw [dropWords.eq_3 _ _ _ (by simp)] at h
      obtain ⟨behind, hword, h⟩ := Option.bind_eq_some_iff.1 h
      obtain ⟨v, hv, rfl⟩ := exists_of_dropWord_append_mark hparts.1 hword
      obtain ⟨-, h⟩ := Option.ite_none_right_eq_some.1 h
      rw [trimStart_append_cons hblank] at h
      obtain ⟨w, hw, hrest⟩ := ih hparts.2 h
      exact ⟨w, (hw.trans (List.dropWhile_suffix _)).trans hv, hrest⟩

/-- No separator goes past a character that it lacks. -/
theorem Separator.length?_le (hblank : Text.isBlank mark = false) {sep : Separator}
    (hsep : sep.lacks mark) {before : Option Char} {u tail : List Char} {n : Nat}
    (h : sep.length? before (u ++ mark :: tail) = some n) : n ≤ u.length := by
  cases sep with
  | sign cs =>
    obtain ⟨hstart, hn⟩ := Option.ite_none_right_eq_some.1 h
    obtain rfl := Option.some.inj hn
    obtain ⟨rest, hsplit⟩ := List.isPrefixOf_iff_prefix.1 hstart
    have hmark : mark ∉ cs := by simpa [lacks] using hsep
    obtain ⟨v, rfl, -⟩ := exists_of_append_eq_append_mark hmark hsplit.symm
    simp
  | words parts =>
    obtain ⟨rest, hdrop, h⟩ := Option.bind_eq_some_iff.1 h
    obtain ⟨-, hn⟩ := Option.ite_none_right_eq_some.1 h
    obtain ⟨v, -, rfl⟩ := exists_of_dropWords_append_mark hblank hsep hdrop
    have hn : (u ++ mark :: tail).length - (v ++ mark :: tail).length = n := Option.some.inj hn
    rw [List.length_append, List.length_append] at hn
    omega

theorem separatorLength?_le (hblank : Text.isBlank mark = false)
    (hlacks : separators.all (·.lacks mark)) {before : Option Char} {u tail : List Char} {n : Nat}
    (h : separatorLength? before (u ++ mark :: tail) = some n) : n ≤ u.length := by
  obtain ⟨sep, hmem, hlength⟩ := List.exists_of_findSome?_eq_some h
  exact Separator.length?_le hblank (List.all_eq_true.1 hlacks sep hmem) hlength

/-- However the text in front of such a character is cut, the character stays in a gap. -/
theorem exists_cut_append_mark (hblank : Text.isBlank mark = false)
    (hlacks : separators.all (·.lacks mark)) (hrejects : separators.all (·.rejects [mark]))
    (before : Option Char) (gap u tail : List Char) :
    ∃ frags front, frags.flatten ++ front.reverse = gap.reverse ++ u ∧
      cut before gap (u ++ mark :: tail) = frags ++ cut (some mark) (mark :: front) tail := by
  generalize hcs : u ++ mark :: tail = cs
  fun_induction cut before gap cs generalizing u with
  | case1 before gap => simp at hcs
  | case2 before gap c rest h ih =>
    cases u with
    | nil =>
      obtain ⟨rfl, rfl⟩ := List.cons.inj hcs
      exact ⟨[], gap, by simp, rfl⟩
    | cons d u =>
      obtain ⟨rfl, rfl⟩ := List.cons.inj hcs
      obtain ⟨frags, front, hflatten, hcut⟩ := ih u rfl
      exact ⟨frags, front, by simpa using hflatten, hcut⟩
  | case3 before gap c rest count h separator ih =>
    cases u with
    | nil =>
      have hnone := separatorLength?_eq_none hrejects before tail
      rw [List.singleton_append, show mark :: tail = c :: rest from hcs, h] at hnone
      cases hnone
    | cons d u =>
      obtain ⟨rfl, rfl⟩ := List.cons.inj hcs
      have hcount : count ≤ (d :: u).length := separatorLength?_le hblank hlacks h
      have hle : count - 1 ≤ u.length := by
        rw [List.length_cons] at hcount
        omega
      have htake : separator = d :: u.take (count - 1) :=
        congrArg (d :: ·) (List.take_append_of_le_length hle)
      obtain ⟨frags, front, hflatten, hcut⟩ :=
        ih (u.drop (count - 1)) (List.drop_append_of_le_length hle).symm
      refine ⟨gap.reverse :: separator :: frags, front, ?_, by rw [hcut]; rfl⟩
      have hu : u.take (count - 1) ++ u.drop (count - 1) = u := List.take_append_drop _ u
      simp [htake, hflatten, hu]

end Mark

/-! ### One literal -/

/-- A sign of one character is a separator wherever it stands. -/
theorem cut_sign {c : Char} (h : separators.find? (!·.rejects [c]) = some (.sign [c]))
    (before : Option Char) (gap rest : List Char) :
    cut before gap (c :: rest) = gap.reverse :: [c] :: cut (some c) [] rest := by
  have hmatch : (Separator.sign [c]).length? before ([c] ++ rest) = some 1 := by
    simp [Separator.length?]
  exact cut_of_some (separatorLength?_eq_some h hmatch) gap

/-- Between white space and a sign, a literal is cut anywhere behind its first mark. -/
theorem exists_cut_literal {closing : Char}
    (hclosing : separators.find? (!·.rejects [closing]) = some (.sign [closing]))
    (before : Option Char) (gap u rest : List Char) :
    ∃ more frags, cut before gap ('\'' :: (u ++ '\'' :: closing :: rest)) =
        (gap.reverse ++ '\'' :: more) :: (frags ++ [closing] :: cut (some closing) [] rest) ∧
      ((gap.reverse ++ '\'' :: more) :: frags).flatten =
        gap.reverse ++ '\'' :: (u ++ ['\'']) := by
  have hlacks : separators.all (·.lacks '\'') := by decide
  obtain ⟨frags, front, hflatten, hcut⟩ :=
    exists_cut_append_mark rfl hlacks all_rejects_mark (some '\'') ('\'' :: gap) u (closing :: rest)
  obtain ⟨more, others, hfirst⟩ :=
    exists_cut_eq_cons (some '\'') ('\'' :: gap) (u ++ '\'' :: closing :: rest)
  rw [cut_sign hclosing] at hcut
  have hne : frags ++ [('\'' :: front).reverse] ≠ [] := by simp
  obtain ⟨first, later, hlater⟩ := List.exists_cons_of_ne_nil hne
  have hsame : (('\'' :: gap).reverse ++ more) :: others =
      first :: (later ++ [closing] :: cut (some closing) [] rest) := by
    rw [← hfirst, hcut, ← List.cons_append, ← hlater, List.append_assoc, List.singleton_append]
  obtain ⟨rfl, rfl⟩ := List.cons.inj hsame
  have hbegin : gap.reverse ++ '\'' :: more = ('\'' :: gap).reverse ++ more := by simp
  refine ⟨more, later, ?_, ?_⟩
  · rw [hbegin, cut_pass all_rejects_mark, hfirst]
  · rw [hbegin, ← hlater, List.flatten_concat, List.reverse_cons, ← List.append_assoc, hflatten]
    simp

/-- The characters of a literal. -/
def quotedChars (u : List Char) : List Char :=
  '\'' :: (u ++ ['\''])

/-- A literal in front of a comma or a bracket is one token, and what follows is read as at the
start. -/
theorem lexemes_literal {closing : Char} (hclosing : closing = ',' ∨ closing = ')')
    {gap : List Char} (hgap : gap.all Text.isBlank) {u : List Char} (hu : '\'' ∉ u)
    (before : Option Char) (rest : List Char) :
    lexemes none (cut before gap ('\'' :: (u ++ '\'' :: closing :: rest))) =
      (lexemes none (cut (some closing) [] rest)).map fun later =>
        quotedChars u :: [closing] :: later := by
  have hfind : separators.find? (!·.rejects [closing]) = some (.sign [closing]) := by
    rcases hclosing with rfl | rfl <;> rfl
  have hreverse : gap.reverse.all Text.isBlank := by rwa [List.all_reverse]
  obtain ⟨more, frags, hcut, hflatten⟩ := exists_cut_literal hfind before gap u rest
  have hjoin := joinQuotes_literal_append rfl rfl hreverse hu hflatten
    ([closing] :: cut (some closing) [] rest)
  have htrim : [Text.trim (gap.reverse ++ '\'' :: (u ++ ['\'']))].filter (!·.isEmpty) =
      [quotedChars u] := by
    rw [trim_append_cons hreverse rfl, trimEnd_concat rfl]
    rfl
  have hsign (later : List (List Char)) :
      lexemes none ([closing] :: later) = (lexemes none later).map ([closing] :: ·) := by
    rcases hclosing with rfl | rfl <;> exact lexemes_cons_of_plain rfl rfl later
  rw [hcut, lexemes, hjoin, map_joinQuotes_cons, hsign, htrim]
  cases lexemes none (cut (some closing) [] rest) <;> rfl

/-! ### Lists -/

theorem lexemes_cut_nil (before : Option Char) : lexemes none (cut before [] []) = .ok [] := by
  rw [cut]
  rfl

/-- From the first literal on, every literal and every comma is a token. -/
theorem lexemes_literals {u : List Char} {us : List (List Char)} (h : ∀ v ∈ u :: us, '\'' ∉ v)
    {gap : List Char} (hgap : gap.all Text.isBlank) (before : Option Char) :
    lexemes none (cut before gap
        ([',', ' '].intercalate ((u :: us).map quotedChars) ++ [')'])) =
      .ok (((u :: us).map quotedChars).intersperse [','] ++ [[')']]) := by
  have hu : '\'' ∉ u := h u List.mem_cons_self
  induction us generalizing u gap before with
  | nil =>
    have htext : [',', ' '].intercalate ([u].map quotedChars) ++ [')'] =
        '\'' :: (u ++ '\'' :: ')' :: []) := by simp [quotedChars]
    rw [htext, lexemes_literal (.inr rfl) hgap hu before [], lexemes_cut_nil]
    rfl
  | cons v us ih =>
    have htext : [',', ' '].intercalate ((u :: v :: us).map quotedChars) ++ [')'] =
        '\'' :: (u ++ '\'' :: ',' :: ' ' ::
          ([',', ' '].intercalate ((v :: us).map quotedChars) ++ [')'])) := by
      simp [quotedChars, List.intercalate_cons_cons]
    have hspace : [' '].all Text.isBlank := rfl
    have hlater : ∀ w ∈ v :: us, '\'' ∉ w := fun w hw => h w (List.mem_cons_of_mem _ hw)
    rw [htext, lexemes_literal (.inl rfl) hgap hu, cut_pass all_rejects_blank,
      ih hlater hspace (some ' ') (hlater v List.mem_cons_self)]
    rfl

/-- Behind the opening bracket, also where no literal follows. -/
theorem lexemes_behind_bracket {us : List (List Char)} (h : ∀ u ∈ us, '\'' ∉ u) :
    lexemes none (cut (some '(') [] ([',', ' '].intercalate (us.map quotedChars) ++ [')'])) =
      .ok ((us.map quotedChars).intersperse [','] ++ [[')']]) := by
  cases us with
  | nil =>
    have hfind : separators.find? (!·.rejects [')']) = some (.sign [')']) := by rfl
    have hcut : cut (some '(') [] [')'] = [] :: [')'] :: cut (some ')') [] [] := cut_sign hfind _ _ _
    have hempty : [',', ' '].intercalate (List.map quotedChars []) ++ [')'] = [')'] := rfl
    rw [hempty, hcut, lexemes_cons_of_blank rfl, lexemes_cons_of_plain rfl rfl, lexemes_cut_nil]
    rfl
  | cons u us => exact lexemes_literals h rfl (some '(')

/-- The query that looks for `x` among quoted texts. -/
def listQuery (texts : List String) : String :=
  "x IN (" ++ ", ".intercalate (texts.map fun s => "'" ++ s ++ "'") ++ ")"

theorem toList_listQuery (texts : List String) :
    (listQuery texts).toList = 'x' :: ' ' :: (['I', 'N'] ++ ' ' :: '(' ::
      ([',', ' '].intercalate ((texts.map String.toList).map quotedChars) ++ [')'])) := by
  have hquoted : (texts.map fun s => "'" ++ s ++ "'").map String.toList =
      (texts.map String.toList).map quotedChars := by
    simp [quotedChars, Function.comp_def]
  have hcomma : ", ".toList = [',', ' '] := rfl
  simp only [listQuery, String.toList_append, String.toList_intercalate, hquoted, hcomma]
  simp

/-- The query is cut at its operator and at the bracket behind it. -/
theorem fragments_listQuery (texts : List String) :
    fragments (listQuery texts).toList = ['x', ' '] :: ['I', 'N'] :: [' '] :: ['('] ::
      cut (some '(') [] ([',', ' '].intercalate ((texts.map String.toList).map quotedChars) ++
        [')']) := by
  have hname : separators.all (·.rejects ['x']) := by rfl
  have hfind : separators.find? (!·.rejects ['(']) = some (.sign ['(']) := by rfl
  have hsymbol : Operator.isIn.isTextual := rfl
  have hoperator (rest : List Char) : cut (some ' ') [' ', 'x'] (['I', 'N'] ++ ' ' :: rest) =
      ['x', ' '] :: ['I', 'N'] :: cut (some 'N') [] (' ' :: rest) :=
    cut_of_some (separatorLength?_symbol hsymbol rest) [' ', 'x']
  rw [fragments, toList_listQuery, cut_pass hname, cut_pass all_rejects_blank, hoperator,
    cut_pass all_rejects_blank, cut_sign hfind]
  rfl

theorem lexemes_listQuery {texts : List String} (h : ∀ s ∈ texts, '\'' ∉ s.toList) :
    lexemes none (fragments (listQuery texts).toList) =
      .ok (['x'] :: ['I', 'N'] :: ['('] ::
        (((texts.map String.toList).map quotedChars).intersperse [','] ++ [[')']])) := by
  have hchars : ∀ u ∈ texts.map String.toList, '\'' ∉ u := List.forall_mem_map.2 h
  rw [fragments_listQuery, lexemes_cons_of_plain rfl rfl, lexemes_cons_of_plain rfl rfl,
    lexemes_cons_of_blank rfl, lexemes_cons_of_plain rfl rfl, lexemes_behind_bracket hchars]
  rfl

/-! ### Tokens -/

theorem map_intersperse {α β : Type} (f : α → β) (sep : α) (as : List α) :
    (as.intersperse sep).map f = (as.map f).intersperse (f sep) := by
  induction as with
  | nil => rfl
  | cons a as ih =>
    cases as with
    | nil => rfl
    | cons b as =>
      rw [List.intersperse_cons_cons, List.map_cons, List.map_cons, ih]
      simp [List.intersperse_cons_cons]

theorem tokenOf_quotedChars (s : String) : tokenOf (quotedChars s.toList) = literalToken s := by
  have htext : String.ofList (quotedChars s.toList) = (constantToken (.text s)).text := by
    rw [quotedChars, ← toList_constantToken_text, String.ofList_toList]
  rw [tokenOf, htext, quotedChars, ofChars_quoted, literalToken]

/-- A query of quoted texts has the tokens that it is written with, whatever the texts hold but the
quotation mark, and however many there are. The token of a text has the text between marks, gives the
text back without them, and is a date if the text denotes a timestamp. -/
theorem tokenize_listQuery {texts : List String} (h : ∀ s ∈ texts, '\'' ∉ s.toList) :
    tokenize (listQuery texts) =
      .ok (⟨"x", .variable⟩ :: ⟨"IN", .operator⟩ :: ⟨"(", .leftBracket⟩ ::
        ((texts.map literalToken).intersperse ⟨",", .comma⟩ ++ [⟨")", .rightBracket⟩])) ∧
    ∀ s ∈ texts, (literalToken s).text = "'" ++ s ++ "'" ∧ (literalToken s).unquoted = s ∧
      (literalToken s).kind = if (Timestamp.parseIso? s).isSome then .date else .literal := by
  constructor
  · have hsigns : tokenOf ['x'] = ⟨"x", .variable⟩ ∧ tokenOf ['I', 'N'] = ⟨"IN", .operator⟩ ∧
        tokenOf ['('] = ⟨"(", .leftBracket⟩ ∧ tokenOf [','] = ⟨",", .comma⟩ ∧
        tokenOf [')'] = ⟨")", .rightBracket⟩ := by decide
    obtain ⟨hname, hoperator, hopening, hcomma, hclosing⟩ := hsigns
    have hliterals : ((texts.map String.toList).map quotedChars).map tokenOf =
        texts.map literalToken := by
      rw [List.map_map, List.map_map]
      exact List.map_congr_left fun s _ => tokenOf_quotedChars s
    rw [tokenize_eq, lexemes_listQuery h, Except.map]
    simp only [List.map_cons, List.map_append, List.map_nil, map_intersperse, hliterals, hname,
      hoperator, hopening, hcomma, hclosing]
  · intro s _
    refine ⟨?_, unquoted_literalToken s, by rw [literalToken, literalKind]⟩
    rw [← String.toList_inj, literalToken, toList_constantToken_text]
    simp

/-- Separators, brackets and other marks in a literal, a literal of white space and a date. -/
theorem tokenize_listQuery_separators :
    (∀ s ∈ [") OR NOT (x, \"y\"", " ", "2021-01-01"], '\'' ∉ s.toList) ∧
    tokenize (listQuery [") OR NOT (x, \"y\"", " ", "2021-01-01"]) =
      .ok [⟨"x", .variable⟩, ⟨"IN", .operator⟩, ⟨"(", .leftBracket⟩,
        ⟨"') OR NOT (x, \"y\"'", .literal⟩, ⟨",", .comma⟩, ⟨"' '", .literal⟩, ⟨",", .comma⟩,
        ⟨"'2021-01-01'", .date⟩, ⟨")", .rightBracket⟩] := by
  have h : ∀ s ∈ [") OR NOT (x, \"y\"", " ", "2021-01-01"], '\'' ∉ s.toList := by decide
  have hliterals : [") OR NOT (x, \"y\"", " ", "2021-01-01"].map literalToken =
      [⟨"') OR NOT (x, \"y\"'", .literal⟩, ⟨"' '", .literal⟩, ⟨"'2021-01-01'", .date⟩] := by
    decide
  obtain ⟨htokens, -⟩ := tokenize_listQuery h
  rw [hliterals] at htokens
  exact ⟨h, htokens⟩

end RecordFlow.Query
