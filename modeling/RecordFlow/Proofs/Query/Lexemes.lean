import RecordFlow.Proofs.Query.Fragments

/-!
# Tokens and the text that they come from

`quoteBehind` is one step of the search for quotations: it tells which quotation is open behind a
fragment. `lexemes`, the texts of the tokens, follow it fragment by fragment (`lexemes_cons`).

Cutting, joining and trimming lose nothing but white space: a text is `Spaced` into its tokens, and
there are none exactly if a quotation is open behind the last fragment (`tokenize_spaced`).
-/

namespace RecordFlow.Query

/-! ### Quotations -/

/-- The text of a quotation, as far as it has been read. -/
def heldText (quote : Option OpenQuote) : List Char :=
  quote.elim [] (·.text)

/-- The quotation that is open behind a fragment. -/
def quoteBehind (quote : Option OpenQuote) (fragment : List Char) : Option OpenQuote :=
  match quote with
  | some quote =>
    if (Text.trim fragment).getLast? == some quote.mark then none
    else some { quote with text := quote.text ++ fragment }
  | none =>
    match Text.trim fragment with
    | [] => none
    | mark :: more =>
      if isQuote mark && more.getLast? != some mark then some ⟨mark, fragment⟩ else none

/-- The quotation that is open at the end of a text. -/
def quoteAtEnd (s : String) : Option OpenQuote :=
  (fragments s.toList).foldl quoteBehind none

/-- A quotation holds all that has been read since it was opened. -/
theorem heldText_quoteBehind (quote : Option OpenQuote) (fragment : List Char) :
    heldText (quoteBehind quote fragment) =
      if (quoteBehind quote fragment).isSome then heldText quote ++ fragment else [] := by
  fun_cases quoteBehind quote fragment <;> rfl

theorem suffix_heldText_quoteBehind (quote : Option OpenQuote) (fragment : List Char) :
    heldText (quoteBehind quote fragment) <:+ heldText quote ++ fragment := by
  rw [heldText_quoteBehind]
  split
  · exact List.suffix_rfl
  · exact List.nil_suffix

theorem suffix_heldText_foldl (quote : Option OpenQuote) (frags : List (List Char)) :
    heldText (frags.foldl quoteBehind quote) <:+ heldText quote ++ frags.flatten := by
  induction frags generalizing quote with
  | nil => simp
  | cons fragment frags ih =>
    rw [List.foldl_cons, List.flatten_cons, ← List.append_assoc]
    refine (ih (quoteBehind quote fragment)).trans ?_
    obtain ⟨front, hfront⟩ := suffix_heldText_quoteBehind quote fragment
    exact ⟨front, by rw [← hfront, List.append_assoc]⟩

/-! ### Texts of tokens -/

/-- The texts of the tokens that fragments make up. -/
def lexemes (quote : Option OpenQuote) (frags : List (List Char)) :
    Except Fault (List (List Char)) :=
  (joinQuotes quote frags).map fun pieces => (pieces.map Text.trim).filter (!·.isEmpty)

/-- The text of the token that ends with a fragment; there is none inside of a quotation, and none
of white space. -/
def lexemeAt (quote : Option OpenQuote) (fragment : List Char) : List (List Char) :=
  if (quoteBehind quote fragment).isSome then []
  else [Text.trim (heldText quote ++ fragment)].filter (!·.isEmpty)

theorem filter_trim_cons (piece : List Char) (pieces : List (List Char)) :
    ((piece :: pieces).map Text.trim).filter (!·.isEmpty) =
      [Text.trim piece].filter (!·.isEmpty) ++ (pieces.map Text.trim).filter (!·.isEmpty) := by
  rw [List.map_cons, ← List.singleton_append, List.filter_append]

/-- A piece that is complete is the first of the tokens. -/
theorem map_joinQuotes_cons (piece : List Char) (frags : List (List Char)) :
    (((joinQuotes none frags).map (piece :: ·)).map fun pieces =>
        (pieces.map Text.trim).filter (!·.isEmpty)) =
      (lexemes none frags).map ([Text.trim piece].filter (!·.isEmpty) ++ ·) := by
  unfold lexemes
  cases joinQuotes none frags with
  | error f => rfl
  | ok pieces => exact congrArg Except.ok (filter_trim_cons piece pieces)

theorem map_nil_append (result : Except Fault (List (List Char))) :
    result.map ([] ++ ·) = result := by
  cases result <;> rfl

/-- The step of the search: a fragment goes on a quotation or ends a token. -/
theorem lexemes_cons (quote : Option OpenQuote) (fragment : List Char)
    (frags : List (List Char)) :
    lexemes quote (fragment :: frags) =
      (lexemes (quoteBehind quote fragment) frags).map (lexemeAt quote fragment ++ ·) := by
  unfold lexemeAt
  fun_cases quoteBehind quote fragment with
  | case1 quote hend =>
    rw [lexemes, joinQuotes, if_pos hend]
    exact map_joinQuotes_cons _ frags
  | case2 quote hend =>
    rw [lexemes, joinQuotes, if_neg hend]
    exact (map_nil_append _).symm
  | case3 hblank =>
    have hempty : [Text.trim (heldText none ++ fragment)].filter (!·.isEmpty) = [] := by
      simp [heldText, hblank]
    rw [lexemes, joinQuotes, hblank, hempty]
    exact (map_nil_append _).symm
  | case4 mark more hstart hopen =>
    rw [lexemes, joinQuotes, hstart]
    simp only [hopen, if_true]
    exact (map_nil_append _).symm
  | case5 mark more hstart hopen =>
    rw [lexemes, joinQuotes, hstart]
    simp only [hopen]
    exact map_joinQuotes_cons fragment frags

theorem lexemes_cons_of_blank {fragment : List Char} (htrim : Text.trim fragment = [])
    (frags : List (List Char)) : lexemes none (fragment :: frags) = lexemes none frags := by
  rw [lexemes, joinQuotes, htrim]
  rfl

theorem lexemes_cons_of_plain {fragment cs : List Char} {c : Char}
    (htrim : Text.trim fragment = c :: cs) (hquote : isQuote c = false)
    (frags : List (List Char)) :
    lexemes none (fragment :: frags) = (lexemes none frags).map ((c :: cs) :: ·) := by
  rw [lexemes, joinQuotes, htrim]
  simp only [hquote, Bool.false_and]
  refine (map_joinQuotes_cons fragment frags).trans ?_
  rw [htrim]
  rfl

/-! ### White space around tokens -/

/-- The text consists of the pieces in order, none of them empty, and of white space in front of
them, between them and behind them. -/
inductive Spaced : List (List Char) → List Char → Prop where
  | blank {blank : List Char} (hblank : blank.all Text.isBlank) : Spaced [] blank
  | piece {blank piece cs : List Char} {pieces : List (List Char)} (hblank : blank.all Text.isBlank)
      (hpiece : piece ≠ []) (hrest : Spaced pieces cs) :
      Spaced (piece :: pieces) (blank ++ (piece ++ cs))

theorem Spaced.prepend {blank cs : List Char} {pieces : List (List Char)}
    (hblank : blank.all Text.isBlank) (h : Spaced pieces cs) : Spaced pieces (blank ++ cs) := by
  cases h with
  | blank hrest => exact .blank (by rw [List.all_append, hblank, hrest]; rfl)
  | piece hfront hpiece hrest =>
    rw [← List.append_assoc]
    exact .piece (by rw [List.all_append, hblank, hfront]; rfl) hpiece hrest

theorem exists_trimStart_append (cs : List Char) :
    ∃ front, front.all Text.isBlank ∧ front ++ Text.trimStart cs = cs :=
  ⟨cs.takeWhile Text.isBlank, List.all_takeWhile, List.takeWhile_append_dropWhile⟩

theorem exists_append_trimEnd (cs : List Char) :
    ∃ back, back.all Text.isBlank ∧ Text.trimEnd cs ++ back = cs := by
  obtain ⟨front, hfront, hcs⟩ := exists_trimStart_append cs.reverse
  refine ⟨front.reverse, by rwa [List.all_reverse], ?_⟩
  rw [Text.trimEnd, ← List.reverse_append, ← Text.trimStart, hcs, List.reverse_reverse]

/-- Trimming drops white space at the two ends. -/
theorem exists_append_trim_append (cs : List Char) :
    ∃ front back, front.all Text.isBlank ∧ back.all Text.isBlank ∧
      front ++ (Text.trim cs ++ back) = cs := by
  obtain ⟨front, hfront, hstart⟩ := exists_trimStart_append cs
  obtain ⟨back, hback, hend⟩ := exists_append_trimEnd (Text.trimStart cs)
  exact ⟨front, back, hfront, hback, by rw [Text.trim, hend, hstart]⟩

theorem Spaced.trim {cs : List Char} {pieces : List (List Char)} (h : Spaced pieces cs)
    (piece : List Char) :
    Spaced ([Text.trim piece].filter (!·.isEmpty) ++ pieces) (piece ++ cs) := by
  obtain ⟨front, back, hfront, hback, hpiece⟩ := exists_append_trim_append piece
  have hrest : Spaced pieces (back ++ cs) := h.prepend hback
  have hsplit : piece ++ cs = front ++ (Text.trim piece ++ (back ++ cs)) := by
    rw [← List.append_assoc (Text.trim piece), ← List.append_assoc front, hpiece]
  rw [hsplit]
  by_cases hempty : Text.trim piece = []
  · rw [hempty]
    exact hrest.prepend hfront
  · have hkeep : [Text.trim piece].filter (!·.isEmpty) = [Text.trim piece] := by
      simpa using hempty
    rw [hkeep]
    exact .piece hfront hempty hrest

/-- One step keeps the text of an open quotation for a later token. -/
theorem Spaced.lexemeAt {quote : Option OpenQuote} {fragment cs : List Char}
    {pieces : List (List Char)} (h : Spaced pieces (heldText (quoteBehind quote fragment) ++ cs)) :
    Spaced (lexemeAt quote fragment ++ pieces) (heldText quote ++ fragment ++ cs) := by
  rw [heldText_quoteBehind] at h
  unfold Query.lexemeAt
  split at h
  · next hopen => rwa [if_pos hopen]
  · next hopen =>
    rw [if_neg hopen]
    exact h.trim _

theorem spaced_lexemes {quote : Option OpenQuote} {frags pieces : List (List Char)}
    (h : lexemes quote frags = .ok pieces) : Spaced pieces (heldText quote ++ frags.flatten) := by
  induction frags generalizing quote pieces with
  | nil =>
    cases quote with
    | none =>
      obtain rfl : [] = pieces := Except.ok.inj h
      exact .blank rfl
    | some quote => cases h
  | cons fragment frags ih =>
    rw [lexemes_cons] at h
    cases hrest : lexemes (quoteBehind quote fragment) frags with
    | error f =>
      rw [hrest] at h
      cases h
    | ok later =>
      rw [hrest] at h
      obtain rfl : lexemeAt quote fragment ++ later = pieces := Except.ok.inj h
      rw [List.flatten_cons, ← List.append_assoc]
      exact (ih hrest).lexemeAt

/-- No tokens are got exactly if a quotation is open in the end. -/
theorem lexemes_eq_error_iff {quote : Option OpenQuote} {frags : List (List Char)} {f : Fault} :
    lexemes quote frags = .error f ↔ ∃ last, frags.foldl quoteBehind quote = some last ∧
      f = .unterminatedLiteral last.mark (String.ofList (Text.trim last.text)) := by
  induction frags generalizing quote with
  | nil =>
    cases quote with
    | none => simp [lexemes, joinQuotes, Except.map]
    | some quote => simp [lexemes, joinQuotes, Except.map, eq_comm]
  | cons fragment frags ih =>
    rw [List.foldl_cons, ← ih, lexemes_cons]
    cases lexemes (quoteBehind quote fragment) frags <;> simp [Except.map]

/-! ### Tokens of a text -/

/-- The token of a text that has been cut off. -/
def tokenOf (cs : List Char) : Token :=
  ⟨String.ofList cs, TokenKind.ofChars cs⟩

theorem tokenize_eq (s : String) :
    tokenize s = (lexemes none (fragments s.toList)).map (·.map tokenOf) := by
  rw [tokenize, lexemes]
  cases joinQuotes none (fragments s.toList) <;> rfl

theorem tokenize_eq_error_iff {s : String} {f : Fault} :
    tokenize s = .error f ↔ ∃ quote, quoteAtEnd s = some quote ∧
      f = .unterminatedLiteral quote.mark (String.ofList (Text.trim quote.text)) := by
  rw [quoteAtEnd, ← lexemes_eq_error_iff, tokenize_eq]
  cases lexemes none (fragments s.toList) <;> simp [Except.map]

/-- The tokens of a text are pieces of it, none of them empty, that stand in the text in order and
apart, with only white space around them. There are none exactly if a quotation is open at the end
of the text, and this is the only fault; it shows the quotation, with which the text ends. -/
theorem tokenize_spaced (s : String) :
    (∀ tokens, tokenize s = .ok tokens → Spaced (tokens.map (·.text.toList)) s.toList) ∧
    (∀ f, tokenize s = .error f ↔ ∃ quote, quoteAtEnd s = some quote ∧
      f = .unterminatedLiteral quote.mark (String.ofList (Text.trim quote.text))) ∧
    (∀ f, tokenize s = .error f → f.kind = .token) ∧
    ∀ quote, quoteAtEnd s = some quote → quote.text <:+ s.toList := by
  refine ⟨?_, fun f => tokenize_eq_error_iff, ?_, ?_⟩
  · intro tokens h
    rw [tokenize_eq] at h
    cases hpieces : lexemes none (fragments s.toList) with
    | error f =>
      rw [hpieces] at h
      cases h
    | ok pieces =>
      rw [hpieces] at h
      obtain rfl := Except.ok.inj h
      have hspaced := spaced_lexemes hpieces
      rw [fragments, flatten_cut] at hspaced
      simpa [tokenOf, Function.comp_def, heldText] using hspaced
  · intro f h
    obtain ⟨quote, -, rfl⟩ := tokenize_eq_error_iff.1 h
    rfl
  · intro quote h
    have hsuffix := suffix_heldText_foldl none (fragments s.toList)
    rw [← quoteAtEnd, h, fragments, flatten_cut] at hsuffix
    exact hsuffix

/-- A literal that has been cut at its comma, and the same literal without its end. -/
theorem tokenize_spaced_cutLiteral :
    (tokenize "a IN ( 'b, c')" =
        .ok [⟨"a", .variable⟩, ⟨"IN", .operator⟩, ⟨"(", .leftBracket⟩, ⟨"'b, c'", .literal⟩,
          ⟨")", .rightBracket⟩] ∧
      Spaced ["a".toList, "IN".toList, "(".toList, "'b, c'".toList, ")".toList]
        "a IN ( 'b, c')".toList) ∧
    ∃ quote f, quoteAtEnd "a IN ( 'b, c)" = some quote ∧ tokenize "a IN ( 'b, c)" = .error f ∧
      f.kind = .token ∧ quote.text <:+ "a IN ( 'b, c)".toList := by
  have htokens : (tokenize "a IN ( 'b, c')").toOption =
      some [⟨"a", .variable⟩, ⟨"IN", .operator⟩, ⟨"(", .leftBracket⟩, ⟨"'b, c'", .literal⟩,
        ⟨")", .rightBracket⟩] := by decide +kernel
  obtain ⟨quote, hquote⟩ : ∃ quote, quoteAtEnd "a IN ( 'b, c)" = some quote :=
    Option.isSome_iff_exists.1 (by decide +kernel)
  obtain ⟨hspaced, -⟩ := tokenize_spaced "a IN ( 'b, c')"
  obtain ⟨-, herror, hkind, hsuffix⟩ := tokenize_spaced "a IN ( 'b, c)"
  cases hresult : tokenize "a IN ( 'b, c')" with
  | error f =>
    rw [hresult] at htokens
    cases htokens
  | ok tokens =>
    rw [hresult] at htokens
    obtain rfl := Option.some.inj htokens
    have hfault := (herror _).2 ⟨quote, hquote, rfl⟩
    exact ⟨⟨rfl, hspaced _ hresult⟩, quote, _, hquote, hfault, hkind _ hfault, hsuffix _ hquote⟩

end RecordFlow.Query
