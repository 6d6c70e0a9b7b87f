import RecordFlow.Proofs.Query.FilterMeaning
import RecordFlow.Proofs.Query.Fragments

/-!
# Quoted literals beside text operators

The query `a OP 's'` is cut and put together again as three tokens whatever `s` holds but a quote
(`tokenize_literalQuery`), and compares `a` with the value of the literal. This value is a timestamp
where the text denotes one, whatever the operator. So the query agrees with the filter that compares
`a` with the text, unless the text denotes a timestamp; then it matches no text at all
(`literalQuery_spec`).
-/

namespace RecordFlow.Query

/-- The operators that look into texts. -/
def Operator.isTextual : Operator → Bool
  | .like | .notLike | .contains | .isIn => true
  | _ => false

/-- The query that compares the attribute `a` with a quoted literal. -/
def literalQuery (op : Operator) (s : String) : String :=
  "a " ++ op.symbol ++ " '" ++ s ++ "'"

/-- The value of a quoted literal in an expression. -/
def literalValue (s : String) : Value :=
  (Timestamp.parseIso? s).elim (.text s) .timestamp

/-! ### Fragments -/

theorem toList_literalQuery (op : Operator) (s : String) : (literalQuery op s).toList =
    'a' :: ' ' :: (op.symbol.toList ++ ' ' :: '\'' :: (s.toList ++ ['\''])) := by
  simp [literalQuery]

/-- The symbol of a textual operator is the separator between blanks. -/
theorem separatorLength?_symbol {op : Operator} (hop : op.isTextual) (rest : List Char) :
    separatorLength? (some ' ') (op.symbol.toList ++ ' ' :: rest) =
      some op.symbol.toList.length := by
  have hmatch (words : List (List Char)) (cs : List Char)
      (hfirst : separators.find? (!·.rejects (cs ++ [' '])) = some (.words words))
      (hdrop : dropWords words (cs ++ ' ' :: rest) = some (' ' :: rest))
      (hbefore : isBoundary (some ' ') (cs ++ ' ' :: rest).head?)
      (hbehind : isBoundary cs.getLast? (some ' ')) :
      separatorLength? (some ' ') (cs ++ ' ' :: rest) = some cs.length := by
    have hsplit : cs ++ ' ' :: rest = (cs ++ [' ']) ++ rest := by simp
    have hlength := Separator.length?_words hdrop hbefore hbehind
    rw [hsplit] at hlength ⊢
    exact separatorLength?_eq_some hfirst hlength
  cases op with
  | like => exact hmatch ["LIKE".toList] "LIKE".toList rfl rfl rfl rfl
  | notLike => exact hmatch ["NOT".toList, "LIKE".toList] "NOT LIKE".toList rfl rfl rfl rfl
  | contains => exact hmatch ["CONTAINS".toList] "CONTAINS".toList rfl rfl rfl rfl
  | isIn => exact hmatch ["IN".toList] "IN".toList rfl rfl rfl rfl
  | eq | notEq | lt | ltEq | gt | gtEq | is | isNot => cases hop

theorem cut_pass {before : Option Char} {c : Char} (h : separators.all (·.rejects [c]))
    (gap rest : List Char) : cut before gap (c :: rest) = cut (some c) (c :: gap) rest :=
  cut_of_none (separatorLength?_eq_none h before rest) gap

theorem all_rejects_blank : separators.all (·.rejects [' ']) := by rfl

theorem all_rejects_mark : separators.all (·.rejects ['\'']) := by rfl

/-- The query is cut at its operator; in the literal it may be cut anywhere behind the first
mark. -/
theorem exists_fragments_literalQuery {op : Operator} (hop : op.isTextual) (s : String) :
    ∃ more frags,
      fragments (literalQuery op s).toList =
        ['a', ' '] :: op.symbol.toList :: (' ' :: '\'' :: more) :: frags ∧
      ((' ' :: '\'' :: more) :: frags).flatten = ' ' :: '\'' :: (s.toList ++ ['\'']) := by
  have hname : separators.all (·.rejects ['a', ' ']) := by rfl
  obtain ⟨c, cs, hsymbol⟩ : ∃ c cs, op.symbol.toList = c :: cs := by
    cases op <;> exact ⟨_, _, rfl⟩
  have hoperator := separatorLength?_symbol hop ('\'' :: (s.toList ++ ['\'']))
  obtain ⟨more, frags, hliteral⟩ := exists_cut_eq_cons (some '\'') ['\'', ' '] (s.toList ++ ['\''])
  refine ⟨more, frags, ?_, ?_⟩
  · rw [hsymbol] at hoperator
    calc fragments (literalQuery op s).toList
      _ = cut none [] ('a' :: ' ' :: ((c :: cs) ++ ' ' :: '\'' :: (s.toList ++ ['\'']))) := by
        rw [fragments, toList_literalQuery, hsymbol]
      _ = cut (some 'a') ['a'] (' ' :: ((c :: cs) ++ ' ' :: '\'' :: (s.toList ++ ['\'']))) :=
        cut_of_none (separatorLength?_eq_none hname none _) []
      _ = cut (some ' ') [' ', 'a'] ((c :: cs) ++ ' ' :: '\'' :: (s.toList ++ ['\''])) :=
        cut_pass all_rejects_blank ['a'] _
      _ = ['a', ' '] :: (c :: cs) ::
          cut (c :: cs).getLast? [] (' ' :: '\'' :: (s.toList ++ ['\''])) :=
        cut_of_some hoperator [' ', 'a']
      _ = ['a', ' '] :: (c :: cs) :: (' ' :: '\'' :: more) :: frags := by
        rw [cut_pass all_rejects_blank, cut_pass all_rejects_mark, hliteral]
        rfl
      _ = ['a', ' '] :: op.symbol.toList :: (' ' :: '\'' :: more) :: frags := by rw [hsymbol]
  · have hflatten := flatten_cut (some '\'') ['\'', ' '] (s.toList ++ ['\''])
    rw [hliteral] at hflatten
    exact hflatten

/-! ### Tokens -/

/-- The kind of a quoted text is decided by whether it denotes a timestamp. -/
def literalKind (s : String) : TokenKind :=
  if (Timestamp.parseIso? s).isSome then .date else .literal

/-- The token of a quoted text. -/
def literalToken (s : String) : Token :=
  ⟨(constantToken (.text s)).text, literalKind s⟩

theorem ofChars_quoted (s : String) :
    TokenKind.ofChars ('\'' :: (s.toList ++ ['\''])) = literalKind s := by
  have hmark : Untabled '\'' := by decide
  rw [hmark.ofChars_eq, quotedWith_quoted, Bool.or_true, if_pos rfl, quotedKind,
    stripQuotes_quoted (by decide)]
  rfl

/-- The query has three tokens whatever the literal holds. -/
theorem tokenize_literalQuery {op : Operator} (hop : op.isTextual) {s : String}
    (hs : '\'' ∉ s.toList) :
    tokenize (literalQuery op s) = .ok [⟨"a", .variable⟩, op.token, literalToken s] := by
  obtain ⟨more, frags, hfragments, hflatten⟩ := exists_fragments_literalQuery hop s
  have hgap : [' '].all Text.isBlank := rfl
  have hliteral : joinQuotes none ((' ' :: '\'' :: more) :: frags) =
      .ok [' ' :: '\'' :: (s.toList ++ ['\''])] := by
    have hjoin := joinQuotes_literal_append rfl rfl hgap hs hflatten []
    rwa [List.append_nil] at hjoin
  have hjoined : joinQuotes none (fragments (literalQuery op s).toList) =
      .ok [['a', ' '], op.symbol.toList, ' ' :: '\'' :: (s.toList ++ ['\''])] := by
    have hfront : joinQuotes none (['a', ' '] :: op.symbol.toList ::
        (' ' :: '\'' :: more) :: frags) =
        ((joinQuotes none ((' ' :: '\'' :: more) :: frags)).map (op.symbol.toList :: ·)).map
          (['a', ' '] :: ·) := by
      cases op <;> rfl
    rw [hfragments, hfront, hliteral]
    rfl
  have hname : Text.trim ['a', ' '] = ['a'] ∧ TokenKind.ofChars ['a'] = .variable := by
    decide
  have hsymbol : Text.trim op.symbol.toList = op.symbol.toList ∧
      op.symbol.toList.isEmpty = false ∧ TokenKind.ofChars op.symbol.toList = .operator := by
    cases op <;> decide
  have hquoted : Text.trim (' ' :: '\'' :: (s.toList ++ ['\''])) =
      '\'' :: (s.toList ++ ['\'']) :=
    trim_concat rfl (' ' :: '\'' :: s.toList)
  have hpieces : ([['a', ' '], op.symbol.toList, ' ' :: '\'' :: (s.toList ++ ['\''])].map
      Text.trim).filter (!·.isEmpty) =
      [['a'], op.symbol.toList, '\'' :: (s.toList ++ ['\''])] := by
    simp [hname, hsymbol, hquoted]
  have htext : String.ofList ('\'' :: (s.toList ++ ['\''])) = (constantToken (.text s)).text := by
    rw [← toList_constantToken_text, String.ofList_toList]
  rw [tokenize, hjoined, Except.map, hpieces]
  simp only [List.map_cons, List.map_nil, hname, hsymbol, ofChars_quoted, htext,
    String.ofList_toList]
  rfl

theorem unquoted_literalToken (s : String) : (literalToken s).unquoted = s := by
  rw [Token.unquoted, literalToken, toList_constantToken_text, stripQuotes_quoted (by decide),
    String.ofList_toList]

/-! ### Meaning -/

theorem denotes_literalToken (s : String) : (literalToken s).Denotes (literalValue s) := by
  have hunquoted := unquoted_literalToken s
  unfold literalValue
  cases hparse : Timestamp.parseIso? s with
  | none =>
    have hkind : (literalToken s).kind = .literal := by simp [literalToken, literalKind, hparse]
    have hdenotes := Token.Denotes.literal hkind
    rwa [hunquoted] at hdenotes
  | some t =>
    have hkind : (literalToken s).kind = .date := by simp [literalToken, literalKind, hparse]
    have hread : Timestamp.parseIso? (literalToken s).unquoted = some t := by
      rw [hunquoted, hparse]
    exact .date hkind hread

/-- The query is read as the comparison of the attribute with the value of the literal. -/
theorem ofText_literalQuery {op : Operator} (hop : op.isTextual) {s : String}
    (hs : '\'' ∉ s.toList) :
    Expression.ofText (literalQuery op s) =
      .ok (.compare op (.variable "a") (.constant (literalValue s))) := by
  have hsymbol : Operator.ofText? op.token.text = some op := by
    cases op <;> decide
  have hname : Primary 1 [⟨"a", .variable⟩] (.variable "a") := .name rfl
  have hcompare : Disjunction 1 [⟨"a", .variable⟩, op.token, literalToken s]
      (.compare op (.variable "a") (.constant (literalValue s))) :=
    .one (.one (.one (.compare hname rfl hsymbol (.constant (denotes_literalToken s)))))
  have hread : (Expression.ofTokens ⟨[⟨"a", .variable⟩, op.token, literalToken s], 0⟩).1 =
      .ok (.compare op (.variable "a") (.constant (literalValue s))) := by
    rw [Expression.ofTokens_of_disjunction hcompare (by decide)]
  have hstream : TokenStream.ofText (literalQuery op s) =
      .ok ⟨[⟨"a", .variable⟩, op.token, literalToken s], 0⟩ := by
    rw [TokenStream.ofText, tokenize_literalQuery hop hs, Except.map]
  have hbind (stream : TokenStream) : (do (Expression.ofTokens (← Except.ok stream)).1) =
      (Expression.ofTokens stream).1 := rfl
  rw [Expression.ofText, hstream, hbind, hread]

/-- The outcome of a textual operator on two texts. -/
def Operator.onTexts (op : Operator) (x s : String) : Bool :=
  match op with
  | .like => likeMatch x.toList s.toList
  | .notLike => !likeMatch x.toList s.toList
  | .contains => occursIn s.toList x.toList
  | _ => occursIn x.toList s.toList

theorem apply_text_text {op : Operator} (hop : op.isTextual) (x s : String) :
    op.apply (.text x) (.text s) = op.onTexts x s := by
  have halign : alignTemporal (.text x) (.text s) = (.text x, .text s) := rfl
  rw [Operator.apply, halign]
  cases op with
  | like => simp [Operator.applyAligned, likeIs, Operator.onTexts]
  | notLike => simp [Operator.applyAligned, likeIs, Operator.onTexts]
  | contains | isIn => rfl
  | eq | notEq | lt | ltEq | gt | gtEq | is | isNot => cases hop

theorem alignTemporal_text_timestamp (x : String) (t : Timestamp) :
    alignTemporal (.text x) (.timestamp t) = (literalValue x, .timestamp t) := by
  rw [alignTemporal, literalValue]
  cases Timestamp.parseIso? x <;> rfl

/-- No textual operator finds anything in a text and a timestamp. -/
theorem apply_text_timestamp {op : Operator} (hop : op.isTextual) (x : String) (t : Timestamp) :
    op.apply (.text x) (.timestamp t) = false := by
  rw [Operator.apply, alignTemporal_text_timestamp, literalValue]
  cases op with
  | like | notLike | contains | isIn => cases Timestamp.parseIso? x <;> rfl
  | eq | notEq | lt | ltEq | gt | gtEq | is | isNot => cases hop

theorem single_symbol (op : Operator) (s : String) :
    ∃ f, Filter.single "a" op.symbol (.text s) = .ok f ∧
      ∀ r : Record, f.holds r = op.apply (r.atPath "a") (.text s) := by
  have hsymbol : Operator.ofText? op.symbol = some op := by cases op <;> decide
  refine ⟨⟨[⟨[⟨"a", op, .text s⟩], List.cons_ne_nil _ _⟩], List.cons_ne_nil _ _⟩, ?_, fun r => ?_⟩
  · simp [Filter.single, Filter.ofTriples, Condition.ofSpelling, hsymbol, Clause.ofConditions,
      Filter.ofClauses, bind, Except.bind, pure, Except.pure]
  · simp [Filter.holds, Clause.holds, Condition.holds]

/-- A query of an attribute, a textual operator and a quoted text is read, whatever the text holds
but a quote. If the text denotes no timestamp, the query matches the records of which the filter
with the same attribute, operator and text holds; of a text attribute this is the match with the
pattern, or the occurrence of one text in the other. If the text denotes a timestamp, the query
compares with this timestamp, and never matches a text attribute. -/
theorem literalQuery_spec {op : Operator} (hop : op.isTextual) {s : String}
    (hs : '\'' ∉ s.toList) :
    ∃ e f, Expression.ofText (literalQuery op s) = .ok e ∧
      Filter.single "a" op.symbol (.text s) = .ok f ∧
      (Timestamp.parseIso? s = none → ∀ now r, e.matches? now r = .ok (f.holds r)) ∧
      (∀ t, Timestamp.parseIso? s = some t → ∀ now r,
        e.matches? now r = .ok (op.apply (r.atPath "a") (.timestamp t)) ∧
        ∀ x, r.atPath "a" = .text x → e.matches? now r = .ok false) ∧
      ∀ r x, r.atPath "a" = .text x → f.holds r = op.onTexts x s := by
  obtain ⟨f, hf, hholds⟩ := single_symbol op s
  have hmatches (now : Timestamp) (r : Record) :
      (Expression.compare op (.variable "a") (.constant (literalValue s))).matches? now r =
        .ok (op.apply (r.atPath "a") (literalValue s)) := rfl
  refine ⟨_, f, ofText_literalQuery hop hs, hf, ?_, ?_, ?_⟩
  · intro hnone now r
    rw [hmatches, hholds, literalValue, hnone, Option.elim_none]
  · intro t ht now r
    rw [hmatches, literalValue, ht, Option.elim_some]
    refine ⟨rfl, fun x hx => ?_⟩
    rw [hx, apply_text_timestamp hop]
  · intro r x hx
    rw [hholds, hx, apply_text_text hop]

theorem literalQuery_spec_separators :
    Operator.like.isTextual ∧ '\'' ∉ " x AND (y_ ".toList ∧
    Timestamp.parseIso? " x AND (y_ " = none ∧
    ∃ e, Expression.ofText (literalQuery .like " x AND (y_ ") = .ok e ∧
      ∀ now, e.matches? now [("a", .text " x AND (yz ")] = .ok true := by
  have hop : Operator.like.isTextual := rfl
  have hs : '\'' ∉ " x AND (y_ ".toList := by decide
  have hnone : Timestamp.parseIso? " x AND (y_ " = none := by decide
  obtain ⟨e, f, he, -, hmatches, -, hholds⟩ := literalQuery_spec hop hs
  have hmatch : Operator.like.onTexts " x AND (yz " " x AND (y_ " = true := by decide
  refine ⟨hop, hs, hnone, e, he, fun now => ?_⟩
  rw [hmatches hnone, hholds _ _ rfl, hmatch]

/-- A literal that denotes a timestamp does not match the text that it is. -/
theorem literalQuery_spec_not_of_date :
    ¬ ∀ (op : Operator) (s : String) (e : Expression) (f : Filter) (now : Timestamp) (r : Record),
      op.isTextual → '\'' ∉ s.toList → Expression.ofText (literalQuery op s) = .ok e →
      Filter.single "a" op.symbol (.text s) = .ok f → e.matches? now r = .ok (f.holds r) := by
  intro hclaim
  have hs : '\'' ∉ "2021-01-01".toList := by decide
  obtain ⟨t, ht⟩ : ∃ t, Timestamp.parseIso? "2021-01-01" = some t :=
    Option.isSome_iff_exists.1 (by decide)
  obtain ⟨f, hf, hholds⟩ := single_symbol .like "2021-01-01"
  have hagree := hclaim .like "2021-01-01" _ f t [("a", .text "2021-01-01")] rfl hs
    (ofText_literalQuery rfl hs) hf
  rw [hholds, literalValue, ht] at hagree
  have hmatch : Operator.like.apply (.text "2021-01-01") (.text "2021-01-01") = true := by
    decide
  have hmiss : Operator.like.apply (.text "2021-01-01") (.timestamp t) = false :=
    apply_text_timestamp rfl _ t
  have hsame : Operator.like.apply (.text "2021-01-01") (.timestamp t) =
      Operator.like.apply (.text "2021-01-01") (.text "2021-01-01") := Except.ok.inj hagree
  rw [hmatch, hmiss] at hsame
  cases hsame

end RecordFlow.Query
