import Mathlib.Tactic.MkIffOfInductiveProp
import RecordFlow.Proofs.Query.Classified
import RecordFlow.Json.Basic
import RecordFlow.Proofs.Query.Grammar
import RecordFlow.Proofs.Text.NumberReading
import RecordFlow.Query.Condition

/-!
# Filters as tokens

`Filter.tokens` writes a filter down in the language of expressions: names between backticks,
operators by their symbols, conditions joined by AND and clauses by OR. Constants are simple values
and lists of them; floating-point numbers, timestamps and texts that would be read as one are left
out. Every token has the kind that classification gives its text (`Filter.classified_tokens`).
-/

namespace RecordFlow.Query

/-! ### Tokens -/

/-- The value is NULL, a truth value, an integer, or a text that denotes no timestamp. -/
def IsSimple : Value → Prop
  | .null | .bool _ | .int _ => True
  | .text s => Timestamp.parseIso? s = none
  | _ => False

instance : DecidablePred IsSimple
  | .null | .bool _ | .int _ => instDecidableTrue
  | .text s => inferInstanceAs (Decidable (Timestamp.parseIso? s = none))
  | .float _ | .timestamp _ | .list _ | .struct _ => instDecidableFalse

/-- The value is simple or a list of simple values. -/
def IsWritable : Value → Prop
  | .list elements => ∀ v ∈ elements, IsSimple v
  | v => IsSimple v

instance : DecidablePred IsWritable
  | .list elements => inferInstanceAs (Decidable (∀ v ∈ elements, IsSimple v))
  | .null | .bool _ | .int _ => instDecidableTrue
  | .text s => inferInstanceAs (Decidable (IsSimple (.text s)))
  | .float _ | .timestamp _ | .struct _ => instDecidableFalse

def constantKind : Value → TokenKind
  | .null => .null
  | .bool _ => .boolean
  | .int _ => .integer
  | .text _ => .literal
  | _ => .unknown

/-- The token of a simple value. -/
def constantToken (v : Value) : Token :=
  ⟨Expression.constantText v, constantKind v⟩

/-- The tokens of a constant: a list stands in square brackets. -/
def constantTokens : Value → List Token
  | .list elements =>
    ⟨"[", .leftBracket⟩ ::
      (List.intercalate [⟨",", .comma⟩] (elements.map fun v => [constantToken v]) ++
        [⟨"]", .rightBracket⟩])
  | v => [constantToken v]

/-- The name between backticks. -/
def nameToken (name : String) : Token :=
  ⟨"\x60" ++ name ++ "\x60", .variable⟩

def Operator.token (op : Operator) : Token :=
  ⟨op.symbol, .operator⟩

def Condition.tokens (c : Condition) : List Token :=
  nameToken c.name :: c.operator.token :: constantTokens c.value

def Clause.tokens (c : Clause) : List Token :=
  List.intercalate [⟨"AND", .and⟩] (c.conditions.map Condition.tokens)

def Filter.tokens (f : Filter) : List Token :=
  List.intercalate [⟨"OR", .or⟩] (f.clauses.map Clause.tokens)

/-- Every constant of the filter can be written. -/
def Filter.IsWritable (f : Filter) : Prop :=
  ∀ clause ∈ f.clauses, ∀ c ∈ clause.conditions, Query.IsWritable c.value

instance (f : Filter) : Decidable f.IsWritable :=
  inferInstanceAs (Decidable (∀ clause ∈ f.clauses, ∀ c ∈ clause.conditions,
    Query.IsWritable c.value))

/-! ### Quoted texts -/

theorem quotedWith_quoted (mark : Char) (cs : List Char) :
    quotedWith mark (mark :: (cs ++ [mark])) = true := by
  have hlast : (mark :: (cs ++ [mark])).getLast? = some mark := by
    rw [← List.cons_append, List.getLast?_concat]
  simp [quotedWith, hlast]

theorem quotedWith_cons_of_ne {mark c : Char} (h : c ≠ mark) (cs : List Char) :
    quotedWith mark (c :: cs) = false := by
  simp [quotedWith, h]

theorem stripQuotes_quoted {mark : Char} (h : isQuote mark) (cs : List Char) :
    stripQuotes (mark :: (cs ++ [mark])) = cs := by
  rw [stripQuotes, h, quotedWith_quoted, if_pos (by decide), List.dropLast_concat]

theorem toList_nameToken (name : String) :
    (nameToken name).text.toList = '\x60' :: (name.toList ++ ['\x60']) := by
  simp [nameToken]

theorem unquoted_nameToken (name : String) : (nameToken name).unquoted = name := by
  rw [Token.unquoted, toList_nameToken, stripQuotes_quoted (by decide), String.ofList_toList]

theorem classified_nameToken (name : String) : (nameToken name).Classified := by
  rw [Token.Classified, TokenKind.ofText, toList_nameToken, TokenKind.ofChars,
    if_pos (quotedWith_quoted _ _)]
  rfl

theorem toList_constantToken_text (s : String) :
    (constantToken (.text s)).text.toList = '\'' :: (s.toList ++ ['\'']) := by
  simp [constantToken, Expression.constantText]

theorem unquoted_constantToken_text (s : String) :
    (constantToken (.text s)).unquoted = s := by
  rw [Token.unquoted, toList_constantToken_text, stripQuotes_quoted (by decide),
    String.ofList_toList]

/-! ### Texts that are in no table -/

/-- The first character of a text that is neither white space nor in any table of words and
symbols. -/
@[mk_iff]
structure Untabled (c : Char) : Prop where
  not_blank : Text.isBlank c = false
  not_tick : c ≠ '\x60'
  not_star : c ≠ '*'
  not_upper : c.toUpper.isUpper = false
  not_symbol : c.toUpper ∉ ['=', '!', '<', '>']

instance (c : Char) : Decidable (Untabled c) :=
  decidable_of_iff _ (untabled_iff c).symm

theorem words_cons {c : Char} (h : Text.isBlank c = false) (cs : List Char) :
    ∃ w ws, Text.words (c :: cs) = (c :: w) :: ws := by
  obtain ⟨w, ws, hsplit⟩ := List.exists_cons_of_ne_nil (List.splitOnP_ne_nil Text.isBlank cs)
  refine ⟨w, ws.filter (!·.isEmpty), ?_⟩
  rw [Text.words, List.splitOnP_cons_eq_if_modifyHead, h, if_neg (by decide), hsplit]
  rfl

theorem head?_operatorSpelling {c : Char} (h : Text.isBlank c = false) (cs : List Char) :
    (operatorSpelling (String.ofList (c :: cs))).toList.head? = some c.toUpper := by
  obtain ⟨w, ws, hwords⟩ := words_cons h cs
  rw [operatorSpelling, String.toList_ofList, String.toList_ofList, hwords, Text.asciiUpper]
  cases ws with
  | nil => simp
  | cons w' ws => simp

namespace Untabled

variable {c : Char}

theorem ofName?_eq_none (h : Untabled c) (cs : List Char) :
    Function.ofName? (String.ofList (c :: cs)) = none := by
  rw [Function.ofName?, List.find?_eq_none]
  intro f _ hname
  have hlist : f.name.toList = c.toUpper :: Text.asciiUpper cs := by
    rw [beq_iff_eq.1 hname]
    simp [Text.asciiUpper]
  have hhead : f.name.toList.head?.any Char.isUpper = true := by cases f <;> decide
  rw [hlist, List.head?_cons, Option.any_some, h.not_upper] at hhead
  cases hhead

theorem ofText?_eq_none (h : Untabled c) (cs : List Char) :
    Operator.ofText? (String.ofList (c :: cs)) = none := by
  have hhead := head?_operatorSpelling h.not_blank cs
  have hupper := h.not_upper
  have hsymbol := h.not_symbol
  unfold Operator.ofText?
  split
  all_goals first
    | rfl
    | next hspelling =>
      rw [hspelling] at hhead
      obtain hc := Option.some.inj hhead
      rw [← hc] at hupper hsymbol
      revert hupper hsymbol
      decide

theorem not_aggregator (h : Untabled c) (cs : List Char) :
    aggregators.contains (String.ofList (Text.asciiUpper (c :: cs))) = false := by
  have hupper : ∀ name ∈ aggregators, name.toList.head?.any Char.isUpper = true := by decide
  rw [List.contains_eq_mem, decide_eq_false_iff_not]
  intro hmem
  have hhead := hupper _ hmem
  rw [String.toList_ofList, Text.asciiUpper, List.map_cons, List.head?_cons, Option.any_some,
    h.not_upper] at hhead
  cases hhead

/-- Such a text is classified by its quotes and its shape. -/
theorem ofChars_eq (h : Untabled c) (cs : List Char) :
    TokenKind.ofChars (c :: cs) =
      if quotedWith '"' (c :: cs) || quotedWith '\'' (c :: cs) then quotedKind (c :: cs)
      else plainKind (c :: cs) := by
  have hstar : ¬ (c :: cs = ['*']) := fun heq => h.not_star (List.cons.inj heq).1
  rw [TokenKind.ofChars, quotedWith_cons_of_ne h.not_tick, if_neg (by decide), if_neg hstar,
    h.ofName?_eq_none, if_neg (by decide), h.ofText?_eq_none, if_neg (by decide),
    h.not_aggregator, if_neg (by decide)]

end Untabled

theorem untabled_of_isDigit {c : Char} (h : c.isDigit) : Untabled c := by
  have hdigits : ∀ n < 58, (Char.ofNat n).isDigit → Untabled (Char.ofNat n) := by decide
  have hlt : c.toNat < 58 := by
    simp only [Char.isDigit, Bool.and_eq_true, decide_eq_true_eq, UInt32.le_iff_toNat_le] at h
    exact Nat.lt_succ_of_le h.2
  rw [← Char.ofNat_toNat c] at h ⊢
  exact hdigits _ hlt h

/-- What begins like a number is neither quoted nor in a table. -/
theorem ofChars_of_beginsLikeNumber {cs : List Char} (h : Text.beginsLikeNumber cs) :
    TokenKind.ofChars cs = plainKind cs := by
  cases cs with
  | nil => cases h
  | cons c cs =>
    have hc : c.isDigit ∨ c ∈ ['+', '-', '.'] := by simpa [Text.beginsLikeNumber, or_assoc] using h
    have huntabled : Untabled c ∧ c ∉ ['"', '\''] := by
      rcases hc with hdigit | hmem
      · refine ⟨untabled_of_isDigit hdigit, fun hquote => ?_⟩
        have hnone : ∀ c ∈ ['"', '\''], c.isDigit = false :=
          List.all_iff_forall_prop.1 (by decide)
        rw [hnone c hquote] at hdigit
        cases hdigit
      · have hall : ∀ c ∈ ['+', '-', '.'], Untabled c ∧ c ∉ ['"', '\''] :=
          List.all_iff_forall_prop.1 (by decide)
        exact hall c hmem
    obtain ⟨huntabled, hquote⟩ := huntabled
    simp only [List.mem_cons, List.not_mem_nil, or_false, not_or] at hquote
    rw [huntabled.ofChars_eq, quotedWith_cons_of_ne hquote.1, quotedWith_cons_of_ne hquote.2,
      if_neg (by decide)]

/-! ### Integers -/

theorem toList_toString_int (n : Int) : (toString n).toList = Json.intChars n := by
  show n.repr.toList = _
  unfold Json.intChars
  cases n with
  | ofNat m =>
    have hnot : ¬ Int.ofNat m < 0 := by simp
    rw [if_neg hnot]
    exact Nat.toList_repr
  | negSucc m =>
    rw [if_pos (Int.negSucc_lt_zero m)]
    show ("-" ++ (m + 1).repr).toList = _
    rw [String.toList_append, Nat.toList_repr]
    rfl

/-- The text of an integer is read back. -/
theorem readInt64?_intChars (n : Int64) :
    Text.readInt64? (Json.intChars n.toInt) = some n := by
  have hshort : (Text.WrittenNumber.ofInt n.toInt).IsShort := by
    refine ⟨Text.WrittenNumber.isWhole_ofDigits _ _, ?_⟩
    rw [Text.WrittenNumber.integer_ofInt]
    exact ⟨n.le_toInt, n.toInt_lt⟩
  rw [← Text.WrittenNumber.chars_ofInt, Text.WrittenNumber.readInt64?_chars, if_pos hshort,
    Text.WrittenNumber.integer_ofInt, Int64.ofInt_toInt]

theorem beginsLikeNumber_intChars (n : Int) : Text.beginsLikeNumber (Json.intChars n) = true := by
  rw [← Text.WrittenNumber.chars_ofInt]
  exact Text.WrittenNumber.beginsLikeNumber_chars _

theorem toList_constantToken_int (n : Int64) :
    (constantToken (.int n)).text.toList = Json.intChars n.toInt :=
  toList_toString_int n.toInt

/-! ### Kinds -/

theorem plainKind_of_numberKind? {cs : List Char} {kind : TokenKind}
    (h : numberKind? cs = some kind) : plainKind cs = kind := by
  unfold plainKind
  rw [h]

/-- A simple value is written with the kind that classification gives its text. -/
theorem classified_constantToken {v : Value} (h : IsSimple v) : (constantToken v).Classified := by
  rw [Token.Classified, TokenKind.ofText]
  cases v with
  | null => decide
  | bool b => cases b <;> decide
  | int n =>
    have hbegins := beginsLikeNumber_intChars n.toInt
    have hnumber : numberKind? (Json.intChars n.toInt) = some .integer := by
      rw [numberKind?, hbegins, readInt64?_intChars]
      rfl
    rw [toList_constantToken_int, ofChars_of_beginsLikeNumber hbegins,
      plainKind_of_numberKind? hnumber]
    rfl
  | text s =>
    have hnot : (Timestamp.parseIsoChars? s.toList).isSome = false := by
      rw [Option.isSome_eq_false_iff, Option.isNone_iff_eq_none]
      exact h
    have hc : Untabled '\'' := by decide
    rw [toList_constantToken_text, hc.ofChars_eq, quotedWith_quoted, Bool.or_true,
      if_pos rfl, quotedKind, stripQuotes_quoted (by decide), hnot]
    rfl
  | float x => exact h.elim
  | timestamp t => exact h.elim
  | list elements => exact h.elim
  | struct fields => exact h.elim

theorem classified_operator (op : Operator) : op.token.Classified := by
  cases op <;> decide

theorem mem_intercalate_singleton {α : Type} {sep a : α} {xss : List (List α)}
    (h : a ∈ List.intercalate [sep] xss) : a = sep ∨ ∃ xs ∈ xss, a ∈ xs := by
  induction xss with
  | nil => cases h
  | cons xs xss ih =>
    cases xss with
    | nil =>
      rw [List.intercalate_singleton] at h
      exact .inr ⟨xs, List.mem_cons_self, h⟩
    | cons ys yss =>
      rw [List.intercalate_cons_cons, List.mem_append, List.mem_append, List.mem_singleton] at h
      rcases h with (h | h) | h
      · exact .inr ⟨xs, List.mem_cons_self, h⟩
      · exact .inl h
      · rcases ih h with h | ⟨zs, hzs, h⟩
        · exact .inl h
        · exact .inr ⟨zs, List.mem_cons_of_mem xs hzs, h⟩

/-- A constant that can be written is a list of simple values or one token. -/
theorem IsWritable.cases {v : Value} (h : IsWritable v) :
    (∃ elements, v = .list elements ∧ ∀ e ∈ elements, IsSimple e) ∨
      IsSimple v ∧ constantTokens v = [constantToken v] := by
  cases v with
  | list elements => exact .inl ⟨elements, rfl, h⟩
  | null => exact .inr ⟨h, rfl⟩
  | bool b => exact .inr ⟨h, rfl⟩
  | int n => exact .inr ⟨h, rfl⟩
  | text s => exact .inr ⟨h, rfl⟩
  | float x => exact h.elim
  | timestamp d => exact h.elim
  | struct fields => exact h.elim

theorem classified_constantTokens {v : Value} (h : IsWritable v) :
    ∀ t ∈ constantTokens v, t.Classified := by
  intro t ht
  rcases h.cases with ⟨elements, rfl, helements⟩ | ⟨hv, htokens⟩
  · rw [constantTokens, List.mem_cons, List.mem_append, List.mem_singleton] at ht
    rcases ht with rfl | ht | rfl
    · decide
    · rcases mem_intercalate_singleton ht with rfl | ⟨ts, hts, ht⟩
      · decide
      · obtain ⟨v, hv, rfl⟩ := List.mem_map.1 hts
        rw [List.mem_singleton.1 ht]
        exact classified_constantToken (helements v hv)
    · decide
  · rw [htokens, List.mem_singleton] at ht
    rw [ht]
    exact classified_constantToken hv

/-- The tokens of a filter have the kinds of their texts. -/
theorem Filter.classified_tokens {f : Filter} (h : f.IsWritable) :
    ∀ t ∈ f.tokens, t.Classified := by
  intro t ht
  rcases mem_intercalate_singleton ht with rfl | ⟨ts, hts, ht⟩
  · decide
  obtain ⟨clause, hclause, rfl⟩ := List.mem_map.1 hts
  rcases mem_intercalate_singleton ht with rfl | ⟨ts, hts, ht⟩
  · decide
  obtain ⟨c, hc, rfl⟩ := List.mem_map.1 hts
  rw [Condition.tokens, List.mem_cons, List.mem_cons] at ht
  rcases ht with rfl | rfl | ht
  · exact classified_nameToken c.name
  · exact classified_operator c.operator
  · exact classified_constantTokens (h clause hclause c hc) t ht

end RecordFlow.Query
