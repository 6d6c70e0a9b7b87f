import RecordFlow.Proofs.Query.FilterTokens
import RecordFlow.Proofs.Value.NumberText

/-!
# Words that are numbers

A piece of an expression is a number exactly if its text denotes one (`ofChars_eq_iff`). A text
without digits denotes a number, and is one in an expression, exactly if it is a word for an
infinity or for NaN with a sign in front of it (`number_of_digitless`).
-/

namespace RecordFlow.Query

open Text

/-! ### Pieces that are numbers -/

/-- The kind of the token of a number. -/
def kindOfNumber : Value → TokenKind
  | .int _ => .integer
  | _ => .float

/-- A piece is a number of the kind of what its text denotes. -/
theorem numberKind?_eq_map (cs : List Char) :
    numberKind? cs = (numberOfText? cs).map kindOfNumber := by
  rw [numberKind?, numberOfText?]
  split
  · cases readInt64? cs with
    | some n => rfl
    | none => cases readBinary64? cs <;> rfl
  · rfl

/-- A piece is an integer or a floating-point number exactly if that is what its text denotes. -/
theorem ofChars_eq_iff {cs : List Char} {kind : TokenKind}
    (hkind : kind = .integer ∨ kind = .float) :
    TokenKind.ofChars cs = kind ↔ ∃ v, numberOfText? cs = some v ∧ kindOfNumber v = kind := by
  rw [← Option.map_eq_some_iff, ← numberKind?_eq_map]
  constructor
  · intro h
    have htable : kind ∉ [.variable, .everything, .function, .operator, .aggregator] := by
      rcases hkind with rfl | rfl <;> decide
    rcases ofChars_eq h htable with hplain | hquoted
    · exact numberKind?_of_plainKind hplain hkind
    · rcases quotedKind_eq cs with hquote | ⟨hquote, -⟩
      · rw [← hquoted, hquote] at hkind
        simp at hkind
      · rw [← hquoted, hquote] at hkind
        simp at hkind
  · intro h
    have hbegins : beginsLikeNumber cs := by
      rw [numberKind?] at h
      split at h
      · assumption
      · cases h
    rw [ofChars_of_beginsLikeNumber hbegins, plainKind_of_numberKind? h]

/-! ### Texts without digits -/

/-- A text without digits denotes a number exactly if it is a word with a sign. -/
theorem numberOfText?_of_digitless {cs : List Char} (h : ∀ c ∈ cs, c.isDigit = false) {v : Value} :
    numberOfText? cs = some v ↔ ∃ x, SignedWord cs x ∧ .float x = v := by
  rw [numberOfText?_eq_some_iff, or_iff_right]
  rintro ⟨w, rfl, -⟩
  obtain ⟨c, hc, hdigit⟩ := w.exists_isDigit_chars
  rw [h c hc] at hdigit
  cases hdigit

/-- A text without digits is a number in a numeric column exactly if it is a word for an infinity or
NaN with a sign, white space around it apart. In an expression it is never an integer, and a
floating-point number exactly if it is such a word itself. -/
theorem number_of_digitless {s : String} (h : ∀ c ∈ s.toList, c.isDigit = false) :
    (∀ v, (Value.text s).coerce .numeric = some v ↔
      ∃ cs x, Surrounds s.toList cs ∧ SignedWord cs x ∧ .float x = v) ∧
    TokenKind.ofText s ≠ .integer ∧
    (TokenKind.ofText s = .float ↔ ∃ x, SignedWord s.toList x) := by
  refine ⟨fun v => ?_, ?_, ?_⟩
  · have hdigitless : ∀ c ∈ trim s.toList, c.isDigit = false := by
      obtain ⟨before, after, -, -, hcs⟩ := surrounds_trim s.toList
      intro c hc
      refine h c ?_
      rw [hcs]
      exact List.mem_append_right before (List.mem_append_left after hc)
    rw [Value.coerce, numberOfText?_of_digitless hdigitless]
    constructor
    · rintro ⟨x, hword, hv⟩
      exact ⟨_, x, surrounds_trim s.toList, hword, hv⟩
    · rintro ⟨cs, x, hcs, hword, hv⟩
      have htrim : trim s.toList = cs := (trim_eq_iff hword.isBlank_of_mem).2 hcs
      exact ⟨x, htrim ▸ hword, hv⟩
  · rw [TokenKind.ofText, ne_eq, ofChars_eq_iff (.inl rfl)]
    rintro ⟨v, hv, hkind⟩
    obtain ⟨x, -, rfl⟩ := (numberOfText?_of_digitless h).1 hv
    cases hkind
  · rw [TokenKind.ofText, ofChars_eq_iff (.inr rfl)]
    simp only [numberOfText?_of_digitless h]
    constructor
    · rintro ⟨v, ⟨x, hword, -⟩, -⟩
      exact ⟨x, hword⟩
    · rintro ⟨x, hword⟩
      exact ⟨.float x, ⟨x, hword, rfl⟩, rfl⟩

theorem number_of_digitless_infinity : (∀ c ∈ "-Infinity".toList, c.isDigit = false) ∧
    (Value.text "-Infinity").coerce .numeric = some (.float (.infinity true)) ∧
    TokenKind.ofText "-Infinity" ≠ .integer ∧ TokenKind.ofText "-Infinity" = .float := by
  have hdigitless : ∀ c ∈ "-Infinity".toList, c.isDigit = false :=
    List.all_iff_forall_prop.1 (by decide)
  have hword : SignedWord "-Infinity".toList (.infinity true) :=
    ⟨.minus, "Infinity".toList, by decide, rfl, .infinity (.inr (by decide))⟩
  obtain ⟨hcoerce, hinteger, hfloat⟩ := number_of_digitless hdigitless
  exact ⟨hdigitless, (hcoerce _).2 ⟨_, _, surrounds_self _, hword, rfl⟩, hinteger,
    hfloat.2 ⟨_, hword⟩⟩

/-- With a sign NaN and the infinities come out of texts, into columns and into expressions. -/
theorem number_of_digitless_not_of_sign : (∀ c ∈ "+inf".toList, c.isDigit = false) ∧
    (Value.text "+inf").coerce .numeric = some (.float (.infinity false)) ∧
    TokenKind.ofText "+inf" = .float ∧
    (∀ c ∈ "-NaN".toList, c.isDigit = false) ∧
    (Value.text "-NaN").coerce .numeric = some (.float (.nan true)) ∧
    TokenKind.ofText "-NaN" = .float := by
  exact ⟨List.all_iff_forall_prop.1 (by decide), by decide, by decide,
    List.all_iff_forall_prop.1 (by decide), by decide, by decide⟩

end RecordFlow.Query
