import Mathlib.Tactic.SplitIfs
import RecordFlow.Query.TokenStream
import RecordFlow.Value.Coercion

/-!
# What the kind of a token says about its text

A token is classified when its kind is the one that its text has, as all tokens of a text are
(`classified_of_tokenize`). The text of an opening bracket is then one of two, that of a truth value
one of two words, and a date can be read (`Token.Classified.wellSpelled`).
-/

namespace RecordFlow.Query

/-- The kind of the token is the one that its text has. -/
def Token.Classified (t : Token) : Prop :=
  t.kind = .ofText t.text

instance (t : Token) : Decidable t.Classified :=
  inferInstanceAs (Decidable (t.kind = .ofText t.text))

theorem classified_of_tokenize {s : String} {ts : List Token} (h : tokenize s = .ok ts) :
    ∀ t ∈ ts, t.Classified := by
  unfold tokenize at h
  cases hpieces : joinQuotes none (fragments s.toList) with
  | error fault => simp [hpieces, Except.map] at h
  | ok pieces =>
    rw [hpieces, Except.map] at h
    obtain rfl := Except.ok.inj h
    intro t ht
    obtain ⟨cs, -, rfl⟩ := List.mem_map.1 ht
    rw [Token.Classified, TokenKind.ofText, String.toList_ofList]

/-! ### Letters -/

/-- The case of an ASCII letter does not matter for its lower case. -/
theorem toLower_toUpper (c : Char) : c.toUpper.toLower = c.toLower := by
  by_cases h : 'a'.val ≤ c.val ∧ c.val ≤ 'z'.val
  · have hupper : c.toUpper.val = c.val + ('A'.val - 'a'.val) := by
      unfold Char.toUpper
      rw [dif_pos h]
    have hrange : 'A'.val ≤ c.toUpper.val ∧ c.toUpper.val ≤ 'Z'.val := by
      rw [hupper]
      simp only [Char.reduceVal, UInt32.le_iff_toNat_le, UInt32.reduceToNat, UInt32.toNat_add,
        UInt32.reduceSub] at h ⊢
      omega
    have hnot : ¬ ('A'.val ≤ c.val ∧ c.val ≤ 'Z'.val) := by
      simp only [Char.reduceVal, UInt32.le_iff_toNat_le, UInt32.reduceToNat] at h ⊢
      omega
    have hsame : c.toLower = c := dif_neg hnot
    have hlower : c.toUpper.toLower.val = c.toUpper.val + ('a'.val - 'A'.val) := by
      unfold Char.toLower
      rw [dif_pos hrange]
    rw [hsame]
    apply Char.ext
    rw [hlower, hupper, UInt32.add_assoc]
    exact UInt32.add_zero _
  · have hupper : c.toUpper = c := dif_neg h
    rw [hupper]

theorem map_toLower_asciiUpper (cs : List Char) :
    (Text.asciiUpper cs).map Char.toLower = cs.map Char.toLower := by
  rw [Text.asciiUpper, List.map_map]
  exact List.map_congr_left fun c _ => toLower_toUpper c

/-! ### Kinds -/

theorem quotedKind_eq (cs : List Char) : quotedKind cs = .literal ∨
    quotedKind cs = .date ∧ (Timestamp.parseIsoChars? (stripQuotes cs)).isSome := by
  unfold quotedKind
  split
  · next h => exact .inr ⟨rfl, h⟩
  · exact .inl rfl

theorem numberKind?_eq {cs : List Char} {kind : TokenKind} (h : numberKind? cs = some kind) :
    kind = .integer ∨ kind = .float := by
  unfold numberKind? at h
  split_ifs at h <;> cases h
  · exact .inl rfl
  · exact .inr rfl

/-- A word has the kind of a truth value only if it is one. -/
theorem wordKind_eq_boolean {upper : String} (h : wordKind upper = .boolean) :
    upper = "TRUE" ∨ upper = "FALSE" := by
  unfold wordKind at h
  split at h <;> simp_all

theorem wordKind_ne_bracket (upper : String) : wordKind upper ≠ .leftBracket := by
  unfold wordKind
  split <;> simp

theorem plainKind_ne_date (cs : List Char) : plainKind cs ≠ .date := by
  unfold plainKind
  split
  · next kind h =>
    rcases numberKind?_eq h with rfl | rfl <;> simp
  · split <;> try simp
    split
    · unfold wordKind
      split <;> simp
    · simp

theorem plainKind_eq_leftBracket {cs : List Char} (h : plainKind cs = .leftBracket) :
    cs = ['('] ∨ cs = ['['] := by
  unfold plainKind at h
  split at h
  · next kind hkind =>
    subst h
    rcases numberKind?_eq hkind with h | h <;> cases h
  · split at h <;> try simp_all
    split at h
    · exact absurd h (wordKind_ne_bracket _)
    · simp at h

theorem plainKind_eq_boolean {cs : List Char} (h : plainKind cs = .boolean) :
    String.ofList (Text.asciiUpper cs) = "TRUE" ∨ String.ofList (Text.asciiUpper cs) = "FALSE" := by
  unfold plainKind at h
  split at h
  · next kind hkind =>
    subst h
    rcases numberKind?_eq hkind with h | h <;> cases h
  · split at h <;> try simp_all
    split at h
    · exact wordKind_eq_boolean h
    · simp at h

theorem wordKind_not_number (upper : String) :
    wordKind upper ≠ .integer ∧ wordKind upper ≠ .float := by
  unfold wordKind
  split <;> simp

theorem plainKind_not_number {cs : List Char} (h : numberKind? cs = none) :
    plainKind cs ≠ .integer ∧ plainKind cs ≠ .float := by
  unfold plainKind
  rw [h]
  dsimp only
  split <;> try simp
  split
  · exact wordKind_not_number _
  · simp

/-- A number is one by its text. -/
theorem numberKind?_of_plainKind {cs : List Char} {kind : TokenKind} (h : plainKind cs = kind)
    (hkind : kind = .integer ∨ kind = .float) : numberKind? cs = some kind := by
  cases hnumber : numberKind? cs with
  | some k =>
    unfold plainKind at h
    rw [hnumber] at h
    rw [← h]
  | none =>
    obtain ⟨hinteger, hfloat⟩ := plainKind_not_number hnumber
    rcases hkind with rfl | rfl
    · exact absurd h hinteger
    · exact absurd h hfloat

/-- A kind that does not come from a table is decided by the quotes or the shape of the text. -/
theorem ofChars_eq {cs : List Char} {kind : TokenKind} (h : TokenKind.ofChars cs = kind)
    (hkind : kind ∉ [.variable, .everything, .function, .operator, .aggregator]) :
    plainKind cs = kind ∨ quotedKind cs = kind := by
  unfold TokenKind.ofChars at h
  dsimp only at h
  split_ifs at h <;> first
    | exact .inl h
    | exact .inr h
    | (subst h; simp at hkind)

namespace Token.Classified

variable {t : Token}

/-- An opening bracket is a round or a square one. -/
theorem text_leftBracket (h : t.Classified) (hkind : t.kind = .leftBracket) :
    t.text = "(" ∨ t.text = "[" := by
  have hchars : TokenKind.ofChars t.text.toList = .leftBracket := h.symm.trans hkind
  rcases ofChars_eq hchars (by decide) with hplain | hquoted
  · rcases plainKind_eq_leftBracket hplain with hcs | hcs
    · exact .inl (String.toList_inj.1 hcs)
    · exact .inr (String.toList_inj.1 hcs)
  · rcases quotedKind_eq t.text.toList with hlit | ⟨hdate, -⟩
    · simp [hlit] at hquoted
    · simp [hdate] at hquoted

/-- A truth value is one of two words. -/
theorem text_boolean (h : t.Classified) (hkind : t.kind = .boolean) :
    equalIgnoringCase t.text ['t', 'r', 'u', 'e'] ∨
      equalIgnoringCase t.text ['f', 'a', 'l', 's', 'e'] := by
  have hchars : TokenKind.ofChars t.text.toList = .boolean := h.symm.trans hkind
  rcases ofChars_eq hchars (by decide) with hplain | hquoted
  · rw [equalIgnoringCase, equalIgnoringCase, ← map_toLower_asciiUpper]
    rcases plainKind_eq_boolean hplain with hupper | hupper
    · have hlist : Text.asciiUpper t.text.toList = "TRUE".toList := by rw [← hupper]; simp
      rw [hlist]
      exact .inl rfl
    · have hlist : Text.asciiUpper t.text.toList = "FALSE".toList := by rw [← hupper]; simp
      rw [hlist]
      exact .inr rfl
  · rcases quotedKind_eq t.text.toList with hlit | ⟨hdate, -⟩
    · simp [hlit] at hquoted
    · simp [hdate] at hquoted

/-- A date can be read. -/
theorem parseIso?_date (h : t.Classified) (hkind : t.kind = .date) :
    ∃ d, Timestamp.parseIso? t.unquoted = some d := by
  have hchars : TokenKind.ofChars t.text.toList = .date := h.symm.trans hkind
  rcases ofChars_eq hchars (by decide) with hplain | hquoted
  · exact absurd hplain (plainKind_ne_date _)
  · rcases quotedKind_eq t.text.toList with hlit | ⟨-, hsome⟩
    · simp [hlit] at hquoted
    · rw [Timestamp.parseIso?, Token.unquoted, String.toList_ofList]
      exact Option.isSome_iff_exists.1 hsome

end Token.Classified

namespace Token

variable {t : Token}

/-- The text of the token is one that its kind can have, where the grammar has only some: an opening
bracket is a round or a square one, a truth value is one of two words, and a date can be read. -/
structure WellSpelled (t : Token) : Prop where
  leftBracket : t.kind = .leftBracket → t.text = "(" ∨ t.text = "["
  boolean : t.kind = .boolean → equalIgnoringCase t.text ['t', 'r', 'u', 'e'] ∨
    equalIgnoringCase t.text ['f', 'a', 'l', 's', 'e']
  date : t.kind = .date → ∃ d, Timestamp.parseIso? t.unquoted = some d

theorem Classified.wellSpelled (h : t.Classified) : t.WellSpelled :=
  ⟨h.text_leftBracket, h.text_boolean, h.parseIso?_date⟩

theorem wellSpelled_of_kind (h : t.kind ∉ [.leftBracket, .boolean, .date]) : t.WellSpelled where
  leftBracket hkind := absurd (by simp [hkind]) h
  boolean hkind := absurd (by simp [hkind]) h
  date hkind := absurd (by simp [hkind]) h

end Token

end RecordFlow.Query
