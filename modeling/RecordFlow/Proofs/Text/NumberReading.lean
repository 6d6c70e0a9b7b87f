import RecordFlow.Proofs.Text.WrittenNumber
import RecordFlow.Text.Number

/-!
# How numbers are read

The readers accept exactly what is written as a number: `readDecimal?` takes it as its decimal,
whatever the sign in front (`readDecimal?_body`, `exists_of_readDecimal?`), and `readInt64?` takes
digits alone as their integer (`readInt64?_chars`). A floating-point number is also read from a word
that names an infinity or NaN (`readBinary64?_eq_some_iff`), which has no digit in it. White space
around a number is trimmed (`trim_eq_iff`).
-/

namespace RecordFlow.Text

/-- What the readers ask of digits. -/
theorem areDigits_iff {ds : List Char} :
    (ds.isEmpty || !ds.all Char.isDigit) = false ↔ Json.AreDigits ds := by
  simp [Json.AreDigits]

/-- The text does not begin with a sign. -/
def IsUnsigned (cs : List Char) : Prop :=
  cs.head? ≠ some '+' ∧ cs.head? ≠ some '-'

theorem IsUnsigned.of_isDigit {c : Char} (h : c.isDigit ∨ c = '.') (cs : List Char) :
    IsUnsigned (c :: cs) := by
  constructor <;>
  · intro hhead
    obtain rfl := Option.some.inj hhead
    exact absurd h (by decide)

theorem takeSign_append (s : Sign) {cs : List Char} (h : IsUnsigned cs) :
    takeSign (s.chars ++ cs) = (s.negative, cs) := by
  cases s with
  | plus => rfl
  | minus => rfl
  | none =>
    rw [Sign.chars, List.nil_append]
    unfold takeSign
    split
    · exact absurd rfl h.2
    · exact absurd rfl h.1
    · rfl

theorem exists_takeSign (cs : List Char) :
    ∃ (s : Sign) (rest : List Char), cs = s.chars ++ rest ∧ takeSign cs = (s.negative, rest) := by
  unfold takeSign
  split
  · exact ⟨.minus, _, rfl, rfl⟩
  · exact ⟨.plus, _, rfl, rfl⟩
  · exact ⟨.none, cs, rfl, rfl⟩

/-! ### Exponents -/

theorem readExponent?_chars (e : WrittenExponent) : readExponent? e.chars = some e.value := by
  have hsign : takeSign (e.sign.chars ++ e.digits) = (e.sign.negative, e.digits) := by
    obtain ⟨c, cs, hcs⟩ := List.exists_cons_of_ne_nil e.areDigits.1
    have hc : c.isDigit := e.areDigits.2 c (hcs ▸ List.mem_cons_self)
    exact takeSign_append e.sign (hcs ▸ .of_isDigit (.inl hc) cs)
  have hletter : (e.letter = 'e' || e.letter = 'E') = true := by simpa using e.isLetter
  simp only [WrittenExponent.chars, readExponent?, hletter, hsign, areDigits_iff.2 e.areDigits,
    if_true, Bool.false_eq_true, if_false]
  rfl

theorem exists_of_readExponent? {cs : List Char} {n : Int} (h : readExponent? cs = some n) :
    cs = [] ∧ n = 0 ∨ ∃ e : WrittenExponent, e.chars = cs ∧ e.value = n := by
  cases cs with
  | nil => exact .inl ⟨rfl, (Option.some.inj h).symm⟩
  | cons c cs =>
    rw [readExponent?] at h
    split at h
    · next hletter =>
      obtain ⟨s, digits, rfl, hsign⟩ := exists_takeSign cs
      rw [hsign] at h
      simp only at h
      split at h
      · cases h
      · next hdigits =>
        exact .inr ⟨⟨c, s, digits, by simpa using hletter,
          areDigits_iff.1 (Bool.eq_false_of_not_eq_true hdigits)⟩, rfl, Option.some.inj h⟩
    · cases h

/-! ### Decimals -/

/-- The digits behind a point, if the text begins with one, and the rest. -/
def readPoint : List Char → List Char × List Char
  | '.' :: rest => (rest.takeWhile Char.isDigit, rest.dropWhile Char.isDigit)
  | rest => ([], rest)

theorem readDecimal?_eq (cs : List Char) : readDecimal? cs =
    let (fraction, rest) := readPoint (cs.dropWhile Char.isDigit)
    if (cs.takeWhile Char.isDigit).isEmpty && fraction.isEmpty then none
    else (readExponent? rest).bind fun exponent =>
      some ⟨Nat.ofDigitChars 10 (cs.takeWhile Char.isDigit ++ fraction) 0,
        exponent - fraction.length⟩ := rfl

theorem exists_readPoint (cs : List Char) : ∃ (fraction : Option (List Char)) (rest : List Char),
    cs = fraction.elim [] ('.' :: ·) ++ rest ∧ (∀ c ∈ fraction.getD [], c.isDigit) ∧
      readPoint cs = (fraction.getD [], rest) := by
  unfold readPoint
  split
  · next rest =>
    refine ⟨some (rest.takeWhile Char.isDigit), rest.dropWhile Char.isDigit, ?_, ?_, rfl⟩
    · simp
    · exact fun c hc => (List.all_eq_true.1 List.all_takeWhile) c hc
  · exact ⟨none, cs, rfl, by simp, rfl⟩

/-- What is read as a decimal is the writing of one, with any sign. -/
theorem exists_of_readDecimal? {cs : List Char} {d : Decimal} (h : readDecimal? cs = some d)
    (s : Sign) : ∃ w : WrittenNumber, w.sign = s ∧ w.body = cs ∧ w.decimal = d := by
  obtain ⟨fraction, rest, hrest, hdigits, hpoint⟩ := exists_readPoint (cs.dropWhile Char.isDigit)
  rw [readDecimal?_eq, hpoint] at h
  simp only at h
  split at h
  · cases h
  · next hsome =>
    obtain ⟨exponent, hexponent, hd⟩ := Option.bind_eq_some_iff.1 h
    obtain rfl := Option.some.inj hd
    have hall : ∀ c ∈ cs.takeWhile Char.isDigit ++ fraction.getD [], c.isDigit := by
      intro c hc
      rcases List.mem_append.1 hc with hc | hc
      · exact (List.all_eq_true.1 List.all_takeWhile) c hc
      · exact hdigits c hc
    have hne : cs.takeWhile Char.isDigit ++ fraction.getD [] ≠ [] := by simpa using hsome
    have hcs : cs.takeWhile Char.isDigit ++ (fraction.elim [] ('.' :: ·) ++ rest) = cs := by
      rw [← hrest, List.takeWhile_append_dropWhile]
    rcases exists_of_readExponent? hexponent with ⟨rfl, rfl⟩ | ⟨e, rfl, rfl⟩
    · exact ⟨⟨s, _, fraction, none, hne, hall⟩, rfl, hcs, rfl⟩
    · exact ⟨⟨s, _, fraction, some e, hne, hall⟩, rfl, hcs, rfl⟩

namespace WrittenNumber

theorem takeSign_chars (w : WrittenNumber) : takeSign w.chars = (w.sign.negative, w.body) := by
  obtain ⟨c, rest, hbody, hc⟩ := w.exists_body_eq_cons
  exact takeSign_append w.sign (hbody ▸ .of_isDigit hc rest)

/-- A number begins with a digit, a sign or a point. -/
theorem beginsLikeNumber_chars (w : WrittenNumber) : beginsLikeNumber w.chars = true := by
  obtain ⟨c, rest, hbody, hc⟩ := w.exists_body_eq_cons
  unfold chars
  cases w.sign with
  | plus => rfl
  | minus => rfl
  | none =>
    rw [hbody]
    rcases hc with hc | rfl
    · simp [Sign.chars, beginsLikeNumber, hc]
    · rfl

theorem readExponent?_exponentChars (w : WrittenNumber) :
    readExponent? w.exponentChars = some (w.exponent.elim 0 WrittenExponent.value) := by
  unfold exponentChars
  cases w.exponent with
  | none => rfl
  | some e => exact readExponent?_chars e

theorem readPoint_fractionChars (w : WrittenNumber) :
    readPoint (w.fractionChars ++ w.exponentChars) = (w.fraction.getD [], w.exponentChars) := by
  have hends := w.endsDigits_exponentChars
  unfold fractionChars
  cases hfraction : w.fraction with
  | none =>
    rw [Option.elim_none, List.nil_append]
    unfold exponentChars
    cases w.exponent with
    | none => rfl
    | some e => rcases e.isLetter with h | h <;> simp [WrittenExponent.chars, readPoint, h]
  | some ds =>
    have hds : ∀ c ∈ ds, c.isDigit := fun c hc =>
      w.areDigits.2 c (List.mem_append_right w.whole (by rwa [hfraction]))
    obtain ⟨htake, hdrop⟩ := Json.takeWhile_isDigit_append hds hends
    rw [Option.elim_some, List.cons_append, readPoint, htake, hdrop, Option.getD_some]

/-- A number without its sign is read as the decimal that is written. -/
theorem readDecimal?_body (w : WrittenNumber) : readDecimal? w.body = some w.decimal := by
  have hsome : ¬ (w.whole.isEmpty && (w.fraction.getD []).isEmpty) = true := by
    simpa using w.areDigits.1
  obtain ⟨htake, hdrop⟩ := Json.takeWhile_isDigit_append
    (fun c hc => w.areDigits.2 c (List.mem_append_left (w.fraction.getD []) hc))
    w.endsDigits_fractionChars
  rw [readDecimal?_eq, body, htake, hdrop, readPoint_fractionChars]
  simp only
  rw [if_neg hsome, readExponent?_exponentChars]
  rfl

/-! ### Integers of 64 bits -/

/-- An integer of 64 bits is read from digits alone. -/
theorem readInt64?_chars (w : WrittenNumber) :
    readInt64? w.chars = if w.IsShort then some (Int64.ofInt w.integer) else none := by
  rw [readInt64?, takeSign_chars]
  simp only
  by_cases hwhole : w.IsWhole
  · rw [areDigits_iff.2 (w.areDigits_body_iff.2 hwhole), hwhole.body_eq]
    simp [IsShort, hwhole, integer, Sign.apply]
  · have hdigits : (w.body.isEmpty || !w.body.all Char.isDigit) = true := by
      rw [← Bool.not_eq_false]
      exact fun h => hwhole (w.areDigits_body_iff.1 (areDigits_iff.1 h))
    rw [hdigits, if_pos rfl, if_neg fun h => hwhole h.1]

end WrittenNumber

/-- What is read as an integer of 64 bits is the writing of one. -/
theorem exists_of_readInt64? {cs : List Char} {n : Int64} (h : readInt64? cs = some n) :
    ∃ w : WrittenNumber, w.chars = cs ∧ w.IsWhole := by
  obtain ⟨s, digits, rfl, hsign⟩ := exists_takeSign cs
  rw [readInt64?, hsign] at h
  simp only at h
  split at h
  · cases h
  · next hdigits =>
    have hall := areDigits_iff.1 (Bool.eq_false_of_not_eq_true hdigits)
    exact ⟨.ofDigits s digits hall, WrittenNumber.chars_ofDigits s hall,
      WrittenNumber.isWhole_ofDigits s hall⟩

/-! ### Words for numbers -/

/-- The word names a number that is not finite, in letters of any case. -/
inductive Names (negative : Bool) (word : List Char) : Binary64 → Prop where
  | infinity (h : word.map Char.toLower = ['i', 'n', 'f'] ∨
      word.map Char.toLower = ['i', 'n', 'f', 'i', 'n', 'i', 't', 'y']) :
      Names negative word (Binary64.infinity negative)
  | nan (h : word.map Char.toLower = ['n', 'a', 'n']) : Names negative word (Binary64.nan negative)

theorem isAlpha_of_isLower_toLower {c : Char} (h : c.toLower.isLower) : c.isAlpha := by
  unfold Char.toLower at h
  split at h
  · next hrange =>
    have hupper : c.isUpper := decide_eq_true hrange
    exact Bool.or_eq_true_iff.2 (.inl hupper)
  · exact Bool.or_eq_true_iff.2 (.inr h)

theorem toNat_lt_of_isAlpha {c : Char} (h : c.isAlpha) : c.toNat < 123 := by
  have hle : c.val.toNat ≤ 122 := by
    rcases Bool.or_eq_true_iff.1 h with hupper | hlower
    · have hZ : c.val ≤ 90 := (of_decide_eq_true hupper).2
      exact Nat.le_trans (UInt32.le_iff_toNat_le.1 hZ) (by decide)
    · have hz : c.val ≤ 122 := of_decide_eq_true (Bool.and_eq_true_iff.1 hlower).2
      exact UInt32.le_iff_toNat_le.1 hz
  exact Nat.lt_succ_of_le hle

/-- A letter is neither white space nor part of a number. -/
theorem not_isDigit_of_isAlpha {c : Char} (h : c.isAlpha) :
    isBlank c = false ∧ ¬ (c.isDigit ∨ c = '.') ∧ c ≠ '+' ∧ c ≠ '-' := by
  have all : ∀ n < 123, (Char.ofNat n).isAlpha → isBlank (Char.ofNat n) = false ∧
      ¬ ((Char.ofNat n).isDigit ∨ Char.ofNat n = '.') ∧ Char.ofNat n ≠ '+' ∧
        Char.ofNat n ≠ '-' := by decide
  have hlt := toNat_lt_of_isAlpha h
  rw [← Char.ofNat_toNat c] at h ⊢
  exact all _ hlt h

namespace Names

variable {negative : Bool} {word : List Char} {x : Binary64}

theorem ne_nil (h : Names negative word x) : word ≠ [] := by
  rintro rfl
  cases h with
  | infinity h => simp at h
  | nan h => simp at h

theorem isAlpha (h : Names negative word x) : ∀ c ∈ word, c.isAlpha := by
  have hlower : (word.map Char.toLower).all Char.isLower = true := by
    cases h with
    | infinity h => rcases h with h | h <;> rw [h] <;> rfl
    | nan h => rw [h]; rfl
  intro c hc
  exact isAlpha_of_isLower_toLower
    (List.all_eq_true.1 hlower _ (List.mem_map_of_mem hc))

theorem takeSign_append (s : Sign) (h : Names negative word x) :
    takeSign (s.chars ++ word) = (s.negative, word) := by
  refine Text.takeSign_append s ?_
  obtain ⟨c, cs, rfl⟩ := List.exists_cons_of_ne_nil h.ne_nil
  obtain ⟨-, -, hplus, hminus⟩ := not_isDigit_of_isAlpha (h.isAlpha c List.mem_cons_self)
  exact ⟨by simpa using hplus, by simpa using hminus⟩

theorem readDecimal?_eq_none (h : Names negative word x) : readDecimal? word = none := by
  rw [Option.eq_none_iff_forall_ne_some]
  intro d hd
  obtain ⟨w, -, rfl, -⟩ := exists_of_readDecimal? hd .none
  obtain ⟨c, rest, hbody, hc⟩ := w.exists_body_eq_cons
  exact (not_isDigit_of_isAlpha (h.isAlpha c (hbody ▸ List.mem_cons_self))).2.1 hc

/-- A word begins like a number if it has a sign. -/
theorem beginsLikeNumber_append {s : Sign} (h : Names s.negative word x) :
    beginsLikeNumber (s.chars ++ word) = decide (s ≠ .none) := by
  cases s with
  | plus => rfl
  | minus => rfl
  | none =>
    obtain ⟨c, cs, rfl⟩ := List.exists_cons_of_ne_nil h.ne_nil
    obtain ⟨-, hdigit, hplus, hminus⟩ := not_isDigit_of_isAlpha (h.isAlpha c List.mem_cons_self)
    rw [not_or] at hdigit
    simp [Sign.chars, beginsLikeNumber, hdigit, hplus, hminus]

theorem readInt64?_eq_none {s : Sign} (h : Names s.negative word x) :
    readInt64? (s.chars ++ word) = none := by
  rw [Option.eq_none_iff_forall_ne_some]
  intro n hn
  obtain ⟨w, hw, -⟩ := exists_of_readInt64? hn
  have hbody : w.body = word := by
    have hsign := w.takeSign_chars
    rw [hw, h.takeSign_append s] at hsign
    exact (congrArg Prod.snd hsign).symm
  have hnone := h.readDecimal?_eq_none
  rw [← hbody, w.readDecimal?_body] at hnone
  cases hnone

end Names

/-- The text is a word for a number that is not finite, with a sign in front. -/
def SignedWord (cs : List Char) (x : Binary64) : Prop :=
  ∃ (s : Sign) (word : List Char), s ≠ .none ∧ s.chars ++ word = cs ∧ Names s.negative word x

theorem SignedWord.isBlank_of_mem {cs : List Char} {x : Binary64} (h : SignedWord cs x) :
    ∀ c ∈ cs, isBlank c = false := by
  obtain ⟨s, word, -, rfl, hnames⟩ := h
  intro c hc
  rcases List.mem_append.1 hc with hc | hc
  · have hsign : ∀ c ∈ s.chars, isBlank c = false :=
      List.all_iff_forall_prop.1 (by cases s <;> decide)
    exact hsign c hc
  · exact (not_isDigit_of_isAlpha (hnames.isAlpha c hc)).1

theorem SignedWord.isFinite_eq_false {cs : List Char} {x : Binary64} (h : SignedWord cs x) :
    x.isFinite = false := by
  have hspecial : ∀ b, (Binary64.infinity b).isFinite = false ∧ (Binary64.nan b).isFinite = false :=
    by decide
  obtain ⟨s, word, -, -, hnames⟩ := h
  cases hnames with
  | infinity => exact (hspecial _).1
  | nan => exact (hspecial _).2

/-- A floating-point number is read from a number as it is written and from a word for one. -/
theorem readBinary64?_eq_some_iff {cs : List Char} {x : Binary64} : readBinary64? cs = some x ↔
    (∃ w : WrittenNumber, w.chars = cs ∧ Binary64.ofDecimal w.sign.negative w.decimal = x) ∨
      ∃ (s : Sign) (word : List Char), s.chars ++ word = cs ∧ Names s.negative word x := by
  constructor
  · intro h
    obtain ⟨s, rest, rfl, hsign⟩ := exists_takeSign cs
    rw [readBinary64?, hsign] at h
    simp only at h
    split at h
    · next d hd =>
      obtain ⟨w, rfl, rfl, rfl⟩ := exists_of_readDecimal? hd s
      exact .inl ⟨w, rfl, Option.some.inj h⟩
    · refine .inr ⟨s, rest, rfl, ?_⟩
      split at h
      · next hinf =>
        obtain rfl := Option.some.inj h
        exact .infinity (by simpa using hinf)
      · split at h
        · next hnan =>
          obtain rfl := Option.some.inj h
          exact .nan hnan
        · cases h
  · rintro (⟨w, rfl, rfl⟩ | ⟨s, word, rfl, h⟩)
    · rw [readBinary64?, w.takeSign_chars]
      simp only [w.readDecimal?_body]
    · rw [readBinary64?, h.takeSign_append s]
      simp only [h.readDecimal?_eq_none]
      cases h with
      | infinity h => simp [h]
      | nan h => simp [h]

/-! ### White space around a text -/

/-- The text is another one with white space in front of it and behind it. -/
def Surrounds (cs inner : List Char) : Prop :=
  ∃ before after, (∀ c ∈ before, isBlank c) ∧ (∀ c ∈ after, isBlank c) ∧
    cs = before ++ (inner ++ after)

theorem surrounds_self (cs : List Char) : Surrounds cs cs :=
  ⟨[], [], by simp, by simp, by simp⟩

theorem surrounds_trim (cs : List Char) : Surrounds cs (trim cs) := by
  have hblank (ds : List Char) : ∀ c ∈ ds.takeWhile isBlank, isBlank c := fun c hc =>
    (List.all_eq_true.1 List.all_takeWhile) c hc
  refine ⟨cs.takeWhile isBlank, ((trimStart cs).reverse.takeWhile isBlank).reverse, hblank cs,
    fun c hc => hblank _ c (List.mem_reverse.1 hc), ?_⟩
  rw [trim, trimEnd, ← List.reverse_append, List.takeWhile_append_dropWhile, List.reverse_reverse,
    trimStart, List.takeWhile_append_dropWhile]

/-- White space in front of a text without any is dropped. -/
theorem dropWhile_isBlank_append {gap inner : List Char} (hgap : ∀ c ∈ gap, isBlank c)
    (hinner : ∀ c ∈ inner, isBlank c = false) : (gap ++ inner).dropWhile isBlank = inner := by
  rw [List.dropWhile_append_of_pos hgap]
  cases inner with
  | nil => rfl
  | cons c inner => exact List.dropWhile_cons_of_neg (by simp [hinner c List.mem_cons_self])

/-- A text without white space is what trimming leaves exactly of what has it inside white space. -/
theorem trim_eq_iff {cs inner : List Char} (h : ∀ c ∈ inner, isBlank c = false) :
    trim cs = inner ↔ Surrounds cs inner := by
  constructor
  · rintro rfl
    exact surrounds_trim cs
  · rintro ⟨before, after, hbefore, hafter, rfl⟩
    have hend : trimEnd (inner ++ after) = inner := by
      rw [trimEnd, List.reverse_append, dropWhile_isBlank_append
        (fun c hc => hafter c (List.mem_reverse.1 hc)) (fun c hc => h c (List.mem_reverse.1 hc)),
        List.reverse_reverse]
    rw [trim, trimStart, List.dropWhile_append_of_pos hbefore]
    cases inner with
    | nil =>
      rw [List.nil_append, List.dropWhile_eq_nil_iff.2 hafter]
      rfl
    | cons c inner =>
      have hc : ¬ isBlank c = true := by simp [h c List.mem_cons_self]
      rw [List.cons_append, List.dropWhile_cons_of_neg hc, ← List.cons_append, hend]

end RecordFlow.Text
