import RecordFlow.Proofs.Relation.Digest
import RecordFlow.Proofs.Value.Feed

/-!
# What a digest notices

XOR undoes itself, so what is combined twice leaves no trace. A digest therefore knows of a value
only whether the rows have it an odd number of times, and of the rows only whether their number is
odd (`contentHash_eq_iff`). A single changed value is always noticed; a row that comes twice, or
whose values change together, need not be (`contentHash_ne_spec`).
-/

namespace RecordFlow

/-! ### Odd numbers of times -/

section OddOnes

variable {α : Type} [DecidableEq α]

/-- What is there goes, what is not there comes. -/
def toggle (a : α) (odd : List α) : List α :=
  if a ∈ odd then odd.erase a else a :: odd

/-- What a list has an odd number of times. -/
def oddOnes (as : List α) : List α :=
  as.foldr toggle []

@[simp] theorem oddOnes_nil : oddOnes ([] : List α) = [] := rfl

@[simp] theorem oddOnes_cons (a : α) (as : List α) :
    oddOnes (a :: as) = toggle a (oddOnes as) := rfl

theorem nodup_toggle {a : α} {odd : List α} (h : odd.Nodup) : (toggle a odd).Nodup := by
  rw [toggle]
  split
  · exact h.erase a
  · exact List.nodup_cons.2 ⟨‹_›, h⟩

theorem mem_toggle {a b : α} {odd : List α} (h : odd.Nodup) :
    b ∈ toggle a odd ↔ if a = b then b ∉ odd else b ∈ odd := by
  rw [toggle]
  by_cases ha : a ∈ odd <;> by_cases hab : a = b
  · subst hab; simp [ha, h.mem_erase_iff]
  · simp [ha, hab, h.mem_erase_iff, Ne.symm hab]
  · subst hab; simp [ha]
  · simp [ha, hab, Ne.symm hab]

theorem nodup_oddOnes (as : List α) : (oddOnes as).Nodup := by
  induction as with
  | nil => exact List.nodup_nil
  | cons a as ih => exact nodup_toggle ih

theorem mem_oddOnes {b : α} {as : List α} : b ∈ oddOnes as ↔ as.count b % 2 = 1 := by
  induction as with
  | nil => simp
  | cons a as ih =>
    rw [oddOnes_cons, mem_toggle (nodup_oddOnes as), List.count_cons]
    by_cases hab : a = b
    · simp only [hab, if_true, ih, beq_self_eq_true]
      omega
    · simp [hab, ih]

theorem mem_of_mem_oddOnes {b : α} {as : List α} (h : b ∈ oddOnes as) : b ∈ as := by
  have hcount := mem_oddOnes.1 h
  exact List.count_pos_iff.1 (by omega)

/-- What comes an even number of times leaves no trace. -/
theorem xorAll_oddOnes (hash : α → UInt64) (as : List α) :
    xorAll ((oddOnes as).map hash) = xorAll (as.map hash) := by
  have htoggle : ∀ (a : α) (odd : List α),
      xorAll ((toggle a odd).map hash) = hash a ^^^ xorAll (odd.map hash) := by
    intro a odd
    rw [toggle]
    split
    · have hodd := xorAll_perm ((List.perm_cons_erase ‹a ∈ odd›).map hash)
      rw [hodd, List.map_cons, xorAll_cons, ← UInt64.xor_assoc, UInt64.xor_self, UInt64.zero_xor]
    · rfl
  induction as with
  | nil => rfl
  | cons a as ih => rw [oddOnes_cons, htoggle, ih, List.map_cons, xorAll_cons]

end OddOnes

/-! ### Repeated and changed hashes -/

theorem xorAll_replicate (n : Nat) (h : UInt64) :
    xorAll (List.replicate n h) = if n % 2 = 0 then 0 else h := by
  induction n with
  | zero => rfl
  | succ n ih =>
    rw [List.replicate_succ, xorAll_cons, ih]
    by_cases hn : n % 2 = 0
    · rw [if_pos hn, if_neg (by omega), UInt64.xor_zero]
    · rw [if_neg hn, if_pos (by omega), UInt64.xor_self]

theorem eq_xor_iff {h h' : UInt64} : h = h ^^^ h' ↔ h' = 0 := by
  have hcancel := UInt64.xor_right_inj (a := 0) (b := h') h
  rw [UInt64.xor_zero] at hcancel
  rw [hcancel, eq_comm]

theorem xorAll_set {hashes : List UInt64} {i : Nat} {h : UInt64} (hi : hashes[i]? = some h)
    (h' : UInt64) : xorAll (hashes.set i h') = xorAll hashes ^^^ (h ^^^ h') := by
  induction hashes generalizing i with
  | nil => cases hi
  | cons first hashes ih =>
    cases i with
    | zero =>
      obtain rfl : first = h := by simpa using hi
      rw [List.set_cons_zero, xorAll_cons, xorAll_cons]
      calc h' ^^^ xorAll hashes
        _ = first ^^^ first ^^^ (h' ^^^ xorAll hashes) := by rw [UInt64.xor_self, UInt64.zero_xor]
        _ = first ^^^ xorAll hashes ^^^ (first ^^^ h') := by ac_rfl
    | succ i =>
      rw [List.set_cons_succ, xorAll_cons, ih (by simpa using hi), xorAll_cons, UInt64.xor_assoc]

/-- A changed hash is noticed. -/
theorem xorAll_set_eq_iff {hashes : List UInt64} {i : Nat} {h : UInt64} (hi : hashes[i]? = some h)
    (h' : UInt64) : xorAll hashes = xorAll (hashes.set i h') ↔ h = h' := by
  rw [xorAll_set hi, eq_xor_iff, UInt64.xor_eq_zero_iff]

/-! ### Rows and relations -/

/-- Some values are told apart by their hashes. -/
def HashesApart (values : List Value) : Prop :=
  ∀ v ∈ values, ∀ w ∈ values, v.contentHash = w.contentHash → v = w

instance (values : List Value) : Decidable (HashesApart values) :=
  inferInstanceAs (Decidable (∀ v ∈ values, ∀ w ∈ values, _ → _))

/-- The hashes of the values that some values include an odd number of times, combined. -/
def oddHash (values : List Value) : UInt64 :=
  xorAll ((oddOnes values).map Value.contentHash)

namespace Tuple

theorem contentHash_eq (row : Tuple) :
    row.contentHash = contentHashSeed ^^^ xorAll (row.map Value.contentHash) :=
  foldl_xor Value.contentHash row contentHashSeed

/-- Two rows have one hash exactly if the values that occur in them an odd number of times have
hashes that cancel. -/
theorem contentHash_eq_iff (row row' : Tuple) :
    row.contentHash = row'.contentHash ↔ oddHash (row ++ row') = 0 := by
  rw [contentHash_eq, contentHash_eq, UInt64.xor_right_inj, oddHash, xorAll_oddOnes,
    List.map_append, xorAll_append, UInt64.xor_eq_zero_iff]

theorem contentHash_set_eq_iff {row : Tuple} {i : Nat} {v : Value} (hi : row[i]? = some v)
    (w : Value) :
    row.contentHash = Tuple.contentHash (row.set i w) ↔ v.contentHash = w.contentHash := by
  have hhash : (row.map Value.contentHash)[i]? = some v.contentHash := by
    rw [List.getElem?_map, hi, Option.map_some]
  rw [contentHash_eq, contentHash_eq, UInt64.xor_right_inj, List.map_set, xorAll_set_eq_iff hhash]

end Tuple

namespace Relation

/-- The values of all rows. -/
def cells (r : Relation) : List Value :=
  r.rows.flatten

theorem xorAll_map_contentHash (rows : List Tuple) :
    xorAll (rows.map Tuple.contentHash) =
      xorAll (List.replicate rows.length contentHashSeed) ^^^
        xorAll (rows.flatten.map Value.contentHash) := by
  induction rows with
  | nil => rfl
  | cons row rows ih =>
    rw [List.map_cons, xorAll_cons, ih, Tuple.contentHash_eq, List.length_cons,
      List.replicate_succ, xorAll_cons, List.flatten_cons, List.map_append, xorAll_append]
    ac_rfl

/-- Two relations have one digest exactly if the values that occur in them an odd number of times
have hashes that cancel, but for the seed where one of them has an odd number of rows and the other
an even one. -/
theorem contentHash_eq_iff (r r' : Relation) :
    r.contentHash = r'.contentHash ↔
      oddHash (r.cells ++ r'.cells) =
        if (r.rows.length + r'.rows.length) % 2 = 0 then 0 else contentHashSeed := by
  -- The seeds of the rows go to one side, the hashes of their values to the other.
  have hmove : ∀ s x s' x' : UInt64, s ^^^ x = s' ^^^ x' ↔ x ^^^ x' = s ^^^ s' := by
    intro s x s' x'
    have hac : s ^^^ x ^^^ (s' ^^^ x') = x ^^^ x' ^^^ (s ^^^ s') := by ac_rfl
    rw [← UInt64.xor_eq_zero_iff, hac, UInt64.xor_eq_zero_iff]
  rw [contentHash_eq, contentHash_eq, UInt64.xor_right_inj, xorAll_map_contentHash,
    xorAll_map_contentHash, hmove, ← xorAll_append, ← xorAll_append,
    List.replicate_append_replicate, xorAll_replicate, ← List.map_append, ← xorAll_oddOnes]
  rfl

/-- A row in the place of another is noticed exactly if their hashes differ. -/
theorem contentHash_eq_iff_of_set {r r' : Relation} {i : Nat} {row row' : Tuple}
    (hi : r.rows[i]? = some row) (hr' : r'.rows = r.rows.set i row') :
    r.contentHash = r'.contentHash ↔ row.contentHash = row'.contentHash := by
  have hhash : (r.rows.map Tuple.contentHash)[i]? = some row.contentHash := by
    rw [List.getElem?_map, hi, Option.map_some]
  rw [contentHash_eq, contentHash_eq, UInt64.xor_right_inj, hr', List.map_set,
    xorAll_set_eq_iff hhash]

/-- A changed value is noticed. -/
theorem contentHash_ne_of_set {r r' : Relation} (hapart : HashesApart (r.cells ++ r'.cells))
    {i j : Nat} {row : Tuple} {v w : Value} (hi : r.rows[i]? = some row) (hj : row[j]? = some v)
    (hr' : r'.rows = r.rows.set i (row.set j w)) (hvw : v ≠ w) :
    r.contentHash ≠ r'.contentHash := by
  obtain ⟨hlength, -⟩ := List.getElem?_eq_some_iff.1 hi
  obtain ⟨hwidth, -⟩ := List.getElem?_eq_some_iff.1 hj
  have hv : v ∈ r.cells ++ r'.cells :=
    List.mem_append_left _
      (List.mem_flatten_of_mem (List.mem_of_getElem? hi) (List.mem_of_getElem? hj))
  have hw : w ∈ r.cells ++ r'.cells := by
    refine List.mem_append_right _ (List.mem_flatten_of_mem ?_ (List.mem_set hwidth w))
    rw [hr']
    exact List.mem_set hlength _
  rw [Ne, contentHash_eq_iff_of_set hi hr', Tuple.contentHash_set_eq_iff hj]
  exact fun hhash => hvw (hapart v hv w hw hhash)

/-- A row that is added is noticed exactly if it comes an odd number of times and its hash is not
zero. -/
theorem contentHash_eq_iff_of_replicate {r r' : Relation} {n : Nat} {row : Tuple}
    (hr' : r'.rows.Perm (r.rows ++ List.replicate n row)) :
    r.contentHash = r'.contentHash ↔ n % 2 = 0 ∨ row.contentHash = 0 := by
  rw [contentHash_eq, contentHash_eq, UInt64.xor_right_inj, xorAll_perm (hr'.map _),
    List.map_append, xorAll_append, List.map_replicate, eq_xor_iff, xorAll_replicate]
  by_cases hn : n % 2 = 0 <;> simp [hn]

/-- Two values that occur an odd number of times are noticed. -/
theorem oddHash_ne_zero {values : List Value} (hapart : HashesApart values)
    (htwo : (oddOnes values).length = 2) : oddHash values ≠ 0 := by
  obtain ⟨v, w, hodd⟩ := List.length_eq_two.1 htwo
  have hnodup := nodup_oddOnes values
  have hmem : ∀ u ∈ oddOnes values, u ∈ values := fun u => mem_of_mem_oddOnes
  rw [hodd] at hnodup hmem
  have hvw : v ≠ w := by simpa using hnodup
  intro hhash
  rw [oddHash, hodd, List.map_cons, List.map_cons, List.map_nil, xorAll_cons, xorAll_cons,
    xorAll_nil, UInt64.xor_zero, UInt64.xor_eq_zero_iff] at hhash
  exact hvw (hapart v (hmem v (by simp)) w (hmem w (by simp)) hhash)

/-- Two relations with different values that their hashes tell apart have different digests exactly
if the values that occur in both together an odd number of times have hashes that do not cancel, the
seed included where one of the relations has an odd number of rows and the other an even one. Two
such values do not cancel, so a single changed value is always noticed. A row in the place of
another is noticed exactly if the values that they include an odd number of times do not cancel, and
a row that is added exactly if it comes an odd number of times and its hash is not zero. -/
theorem contentHash_ne_spec {r r' : Relation} (hapart : HashesApart (r.cells ++ r'.cells)) :
    (r.contentHash ≠ r'.contentHash ↔
      oddHash (r.cells ++ r'.cells) ≠
        if (r.rows.length + r'.rows.length) % 2 = 0 then 0 else contentHashSeed) ∧
    ((r.rows.length + r'.rows.length) % 2 = 0 → (oddOnes (r.cells ++ r'.cells)).length = 2 →
      r.contentHash ≠ r'.contentHash) ∧
    (∀ (i j : Nat) (row : Tuple) (v w : Value), r.rows[i]? = some row → row[j]? = some v →
      r'.rows = r.rows.set i (row.set j w) → v ≠ w → r.contentHash ≠ r'.contentHash) ∧
    (∀ (i : Nat) (row row' : Tuple), r.rows[i]? = some row → r'.rows = r.rows.set i row' →
      (r.contentHash ≠ r'.contentHash ↔ oddHash (row ++ row') ≠ 0)) ∧
    ∀ (n : Nat) (row : Tuple), r'.rows.Perm (r.rows ++ List.replicate n row) →
      (r.contentHash ≠ r'.contentHash ↔ n % 2 = 1 ∧ row.contentHash ≠ 0) := by
  refine ⟨not_congr (contentHash_eq_iff r r'), ?_, ?_, ?_, ?_⟩
  · intro hrows htwo
    rw [Ne, contentHash_eq_iff, if_pos hrows]
    exact oddHash_ne_zero hapart htwo
  · intro i j row v w hi hj hr' hvw
    exact contentHash_ne_of_set hapart hi hj hr' hvw
  · intro i row row' hi hr'
    rw [Ne, Ne, contentHash_eq_iff_of_set hi hr', Tuple.contentHash_eq_iff]
  · intro n row hr'
    rw [Ne, Ne, contentHash_eq_iff_of_replicate hr', not_or, Nat.mod_two_not_eq_zero]

/-- Numbers in four columns. -/
def numbers (rows : List (List Int64)) : Relation :=
  .ofTuples (["a", "b", "c", "d"].map (·, { kind := .numeric })) (rows.map (·.map .int))

theorem contentHash_ne_spec_numbers :
    HashesApart ((numbers [[1, 2, 3, 4]]).cells ++ (numbers [[1, 2, 3, 5]]).cells) ∧
    (numbers [[1, 2, 3, 4]]).contentHash ≠ (numbers [[1, 2, 3, 5]]).contentHash := by
  have hapart : HashesApart ((numbers [[1, 2, 3, 4]]).cells ++ (numbers [[1, 2, 3, 5]]).cells) := by
    decide
  obtain ⟨-, -, hvalue, -⟩ := contentHash_ne_spec hapart
  exact ⟨hapart, hvalue 0 3 _ (.int 4) (.int 5) rfl rfl rfl (by decide)⟩

/-- Rows before and after a change that no digest notices: a row that is added twice, a row whose
equal values change together, a row all of whose values change and no two of which are equal, and a
row whose hash is zero, added once. -/
def unnoticed : List (List (List Int64) × List (List Int64)) := [
  ([], [[1, 2, 3, 4], [1, 2, 3, 4]]),
  ([[1, 1, 2, 2]], [[3, 3, 4, 4]]),
  ([[3760161, 5098902, 1, 2]], [[10003412, 15385114, 2, 1]]),
  ([], [[2723551, 4217384, 11538321, 15899692]])]

/-- Not every change of the rows is noticed, even if different values have different hashes. -/
theorem contentHash_ne_not_of_unnoticed :
    (∀ change ∈ unnoticed,
      ¬ (numbers change.1).rows.Perm (numbers change.2).rows ∧
      HashesApart ((numbers change.1).cells ++ (numbers change.2).cells) ∧
      (numbers change.1).contentHash = (numbers change.2).contentHash) ∧
    ¬ ∀ r r' : Relation, r.schema = r'.schema → ¬ r.rows.Perm r'.rows →
      HashesApart (r.cells ++ r'.cells) → r.contentHash ≠ r'.contentHash := by
  have hunnoticed : ∀ change ∈ unnoticed,
      ¬ (numbers change.1).rows.Perm (numbers change.2).rows ∧
      HashesApart ((numbers change.1).cells ++ (numbers change.2).cells) ∧
      (numbers change.1).contentHash = (numbers change.2).contentHash := by decide
  refine ⟨hunnoticed, fun hall => ?_⟩
  obtain ⟨hrows, hapart, hhash⟩ := hunnoticed _ (List.mem_cons_self ..)
  have hschema : (numbers []).schema = (numbers [[1, 2, 3, 4], [1, 2, 3, 4]]).schema := rfl
  exact hall _ _ hschema hrows hapart hhash

end Relation

end RecordFlow
