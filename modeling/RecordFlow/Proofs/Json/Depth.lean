import RecordFlow.Proofs.Json.RoundTrip

/-!
# The depth that the reader of JSON goes to

A document means nothing to a reader that does not go as deep as it nests, and to all others it
means the same (`Written.depth_le_of_value?`, `Written.value?_mono`). So the text of a value is
read exactly when the value is no deeper than the reader goes (`read?_chars_eq`).
-/

namespace RecordFlow.Json

theorem depth_of_number? {n : Numeral} {j : Json} (h : n.number? = some j) : j.depth = 0 := by
  unfold Numeral.number? at h
  dsimp only at h
  split at h
  · cases h
    rfl
  split at h
  · cases h
    rfl
  · obtain ⟨x, -, rfl⟩ := Option.map_eq_some_iff.1 h
    rfl

namespace Written

theorem elementValues?_cons_eq_some {d : Nat} {w : Written} {ws : List Written} {js : List Json} :
    elementValues? d (w :: ws) = some js ↔
      ∃ j js', value? d w = some j ∧ elementValues? d ws = some js' ∧ j :: js' = js := by
  simp [elementValues?, Option.bind_eq_some_iff]

theorem memberValues?_cons_eq_some {d : Nat} {name : List StringPart} {w : Written}
    {ms : List (List StringPart × Written)} {js : List (String × Json)} :
    memberValues? d ((name, w) :: ms) = some js ↔
      ∃ cs j js', joinHalves name = some cs ∧ value? d w = some j ∧
        memberValues? d ms = some js' ∧ (String.ofList cs, j) :: js' = js := by
  simp [memberValues?, Option.bind_eq_some_iff]

mutual

/-- A document means no value deeper than its reader goes. -/
theorem depth_le_of_value? {d : Nat} : ∀ {w : Written} {j : Json}, w.value? d = some j → j.depth ≤ d
  | .null, j, h => by
    cases h
    exact Nat.zero_le d
  | .bool b, j, h => by
    cases h
    exact Nat.zero_le d
  | .number n, j, h => by
    rw [depth_of_number? h]
    exact Nat.zero_le d
  | .string parts, j, h => by
    obtain ⟨cs, -, rfl⟩ := Option.map_eq_some_iff.1 h
    exact Nat.zero_le d
  | .array elements, j, h => by
    rw [value?] at h
    split at h
    · cases h
    obtain ⟨js, hjs, rfl⟩ := Option.map_eq_some_iff.1 h
    have hdepth := elementsDepth_le_of_elementValues? hjs
    rw [Json.depth]
    omega
  | .object members, j, h => by
    rw [value?] at h
    split at h
    · cases h
    obtain ⟨js, hjs, rfl⟩ := Option.map_eq_some_iff.1 h
    have hdepth := membersDepth_le_of_memberValues? hjs
    rw [Json.depth]
    omega

theorem elementsDepth_le_of_elementValues? {d : Nat} : ∀ {ws : List Written} {js : List Json},
    elementValues? d ws = some js → elementsDepth js ≤ d
  | [], js, h => by
    cases h
    exact Nat.zero_le d
  | w :: ws, js, h => by
    obtain ⟨j, js', hj, hjs, rfl⟩ := elementValues?_cons_eq_some.1 h
    exact Nat.max_le.2 ⟨depth_le_of_value? hj, elementsDepth_le_of_elementValues? hjs⟩

theorem membersDepth_le_of_memberValues? {d : Nat} :
    ∀ {ms : List (List StringPart × Written)} {js : List (String × Json)},
    memberValues? d ms = some js → membersDepth js ≤ d
  | [], js, h => by
    cases h
    exact Nat.zero_le d
  | (name, w) :: ms, js, h => by
    obtain ⟨cs, j, js', -, hj, hjs, rfl⟩ := memberValues?_cons_eq_some.1 h
    exact Nat.max_le.2 ⟨depth_le_of_value? hj, membersDepth_le_of_memberValues? hjs⟩

end

mutual

/-- A reader that goes deeper finds the same value. -/
theorem value?_mono {d d' : Nat} (hd : d ≤ d') :
    ∀ {w : Written} {j : Json}, w.value? d = some j → w.value? d' = some j
  | .null, j, h => h
  | .bool b, j, h => h
  | .number n, j, h => h
  | .string parts, j, h => h
  | .array elements, j, h => by
    rw [value?] at h ⊢
    split at h
    · cases h
    obtain ⟨js, hjs, rfl⟩ := Option.map_eq_some_iff.1 h
    rw [if_neg (by omega), elementValues?_mono (Nat.sub_le_sub_right hd 1) hjs]
    rfl
  | .object members, j, h => by
    rw [value?] at h ⊢
    split at h
    · cases h
    obtain ⟨js, hjs, rfl⟩ := Option.map_eq_some_iff.1 h
    rw [if_neg (by omega), memberValues?_mono (Nat.sub_le_sub_right hd 1) hjs]
    rfl

theorem elementValues?_mono {d d' : Nat} (hd : d ≤ d') : ∀ {ws : List Written} {js : List Json},
    elementValues? d ws = some js → elementValues? d' ws = some js
  | [], js, h => h
  | w :: ws, js, h => by
    obtain ⟨j, js', hj, hjs, hjoin⟩ := elementValues?_cons_eq_some.1 h
    exact elementValues?_cons_eq_some.2
      ⟨j, js', value?_mono hd hj, elementValues?_mono hd hjs, hjoin⟩

theorem memberValues?_mono {d d' : Nat} (hd : d ≤ d') :
    ∀ {ms : List (List StringPart × Written)} {js : List (String × Json)},
    memberValues? d ms = some js → memberValues? d' ms = some js
  | [], js, h => h
  | (name, w) :: ms, js, h => by
    obtain ⟨cs, j, js', hcs, hj, hjs, hjoin⟩ := memberValues?_cons_eq_some.1 h
    exact memberValues?_cons_eq_some.2
      ⟨cs, j, js', hcs, value?_mono hd hj, memberValues?_mono hd hjs, hjoin⟩

end

end Written

/-- The text of a value is read as that value, and refused if the value is deeper than the reader
goes. -/
theorem read?_chars_eq {j : Json} (h : j.Readable) :
    read? j.chars = if j.depth ≤ maxDepth then some j.reread else none := by
  split
  · next hd => exact read?_chars h hd
  next hd =>
  obtain ⟨w, hread, hvalue⟩ := exists_read?_chars h
  rw [read?, hread, Option.bind_eq_bind, Option.bind_some]
  -- any other value would be found by a deeper reader too, which finds this one
  rcases hw : w.value? maxDepth with _ | j'
  · rfl
  have hdeeper : w.value? j.depth = some j' := Written.value?_mono (by omega) hw
  rw [hvalue j.depth (Nat.le_refl _)] at hdeeper
  cases hdeeper
  have hdepth := Written.depth_le_of_value? hw
  rw [depth_reread] at hdepth
  exact absurd hdepth hd

end RecordFlow.Json
