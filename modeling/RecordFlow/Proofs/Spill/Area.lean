import Mathlib.Logic.Relation
import Mathlib.Tactic.ByContra
import RecordFlow.Spill.Area

/-!
# What happens to a spill area

Stores are created and disposed one by one, and all of them at once by a purge. `SpillArea.Step` is
one such change, and `SpillArea.Reaches` any number of them in any order. Identities are given out
in ascending order (`Numbered`). A store that cannot be opened stays so (`Reaches.isDisposed`), and
as long as it can be opened, nobody touches its file (`Holds.reaches`).
-/

namespace RecordFlow.SpillArea

/-- One change of a spill area. Only a store that exists can be disposed. -/
inductive Step (a : SpillArea) : SpillArea → Prop where
  | create (config : SpillConfig) (records : List Record) : Step a (a.create config records).2
  | dispose (id : StoreId) (h : id < a.next) : Step a (a.dispose id)
  | purge : Step a a.purge.2

/-- Any number of changes of a spill area. -/
abbrev Reaches : SpillArea → SpillArea → Prop :=
  Relation.ReflTransGen Step

/-! ### The fields of an area after each change -/

@[simp] theorem id_create (a : SpillArea) (config : SpillConfig) (records : List Record) :
    (a.create config records).1.id = a.next := rfl

@[simp] theorem next_dispose (a : SpillArea) (id : StoreId) : (a.dispose id).next = a.next := by
  unfold dispose
  split <;> rfl

theorem mem_registered_dispose {a : SpillArea} {id : StoreId}
    (h : id ∈ a.registered → id ∉ a.disposed) (other : StoreId) :
    other ∈ (a.dispose id).registered ↔ other ∈ a.registered ∧ other ≠ id := by
  unfold dispose
  split
  · next hc =>
    have hid : id ∉ a.registered := fun hr => h hr (by simpa using hc)
    refine ⟨fun ho => ⟨ho, ?_⟩, fun ho => ho.1⟩
    rintro rfl
    exact hid ho
  · simp

theorem mem_disposed_dispose (a : SpillArea) (id other : StoreId) :
    other ∈ (a.dispose id).disposed ↔ other = id ∨ other ∈ a.disposed := by
  unfold dispose
  split
  · next hc =>
    have hid : id ∈ a.disposed := by simpa using hc
    refine ⟨Or.inr, ?_⟩
    rintro (rfl | ho)
    · exact hid
    · exact ho
  · simp

theorem isDisposed_iff (a : SpillArea) (id : StoreId) :
    a.isDisposed id ↔ id ∈ a.disposed ∨ id ∉ a.registered := by
  simp [isDisposed]

theorem isDisposed_eq_false_iff (a : SpillArea) (id : StoreId) :
    a.isDisposed id = false ↔ id ∉ a.disposed ∧ id ∈ a.registered := by
  simp [isDisposed]

/-- A disposed store cannot be opened. -/
theorem isDisposed_dispose_self (a : SpillArea) (id : StoreId) : (a.dispose id).isDisposed id := by
  rw [isDisposed_iff, mem_disposed_dispose]
  exact .inl (.inl rfl)

/-- Nothing can be opened after a purge. -/
theorem isDisposed_purge (a : SpillArea) (id : StoreId) : a.purge.2.isDisposed id := by
  rw [isDisposed_iff]
  exact .inr List.not_mem_nil

/-- The disposal of one store does not concern another one. -/
theorem isDisposed_dispose_of_ne (a : SpillArea) {id other : StoreId} (h : other ≠ id) :
    (a.dispose id).isDisposed other = a.isDisposed other := by
  unfold dispose
  split
  · rfl
  · simp [isDisposed, h]

theorem lookup_filter_of_keeps {files : List (StoreId × String)} {p : StoreId × String → Bool}
    {id : StoreId} (h : ∀ text, p (id, text)) : (files.filter p).lookup id = files.lookup id := by
  induction files with
  | nil => rfl
  | cons file files ih =>
    obtain ⟨other, text⟩ := file
    by_cases hid : id = other
    · subst hid
      rw [List.filter_cons_of_pos (h text), List.lookup_cons_self, List.lookup_cons_self]
    · have hne : (id == other) = false := by simpa using hid
      rw [List.filter_cons]
      split <;> simp only [List.lookup_cons, hne, ih]

theorem contents?_dispose_of_ne (a : SpillArea) {id other : StoreId} (h : other ≠ id) :
    (a.dispose id).contents? other = a.contents? other := by
  unfold dispose
  split
  · rfl
  · exact lookup_filter_of_keeps fun _ => by simpa using h

/-! ### Identities -/

/-- Every identity that has been given out is below the next one. -/
structure Numbered (a : SpillArea) : Prop where
  files : ∀ id ∈ a.files.map (·.1), id < a.next
  registered : ∀ id ∈ a.registered, id < a.next
  disposed : ∀ id ∈ a.disposed, id < a.next

theorem numbered_empty : Numbered {} :=
  ⟨by simp, by simp, by simp⟩

theorem Numbered.create {a : SpillArea} (h : a.Numbered) (config : SpillConfig)
    (records : List Record) : (a.create config records).2.Numbered := by
  refine ⟨?_, ?_, fun id hmem => Nat.lt_succ_of_lt (h.disposed id hmem)⟩
  · intro id hmem
    rcases List.mem_cons.1 hmem with rfl | hmem
    · exact Nat.lt_succ_self _
    · exact Nat.lt_succ_of_lt (h.files id hmem)
  · intro id hmem
    rcases List.mem_cons.1 hmem with rfl | hmem
    · exact Nat.lt_succ_self _
    · exact Nat.lt_succ_of_lt (h.registered id hmem)

theorem Numbered.dispose {a : SpillArea} (h : a.Numbered) {id : StoreId} (hid : id < a.next) :
    (a.dispose id).Numbered := by
  unfold SpillArea.dispose
  split
  · exact h
  refine ⟨?_, ?_, ?_⟩
  · intro other hmem
    obtain ⟨file, hfile, rfl⟩ := List.mem_map.1 hmem
    exact h.files _ (List.mem_map_of_mem (List.mem_filter.1 hfile).1)
  · intro other hmem
    exact h.registered other (List.mem_filter.1 hmem).1
  · intro other hmem
    rcases List.mem_cons.1 hmem with rfl | hmem
    · exact hid
    · exact h.disposed other hmem

theorem Numbered.purge {a : SpillArea} (h : a.Numbered) : a.purge.2.Numbered := by
  refine ⟨?_, by simp [SpillArea.purge], h.disposed⟩
  intro other hmem
  obtain ⟨file, hfile, rfl⟩ := List.mem_map.1 hmem
  exact h.files _ (List.mem_map_of_mem (List.mem_filter.1 hfile).1)

theorem Numbered.step {a b : SpillArea} (h : a.Numbered) (hab : Step a b) : b.Numbered := by
  cases hab with
  | create config records => exact h.create config records
  | dispose id hid => exact h.dispose hid
  | purge => exact h.purge

theorem Numbered.reaches {a b : SpillArea} (h : a.Numbered) (hab : a.Reaches b) : b.Numbered := by
  induction hab with
  | refl => exact h
  | tail _ hstep ih => exact ih.step hstep

theorem Reaches.next_le {a b : SpillArea} (hab : a.Reaches b) : a.next ≤ b.next := by
  induction hab with
  | refl => exact Nat.le_refl _
  | tail _ hstep ih =>
    cases hstep with
    | create config records => exact Nat.le_succ_of_le ih
    | dispose id hid => rwa [next_dispose]
    | purge => exact ih

/-! ### Stores that cannot be opened any more -/

/-- No change makes it possible to open a store again. -/
theorem isDisposed_step {a b : SpillArea} (hab : Step a b) {id : StoreId} (hid : id < a.next)
    (h : a.isDisposed id) : b.isDisposed id := by
  cases hab with
  | create config records =>
    rw [isDisposed_iff] at h ⊢
    have hne : id ≠ a.next := Nat.ne_of_lt hid
    simpa [SpillArea.create, hne] using h
  | dispose other hother =>
    by_cases heq : id = other
    · rw [heq]
      exact isDisposed_dispose_self a other
    · rwa [isDisposed_dispose_of_ne a heq]
  | purge => exact isDisposed_purge a id

theorem Reaches.isDisposed {a b : SpillArea} (hab : a.Reaches b) {id : StoreId}
    (hid : id < a.next) (h : a.isDisposed id) : b.isDisposed id := by
  induction hab with
  | refl => exact h
  | tail hac hstep ih => exact isDisposed_step hstep (Nat.lt_of_lt_of_le hid (Reaches.next_le hac)) ih

/-! ### Stores that can be opened -/

/-- A store can be opened and its file holds some text. -/
structure Holds (a : SpillArea) (id : StoreId) (text : String) : Prop where
  lt_next : id < a.next
  isDisposed : a.isDisposed id = false
  contents : a.contents? id = some text

/-- What a change leaves open it leaves as it was. -/
theorem Holds.step {a b : SpillArea} {id : StoreId} {text : String} (h : a.Holds id text)
    (hab : Step a b) (hopen : b.isDisposed id = false) : b.Holds id text := by
  cases hab with
  | create config records =>
    refine ⟨Nat.lt_succ_of_lt h.lt_next, hopen, ?_⟩
    have hne : (id == a.next) = false := by simpa using Nat.ne_of_lt h.lt_next
    rw [← h.contents]
    simp [contents?, SpillArea.create, List.lookup_cons, hne]
  | dispose other hother =>
    have hne : id ≠ other := by
      rintro rfl
      exact absurd (isDisposed_dispose_self a id) (by simp [hopen])
    refine ⟨by rw [next_dispose]; exact h.lt_next, hopen, ?_⟩
    rw [contents?_dispose_of_ne a hne, h.contents]
  | purge => exact absurd (isDisposed_purge a id) (by simp [hopen])

theorem Holds.reaches {a b : SpillArea} {id : StoreId} {text : String} (h : a.Holds id text)
    (hab : a.Reaches b) (hopen : b.isDisposed id = false) : b.Holds id text := by
  induction hab with
  | refl => exact h
  | @tail b c hac hstep ih =>
    have hb : b.isDisposed id = false := by
      by_contra hdisposed
      have hc := isDisposed_step hstep (Nat.lt_of_lt_of_le h.lt_next (Reaches.next_le hac))
        (by simpa using hdisposed)
      simp [hopen] at hc
    exact (ih hb).step hstep hopen

/-- A new store can be opened. -/
theorem holds_create {a : SpillArea} (h : a.Numbered) (config : SpillConfig)
    (records : List Record) :
    (a.create config records).2.Holds (a.create config records).1.id
      (SpillWriter.writeAll config.bufferSize records).contents := by
  refine ⟨Nat.lt_succ_self _, ?_, ?_⟩
  · have hnot : a.next ∉ a.disposed := fun hmem => Nat.lt_irrefl _ (h.disposed _ hmem)
    simp [isDisposed_eq_false_iff, SpillArea.create, hnot]
  · simp [contents?, SpillArea.create]

/-- A store that can be opened can be scanned, whatever its file holds. -/
theorem Holds.exists_scan {a : SpillArea} {store : SpillStore} {text : String}
    (h : a.Holds store.id text) : ∃ items, a.scan store = .ok items := by
  obtain ⟨lines, hlines⟩ : ∃ lines, a.lines store = .ok lines := by
    unfold lines
    rw [h.isDisposed, if_neg Bool.false_ne_true, h.contents]
    split
    · exact ⟨[], rfl⟩
    · exact ⟨_, rfl⟩
  exact ⟨scanLines lines, by rw [scan, hlines, Except.map]⟩

end RecordFlow.SpillArea
