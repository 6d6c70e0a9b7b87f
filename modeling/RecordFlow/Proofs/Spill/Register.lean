import Mathlib.Data.Set.Insert
import RecordFlow.Proofs.Spill.Area

/-!
# The register of live stores

`Registers` ties the register of an area to what goes on around it: a store is registered exactly
while somebody holds it and it has not been removed, that is, disposed on request or purged. Every
change of the area keeps this, with the holders and the removed stores changed to match.
-/

namespace RecordFlow.SpillArea

/-- The registered stores are those that are held and have not been removed. Each of them is
registered once, and its file exists. -/
structure Registers (a : SpillArea) (held removed : Set StoreId) : Prop where
  numbered : a.Numbered
  nodup : a.registered.Nodup
  mem_registered : ∀ id, id ∈ a.registered ↔ id ∈ held ∧ id ∉ removed
  hasFile : ∀ id ∈ a.registered, a.hasFile id
  not_mem_disposed : ∀ id ∈ a.registered, id ∉ a.disposed
  held_lt : ∀ id ∈ held, id < a.next
  removed_lt : ∀ id ∈ removed, id < a.next

namespace Registers

variable {a : SpillArea} {held removed : Set StoreId}

theorem isDisposed_iff (h : a.Registers held removed) (id : StoreId) :
    a.isDisposed id ↔ id ∉ a.registered := by
  rw [SpillArea.isDisposed_iff]
  refine ⟨?_, Or.inr⟩
  rintro (hdisposed | hnot)
  · exact fun hmem => h.not_mem_disposed id hmem hdisposed
  · exact hnot

/-- A store that can be opened can still be opened later on, if it is still held and nothing has
been removed in between. -/
theorem holds_of_reaches {b : SpillArea} {held' : Set StoreId} (ha : a.Registers held removed)
    (hb : b.Registers held' removed) (hab : a.Reaches b) {id : StoreId} {text : String}
    (h : a.Holds id text) (hid : id ∈ held') : b.Holds id text := by
  have hregistered := ((isDisposed_eq_false_iff a id).1 h.isDisposed).2
  have hnot : id ∉ removed := ((ha.mem_registered id).1 hregistered).2
  have hlater : id ∈ b.registered := (hb.mem_registered id).2 ⟨hid, hnot⟩
  apply h.reaches hab
  rw [isDisposed_eq_false_iff]
  exact ⟨hb.not_mem_disposed id hlater, hlater⟩

/-! ### Creation -/

theorem create (h : a.Registers held removed) (config : SpillConfig) (records : List Record) :
    (a.create config records).2.Registers (insert a.next held) removed := by
  have hnew : a.next ∉ a.registered := fun hmem => Nat.lt_irrefl _ (h.numbered.registered _ hmem)
  have hheld : ∀ id, id ∈ a.registered → id ≠ a.next := by
    rintro id hmem rfl
    exact hnew hmem
  refine ⟨h.numbered.create config records, List.nodup_cons.2 ⟨hnew, h.nodup⟩, ?_, ?_, ?_, ?_, ?_⟩
  · intro id
    have hremoved : a.next ∉ removed := fun hmem => Nat.lt_irrefl _ (h.removed_lt _ hmem)
    show id ∈ a.next :: a.registered ↔ _
    rw [List.mem_cons, h.mem_registered, Set.mem_insert_iff]
    constructor
    · rintro (rfl | ⟨hid, hnot⟩)
      · exact ⟨.inl rfl, hremoved⟩
      · exact ⟨.inr hid, hnot⟩
    · rintro ⟨rfl | hid, hnot⟩
      · exact .inl rfl
      · exact .inr ⟨hid, hnot⟩
  · intro id hmem
    rcases List.mem_cons.1 hmem with rfl | hmem
    · simp [SpillArea.hasFile, contents?, SpillArea.create]
    · have hne : (id == a.next) = false := by simpa using hheld id hmem
      have hfile := h.hasFile id hmem
      simpa [SpillArea.hasFile, contents?, SpillArea.create, List.lookup_cons, hne] using hfile
  · intro id hmem
    rcases List.mem_cons.1 hmem with rfl | hmem
    · exact fun hdisposed => Nat.lt_irrefl _ (h.numbered.disposed _ hdisposed)
    · exact h.not_mem_disposed id hmem
  · intro id hid
    rcases Set.mem_insert_iff.1 hid with rfl | hid
    · exact Nat.lt_succ_self _
    · exact Nat.lt_succ_of_lt (h.held_lt id hid)
  · exact fun id hid => Nat.lt_succ_of_lt (h.removed_lt id hid)

/-! ### Disposal -/

/-- The disposal of a store that counts as held no more, or as removed now. -/
theorem dispose_of (h : a.Registers held removed) {id : StoreId} (hid : id < a.next)
    {held' removed' : Set StoreId}
    (hlive : ∀ other, other ∈ held' ∧ other ∉ removed' ↔
      (other ∈ held ∧ other ∉ removed) ∧ other ≠ id)
    (hheld : ∀ other ∈ held', other < a.next) (hremoved : ∀ other ∈ removed', other < a.next) :
    (a.dispose id).Registers held' removed' := by
  have hmem := mem_registered_dispose (h.not_mem_disposed id)
  refine ⟨h.numbered.dispose hid, ?_, ?_, ?_, ?_, by rwa [next_dispose], by rwa [next_dispose]⟩
  · unfold SpillArea.dispose
    split
    · exact h.nodup
    · exact h.nodup.filter _
  · intro other
    rw [hmem, hlive, h.mem_registered]
  · intro other hother
    obtain ⟨hregistered, hne⟩ := (hmem other).1 hother
    rw [SpillArea.hasFile, contents?_dispose_of_ne a hne]
    exact h.hasFile other hregistered
  · intro other hother
    obtain ⟨hregistered, hne⟩ := (hmem other).1 hother
    rw [mem_disposed_dispose]
    rintro (heq | hdisposed)
    · exact hne heq
    · exact h.not_mem_disposed other hregistered hdisposed

/-- A store is disposed on request: it is removed, whoever holds it. -/
theorem dispose (h : a.Registers held removed) {id : StoreId} (hid : id ∈ held) :
    (a.dispose id).Registers held (insert id removed) := by
  have hlt := h.held_lt id hid
  refine h.dispose_of hlt ?_ h.held_lt ?_
  · intro other
    rw [Set.mem_insert_iff, not_or]
    constructor
    · rintro ⟨hheld, hne, hnot⟩
      exact ⟨⟨hheld, hnot⟩, hne⟩
    · rintro ⟨⟨hheld, hnot⟩, hne⟩
      exact ⟨hheld, hne, hnot⟩
  · intro other hother
    rcases Set.mem_insert_iff.1 hother with rfl | hother
    · exact hlt
    · exact h.removed_lt other hother

/-- A store is disposed because its last holder is gone. -/
theorem letGo (h : a.Registers held removed) {id : StoreId} (hid : id < a.next) :
    (a.dispose id).Registers {other | other ∈ held ∧ other ≠ id} removed := by
  refine h.dispose_of hid ?_ (fun other hother => h.held_lt other hother.1) h.removed_lt
  intro other
  constructor
  · rintro ⟨⟨hheld, hne⟩, hnot⟩
    exact ⟨⟨hheld, hnot⟩, hne⟩
  · rintro ⟨⟨hheld, hnot⟩, hne⟩
    exact ⟨⟨hheld, hne⟩, hnot⟩

theorem foldl_letGo (ids : List StoreId) :
    ∀ {a : SpillArea} {held : Set StoreId}, a.Registers held removed → (∀ id ∈ ids, id < a.next) →
      (ids.foldl SpillArea.dispose a).Registers {id | id ∈ held ∧ id ∉ ids} removed := by
  induction ids with
  | nil =>
    intro a held h hlt
    simpa using h
  | cons id ids ih =>
    intro a held h hlt
    have hfirst := h.letGo (hlt id List.mem_cons_self)
    have hrest : ∀ other ∈ ids, other < (a.dispose id).next := by
      intro other hother
      rw [next_dispose]
      exact hlt other (List.mem_cons_of_mem id hother)
    have hset : {other | other ∈ held ∧ other ∉ id :: ids} =
        {other | other ∈ {other | other ∈ held ∧ other ≠ id} ∧ other ∉ ids} := by
      ext other
      simp [and_assoc]
    rw [hset]
    exact ih hfirst hrest

/-! ### Purges -/

/-- A purge removes every store that is held. -/
theorem purge (h : a.Registers held removed) : a.purge.2.Registers held (removed ∪ held) := by
  refine ⟨h.numbered.purge, List.nodup_nil, ?_, ?_, ?_, h.held_lt, ?_⟩
  · intro id
    refine ⟨fun hmem => absurd hmem List.not_mem_nil, ?_⟩
    rintro ⟨hheld, hnot⟩
    exact absurd (.inr hheld) hnot
  · exact fun id hmem => absurd hmem List.not_mem_nil
  · exact fun id hmem => absurd hmem List.not_mem_nil
  · rintro id (hid | hid)
    · exact h.removed_lt id hid
    · exact h.held_lt id hid

/-- A purge removes as many files as there are live stores. -/
theorem purge_count (h : a.Registers held removed) : a.purge.1 = a.live := by
  rw [SpillArea.purge, live, List.filter_eq_self.2 h.hasFile]

end Registers

end RecordFlow.SpillArea
