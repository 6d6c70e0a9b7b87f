import RecordFlow.Proofs.Spill.Area
import RecordFlow.Stream.Basic

/-!
# The stores that traversals and streams hold

What is made of a traversal or of a stream holds nothing that the traversal or the stream did not
hold. The only store that can be added is the one that a move to another class creates
(`RecordStream.held_persist`).
-/

namespace RecordFlow

namespace Traversal

@[simp] theorem releasesOf_nil : releasesOf [] = [] := rfl

@[simp] theorem releasesOf_item (item : Item) (steps : List Step) :
    releasesOf (.item item :: steps) = releasesOf steps := rfl

@[simp] theorem releasesOf_release (store : StoreId) (steps : List Step) :
    releasesOf (.release store :: steps) = store :: releasesOf steps := rfl

@[simp] theorem releasesOf_append (steps steps' : List Step) :
    releasesOf (steps ++ steps') = releasesOf steps ++ releasesOf steps' :=
  List.filterMap_append

@[simp] theorem releasesOf_map_item (items : List Item) : releasesOf (items.map .item) = [] := by
  induction items with
  | nil => rfl
  | cons item items ih => simpa using ih

@[simp] theorem releasesOf_map_record (records : List Record) :
    releasesOf (records.map fun r => .item (.ok r)) = [] := by
  have h := releasesOf_map_item (records.map .ok)
  rw [List.map_map] at h
  exact h

/-! ### Progress -/

theorem releasesOf_nextOf (steps : List Step) :
    releasesOf (nextOf steps).2 ⊆ releasesOf steps := by
  fun_induction nextOf steps with
  | case1 => exact List.Subset.refl _
  | case2 store rest ih => exact List.subset_cons_of_subset store ih
  | case3 item rest => exact List.Subset.refl _

theorem held_next (t : Traversal) : t.next.2.held ⊆ t.held := by
  intro id hid
  rcases List.mem_append.1 hid with hid | hid
  · exact List.mem_append_left _ (releasesOf_nextOf t.steps hid)
  · exact List.mem_append_right _ hid

theorem held_rest (t : Traversal) : t.rest.2.held ⊆ t.held :=
  List.subset_append_right _ _

/-- What a drained traversal has left behind a failure was there before. -/
theorem releasesOf_drain {steps : List Step} {records : List Record} {fault : Fault}
    {left : List Step} (h : drain steps = (records, some (fault, left))) :
    releasesOf left ⊆ releasesOf steps := by
  fun_induction drain steps generalizing records with
  | case1 => simp at h
  | case2 store rest ih => exact List.subset_cons_of_subset store (ih h)
  | case3 fault' rest =>
    obtain ⟨-, -, rfl⟩ : [] = records ∧ fault' = fault ∧ rest = left := by simpa using h
    exact List.Subset.refl _
  | case4 r rest records' stop hdrain ih =>
    obtain ⟨-, rfl⟩ : _ ∧ stop = some (fault, left) := by simpa using h
    exact ih hdrain

/-! ### Derived traversals -/

theorem releasesOf_stageSteps (s : Stage) (steps : List Step) :
    releasesOf (stageSteps s steps) = releasesOf steps := by
  fun_induction stageSteps s steps with
  | case1 => rfl
  | case2 s store rest ih => rw [releasesOf_release, releasesOf_release, ih]
  | case3 s rest item s' h ih => rw [releasesOf_item, ih]
  | case4 s rest item out s' h ih => rw [releasesOf_item, releasesOf_item, ih]

/-- A shortened traversal keeps to its end what it would have let go of later. -/
theorem releasesOf_takeSteps (n : Nat) (steps : List Step) :
    releasesOf (takeSteps n steps).1 ++ (takeSteps n steps).2 = releasesOf steps := by
  fun_induction takeSteps n steps with
  | case1 => rfl
  | case2 => rfl
  | case3 n store rest steps kept h ih => simpa [h] using ih
  | case4 n item rest steps kept h ih => simpa [h] using ih

theorem releasesOf_pickSteps (targets : List Nat) (last position : Nat) (steps : List Step) :
    releasesOf (pickSteps targets last position steps).1 ++
      (pickSteps targets last position steps).2 = releasesOf steps := by
  fun_induction pickSteps targets last position steps with
  | case1 => rfl
  | case2 position store rest steps kept h ih => simpa [h] using ih
  | case3 => rfl
  | case4 position item rest hlast steps kept h ih =>
    rw [releasesOf_item, ← ih, h]
    split <;> rfl

theorem held_through (t : Traversal) (s : Stage) : (t.through s).held = t.held := by
  rw [held, through, releasesOf_stageSteps, held]

theorem held_take (t : Traversal) (n : Nat) : (t.take n).held = t.held := by
  rw [held, take, held, ← releasesOf_takeSteps n t.steps, List.append_assoc]

theorem held_pick (t : Traversal) (targets : List Nat) (last : Nat) :
    (t.pick targets last).held = t.held := by
  rw [held, pick, held, ← releasesOf_pickSteps targets last 0 t.steps, List.append_assoc]

@[simp] theorem held_ofItems (items : List Item) : (ofItems items).held = [] := by
  simp [held, ofItems]

@[simp] theorem held_pinned (store : StoreId) (items : List Item) :
    (pinned store items).held = [store] := by
  simp [held, pinned]

@[simp] theorem held_prepend (records : List Record) (t : Traversal) :
    (t.prepend records).held = t.held := by
  simp [held, prepend]

@[simp] theorem held_chain (store : StoreId) (items : List Item) (t : Traversal) :
    (chain store items t).held = store :: t.held := by
  simp [held, chain]

end Traversal

namespace RecordStream

theorem held_traverse {a : SpillArea} {s s' : RecordStream} {t : Traversal}
    (h : s.traverse a = (.ok t, s')) : t.held ⊆ s.held ∧ s'.held ⊆ s.held := by
  cases s with
  | through left =>
    obtain ⟨rfl, rfl⟩ : left = t ∧ .through .empty = s' := by simpa [traverse] using h
    exact ⟨List.Subset.refl _, List.nil_subset _⟩
  | materialized records =>
    obtain ⟨rfl, rfl⟩ : Traversal.ofRecords records = t ∧ .materialized records = s' := by
      simpa [traverse] using h
    rw [Traversal.ofRecords, Traversal.held_ofItems]
    exact ⟨List.nil_subset _, List.Subset.refl _⟩
  | spilled store =>
    obtain ⟨hscan, rfl⟩ : (a.scan store).map (Traversal.pinned store.id) = .ok t ∧
        .spilled store = s' := by simpa [traverse] using h
    cases hitems : a.scan store with
    | error fault => simp [hitems, Except.map] at hscan
    | ok items =>
      obtain rfl : Traversal.pinned store.id items = t := by simpa [hitems, Except.map] using hscan
      rw [Traversal.held_pinned]
      exact ⟨List.Subset.refl _, List.Subset.refl _⟩

theorem held_pick {a : SpillArea} {s s' : RecordStream} {positions : List Nat} {t : Traversal}
    (h : s.pick a positions = (.ok t, s')) : t.held ⊆ s.held ∧ s'.held ⊆ s.held := by
  unfold pick at h
  cases s with
  | through left =>
    dsimp only at h
    split at h
    · obtain ⟨rfl, rfl⟩ : Traversal.empty = t ∧ .through left = s' := by simpa using h
      exact ⟨List.nil_subset _, List.Subset.refl _⟩
    · next last hlast =>
      obtain ⟨rfl, rfl⟩ : left.pick _ last = t ∧ .through .empty = s' := by simpa using h
      rw [Traversal.held_pick]
      exact ⟨List.Subset.refl _, List.nil_subset _⟩
  | materialized records =>
    dsimp only at h
    split at h
    · simp at h
    · obtain ⟨rfl, rfl⟩ : Traversal.ofRecords _ = t ∧ .materialized records = s' := by
        simpa using h
      rw [Traversal.ofRecords, Traversal.held_ofItems]
      exact ⟨List.nil_subset _, List.Subset.refl _⟩
  | spilled store =>
    dsimp only at h
    obtain ⟨hscan, rfl⟩ : _ = Except.ok t ∧ .spilled store = s' := by simpa using h
    obtain ⟨reader, rfl⟩ : ∃ reader : PositionalReader,
        Traversal.pinned store.id reader.rest.1 = t := by
      cases hreader : a.scanPositions store positions.mergeSort.eraseDups with
      | error fault => simp [hreader, Except.map] at hscan
      | ok reader => exact ⟨reader, by simpa [hreader, Except.map] using hscan⟩
    rw [Traversal.held_pinned]
    exact ⟨List.Subset.refl _, List.Subset.refl _⟩

/-- A stream is moved either without a new store, and then it holds no more than before, or with
one, and then it holds this store. -/
theorem held_persist {a : SpillArea} (ha : a.Numbered) (config : SpillConfig)
    (target : StorageClass) (s : RecordStream) :
    ((s.persist a config target).2.2 = a ∧ (s.persist a config target).2.1.held ⊆ s.held) ∨
    ∃ records, (s.persist a config target).2.2 = (a.create config records).2 ∧
      a.next ∈ (s.persist a config target).2.1.held ∧
      (s.persist a config target).2.1.held ⊆ a.next :: s.held := by
  unfold persist
  split
  · exact .inl ⟨rfl, List.Subset.refl _⟩
  split
  · exact .inl ⟨rfl, List.Subset.refl _⟩
  split
  · exact .inl ⟨rfl, List.Subset.refl _⟩
  next t ht =>
  split
  · next records hdrain =>
    cases target with
    | spilled =>
      refine .inr ⟨records, rfl, List.mem_singleton_self _, ?_⟩
      simp [keep, held]
    | streamThrough | materialized => exact .inl ⟨rfl, List.nil_subset _⟩
  next records fault left hdrain =>
  cases s with
  | through front =>
    obtain rfl : front = t := by simpa [traverse] using ht
    have hleft : Traversal.held { front with steps := left } ⊆ front.held :=
      List.append_subset.2 ⟨List.subset_append_of_subset_left _ (Traversal.releasesOf_drain hdrain),
        List.subset_append_right _ _⟩
    cases target with
    | spilled =>
      obtain ⟨items, hitems⟩ := (SpillArea.holds_create ha config records).exists_scan
      have hkept : restored (a.create config records).2 (.spilled (a.create config records).1)
          { front with steps := left } =
          .through (.chain a.next items { front with steps := left }) := by
        simp only [restored, hitems, SpillArea.id_create]
      refine .inr ⟨records, rfl, ?_⟩
      simp only [keep, hkept, held, Traversal.held_chain]
      exact ⟨List.mem_cons_self, List.cons_subset_cons _ hleft⟩
    | streamThrough | materialized =>
      refine .inl ⟨rfl, ?_⟩
      simpa [keep, restored, held] using hleft
  | materialized records' | spilled store => exact .inl ⟨rfl, List.Subset.refl _⟩

end RecordStream

end RecordFlow
