import RecordFlow.Proofs.Workspace.Holders

/-!
# What requests do to the register

A `Request` is one that makes, reads, moves or removes what is backed by spill stores. Every one of
them keeps the register of a workspace sound and changes its area by single steps
(`leads_perform`). Only a disposal on request and a purge remove stores (`removedBy`); all others
merely let go of what nobody holds any more.
-/

namespace RecordFlow

/-- A request about streams, stores and traversals. -/
inductive Request where
  | createStream (config : SpillConfig) (target : StorageClass) (items : List Item)
  | createStore (config : SpillConfig) (items : List Item)
  | startTraversal (slot : Nat)
  | startTake (slot n : Nat)
  | startPick (slot : Nat) (positions : List Nat)
  | derive (slot : Nat) (stage : Except Fault Stage)
  | intoTraversal (slot : Nat)
  | readStream (slot : Nat)
  | persist (slot : Nat) (config : SpillConfig) (target : StorageClass)
  | advance (slot : Nat)
  | exhaust (slot : Nat)
  | drop (slot : Nat)
  | scan (slot : Nat)
  | scanPositions (slot : Nat) (positions : List Nat)
  | dispose (slot : Nat)
  | purge

namespace Workspace

/-- The workspace after a request. -/
def perform (w : Workspace) : Request → Workspace
  | .createStream config target items => (w.createStream config target items).2
  | .createStore config items => (w.createStore config items).2
  | .startTraversal slot => (w.startTraversal slot).2
  | .startTake slot n => (w.startTake slot n).2
  | .startPick slot positions => (w.startPick slot positions).2
  | .derive slot stage => (w.derive slot stage).2
  | .intoTraversal slot => (w.intoTraversal slot).2
  | .readStream slot => (w.readStream slot Item.records).2
  | .persist slot config target => (w.persist slot config target).2
  | .advance slot => (w.advance slot).2
  | .exhaust slot => (w.exhaust slot).2
  | .drop slot => (w.drop slot).2
  | .scan slot => (w.scan slot).2
  | .scanPositions slot positions => (w.scanPositions slot positions).2
  | .dispose slot => (w.dispose slot).2
  | .purge => w.purge.2

/-- The stores that a request removes: the one behind the slot of a disposal, and at a purge all
that anybody holds. -/
def removedBy (w : Workspace) : Request → List StoreId
  | .dispose slot =>
    match w.backing slot with
    | .ok (some store) => [store.id]
    | _ => []
  | .purge => w.held
  | _ => []

variable {w : Workspace} {removed : Set StoreId}

/-! ### Making streams and stores -/

/-- A new object that holds a new store. -/
theorem Sound.leads_create (hw : w.Sound removed) (config : SpillConfig) (records : List Record)
    {h : Holding} (hheld : h.held = [w.area.next]) :
    w.Leads (add { w with area := (w.area.create config records).2 } h).2 removed := by
  refine Workspace.leads_add (SpillArea.Registers.create hw config records) (.single (.create _ _)) ?_
  intro id
  rw [hheld, List.mem_singleton, Set.mem_insert_iff]
  exact or_comm

theorem Sound.leads_createStore (hw : w.Sound removed) (config : SpillConfig)
    (items : List Item) : w.Leads (w.createStore config items).2 removed := by
  unfold createStore SpillArea.createFrom
  cases Item.records items with
  | error fault => exact hw.leads_self
  | ok records => exact hw.leads_create config records rfl

theorem Sound.leads_createStream (hw : w.Sound removed) (config : SpillConfig)
    (target : StorageClass) (items : List Item) :
    w.Leads (w.createStream config target items).2 removed := by
  unfold createStream RecordStream.ofItems
  cases target with
  | streamThrough =>
    apply hw.leads_add
    rw [Holding.held, RecordStream.held, Traversal.held_ofItems]
    exact List.nil_subset _
  | materialized =>
    cases Item.records items with
    | error fault => exact hw.leads_self
    | ok records => exact hw.leads_add (List.nil_subset _)
  | spilled =>
    unfold SpillArea.createFrom
    cases Item.records items with
    | error fault => exact hw.leads_self
    | ok records => exact hw.leads_create config records rfl

/-! ### Reading streams -/

theorem stream_slot {slot : Nat} {s : RecordStream} (h : w.getAs slot Holding.stream? = .ok s) :
    w.slots[slot]? = some (some (.stream s)) := by
  obtain ⟨object, hslot, hkind⟩ := getAs_eq_ok.1 h
  cases object <;> cases hkind
  exact hslot

theorem held_of_stream {slot : Nat} {s : RecordStream}
    (h : w.getAs slot Holding.stream? = .ok s) : s.held ⊆ w.held :=
  held_subset_of_slot (stream_slot h)

/-- A new object takes over what a stream held, and the stream stays with what is left. -/
theorem Sound.leads_startWith (hw : w.Sound removed) (slot : Nat)
    {start : SpillArea → RecordStream → Except Fault Traversal × RecordStream}
    {make : Traversal → Holding}
    (hstart : ∀ s s' t, start w.area s = (.ok t, s') → t.held ⊆ s.held ∧ s'.held ⊆ s.held)
    (hmake : ∀ t, (make t).held ⊆ t.held) :
    w.Leads (w.startWith slot start make).2 removed := by
  unfold startWith
  cases hget : w.getAs slot Holding.stream? with
  | error refusal => exact hw.leads_self
  | ok s =>
    have hs := held_of_stream hget
    dsimp only
    split
    · exact hw.leads_self
    next t s' hstarted =>
    obtain ⟨ht, hs'⟩ := hstart s s' t hstarted
    have hadd := hw.leads_add (List.Subset.trans (hmake t) (List.Subset.trans ht hs))
    refine hadd.trans (hadd.sound.leads_replace ?_ ?_)
    · rw [slots_add, List.length_append]
      exact Nat.lt_add_right _ (lt_of_getAs hget)
    · intro id hid
      exact (mem_held_add w (make t) id).2 (.inl (hs (hs' hid)))

theorem Sound.leads_startTraversal (hw : w.Sound removed) (slot : Nat) :
    w.Leads (w.startTraversal slot).2 removed :=
  hw.leads_startWith slot (fun _ _ _ => RecordStream.held_traverse) fun _ => List.Subset.refl _

theorem Sound.leads_startTake (hw : w.Sound removed) (slot n : Nat) :
    w.Leads (w.startTake slot n).2 removed := by
  apply hw.leads_startWith slot (fun _ _ _ => RecordStream.held_traverse)
  intro t
  rw [Holding.held, Traversal.held_take]
  exact List.Subset.refl _

theorem Sound.leads_startPick (hw : w.Sound removed) (slot : Nat) (positions : List Nat) :
    w.Leads (w.startPick slot positions).2 removed :=
  hw.leads_startWith slot (fun _ _ _ => RecordStream.held_pick) fun _ => List.Subset.refl _

theorem Sound.leads_derive (hw : w.Sound removed) (slot : Nat) (stage : Except Fault Stage) :
    w.Leads (w.derive slot stage).2 removed := by
  unfold derive
  split
  · exact hw.leads_self
  · exact hw.leads_self
  · apply hw.leads_startWith slot (fun _ _ _ => RecordStream.held_traverse)
    intro t
    rw [Holding.held, RecordStream.held, Traversal.held_through]
    exact List.Subset.refl _

/-- A traversal takes the place of a stream. -/
theorem Sound.leads_intoTraversal (hw : w.Sound removed) (slot : Nat) :
    w.Leads (w.intoTraversal slot).2 removed := by
  unfold intoTraversal
  cases hget : w.getAs slot Holding.stream? with
  | error refusal => exact hw.leads_self
  | ok s =>
    dsimp only
    have hmade : ∀ t : Traversal, t.held ⊆ s.held →
        w.Leads ((w.add (.traversal t)).2.replace slot none) removed := by
      intro t ht
      have hadd := hw.leads_add (h := .traversal t) (List.Subset.trans ht (held_of_stream hget))
      refine hadd.trans (hadd.sound.leads_replace ?_ (List.nil_subset _))
      rw [slots_add, List.length_append]
      exact Nat.lt_add_right _ (lt_of_getAs hget)
    split
    · next t ht => exact hmade t (RecordStream.held_traverse (Prod.ext ht rfl)).1
    · next fault hfault =>
      apply hmade _
      rw [Traversal.held_ofItems]
      exact List.nil_subset _

theorem Sound.leads_readStream {α : Type} (hw : w.Sound removed) (slot : Nat)
    (f : List Item → Except Fault α) : w.Leads (w.readStream slot f).2 removed := by
  unfold readStream
  cases hget : w.getAs slot Holding.stream? with
  | error refusal => exact hw.leads_self
  | ok s =>
    dsimp only
    split
    · exact hw.leads_self
    next t s' htraversed =>
    apply hw.leads_replace (lt_of_getAs hget)
    exact List.Subset.trans (RecordStream.held_traverse htraversed).2 (held_of_stream hget)

/-! ### Moving streams -/

/-- A move makes at most one new store, which the stream holds when it is back in its slot. What
nobody holds then is let go of. -/
theorem Sound.leads_moved (hw : w.Sound removed) {slot : Nat} {s : RecordStream}
    (hget : w.getAs slot Holding.stream? = .ok s) (config : SpillConfig) (target : StorageClass) :
    let moved := s.persist w.area config target
    (∃ held, moved.2.2.Registers held removed) ∧ w.area.Reaches moved.2.2 ∧
      Leads { w with area := moved.2.2 }
        (replace { w with area := moved.2.2 } slot (some (.stream moved.2.1))) removed := by
  intro moved
  have hlt := lt_of_getAs hget
  have hs := held_of_stream hget
  have hcases := RecordStream.held_persist hw.numbered config target s
  change (moved.2.2 = w.area ∧ moved.2.1.held ⊆ s.held) ∨ _ at hcases
  rcases hcases with ⟨harea, hsub⟩ | ⟨records, harea, hnew, hsub⟩
  · rw [harea]
    exact ⟨⟨_, hw⟩, .refl, hw.leads_replace hlt (List.Subset.trans hsub hs)⟩
  · have hcreated := SpillArea.Registers.create hw config records
    rw [harea]
    refine ⟨⟨_, hcreated⟩, .single (.create config records), ?_⟩
    refine Workspace.leads_replace hcreated hlt ?_
    intro id
    rw [Set.mem_insert_iff]
    constructor
    · rintro (rfl | hid)
      · exact .inr hnew
      · exact .inl hid
    · rintro (hid | hid)
      · exact .inr hid
      · rcases List.mem_cons.1 (hsub hid) with rfl | hid
        · exact .inl rfl
        · exact .inr (hs hid)

theorem persist_eq {slot : Nat} {s : RecordStream}
    (hget : w.getAs slot Holding.stream? = .ok s) (config : SpillConfig) (target : StorageClass) :
    w.persist slot config target =
      ((s.persist w.area config target).1.mapError .fault,
        replace { w with area := (s.persist w.area config target).2.2 } slot
          (some (.stream (s.persist w.area config target).2.1))) := by
  rw [persist, hget]

theorem Sound.leads_persist (hw : w.Sound removed) (slot : Nat) (config : SpillConfig)
    (target : StorageClass) : w.Leads (w.persist slot config target).2 removed := by
  cases hget : w.getAs slot Holding.stream? with
  | error refusal =>
    rw [persist, hget]
    exact hw.leads_self
  | ok s =>
    obtain ⟨-, hreaches, hleads⟩ := hw.leads_moved hget config target
    rw [persist_eq hget]
    exact ⟨hleads.sound, hreaches.trans hleads.reaches⟩

/-! ### Advancing and dropping -/

theorem Sound.leads_advance (hw : w.Sound removed) (slot : Nat) :
    w.Leads (w.advance slot).2 removed := by
  unfold advance
  split
  · exact hw.leads_self
  · next t hget =>
    have hslot := get_eq_ok.1 hget
    refine hw.leads_replace (List.getElem?_eq_some_iff.1 hslot).1 ?_
    exact List.Subset.trans t.held_next (held_subset_of_slot hslot)
  · next r hget =>
    refine hw.leads_replace (List.getElem?_eq_some_iff.1 (get_eq_ok.1 hget)).1 ?_
    exact List.nil_subset _
  · exact hw.leads_self

theorem Sound.leads_exhaust (hw : w.Sound removed) (slot : Nat) :
    w.Leads (w.exhaust slot).2 removed := by
  unfold exhaust
  split
  · exact hw.leads_self
  · next t hget =>
    have hslot := get_eq_ok.1 hget
    refine hw.leads_replace (List.getElem?_eq_some_iff.1 hslot).1 ?_
    exact List.Subset.trans t.held_rest (held_subset_of_slot hslot)
  · next r hget =>
    refine hw.leads_replace (List.getElem?_eq_some_iff.1 (get_eq_ok.1 hget)).1 ?_
    exact List.nil_subset _
  · exact hw.leads_self

theorem Sound.leads_drop (hw : w.Sound removed) (slot : Nat) :
    w.Leads (w.drop slot).2 removed := by
  unfold drop
  split
  · next hslot => exact hw.leads_replace hslot (List.nil_subset _)
  · exact hw.leads_self

/-! ### Stores -/

theorem Sound.leads_scan (hw : w.Sound removed) (slot : Nat) :
    w.Leads (w.scan slot).2 removed := by
  unfold scan
  split
  · exact hw.leads_self
  split
  · exact hw.leads_self
  next store _ items _ =>
  apply hw.leads_add
  rw [Holding.held, Traversal.held_ofItems]
  exact List.nil_subset _

theorem Sound.leads_scanPositions (hw : w.Sound removed) (slot : Nat) (positions : List Nat) :
    w.Leads (w.scanPositions slot positions).2 removed := by
  unfold scanPositions
  split
  · exact hw.leads_self
  split
  · exact hw.leads_self
  · exact hw.leads_add (List.nil_subset _)

/-- The store behind an object is one that the object holds. -/
theorem held_of_backing {slot : Nat} {store : SpillStore}
    (h : w.backing slot = .ok (some store)) : store.id ∈ w.held := by
  obtain ⟨object, hslot, hkind⟩ := getAs_eq_ok.1 h
  refine held_subset_of_slot hslot ?_
  cases object with
  | store s =>
    obtain rfl : s = store := by simpa [Holding.backing?] using hkind
    exact List.mem_singleton_self _
  | stream s =>
    cases s with
    | spilled s =>
      obtain rfl : s = store := by simpa [Holding.backing?, RecordStream.store?] using hkind
      exact List.mem_singleton_self _
    | through left | materialized records => simp [Holding.backing?, RecordStream.store?] at hkind
  | traversal t | reader r | relation r | grouping g | tokens t | record r =>
    simp [Holding.backing?] at hkind

theorem Sound.leads_dispose (hw : w.Sound removed) (slot : Nat) :
    w.Leads (w.dispose slot).2 (removed ∪ {id | id ∈ w.removedBy (.dispose slot)}) := by
  have hnone : removed ∪ {id | id ∈ ([] : List StoreId)} = removed := by simp
  cases hbacking : w.backing slot with
  | error refusal =>
    simp only [dispose, removedBy, hbacking, hnone]
    exact hw.leads_self
  | ok store =>
    cases store with
    | none =>
      simp only [dispose, removedBy, hbacking, hnone, Option.elim_none]
      exact hw.leads_self
    | some store =>
      have hheld := held_of_backing hbacking
      have hset : removed ∪ {id | id ∈ [store.id]} = insert store.id removed := by
        ext id
        simp [or_comm]
      simp only [dispose, removedBy, hbacking, hset, Option.elim_some]
      exact ⟨SpillArea.Registers.dispose hw hheld,
        .single (.dispose store.id (SpillArea.Registers.held_lt hw _ hheld))⟩

theorem Sound.leads_purge (hw : w.Sound removed) :
    w.Leads w.purge.2 (removed ∪ {id | id ∈ w.held}) :=
  ⟨SpillArea.Registers.purge hw, .single .purge⟩

/-! ### All requests -/

theorem Sound.leads_perform (hw : w.Sound removed) (request : Request) :
    w.Leads (w.perform request) (removed ∪ {id | id ∈ w.removedBy request}) := by
  have hnone : ∀ request, w.removedBy request = [] →
      removed ∪ {id | id ∈ w.removedBy request} = removed := by
    intro request hrequest
    simp [hrequest]
  cases request with
  | dispose slot => exact hw.leads_dispose slot
  | purge => exact hw.leads_purge
  | createStream config target items =>
    rw [hnone _ rfl]
    exact hw.leads_createStream config target items
  | createStore config items =>
    rw [hnone _ rfl]
    exact hw.leads_createStore config items
  | startTraversal slot =>
    rw [hnone _ rfl]
    exact hw.leads_startTraversal slot
  | startTake slot n =>
    rw [hnone _ rfl]
    exact hw.leads_startTake slot n
  | startPick slot positions =>
    rw [hnone _ rfl]
    exact hw.leads_startPick slot positions
  | derive slot stage =>
    rw [hnone _ rfl]
    exact hw.leads_derive slot stage
  | intoTraversal slot =>
    rw [hnone _ rfl]
    exact hw.leads_intoTraversal slot
  | readStream slot =>
    rw [hnone _ rfl]
    exact hw.leads_readStream slot Item.records
  | persist slot config target =>
    rw [hnone _ rfl]
    exact hw.leads_persist slot config target
  | advance slot =>
    rw [hnone _ rfl]
    exact hw.leads_advance slot
  | exhaust slot =>
    rw [hnone _ rfl]
    exact hw.leads_exhaust slot
  | drop slot =>
    rw [hnone _ rfl]
    exact hw.leads_drop slot
  | scan slot =>
    rw [hnone _ rfl]
    exact hw.leads_scan slot
  | scanPositions slot positions =>
    rw [hnone _ rfl]
    exact hw.leads_scanPositions slot positions

end Workspace

end RecordFlow
