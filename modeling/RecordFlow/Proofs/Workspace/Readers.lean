import RecordFlow.Proofs.Spill.Reader
import RecordFlow.Proofs.Workspace.Requests

/-!
# What readers still yield

A traversal or a reader in a slot has some items left. To advance it gives the first of them, to
exhaust it gives them all (`advance_of_left?`, `exhaust_of_left?`). No request but its own drop
takes any of them away: what a request hands out of the slot and what is left behind it are what was
left before (`left?_perform`). Disposals and purges are requests like all others here.
-/

namespace RecordFlow

/-- The items that a traversal or a reader has left. -/
def Holding.left? : Holding → Option (List Item)
  | .traversal t => some t.items
  | .reader r => some r.rest.1
  | _ => none

namespace Workspace

/-- The items that the traversal or the reader of a slot has left, if the slot holds one. -/
def left? (w : Workspace) (slot : Nat) : Option (List Item) :=
  ((w.slots[slot]?).join).bind Holding.left?

/-- The items that a request hands out of a slot. -/
def handed (w : Workspace) (slot : Nat) : Request → List Item
  | .advance other =>
    match (w.advance other).1 with
    | .ok (some item) => if other = slot then [item] else []
    | _ => []
  | .exhaust other =>
    match (w.exhaust other).1 with
    | .ok items => if other = slot then items else []
    | _ => []
  | _ => []

variable {w : Workspace} {slot other : Nat} {items : List Item}

theorem exists_of_left? (h : w.left? slot = some items) :
    ∃ object, w.slots[slot]? = some (some object) ∧ object.left? = some items := by
  obtain ⟨object, hslot, hleft⟩ := Option.bind_eq_some_iff.1 h
  exact ⟨object, Option.join_eq_some_iff.1 hslot, hleft⟩

theorem left?_of_slot {object : Holding} (h : w.slots[slot]? = some (some object)) :
    w.left? slot = object.left? := by
  rw [left?, h, Option.join_some, Option.bind_some]

theorem lt_of_left? (h : w.left? slot = some items) : slot < w.slots.length := by
  obtain ⟨object, hslot, -⟩ := exists_of_left? h
  exact (List.getElem?_eq_some_iff.1 hslot).1

/-- A slot that holds a reader holds no stream. -/
theorem ne_of_stream {s : RecordStream} (h : w.left? slot = some items)
    (hget : w.getAs other Holding.stream? = .ok s) : other ≠ slot := by
  rintro rfl
  obtain ⟨object, hslot, hleft⟩ := exists_of_left? h
  obtain rfl : object = .stream s := by simpa [hslot] using stream_slot hget
  simp [Holding.left?] at hleft

/-! ### Slots that a request does not concern -/

theorem left?_add (h : w.left? slot = some items) (object : Holding) :
    (w.add object).2.left? slot = some items := by
  rw [← h, left?, left?, slots_add, List.getElem?_append_left (lt_of_left? h)]

theorem left?_replace_of_ne (hne : other ≠ slot) (object : Option Holding) :
    (w.replace other object).left? slot = w.left? slot := by
  rw [left?, left?, slots_replace, List.getElem?_set_ne hne]

theorem left?_replace_self (h : slot < w.slots.length) (object : Holding) :
    (w.replace slot (some object)).left? slot = object.left? := by
  refine left?_of_slot ?_
  rw [slots_replace, List.getElem?_set_self h]

theorem left?_startWith (h : w.left? slot = some items)
    (start : SpillArea → RecordStream → Except Fault Traversal × RecordStream)
    (make : Traversal → Holding) :
    (w.startWith other start make).2.left? slot = some items := by
  unfold startWith
  cases hget : w.getAs other Holding.stream? with
  | error refusal => exact h
  | ok s =>
    dsimp only
    split
    · exact h
    · exact (left?_replace_of_ne (ne_of_stream h hget) _).trans (left?_add h _)

theorem left?_derive (h : w.left? slot = some items) (stage : Except Fault Stage) :
    (w.derive other stage).2.left? slot = some items := by
  unfold derive
  split
  · exact h
  · exact h
  · exact left?_startWith h _ _

theorem left?_createStream (h : w.left? slot = some items) (config : SpillConfig)
    (target : StorageClass) (produced : List Item) :
    (w.createStream config target produced).2.left? slot = some items := by
  unfold createStream
  split
  · exact h
  · exact left?_add (w := { w with area := _ }) h _

theorem left?_createStore (h : w.left? slot = some items) (config : SpillConfig)
    (produced : List Item) : (w.createStore config produced).2.left? slot = some items := by
  unfold createStore
  split
  · exact h
  · exact left?_add (w := { w with area := _ }) h _

theorem left?_intoTraversal (h : w.left? slot = some items) :
    (w.intoTraversal other).2.left? slot = some items := by
  unfold intoTraversal
  cases hget : w.getAs other Holding.stream? with
  | error refusal => exact h
  | ok s => exact (left?_replace_of_ne (ne_of_stream h hget) _).trans (left?_add h _)

theorem left?_readStream {α : Type} (h : w.left? slot = some items)
    (f : List Item → Except Fault α) : (w.readStream other f).2.left? slot = some items := by
  unfold readStream
  cases hget : w.getAs other Holding.stream? with
  | error refusal => exact h
  | ok s =>
    dsimp only
    split
    · exact h
    · exact (left?_replace_of_ne (ne_of_stream h hget) _).trans h

theorem left?_persist (h : w.left? slot = some items) (config : SpillConfig)
    (target : StorageClass) : (w.persist other config target).2.left? slot = some items := by
  unfold persist
  cases hget : w.getAs other Holding.stream? with
  | error refusal => exact h
  | ok s =>
    exact (left?_replace_of_ne (w := { w with area := _ }) (ne_of_stream h hget) _).trans h

theorem left?_scan (h : w.left? slot = some items) :
    (w.scan other).2.left? slot = some items := by
  unfold scan
  split
  · exact h
  split
  · exact h
  · exact left?_add h _

theorem left?_scanPositions (h : w.left? slot = some items) (positions : List Nat) :
    (w.scanPositions other positions).2.left? slot = some items := by
  unfold scanPositions
  split
  · exact h
  split
  · exact h
  · exact left?_add h _

theorem left?_drop (h : w.left? slot = some items) (hne : other ≠ slot) :
    (w.drop other).2.left? slot = some items := by
  unfold drop
  split
  · exact (left?_replace_of_ne hne _).trans h
  · exact h

theorem left?_dispose (h : w.left? slot = some items) :
    (w.dispose other).2.left? slot = some items := by
  unfold dispose
  split <;> exact h

/-! ### Requests to the reader itself -/

/-- To advance a reader gives the first of the items left, and leaves the others. -/
theorem advance_of_left? (h : w.left? slot = some items) :
    (w.advance slot).1 = .ok items.head? ∧ (w.advance slot).2.left? slot = some items.tail := by
  obtain ⟨object, hslot, hleft⟩ := exists_of_left? h
  have hget := get_eq_ok.2 hslot
  have hlt := lt_of_left? h
  cases object with
  | traversal t =>
    obtain rfl : t.items = items := by simpa [Holding.left?] using hleft
    have hadvance : w.advance slot =
        (.ok t.next.1, w.replace slot (some (.traversal t.next.2))) := by
      rw [advance, hget]
    have hnext := Traversal.itemsOf_nextOf t.steps
    rw [hadvance, left?_replace_self hlt, Holding.left?]
    exact ⟨congrArg Except.ok hnext.1, congrArg some hnext.2⟩
  | reader r =>
    obtain rfl : r.rest.1 = items := by simpa [Holding.left?] using hleft
    have hadvance : w.advance slot =
        (.ok r.next.1, w.replace slot (some (.reader r.next.2))) := by
      rw [advance, hget]
    have hnext : r.next.1 = r.rest.1.head? ∧ r.next.2.rest.1 = r.rest.1.tail := by
      match hnext : r.next with
      | (none, r') =>
        rw [PositionalReader.rest_of_next_none hnext,
          PositionalReader.rest_of_next_none (PositionalReader.next_of_next_none hnext)]
        exact ⟨rfl, rfl⟩
      | (some item, r') =>
        rw [PositionalReader.rest_of_next_some hnext]
        exact ⟨rfl, rfl⟩
    rw [hadvance, left?_replace_self hlt, Holding.left?]
    exact ⟨congrArg Except.ok hnext.1, congrArg some hnext.2⟩
  | stream s | store s | relation s | grouping s | tokens s | record s =>
    simp [Holding.left?] at hleft

/-- To exhaust a reader gives all the items left, and leaves none. -/
theorem exhaust_of_left? (h : w.left? slot = some items) :
    (w.exhaust slot).1 = .ok items ∧ (w.exhaust slot).2.left? slot = some [] := by
  obtain ⟨object, hslot, hleft⟩ := exists_of_left? h
  have hget := get_eq_ok.2 hslot
  have hlt := lt_of_left? h
  cases object with
  | traversal t =>
    obtain rfl : t.items = items := by simpa [Holding.left?] using hleft
    have hexhaust : w.exhaust slot =
        (.ok t.items, w.replace slot (some (.traversal t.rest.2))) := by
      rw [exhaust, hget]
      rfl
    rw [hexhaust, left?_replace_self hlt]
    exact ⟨rfl, rfl⟩
  | reader r =>
    obtain rfl : r.rest.1 = items := by simpa [Holding.left?] using hleft
    have hexhaust : w.exhaust slot =
        (.ok r.rest.1, w.replace slot (some (.reader r.rest.2))) := by
      rw [exhaust, hget]
    rw [hexhaust, left?_replace_self hlt, Holding.left?, PositionalReader.rest_rest]
    exact ⟨rfl, rfl⟩
  | stream s | store s | relation s | grouping s | tokens s | record s =>
    simp [Holding.left?] at hleft

/-- An advance hands out the first of the items left and leaves the others. -/
theorem left?_advance (h : w.left? slot = some items) :
    ∃ rest, (w.advance other).2.left? slot = some rest ∧
      w.handed slot (.advance other) ++ rest = items := by
  by_cases hne : other = slot
  · subst hne
    obtain ⟨hgiven, hrest⟩ := advance_of_left? h
    refine ⟨items.tail, hrest, ?_⟩
    rw [handed, hgiven]
    cases items <;> simp
  · refine ⟨items, ?_, ?_⟩
    · unfold advance
      split
      · exact h
      · exact (left?_replace_of_ne hne _).trans h
      · exact (left?_replace_of_ne hne _).trans h
      · exact h
    · rw [handed]
      split <;> simp [hne]

/-- An exhaustion hands out all the items left. -/
theorem left?_exhaust (h : w.left? slot = some items) :
    ∃ rest, (w.exhaust other).2.left? slot = some rest ∧
      w.handed slot (.exhaust other) ++ rest = items := by
  by_cases hne : other = slot
  · subst hne
    obtain ⟨hgiven, hrest⟩ := exhaust_of_left? h
    refine ⟨[], hrest, ?_⟩
    rw [handed, hgiven]
    simp
  · refine ⟨items, ?_, ?_⟩
    · unfold exhaust
      split
      · exact h
      · exact (left?_replace_of_ne hne _).trans h
      · exact (left?_replace_of_ne hne _).trans h
      · exact h
    · rw [handed]
      split <;> simp [hne]

/-! ### All requests -/

/-- What a request hands out of a slot and what is left there are what was left before. -/
theorem left?_perform (h : w.left? slot = some items) {request : Request}
    (hdrop : request ≠ .drop slot) :
    ∃ rest, (w.perform request).left? slot = some rest ∧
      w.handed slot request ++ rest = items := by
  cases request with
  | advance other => exact left?_advance h
  | exhaust other => exact left?_exhaust h
  | createStream config target produced => exact ⟨items, left?_createStream h config target _, rfl⟩
  | createStore config produced => exact ⟨items, left?_createStore h config _, rfl⟩
  | startTraversal other => exact ⟨items, left?_startWith h _ _, rfl⟩
  | startTake other n => exact ⟨items, left?_startWith h _ _, rfl⟩
  | startPick other positions => exact ⟨items, left?_startWith h _ _, rfl⟩
  | derive other stage => exact ⟨items, left?_derive h stage, rfl⟩
  | intoTraversal other => exact ⟨items, left?_intoTraversal h, rfl⟩
  | readStream other => exact ⟨items, left?_readStream h _, rfl⟩
  | persist other config target => exact ⟨items, left?_persist h config target, rfl⟩
  | drop other =>
    have hne : other ≠ slot := by
      rintro rfl
      exact hdrop rfl
    exact ⟨items, left?_drop h hne, rfl⟩
  | scan other => exact ⟨items, left?_scan h, rfl⟩
  | scanPositions other positions => exact ⟨items, left?_scanPositions h positions, rfl⟩
  | dispose other => exact ⟨items, left?_dispose h, rfl⟩
  | purge => exact ⟨items, h, rfl⟩

end Workspace

end RecordFlow
