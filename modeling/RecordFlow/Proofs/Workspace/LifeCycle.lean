import Mathlib.Data.Finset.Card
import RecordFlow.Proofs.Value.Feed
import RecordFlow.Proofs.Workspace.Readers

/-!
# The life of spill files

Here single requests are put together to runs. `lifeCycle` is what holds after every run of
requests that begins with an empty workspace: which stores are registered, how many there are, that
a store which is not registered any more has gone for good (`Gone`), and that readers keep what they
have left whatever becomes of their store.
-/

namespace RecordFlow.Workspace

/-! ### Runs -/

/-- The workspace after a run of requests. -/
def run (w : Workspace) (requests : List Request) : Workspace :=
  requests.foldl perform w

theorem run_nil (w : Workspace) : w.run [] = w := rfl

theorem run_append (w : Workspace) (first second : List Request) :
    w.run (first ++ second) = (w.run first).run second :=
  List.foldl_append

/-- The stores that a run of requests removes. -/
def removedIn (w : Workspace) : List Request → List StoreId
  | [] => []
  | request :: requests => w.removedBy request ++ removedIn (w.perform request) requests

/-- The items that a run of requests hands out of a slot. -/
def handedOver (w : Workspace) (slot : Nat) : List Request → List Item
  | [] => []
  | request :: requests =>
    w.handed slot request ++ handedOver (w.perform request) slot requests

theorem sound_empty : Sound {} ∅ := by
  refine ⟨SpillArea.numbered_empty, List.nodup_nil, ?_, ?_, ?_, ?_, ?_⟩
  · intro id
    simp [held_eq]
  · simp
  · simp
  · intro id hid
    simp [held_eq] at hid
  · intro id hid
    exact absurd hid (Set.notMem_empty id)

/-- A run keeps the register sound. -/
theorem Sound.leads_run {w : Workspace} {removed : Set StoreId} (hw : w.Sound removed)
    (requests : List Request) :
    w.Leads (w.run requests) (removed ∪ {id | id ∈ w.removedIn requests}) := by
  induction requests generalizing w removed with
  | nil =>
    have hset : removed ∪ {id | id ∈ w.removedIn []} = removed := by simp [removedIn]
    rw [hset]
    exact hw.leads_self
  | cons request requests ih =>
    have hfirst := hw.leads_perform request
    have hrest := ih hfirst.sound
    have hset : removed ∪ {id | id ∈ w.removedIn (request :: requests)} =
        removed ∪ {id | id ∈ w.removedBy request} ∪
          {id | id ∈ (w.perform request).removedIn requests} := by
      ext id
      simp [removedIn, or_assoc]
    rw [hset]
    exact ⟨hrest.sound, hfirst.reaches.trans hrest.reaches⟩

/-- The register after a run from the empty workspace. -/
theorem sound_run (requests : List Request) :
    (run {} requests).Sound {id | id ∈ removedIn {} requests} := by
  have h := (sound_empty.leads_run requests).sound
  rwa [Set.empty_union] at h

/-- A run hands out of a slot, in order, what the reader there had left, unless the reader is
dropped. -/
theorem left?_run {w : Workspace} {slot : Nat} {items : List Item}
    (h : w.left? slot = some items) {requests : List Request} (hdrop : .drop slot ∉ requests) :
    ∃ rest, (w.run requests).left? slot = some rest ∧
      w.handedOver slot requests ++ rest = items := by
  induction requests generalizing w items with
  | nil => exact ⟨items, h, rfl⟩
  | cons request requests ih =>
    rw [List.mem_cons, not_or] at hdrop
    obtain ⟨hne, hnot⟩ := hdrop
    obtain ⟨between, hbetween, hfirst⟩ := left?_perform h (Ne.symm hne)
    obtain ⟨rest, hrest, hlater⟩ := ih hbetween hnot
    refine ⟨rest, hrest, ?_⟩
    rw [handedOver, List.append_assoc, hlater, hfirst]

/-! ### Stores that have gone -/

/-- A store has gone: it is not registered and counts as disposed. To read it, through its handle or
through a stream, is an invalid argument, and to dispose it once more is not. -/
structure Gone (w : Workspace) (id : StoreId) : Prop where
  not_mem_registered : id ∉ w.area.registered
  isDisposed : w.area.isDisposed id
  scan : ∀ slot store, w.getAs slot Holding.store? = .ok store → store.id = id →
    ∃ fault, fault.kind = .invalidArgument ∧ w.scan slot = (.error (.fault fault), w)
  scanPositions : ∀ slot store positions, w.getAs slot Holding.store? = .ok store →
    store.id = id → (∀ position ∈ positions, position < store.count) →
    ∃ fault, fault.kind = .invalidArgument ∧
      w.scanPositions slot positions = (.error (.fault fault), w)
  traverse : ∀ slot store, w.getAs slot Holding.stream? = .ok (.spilled store) → store.id = id →
    ∃ fault, fault.kind = .invalidArgument ∧ w.startTraversal slot = (.error (.fault fault), w)
  dispose : ∀ slot store, w.backing slot = .ok (some store) → store.id = id →
    (w.dispose slot).1 = .ok ()

theorem lines_of_isDisposed {a : SpillArea} {store : SpillStore} (h : a.isDisposed store.id) :
    a.lines store = .error .storeDisposed := by
  rw [SpillArea.lines, if_pos h]

theorem Sound.gone {w : Workspace} {removed : Set StoreId} (hw : w.Sound removed) {id : StoreId}
    (h : w.area.isDisposed id) : w.Gone id := by
  refine ⟨(SpillArea.Registers.isDisposed_iff hw id).1 h, h, ?_, ?_, ?_, ?_⟩
  · rintro slot store hget rfl
    refine ⟨.storeDisposed, rfl, ?_⟩
    rw [Workspace.scan, hget]
    simp only [SpillArea.scan, lines_of_isDisposed h, Except.map]
  · rintro slot store positions hget rfl hin
    refine ⟨.storeDisposed, rfl, ?_⟩
    have hfind : positions.find? (store.count ≤ ·) = none := by
      rw [List.find?_eq_none]
      intro position hposition
      have hlt := hin position hposition
      simp only [decide_eq_true_eq]
      omega
    rw [Workspace.scanPositions, hget]
    simp only [SpillArea.scanPositions, hfind, lines_of_isDisposed h, Except.map]
  · rintro slot store hget rfl
    refine ⟨.storeDisposed, rfl, ?_⟩
    rw [Workspace.startTraversal, startWith, hget]
    simp only [RecordStream.traverse, SpillArea.scan, lines_of_isDisposed h, Except.map]
  · rintro slot store hbacking rfl
    rw [Workspace.dispose, hbacking]

/-! ### The whole life -/

/-- After every run of requests the registered stores are exactly those that something in a slot
holds and that no request has removed, each of them once. The number of live stores is theirs; a
purge answers with this number and leaves none. A store that has been made and is not registered
has gone, and stays so through every later run. A reader in a slot loses none of the items it has
left, whatever is disposed or purged: a later run hands them out in order up to where it ends, and
of those behind that point an advance then gives the first and an exhaustion gives all. -/
theorem lifeCycle (requests : List Request) :
    let w := run {} requests
    let removed := removedIn {} requests
    w.area.registered.Nodup ∧
    (∀ id, id ∈ w.area.registered ↔ id ∈ w.held ∧ id ∉ removed) ∧
    w.area.live = (w.held.toFinset \ removed.toFinset).card ∧
    w.purge.1 = w.area.live ∧
    w.purge.2.area.registered = [] ∧
    (∀ id < w.area.next, id ∉ w.area.registered → ∀ later, (w.run later).Gone id) ∧
    (∀ slot items, w.left? slot = some items → ∀ later, .drop slot ∉ later →
      ∃ rest, (w.run later).left? slot = some rest ∧ w.handedOver slot later ++ rest = items ∧
        ((w.run later).advance slot).1 = .ok rest.head? ∧
        ((w.run later).exhaust slot).1 = .ok rest) := by
  intro w removed
  have hw : w.Sound {id | id ∈ removed} := sound_run requests
  have hset : w.area.registered.toFinset = w.held.toFinset \ removed.toFinset := by
    ext id
    rw [List.mem_toFinset, Finset.mem_sdiff, List.mem_toFinset, List.mem_toFinset]
    exact hw.mem_registered id
  refine ⟨hw.nodup, hw.mem_registered, ?_, hw.purge_count, rfl, ?_, ?_⟩
  · rw [← hset, List.toFinset_card_of_nodup hw.nodup, SpillArea.live]
  · intro id hid hnot later
    have hlater := hw.leads_run later
    have hdisposed : w.area.isDisposed id :=
      (SpillArea.Registers.isDisposed_iff hw id).2 hnot
    exact hlater.sound.gone (hlater.reaches.isDisposed hid hdisposed)
  · intro slot items hleft later hdrop
    obtain ⟨rest, hrest, hitems⟩ := left?_run hleft hdrop
    exact ⟨rest, hrest, hitems, (advance_of_left? hrest).1, (exhaust_of_left? hrest).1⟩

/-- Items that all give a record have not failed. -/
theorem eq_map_ok_of_toOption {items : List Item} {records : List Record}
    (h : items.map Except.toOption = records.map some) : items = records.map .ok := by
  induction items generalizing records with
  | nil => cases records <;> simp_all
  | cons item items ih =>
    cases records with
    | nil => cases h
    | cons record records =>
      obtain ⟨hitem, hrest⟩ := List.cons.inj h
      cases item with
      | error fault => cases hitem
      | ok first =>
        obtain rfl := Option.some.inj hitem
        rw [List.map_cons, ih hrest]

/-- A stream of two records on disk, the first of which a traversal has read. -/
def halfRead : List Request :=
  [.createStream .default .spilled [.ok [], .ok [("a", .null)]], .startTraversal 0, .advance 1]

/-- The stream moves to memory, which removes its file; the area is purged and a store made. -/
def movedAndPurged : List Request :=
  [.persist 0 .default .materialized, .purge, .createStore .default []]

/-- The traversal still gives the second record. The first store has gone, and only the new one is
live. -/
theorem lifeCycle_halfRead :
    (run {} halfRead).left? 1 = some [.ok [("a", .null)]] ∧ .drop 1 ∉ movedAndPurged ∧
    (((run {} halfRead).run movedAndPurged).advance 1).1 = .ok (some (.ok [("a", .null)])) ∧
    (((run {} halfRead).run movedAndPurged).exhaust 1).1 = .ok [.ok [("a", .null)]] ∧
    ((run {} halfRead).run movedAndPurged).area.registered = [1] ∧
    ((run {} halfRead).run movedAndPurged).Gone 0 := by
  have hrecords : ((run {} halfRead).left? 1).map (List.map Except.toOption) =
      some [some [("a", .null)]] := by decide +kernel
  have hnone : (run {} halfRead).handedOver 1 movedAndPurged = [] := rfl
  have harea : ((run {} halfRead).run movedAndPurged).area.registered = [1] ∧
      ((run {} halfRead).run movedAndPurged).area.next = 2 := by decide +kernel
  obtain ⟨-, -, -, -, -, -, hreaders⟩ := lifeCycle halfRead
  obtain ⟨-, -, -, -, -, hgone, -⟩ := lifeCycle (halfRead ++ movedAndPurged)
  rw [run_append] at hgone
  generalize run {} halfRead = w at hrecords hnone harea hreaders hgone ⊢
  have hleft : w.left? 1 = some [.ok [("a", .null)]] := by
    obtain ⟨items, hitems, hmap⟩ := Option.map_eq_some_iff.1 hrecords
    have hall : items = [[("a", .null)]].map .ok := eq_map_ok_of_toOption hmap
    rw [hitems, hall, List.map_singleton]
  have hnot : .drop 1 ∉ movedAndPurged := by simp [movedAndPurged]
  obtain ⟨rest, -, hitems, hadvance, hexhaust⟩ := hreaders 1 _ hleft movedAndPurged hnot
  obtain rfl : rest = [.ok [("a", .null)]] := by rwa [hnone] at hitems
  obtain ⟨hregistered, hnext⟩ := harea
  have hlast := hgone 0 (by rw [hnext]; decide) (by rw [hregistered]; decide) []
  rw [run_nil] at hlast
  exact ⟨hleft, hnot, hadvance, hexhaust, hregistered, hlast⟩

end RecordFlow.Workspace
