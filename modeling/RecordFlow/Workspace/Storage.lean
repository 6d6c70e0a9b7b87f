import RecordFlow.Workspace.Basic

/-!
# Streams, stores and traversals in a workspace

Requests that make, read, move and dispose what is backed by spill stores. A request that makes
something puts it into a new slot before it changes the slot that it came from, so no store is let
go of in between.
-/

namespace RecordFlow.Workspace

/-! ### Making streams and stores -/

def createStream (w : Workspace) (config : SpillConfig) (target : StorageClass)
    (items : List Item) : Outcome Nat :=
  match RecordStream.ofItems w.area config target items with
  | (.error fault, area) => (.error (.fault fault), { w with area := area })
  | (.ok s, area) =>
    let (slot, w) := add { w with area := area } (.stream s)
    (.ok slot, w)

def createStore (w : Workspace) (config : SpillConfig) (items : List Item) : Outcome Nat :=
  match w.area.createFrom config items with
  | (.error fault, area) => (.error (.fault fault), { w with area := area })
  | (.ok s, area) =>
    let (slot, w) := add { w with area := area } (.store s)
    (.ok slot, w)

/-! ### Reading streams -/

def startWith (w : Workspace) (slot : Nat)
    (start : SpillArea → RecordStream → Except Fault Traversal × RecordStream)
    (make : Traversal → Holding) : Outcome Nat :=
  match w.getAs slot Holding.stream? with
  | .error refusal => (.error refusal, w)
  | .ok s =>
    match start w.area s with
    | (.error fault, _) => (.error (.fault fault), w)
    | (.ok t, s) =>
      let (made, w) := w.add (make t)
      (.ok made, w.replace slot (some (.stream s)))

def startTraversal (w : Workspace) (slot : Nat) : Outcome Nat :=
  w.startWith slot RecordStream.traverse .traversal

/-- A new traversal of at most `n` items of a stream. -/
def startTake (w : Workspace) (slot n : Nat) : Outcome Nat :=
  w.startWith slot RecordStream.traverse fun t => .traversal (t.take n)

/-- A new traversal of the items of a stream at some positions. -/
def startPick (w : Workspace) (slot : Nat) (positions : List Nat) : Outcome Nat :=
  w.startWith slot (fun area s => s.pick area positions) .traversal

/-- A new stream of what a stage makes of a stream. -/
def derive (w : Workspace) (slot : Nat) (stage : Except Fault Stage) : Outcome Nat :=
  match w.getAs slot Holding.stream?, stage with
  | .error refusal, _ => (.error refusal, w)
  | .ok _, .error fault => (.error (.fault fault), w)
  | .ok _, .ok stage =>
    w.startWith slot RecordStream.traverse fun t => .stream (.through (t.through stage))

/-- A traversal that takes the place of a stream; a stream that cannot be traversed leaves its
failure as the only item. -/
def intoTraversal (w : Workspace) (slot : Nat) : Outcome Nat :=
  match w.getAs slot Holding.stream? with
  | .error refusal => (.error refusal, w)
  | .ok s =>
    let t := match (s.traverse w.area).1 with
      | .ok t => t
      | .error fault => Traversal.ofItems [.error fault]
    let (made, w) := w.add (.traversal t)
    (.ok made, w.replace slot none)

def readStream {α : Type} (w : Workspace) (slot : Nat) (f : List Item → Except Fault α) :
    Outcome α :=
  match w.getAs slot Holding.stream? with
  | .error refusal => (.error refusal, w)
  | .ok s =>
    match s.traverse w.area with
    | (.error fault, _) => (.error (.fault fault), w)
    | (.ok t, s) => ((f t.items).mapError .fault, w.replace slot (some (.stream s)))

def persist (w : Workspace) (slot : Nat) (config : SpillConfig) (target : StorageClass) :
    Outcome Bool :=
  match w.getAs slot Holding.stream? with
  | .error refusal => (.error refusal, w)
  | .ok s =>
    let (moved, s, area) := s.persist w.area config target
    (moved.mapError .fault, replace { w with area := area } slot (some (.stream s)))

/-! ### Advancing traversals -/

/-- The next item of a traversal or a reader, if there is one. -/
def advance (w : Workspace) (slot : Nat) : Outcome (Option Item) :=
  match w.get slot with
  | .error refusal => (.error refusal, w)
  | .ok (.traversal t) =>
    let (item, t) := t.next
    (.ok item, w.replace slot (some (.traversal t)))
  | .ok (.reader r) =>
    let (item, r) := r.next
    (.ok item, w.replace slot (some (.reader r)))
  | .ok _ => (.error .otherKind, w)

/-- All items that a traversal or a reader has left. -/
def exhaust (w : Workspace) (slot : Nat) : Outcome (List Item) :=
  match w.get slot with
  | .error refusal => (.error refusal, w)
  | .ok (.traversal t) =>
    let (items, t) := t.rest
    (.ok items, w.replace slot (some (.traversal t)))
  | .ok (.reader r) =>
    let (items, r) := r.rest
    (.ok items, w.replace slot (some (.reader r)))
  | .ok _ => (.error .otherKind, w)

def decoded (w : Workspace) (slot : Nat) : Except Refusal Nat :=
  w.getAs slot fun
    | .reader r => some r.decoded
    | _ => none

/-! ### Stores -/

/-- The spill store behind a slot, if it has one. -/
def backing (w : Workspace) (slot : Nat) : Except Refusal (Option SpillStore) :=
  w.getAs slot Holding.backing?

/-- A new traversal of all records of a store. It does not hold the store. -/
def scan (w : Workspace) (slot : Nat) : Outcome Nat :=
  match w.getAs slot Holding.store? with
  | .error refusal => (.error refusal, w)
  | .ok store =>
    match w.area.scan store with
    | .error fault => (.error (.fault fault), w)
    | .ok items =>
      let (made, w) := w.add (.traversal (.ofItems items))
      (.ok made, w)

/-- A new reader of some positions of a store. It does not hold the store. -/
def scanPositions (w : Workspace) (slot : Nat) (positions : List Nat) : Outcome Nat :=
  match w.getAs slot Holding.store? with
  | .error refusal => (.error refusal, w)
  | .ok store =>
    match w.area.scanPositions store positions with
    | .error fault => (.error (.fault fault), w)
    | .ok reader =>
      let (made, w) := w.add (.reader reader)
      (.ok made, w)

def dispose (w : Workspace) (slot : Nat) : Outcome Unit :=
  match w.backing slot with
  | .error refusal => (.error refusal, w)
  | .ok store =>
    (.ok (), { w with area := store.elim w.area fun store => w.area.dispose store.id })

/-- The files of all live stores are removed; the answer is how many there were. -/
def purge (w : Workspace) : Nat × Workspace :=
  let (removed, area) := w.area.purge
  (removed, { w with area := area })

/-- The file behind a slot is given other contents. -/
def overwrite (w : Workspace) (slot : Nat) (contents : String) : Outcome Unit :=
  match w.backing slot with
  | .error refusal => (.error refusal, w)
  | .ok store =>
    (.ok (), { w with
      area := store.elim w.area fun store => w.area.overwrite store.id contents })

/-- The file behind a slot is removed without the knowledge of its store; the answer is whether
there was one. -/
def unlink (w : Workspace) (slot : Nat) : Outcome (Option Bool) :=
  match w.backing slot with
  | .error refusal => (.error refusal, w)
  | .ok none => (.ok none, w)
  | .ok (some store) =>
    (.ok (some (w.area.hasFile store.id)), { w with area := w.area.removeFile store.id })

end RecordFlow.Workspace
