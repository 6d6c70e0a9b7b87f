import RecordFlow.Relation.Basic
import RecordFlow.Stream.Traversal

/-!
# Record streams

A `RecordStream` is a sequence of records that is kept in one of three ways. A stream-through stream
is a traversal that can be made once; a materialized stream keeps its records in memory and a
spilled one in a spill store, and both can be traversed any number of times. `RecordStream.persist`
moves a stream from one class to another. A move that meets a failure reports it and takes only
that one item from the stream.
-/

namespace RecordFlow

/-- The ways in which a stream is kept. -/
inductive StorageClass where
  | streamThrough
  | materialized
  | spilled
deriving DecidableEq, Repr

namespace StorageClass

def name : StorageClass → String
  | .streamThrough => "stream-through"
  | .materialized => "materialized"
  | .spilled => "spilled"

def ofName? (s : String) : Option StorageClass :=
  [streamThrough, materialized, spilled].find? (·.name == s)

def debugText : StorageClass → String
  | .streamThrough => "StreamThrough"
  | .materialized => "Materialized"
  | .spilled => "Spilled"

end StorageClass

/-- A sequence of records. -/
inductive RecordStream where
  /-- What is left of the only pass. -/
  | through (left : Traversal)
  | materialized (records : List Record)
  | spilled (store : SpillStore)

namespace RecordStream

def storageClass : RecordStream → StorageClass
  | .through _ => .streamThrough
  | .materialized _ => .materialized
  | .spilled _ => .spilled

/-- The number of records, where it is known without a traversal. -/
def count? : RecordStream → Option Nat
  | .through _ => none
  | .materialized records => some records.length
  | .spilled store => some store.count

def store? : RecordStream → Option SpillStore
  | .spilled store => some store
  | _ => none

/-- The stores that the stream holds. -/
def held : RecordStream → List StoreId
  | .through left => left.held
  | .materialized _ => []
  | .spilled store => [store.id]

def debugText (s : RecordStream) : String :=
  "RecordStream \x7b storage_class: " ++ s.storageClass.debugText ++ ", count: " ++
    s.count?.elim "None" (fun n => "Some(" ++ toString n ++ ")") ++ " \x7d"

/-! ### Construction -/

/-- The stream of some items in a class. A class that keeps records takes them at once, and fails
with the first failure among them. -/
def ofItems (a : SpillArea) (config : SpillConfig) (target : StorageClass) (items : List Item) :
    Except Fault RecordStream × SpillArea :=
  match target with
  | .streamThrough => (.ok (.through (.ofItems items)), a)
  | .materialized => ((Item.records items).map .materialized, a)
  | .spilled =>
    let (store, a) := a.createFrom config items
    (store.map .spilled, a)

/-- The relation of the records of a stream, given by its items. -/
def relationOf (items : List Item) : Except Fault Relation :=
  (Item.records items).map Relation.ofRecords

/-- The records of a relation as a stream. -/
def ofRelation (r : Relation) : RecordStream :=
  .materialized r.records

/-! ### Traversal -/

/-- A traversal of a stream, and the stream afterwards: the only pass of a stream-through stream is
over once it has been handed out. -/
def traverse (a : SpillArea) (s : RecordStream) : Except Fault Traversal × RecordStream :=
  match s with
  | .through left => (.ok left, .through .empty)
  | .materialized records => (.ok (.ofRecords records), s)
  | .spilled store => ((a.scan store).map (Traversal.pinned store.id), s)

/-- The relation of the records that a traversal of the stream yields. -/
def toRelation (a : SpillArea) (s : RecordStream) : Except Fault Relation := do
  relationOf (← (s.traverse a).1).items

/-- A traversal of the items at some positions, each once and in ascending order, and the stream
afterwards. A stream-through stream yields what it has at these positions; the other classes have
to have all of them. -/
def pick (a : SpillArea) (s : RecordStream) (positions : List Nat) :
    Except Fault Traversal × RecordStream :=
  let wanted := positions.mergeSort.eraseDups
  match s with
  | .through left =>
    match wanted.getLast? with
    | none => (.ok .empty, s)
    | some last => (.ok (left.pick wanted last), .through .empty)
  | .materialized records =>
    match wanted.find? (records.length ≤ ·) with
    | some position => (.error (.positionInStream position records.length), s)
    | none => (.ok (.ofRecords (wanted.filterMap (records[·]?))), s)
  | .spilled store =>
    ((a.scanPositions store wanted).map fun reader => Traversal.pinned store.id reader.rest.1, s)

/-! ### Moves between classes -/

/-- The stream that is left when a move meets a failure: the records that were read before, from
where they have been put, and then what follows the failure. -/
def restored (a : SpillArea) (kept : RecordStream) (left : Traversal) : RecordStream :=
  match kept with
  | .materialized records => .through (left.prepend records)
  | .spilled store =>
    match a.scan store with
    | .ok items => .through (left.chain store.id items)
    | .error _ => .through left
  | .through front => .through ⟨front.steps ++ left.steps, front.pins ++ left.pins⟩

/-- Records put into a class that keeps them. -/
def keep (a : SpillArea) (config : SpillConfig) (target : StorageClass) (records : List Record) :
    RecordStream × SpillArea :=
  match target with
  | .spilled =>
    let (store, a) := a.create config records
    (.spilled store, a)
  | _ => (.materialized records, a)

/-- The stream moved to another class, and whether it had to be moved. -/
def persist (a : SpillArea) (config : SpillConfig) (target : StorageClass) (s : RecordStream) :
    Except Fault Bool × RecordStream × SpillArea :=
  if target = .streamThrough then
    (.error (.unreachableClass s.storageClass.name target.name), s, a)
  else if target = s.storageClass then (.ok false, s, a)
  else
    match (s.traverse a).1 with
    | .error fault => (.error fault, s, a)
    | .ok t =>
      match Traversal.drain t.steps with
      | (records, none) =>
        let (kept, a) := keep a config target records
        (.ok true, kept, a)
      | (records, some (fault, steps)) =>
        match s with
        | .through _ =>
          let (kept, a) := keep a config target records
          (.error fault, restored a kept { t with steps := steps }, a)
        | _ => (.error fault, s, a)

end RecordStream

end RecordFlow
