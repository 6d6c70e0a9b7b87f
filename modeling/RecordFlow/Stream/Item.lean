import RecordFlow.Fault
import RecordFlow.Value.Hash

/-!
# Items of a stream

An item is a record or the failure that stands in its place. The functions here are what a whole
sequence of items comes to; each of them ends at the first failure it meets, with that failure.
-/

namespace RecordFlow

/-- A record, or the failure in its place. -/
abbrev Item := Except Fault Record

namespace Item

/-- All records, if no item is a failure. -/
def records : List Item → Except Fault (List Record)
  | [] => .ok []
  | .error fault :: _ => .error fault
  | .ok r :: rest => (records rest).map (r :: ·)

/-- The first record, if there is one. -/
def first (items : List Item) : Except Fault (Option Record) :=
  (records (items.take 1)).map (·.head?)

/-- The first `n` records. -/
def take (n : Nat) (items : List Item) : Except Fault (List Record) :=
  records (items.take n)

/-- The attributes of the first `n` records in the order in which they first occur. -/
def attributes (n : Nat) (items : List Item) : Except Fault (List String) :=
  (take n items).map fun rs => (rs.flatMap Attributes.names).eraseDups

/-- The values of an attribute, NULL where it is absent. -/
def column (name : String) (items : List Item) : Except Fault (List Value) :=
  (records items).map fun rs => rs.map (Record.value · name)

/-- The hashes of all records, combined without regard to their order. -/
def contentHash (items : List Item) : Except Fault UInt64 :=
  (records items).map fun rs =>
    rs.foldl (fun hash r => hash ^^^ Record.contentHash r) contentHashSeed

/-- The order of keys, and for one key that of the numbers of records. -/
def compareEntries (a b : List UInt8 × Nat) : Ordering :=
  (compareBytes a.1 b.1).then (compare a.2 b.2)

/-- The keys of an attribute with the numbers of their records, in order. -/
def keyIndex (name : String) (rs : List Record) : List (List UInt8 × Nat) :=
  (rs.zipIdx.map fun (r, i) => ((Record.value r name).key, i)).mergeSort
    fun a b => (compareEntries a b).isLE

/-- Takes the records at some numbers out of their slots, and says what the slots hold then. -/
def takeSlots (slots : Array (Option Record)) : List Nat → List Record × Array (Option Record)
  | [] => ([], slots)
  | i :: rest =>
    let taken := slots[i]?.join
    let (members, slots) := takeSlots (slots.setIfInBounds i none) rest
    (taken.toList ++ members, slots)

/-- The records of runs of an index, taken out of their slots run by run, each run with the value
that its first record has. -/
def takeRuns (name : String) (slots : Array (Option Record)) :
    List (List (List UInt8 × Nat)) → List (Value × List Record)
  | [] => []
  | run :: rest =>
    let (members, slots) := takeSlots slots (run.map (·.2))
    (members.head?.elim .null (Record.value · name), members) :: takeRuns name slots rest

/-- The records in groups of equal keys of an attribute, by ascending key and in order within a
group, each with the value that its first record has. -/
def groupBySorted (name : String) (items : List Item) :
    Except Fault (List (Value × List Record)) :=
  (records items).map fun rs =>
    takeRuns name (rs.map some).toArray ((keyIndex name rs).splitBy fun a b => a.1 == b.1)

end Item

end RecordFlow
