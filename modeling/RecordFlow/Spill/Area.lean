import RecordFlow.Spill.Config
import RecordFlow.Spill.Reader
import RecordFlow.Spill.Writer

/-!
# Spill stores and where they live

A `SpillStore` is the handle of a finished spill file. The `SpillArea` is what all stores share:
the files, the register of those that are live, and which stores have been disposed. A store leaves
the register by its own disposal or by a purge of the whole area, and from then on cannot be opened;
what readers have already opened stays readable.
-/

namespace RecordFlow

/-- The identity of a spill store. It is never used again. -/
abbrev StoreId := Nat

/-- The handle of a spill file: its size was taken when it was written. -/
structure SpillStore where
  id : StoreId
  count : Nat
  byteCount : Nat
deriving DecidableEq, Repr

/-- The state that all spill stores share. -/
structure SpillArea where
  /-- The identity of the next store. -/
  next : StoreId := 0
  /-- The contents of the files that exist. -/
  files : List (StoreId × String) := []
  /-- The stores whose files are live. -/
  registered : List StoreId := []
  /-- The stores that have been disposed. -/
  disposed : List StoreId := []

namespace SpillArea

/-! ### Files -/

def contents? (a : SpillArea) (id : StoreId) : Option String :=
  a.files.lookup id

def hasFile (a : SpillArea) (id : StoreId) : Bool :=
  (a.contents? id).isSome

def removeFile (a : SpillArea) (id : StoreId) : SpillArea :=
  { a with files := a.files.filter (·.1 != id) }

def overwrite (a : SpillArea) (id : StoreId) (contents : String) : SpillArea :=
  { a with files := (id, contents) :: (a.removeFile id).files }

/-! ### Creation -/

def create (a : SpillArea) (config : SpillConfig) (records : List Record) :
    SpillStore × SpillArea :=
  let written := SpillWriter.writeAll config.bufferSize records
  (⟨a.next, written.count, written.byteCount⟩,
    { a with
      next := a.next + 1
      files := (a.next, written.contents) :: a.files
      registered := a.next :: a.registered })

/-- A new store of the records of some items. A failure among them leaves nothing behind. -/
def createFrom (a : SpillArea) (config : SpillConfig) (items : List Item) :
    Except Fault SpillStore × SpillArea :=
  match Item.records items with
  | .ok records =>
    let (store, a) := a.create config records
    (.ok store, a)
  | .error fault => (.error fault, a)

/-! ### Disposal -/

/-- The number of live stores. -/
def live (a : SpillArea) : Nat :=
  a.registered.length

/-- The store can no longer be opened. -/
def isDisposed (a : SpillArea) (id : StoreId) : Bool :=
  a.disposed.contains id || !a.registered.contains id

/-- The area after the disposal of a store. Another disposal changes nothing. -/
def dispose (a : SpillArea) (id : StoreId) : SpillArea :=
  if a.disposed.contains id then a
  else
    { a.removeFile id with
      registered := a.registered.filter (· != id)
      disposed := id :: a.disposed }

/-- The number of files that a purge removes, and the area without them. Nothing stays live. -/
def purge (a : SpillArea) : Nat × SpillArea :=
  ((a.registered.filter a.hasFile).length,
    { a with
      files := a.files.filter fun (id, _) => !a.registered.contains id
      registered := [] })

/-! ### Reading -/

/-- The lines of the file of a store, as they are now. -/
def lines (a : SpillArea) (store : SpillStore) : Except Fault (List (List Char)) :=
  if a.isDisposed store.id then .error .storeDisposed
  else if store.byteCount = 0 then .ok []
  else
    match a.contents? store.id with
    | some contents => .ok (spillLines contents.toList)
    | none => .error .spillFileMissing

def scan (a : SpillArea) (store : SpillStore) : Except Fault (List Item) :=
  (a.lines store).map scanLines

/-- The reader of some positions of a store, all of which it must have. -/
def scanPositions (a : SpillArea) (store : SpillStore) (positions : List Nat) :
    Except Fault PositionalReader :=
  match positions.find? (store.count ≤ ·) with
  | some position => .error (.positionInStore position store.count)
  | none => (a.lines store).map (PositionalReader.ofLines · positions)

/-! ### Text -/

def debugText (a : SpillArea) (store : SpillStore) : String :=
  "SpillStore \x7b path: \"<path>\", len: " ++ toString store.count ++ ", byte_len: " ++
    toString store.byteCount ++ ", disposed: " ++ toString (a.isDisposed store.id) ++ " \x7d"

end SpillArea

end RecordFlow
