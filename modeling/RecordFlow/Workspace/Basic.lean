import RecordFlow.Query.TokenStream
import RecordFlow.Relation.Grouping
import RecordFlow.Stream.Basic

/-!
# Workspaces

A `Workspace` is a set of objects in numbered slots, and the spill area that they share. Objects
hold spill stores: the handle of a store, a spilled stream, and every stream or traversal that reads
from one. `Workspace.replace` is the only way in which an object leaves its slot, and it disposes
every store that was held by that object and is held by no other one.
-/

namespace RecordFlow

/-- What a slot can hold. -/
inductive Holding where
  | stream (s : RecordStream)
  | store (s : SpillStore)
  | traversal (t : Traversal)
  | reader (r : PositionalReader)
  | relation (r : Relation)
  | grouping (g : Grouping)
  | tokens (t : Query.TokenStream)
  | record (r : Record)

namespace Holding

/-- The stores that an object holds. A reader of a bare store reads on without it. -/
def held : Holding → List StoreId
  | .stream s => s.held
  | .store s => [s.id]
  | .traversal t => t.held
  | _ => []

/-- The stream, if the object is one. -/
def stream? : Holding → Option RecordStream
  | .stream s => some s
  | _ => none

/-- The spill store, if the object is one. -/
def store? : Holding → Option SpillStore
  | .store s => some s
  | _ => none

/-- The relation, if the object is one. -/
def relation? : Holding → Option Relation
  | .relation r => some r
  | _ => none

/-- The grouping, if the object is one. -/
def grouping? : Holding → Option Grouping
  | .grouping g => some g
  | _ => none

/-- The tokens, if the object is a stream of tokens. -/
def tokens? : Holding → Option Query.TokenStream
  | .tokens t => some t
  | _ => none

/-- The record, if the object is one. -/
def record? : Holding → Option Record
  | .record r => some r
  | _ => none

/-- The spill store behind an object: the object itself or that of a spilled stream. -/
def backing? : Holding → Option (Option SpillStore)
  | .store s => some (some s)
  | .stream s => some s.store?
  | _ => none

end Holding

/-- Objects in slots, and the spill area that they share. A slot becomes empty when its object is
dropped or consumed. -/
structure Workspace where
  area : SpillArea := {}
  slots : List (Option Holding) := []

/-- Why a request cannot be answered. -/
inductive Refusal where
  /-- The slot was never filled. -/
  | noSlot
  /-- The object of the slot is gone. -/
  | emptySlot
  /-- The object of the slot is of another kind. -/
  | otherKind
  /-- The request failed. -/
  | fault (cause : Fault)

/-- The answer to a request, and the workspace afterwards. -/
abbrev Outcome (α : Type) := Except Refusal α × Workspace

namespace Workspace

/-! ### Slots -/

/-- The stores that some object holds. -/
def held (w : Workspace) : List StoreId :=
  w.slots.flatMap fun slot => slot.elim [] Holding.held

def get (w : Workspace) (slot : Nat) : Except Refusal Holding :=
  match w.slots[slot]? with
  | none => .error .noSlot
  | some none => .error .emptySlot
  | some (some h) => .ok h

/-- The object in a slot, of some kind. -/
def getAs {α : Type} (w : Workspace) (slot : Nat) (kind : Holding → Option α) :
    Except Refusal α := do
  ((kind (← w.get slot)).elim (.error .otherKind) .ok)

/-- A new slot for an object. -/
def add (w : Workspace) (h : Holding) : Nat × Workspace :=
  (w.slots.length, { w with slots := w.slots ++ [some h] })

/-- Every store of a list that no object holds is disposed. -/
def letGo (w : Workspace) (stores : List StoreId) : Workspace :=
  { w with area := (stores.filter fun id => !w.held.contains id).foldl SpillArea.dispose w.area }

/-- The slot with another object, or with none. -/
def replace (w : Workspace) (slot : Nat) (h : Option Holding) : Workspace :=
  letGo { w with slots := w.slots.set slot h } (((w.slots[slot]?).join).elim [] Holding.held)

/-- The object of a slot is dropped, if the slot still holds one. -/
def drop (w : Workspace) (slot : Nat) : Outcome Unit :=
  if slot < w.slots.length then (.ok (), w.replace slot none)
  else (.error .noSlot, w)

end Workspace

end RecordFlow
