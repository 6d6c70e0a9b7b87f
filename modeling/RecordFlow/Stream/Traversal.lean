import RecordFlow.Spill.Area
import RecordFlow.Stream.Stage

/-!
# Traversals

A `Traversal` is what is left of a pass over a stream: items, and between them the points at which
the pass lets go of a spill store whose records have all been read. A traversal holds the stores
that it will let go of and those that it keeps to its end.
-/

namespace RecordFlow

/-- A step of a pass over a stream. -/
inductive Step where
  /-- An item is handed out. -/
  | item (item : Item)
  /-- A spill store is let go of. -/
  | release (store : StoreId)

/-- A pass over a stream. -/
structure Traversal where
  steps : List Step
  /-- The stores that are held to the end. -/
  pins : List StoreId

namespace Traversal

/-! ### Contents -/

/-- The items of some steps. -/
def itemsOf (steps : List Step) : List Item :=
  steps.filterMap fun
    | .item item => some item
    | .release _ => none

@[simp] theorem itemsOf_nil : itemsOf [] = [] := rfl

@[simp] theorem itemsOf_item (item : Item) (steps : List Step) :
    itemsOf (.item item :: steps) = item :: itemsOf steps := rfl

@[simp] theorem itemsOf_release (store : StoreId) (steps : List Step) :
    itemsOf (.release store :: steps) = itemsOf steps := rfl

@[simp] theorem itemsOf_append (steps steps' : List Step) :
    itemsOf (steps ++ steps') = itemsOf steps ++ itemsOf steps' :=
  List.filterMap_append

@[simp] theorem itemsOf_map_item (items : List Item) : itemsOf (items.map .item) = items := by
  induction items with
  | nil => rfl
  | cons item items ih => simp [ih]

/-- The stores that some steps let go of. -/
def releasesOf (steps : List Step) : List StoreId :=
  steps.filterMap fun
    | .item _ => none
    | .release store => some store

def items (t : Traversal) : List Item :=
  itemsOf t.steps

/-- The stores that the traversal holds. -/
def held (t : Traversal) : List StoreId :=
  releasesOf t.steps ++ t.pins

def empty : Traversal := ⟨[], []⟩

def ofItems (items : List Item) : Traversal :=
  ⟨items.map .item, []⟩

def ofRecords (records : List Record) : Traversal :=
  ofItems (records.map .ok)

/-- The traversal of some items from a store, which it holds to the end. -/
def pinned (store : StoreId) (items : List Item) : Traversal :=
  ⟨items.map .item, [store]⟩

/-- The traversal of some items from a store, which it lets go of behind them, and of another
traversal then. -/
def chain (store : StoreId) (items : List Item) (t : Traversal) : Traversal :=
  ⟨items.map .item ++ .release store :: t.steps, t.pins⟩

/-- The traversal of some records and of another traversal then. -/
def prepend (records : List Record) (t : Traversal) : Traversal :=
  ⟨records.map (fun r => .item (.ok r)) ++ t.steps, t.pins⟩

@[simp] theorem items_ofItems (items : List Item) : (ofItems items).items = items :=
  itemsOf_map_item items

@[simp] theorem items_chain (store : StoreId) (items : List Item) (t : Traversal) :
    (chain store items t).items = items ++ t.items := by
  simp [Traversal.items, chain]

/-! ### Progress -/

/-- The first item of some steps, if there is one, and the steps behind it. -/
def nextOf : List Step → Option Item × List Step
  | [] => (none, [])
  | .release _ :: rest => nextOf rest
  | .item item :: rest => (some item, rest)

/-- What comes next is the head of what is left, and its tail is left then. -/
theorem itemsOf_nextOf (steps : List Step) :
    (nextOf steps).1 = (itemsOf steps).head? ∧
      itemsOf (nextOf steps).2 = (itemsOf steps).tail := by
  fun_induction nextOf steps with
  | case1 => simp
  | case2 store rest ih => simpa using ih
  | case3 item rest => simp

/-- The next item, if there is one, and the traversal behind it. -/
def next (t : Traversal) : Option Item × Traversal :=
  let (item, steps) := nextOf t.steps
  (item, { t with steps := steps })

/-- All items that are left, and the traversal at its end. -/
def rest (t : Traversal) : List Item × Traversal :=
  (t.items, { t with steps := [] })

/-- The records in front of the first failure; that failure and the steps behind it, if there is
one. -/
def drain : List Step → List Record × Option (Fault × List Step)
  | [] => ([], none)
  | .release _ :: rest => drain rest
  | .item (.error fault) :: rest => ([], some (fault, rest))
  | .item (.ok r) :: rest =>
    let (records, stop) := drain rest
    (r :: records, stop)

/-! ### Derived traversals -/

def stageSteps (s : Stage) : List Step → List Step
  | [] => []
  | .release store :: rest => .release store :: stageSteps s rest
  | .item item :: rest =>
    match s.onItem item with
    | (none, s) => stageSteps s rest
    | (some out, s) => .item out :: stageSteps s rest

/-- A stage does to the steps what it does to their items. -/
theorem itemsOf_stageSteps (s : Stage) (steps : List Step) :
    itemsOf (stageSteps s steps) = s.run (itemsOf steps) := by
  fun_induction stageSteps s steps with
  | case1 => rfl
  | case2 s store rest ih => simpa using ih
  | case3 s rest item s' h ih => simp [Stage.run, h, ih]
  | case4 s rest item out s' h ih => simp [Stage.run, h, ih]

def through (t : Traversal) (s : Stage) : Traversal :=
  { t with steps := stageSteps s t.steps }

/-- The steps through the first `n` items, and the stores that those behind would have let go
of. -/
def takeSteps : Nat → List Step → List Step × List StoreId
  | 0, steps => ([], releasesOf steps)
  | _, [] => ([], [])
  | n + 1, .release store :: rest =>
    let (steps, kept) := takeSteps (n + 1) rest
    (.release store :: steps, kept)
  | n + 1, .item item :: rest =>
    let (steps, kept) := takeSteps n rest
    (.item item :: steps, kept)

/-- The traversal of at most `n` items. -/
def take (t : Traversal) (n : Nat) : Traversal :=
  let (steps, kept) := takeSteps n t.steps
  ⟨steps, kept ++ t.pins⟩

/-- The steps through the item behind position `last`, with only the items at some positions, and
the stores that those behind would have let go of. -/
def pickSteps (targets : List Nat) (last position : Nat) : List Step → List Step × List StoreId
  | [] => ([], [])
  | .release store :: rest =>
    let (steps, kept) := pickSteps targets last position rest
    (.release store :: steps, kept)
  | .item item :: rest =>
    if last < position then ([], releasesOf rest)
    else
      let (steps, kept) := pickSteps targets last (position + 1) rest
      (if targets.contains position then .item item :: steps else steps, kept)

/-- The traversal of the items at some positions, the last of which is `last`. -/
def pick (t : Traversal) (targets : List Nat) (last : Nat) : Traversal :=
  let (steps, kept) := pickSteps targets last 0 t.steps
  ⟨steps, kept ++ t.pins⟩

end Traversal

end RecordFlow
