import Mathlib.Data.List.Forall2
import Mathlib.Data.List.ReduceOption
import RecordFlow.Proofs.Relation.Digest
import RecordFlow.Proofs.Stream.Item
import RecordFlow.Proofs.Stream.Persist

/-!
# Failures in a pipeline

A pipeline is a list of stages, each on a traversal of the one before it. It does the same item by
item as stage by stage (`Stage.foldl_run`): an item goes as far as it gets, and every stage that it
has met remembers it. A failure meets every stage and none remembers it (`Stage.meet_error`), so
what becomes of the records does not depend on the failures between them.

`Stage.Fate` tells what can become of an item, whatever the stages remember. Whoever takes the
records of a stream stops at its first failure (`RecordStream.pipeline_spec`).
-/

namespace RecordFlow

namespace Stage

/-! ### What can become of an item -/

/-- The stage can let the record pass. -/
def Admits : Stage → Record → Prop
  | .filter keeps, r => keeps r
  | .query e now, r => e.matches? now r = .ok true
  | _, _ => True

/-- The stage can leave the record out. -/
def LeavesOut : Stage → Record → Prop
  | .filter keeps, r => keeps r = false
  | .query e now, r => e.matches? now r = .ok false
  | .select _, _ => False
  | _, _ => True

/-- The query of the stage fails for the record. -/
def FailsWith (fault : Fault) : Stage → Record → Prop
  | .query e now, r => e.matches? now r = .error fault
  | _, _ => False

/-- What a record is behind a stage that lets it pass. -/
def shape : Stage → Record → Record
  | .select columns, r => r.project columns
  | _, r => r

/-- What can become of an item in some stages: what comes out in its place, if anything does. -/
inductive Fate : List Stage → Item → Option Item → Prop
  /-- A failure comes out as it is. -/
  | fault (stages : List Stage) (fault : Fault) : Fate stages (.error fault) (some (.error fault))
  | out (r : Record) : Fate [] (.ok r) (some (.ok r))
  | passes {s : Stage} {rest : List Stage} {r : Record} {fate : Option Item} (h : s.Admits r)
    (hrest : Fate rest (.ok (s.shape r)) fate) : Fate (s :: rest) (.ok r) fate
  | leftOut {s : Stage} {rest : List Stage} {r : Record} (h : s.LeavesOut r) :
    Fate (s :: rest) (.ok r) none
  /-- The failure of a query stands in the place of the record that it fails for. -/
  | fails {s : Stage} {rest : List Stage} {r : Record} {fault : Fault} (h : s.FailsWith fault r) :
    Fate (s :: rest) (.ok r) (some (.error fault))

/-! ### One record at a stage -/

/-- A stage leaves a record out, lets it pass or fails for it, each only if it can. -/
theorem onRecord_cases (s : Stage) (r : Record) :
    ((s.onRecord r).1 = none ∧ s.LeavesOut r) ∨
    ((s.onRecord r).1 = some (.ok (s.shape r)) ∧ s.Admits r) ∨
    ∃ fault, (s.onRecord r).1 = some (.error fault) ∧ s.FailsWith fault r := by
  cases s with
  | filter keeps => cases h : keeps r <;> simp [onRecord, h, LeavesOut, Admits, shape]
  | query e now =>
    rcases h : e.matches? now r with fault | _ | _ <;>
      simp [onRecord, h, LeavesOut, Admits, shape, FailsWith]
  | select columns => exact .inr (.inl ⟨rfl, trivial⟩)
  | sample rate draws drawn =>
    cases h : rate.keeps (draws drawn) <;> simp [onRecord, h, LeavesOut, Admits, shape]
  | distinct seen =>
    cases h : seen.contains r.contentHash <;>
      simp only [onRecord, h, LeavesOut, Admits, shape] <;> simp

/-- What a stage remembers does not change what it can do. -/
theorem can_onItem (s : Stage) (item : Item) :
    (s.onItem item).2.Admits = s.Admits ∧ (s.onItem item).2.LeavesOut = s.LeavesOut ∧
      (s.onItem item).2.shape = s.shape ∧
      ∀ fault, (s.onItem item).2.FailsWith fault = s.FailsWith fault := by
  cases item with
  | error fault => exact ⟨rfl, rfl, rfl, fun _ => rfl⟩
  | ok r =>
    cases s with
    | distinct seen =>
      rw [onItem, onRecord]
      split <;> exact ⟨rfl, rfl, rfl, fun _ => rfl⟩
    | _ => exact ⟨rfl, rfl, rfl, fun _ => rfl⟩

/-! ### Item by item -/

/-- What becomes of an item that meets some stages, and the stages for the next one. -/
def meet : List Stage → Item → Option Item × List Stage
  | [], item => (some item, [])
  | s :: rest, item =>
    match (s.onItem item).1 with
    | none => (none, (s.onItem item).2 :: rest)
    | some out => ((meet rest out).1, (s.onItem item).2 :: (meet rest out).2)

/-- What becomes of some items, one after the other. -/
def fates (stages : List Stage) : List Item → List (Option Item)
  | [] => []
  | item :: items => (meet stages item).1 :: fates (meet stages item).2 items

theorem fates_of_no_stages (items : List Item) : fates [] items = items.map some := by
  induction items with
  | nil => rfl
  | cons item items ih => rw [fates, meet, ih, List.map_cons]

theorem run_cons (s : Stage) (item : Item) (items : List Item) :
    s.run (item :: items) = (s.onItem item).1.toList ++ (s.onItem item).2.run items := by
  rw [run]
  rcases s.onItem item with ⟨_ | out, s'⟩ <;> rfl

/-- The first stage may run ahead of the others, which see only what comes out of it. -/
theorem reduceOption_fates_cons (s : Stage) (rest : List Stage) (items : List Item) :
    (fates (s :: rest) items).reduceOption = (fates rest (s.run items)).reduceOption := by
  -- On the items: both the first stage and the others may remember the one in front.
  induction items generalizing s rest with
  | nil => rfl
  | cons item items ih =>
    rw [fates, meet, run_cons]
    cases (s.onItem item).1 with
    | none => exact ih (s.onItem item).2 rest
    | some out =>
      have hlater := ih (s.onItem item).2 (meet rest out).2
      rw [Option.toList_some, List.singleton_append, fates]
      cases (meet rest out).1 with
      | none => exact hlater
      | some final => rw [List.reduceOption_cons_of_some, List.reduceOption_cons_of_some, hlater]

/-- Stage by stage, the items come out that come out item by item. -/
theorem foldl_run (stages : List Stage) (items : List Item) :
    stages.foldl (fun items s => s.run items) items = (fates stages items).reduceOption := by
  induction stages generalizing items with
  | nil =>
    rw [fates_of_no_stages, List.reduceOption, List.filterMap_map]
    exact List.filterMap_some.symm
  | cons s rest ih => rw [List.foldl_cons, ih, reduceOption_fates_cons]

/-- A failure passes all stages, and none remembers it. -/
theorem meet_error (stages : List Stage) (fault : Fault) :
    meet stages (.error fault) = (some (.error fault), stages) := by
  induction stages with
  | nil => rfl
  | cons s rest ih => simp only [meet, onItem, ih]

/-- Without the failures between them, the same becomes of the records. -/
theorem fates_oks (stages : List Stage) (items : List Item) :
    (fates stages ((Item.oks items).map .ok)).reduceOption =
      (items.zip (fates stages items)).filterMap fun entry =>
        if Item.isFault entry.1 then none else entry.2 := by
  induction items generalizing stages with
  | nil => rfl
  | cons item items ih =>
    cases item with
    | error fault =>
      rw [Item.oks_error, ih, fates, meet_error]
      rfl
    | ok r =>
      rw [Item.oks_ok, List.map_cons, fates, fates, List.zip_cons_cons, List.filterMap_cons, ← ih,
        List.reduceOption, List.filterMap_cons]
      rfl

/-- Behind an item, the first stage has met it, and the others have met what came out of the first,
if anything did. -/
theorem meet_cons_stages (s : Stage) (rest : List Stage) (item : Item) :
    (meet (s :: rest) item).2 = (s.onItem item).2 :: rest ∨
      ∃ out, (meet (s :: rest) item).2 = (s.onItem item).2 :: (meet rest out).2 := by
  rw [meet]
  cases (s.onItem item).1 with
  | none => exact .inl rfl
  | some out => exact .inr ⟨out, rfl⟩

/-- What can become of an item does not depend on what the stages have met. -/
theorem Fate.of_meet {stages : List Stage} {item item' : Item} {fate : Option Item}
    (h : Fate (meet stages item).2 item' fate) : Fate stages item' fate := by
  induction stages generalizing item item' fate with
  | nil => exact h
  | cons s rest ih =>
    obtain ⟨hadmits, hleaves, hshape, hfails⟩ := can_onItem s item
    -- What the others met, if they met anything, is not the item, so `ih` has to hold for any.
    have hrest : ∃ rest', (meet (s :: rest) item).2 = (s.onItem item).2 :: rest' ∧
        ∀ {item' fate}, Fate rest' item' fate → Fate rest item' fate := by
      obtain hsame | ⟨out, hmet⟩ := meet_cons_stages s rest item
      · exact ⟨rest, hsame, id⟩
      · exact ⟨_, hmet, ih⟩
    obtain ⟨rest', hstages, hfate⟩ := hrest
    rw [hstages] at h
    cases h with
    | fault => exact .fault _ _
    | passes hpass h => exact .passes (hadmits ▸ hpass) (hshape ▸ hfate h)
    | leftOut hout => exact .leftOut (hleaves ▸ hout)
    | fails hfail => exact .fails (hfails _ ▸ hfail)

theorem fate_meet (stages : List Stage) (item : Item) : Fate stages item (meet stages item).1 := by
  induction stages generalizing item with
  | nil =>
    cases item with
    | error fault => exact .fault _ _
    | ok r => exact .out r
  | cons s rest ih =>
    cases item with
    | error fault =>
      rw [meet_error]
      exact .fault _ _
    | ok r =>
      rw [meet, onItem]
      obtain ⟨hout, hleaves⟩ | ⟨hout, hadmits⟩ | ⟨fault, hout, hfails⟩ := onRecord_cases s r <;>
        rw [hout]
      · exact .leftOut hleaves
      · exact .passes hadmits (ih _)
      · show Fate _ _ (meet rest (.error fault)).1
        rw [meet_error]
        exact .fails hfails

/-- What becomes of each item can become of it. -/
theorem forall₂_fates (stages : List Stage) (items : List Item) :
    List.Forall₂ (Fate stages) items (fates stages items) := by
  induction items generalizing stages with
  | nil => exact .nil
  | cons item items ih =>
    exact .cons (fate_meet stages item) ((ih _).imp fun _ _ h => h.of_meet)

end Stage

/-! ### The first failure -/

namespace Item

def firstFault? (items : List Item) : Option Fault :=
  (faults items).head?

theorem records_eq_error_iff {items : List Item} {fault : Fault} :
    records items = .error fault ↔ firstFault? items = some fault := by
  rw [firstFault?]
  induction items with
  | nil => simp [records]
  | cons item items ih =>
    cases item with
    | error fault' => simp [records]
    | ok r =>
      rw [records, faults_ok, ← ih]
      cases records items <;> simp [Except.map]

/-- What is made of all records fails with the first failure. -/
theorem map_records_eq_error_iff {α : Type} (f : List Record → α) {items : List Item}
    {fault : Fault} :
    (records items).map f = .error fault ↔ firstFault? items = some fault := by
  rw [← records_eq_error_iff]
  cases records items <;> simp [Except.map]

end Item

namespace RecordStream

/-- A stream-through stream is not moved past its first failure. -/
theorem persist_eq_error_iff (a : SpillArea) (config : SpillConfig) {target : StorageClass}
    (htarget : target ≠ .streamThrough) {left : Traversal} {fault : Fault} :
    ((through left).persist a config target).1 = .error fault ↔
      Item.firstFault? left.items = some fault := by
  rw [Item.firstFault?]
  cases hfaults : Item.faults left.items with
  | nil =>
    have hne : target ≠ (through left).storageClass := htarget
    rw [persist_done config htarget hne rfl (Item.eq_map_ok_of_faults_eq_nil hfaults)]
    simp
  | cons first later =>
    obtain ⟨before, rest, hitems⟩ := Item.exists_eq_of_faults_eq_cons hfaults
    obtain ⟨behind, -, hpersist⟩ := persist_fault a config htarget hitems
    rw [hpersist]
    simp

/-- The stream behind some stages, each on a traversal of the stream before it. -/
def pipeline (a : SpillArea) (s : RecordStream) (stages : List Stage) : Except Fault RecordStream :=
  stages.foldlM (fun s stage => (s.traverse a).1.map fun t => .through (t.through stage)) s

theorem pipeline_through (a : SpillArea) (left : Traversal) (stages : List Stage) :
    (through left).pipeline a stages = .ok (through (stages.foldl Traversal.through left)) := by
  induction stages generalizing left with
  | nil => rfl
  | cons s rest ih => exact ih (left.through s)

theorem items_foldl_through (left : Traversal) (stages : List Stage) :
    (stages.foldl Traversal.through left).items =
      (Stage.fates stages left.items).reduceOption := by
  rw [← Stage.foldl_run]
  induction stages generalizing left with
  | nil => rfl
  | cons s rest ih =>
    rw [List.foldl_cons, List.foldl_cons, ih, Traversal.items, Traversal.through,
      Traversal.itemsOf_stageSteps, ← Traversal.items]

/-- What is made of all items that a traversal of the stream yields. -/
def consume {α : Type} (a : SpillArea) (s : RecordStream) (f : List Item → Except Fault α) :
    Except Fault α := do
  f (← (s.traverse a).1).items

/-- Behind any stages, every failure of the stream comes out as it is and in its place among the
records, and there is no other failure but that of a query, which stands in the place of the record
that the query fails for. The records fare as they do without the failures between them. Whoever
takes all records, and a move to a class that keeps them, fails exactly if a failure comes out, and
with the first one. -/
theorem pipeline_spec (a : SpillArea) (left : Traversal) (stages : List Stage) :
    ∃ out : Traversal, (through left).pipeline a stages = .ok (through out) ∧
      (∃ fates, List.Forall₂ (Stage.Fate stages) left.items fates ∧
        out.items = fates.reduceOption ∧
        ∀ records : Traversal, records.items = (Item.oks left.items).map .ok →
          ∃ alone : Traversal, (through records).pipeline a stages = .ok (through alone) ∧
            alone.items = (left.items.zip fates).filterMap fun entry =>
              if Item.isFault entry.1 then none else entry.2) ∧
      ∀ fault : Fault,
        (∀ name, (through out).consume a (Item.column name) = .error fault ↔
          Item.firstFault? out.items = some fault) ∧
        (∀ name, (through out).consume a (Item.groupBySorted name) = .error fault ↔
          Item.firstFault? out.items = some fault) ∧
        ((through out).contentHash a = .error fault ↔
          Item.firstFault? out.items = some fault) ∧
        ((through out).toRelation a = .error fault ↔ Item.firstFault? out.items = some fault) ∧
        ∀ config target, target ≠ .streamThrough →
          (((through out).persist a config target).1 = .error fault ↔
            Item.firstFault? out.items = some fault) := by
  refine ⟨_, pipeline_through a left stages, ⟨_, Stage.forall₂_fates stages left.items,
    items_foldl_through left stages, ?alone⟩, ?first⟩
  case alone =>
    intro records hrecords
    refine ⟨_, pipeline_through a records stages, ?_⟩
    rw [items_foldl_through, hrecords, Stage.fates_oks]
  case first =>
    intro fault
    exact ⟨fun name => Item.map_records_eq_error_iff _, fun name => Item.map_records_eq_error_iff _,
      Item.map_records_eq_error_iff _, Item.map_records_eq_error_iff _,
      fun config target htarget => persist_eq_error_iff a config htarget⟩

/-- The absolute value of an age is asked for, and one age is a text. -/
def ages : Traversal :=
  .ofItems [.ok [("age", .int 3)], .error (.producer "lost"), .ok [("age", .int 0)],
    .ok [("age", .text "old")], .ok [("age", .int 3)], .ok [("age", .int 4)]]

/-- Ages other than 0, each once. -/
def agesStages : List Stage :=
  let now := (Timestamp.ofFields? 2024 2 29 12 0 0 0).get (by decide)
  [.query (.call .abs [.variable "age"]) now, .select ["age"], .distinct []]

theorem pipeline_spec_ages : ∃ out : Traversal,
    (through ages).pipeline {} agesStages = .ok (through out) ∧
      out.items = [.ok [("age", .int 3)], .error (.producer "lost"),
        .error (.badArguments "ABS" [.text "old"]), .ok [("age", .int 4)]] ∧
      ((through out).persist {} .default .materialized).1 = .error (.producer "lost") := by
  obtain ⟨out, hout, -, hfirst⟩ := pipeline_spec {} ages agesStages
  have hitems : out.items = [.ok [("age", .int 3)], .error (.producer "lost"),
      .error (.badArguments "ABS" [.text "old"]), .ok [("age", .int 4)]] := by
    obtain rfl := through.inj (Except.ok.inj (hout.symm.trans (pipeline_through _ _ _)))
    rfl
  obtain ⟨-, -, -, -, hpersist⟩ := hfirst (.producer "lost")
  refine ⟨out, hout, hitems, (hpersist .default .materialized (by decide)).2 ?_⟩
  rw [hitems]
  rfl

/-- A move to the class that the stream has is refused, whatever failures it has. -/
theorem persist_streamThrough_of_fault : ∃ out : Traversal,
    (through (.ofItems [.error (.producer "lost")])).pipeline {} [.truthy "age"] =
      .ok (through out) ∧
    Item.firstFault? out.items = some (.producer "lost") ∧
    ((through out).persist {} .default .streamThrough).1 ≠ .error (.producer "lost") :=
  ⟨_, rfl, rfl, by rw [persist_streamThrough]; simp⟩

end RecordStream

end RecordFlow
