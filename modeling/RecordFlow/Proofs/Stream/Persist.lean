import RecordFlow.Proofs.Spill.RoundTrip
import RecordFlow.Stream.Basic

/-!
# Moves between classes

What `RecordStream.persist` does is said here in terms of items alone. A stream-through stream with
a failure among its items stays one and loses only that failure (`persist_fault`); one without, or a
stream that is kept, becomes a stream that keeps the same records (`persist_done`). Records that go
to a spill file have to survive there.
-/

namespace RecordFlow

/-- The record is found again in the line that a spill file has for it. -/
def Record.Survives (r : Record) : Prop :=
  Record.ofLine? r.line.toList = some r

/-- A record survives that can be read at all and whose parts are read as they are. -/
theorem Record.Spillable.survives {r : Record} (h : r.Spillable) (hread : r.reread = r) :
    r.Survives := by
  rw [Record.Survives, h.ofLine?_line, hread]

namespace Traversal

/-- A drain stops at the first failure, with the records in front of it, and leaves the rest. -/
theorem drain_fault {steps : List Step} {before : List Record} {fault : Fault} {rest : List Item}
    (h : itemsOf steps = before.map .ok ++ .error fault :: rest) :
    ∃ left, drain steps = (before, some (fault, left)) ∧ itemsOf left = rest := by
  induction steps generalizing before with
  | nil => simp at h
  | cons step steps ih =>
    cases step with
    | release store => exact ih h
    | item item =>
      rw [itemsOf_item] at h
      cases before with
      | nil =>
        obtain ⟨rfl, hrest⟩ : item = .error fault ∧ itemsOf steps = rest := by simpa using h
        exact ⟨steps, rfl, hrest⟩
      | cons r before =>
        obtain ⟨rfl, hrest⟩ : item = .ok r ∧
            itemsOf steps = before.map .ok ++ .error fault :: rest := by simpa using h
        obtain ⟨left, hdrain, hleft⟩ := ih hrest
        exact ⟨left, by rw [drain, hdrain], hleft⟩

/-- A drain of records alone takes all of them. -/
theorem drain_done {steps : List Step} {records : List Record}
    (h : itemsOf steps = records.map .ok) : drain steps = (records, none) := by
  induction steps generalizing records with
  | nil =>
    obtain rfl : records = [] := by simpa using h.symm
    rfl
  | cons step steps ih =>
    cases step with
    | release store => exact ih h
    | item item =>
      rw [itemsOf_item] at h
      cases records with
      | nil => simp at h
      | cons r records =>
        obtain ⟨rfl, hrest⟩ : item = .ok r ∧ itemsOf steps = records.map .ok := by simpa using h
        rw [drain, ih hrest]

@[simp] theorem items_prepend (records : List Record) (t : Traversal) :
    (t.prepend records).items = records.map .ok ++ t.items := by
  have h := itemsOf_map_item (records.map .ok)
  rw [List.map_map] at h
  exact (itemsOf_append _ _).trans (congrArg (· ++ t.items) h)

end Traversal

namespace RecordStream

/-! ### Streams that keep records -/

/-- The stream keeps some records: in memory, or in a spill store that can be opened and holds
their lines. -/
def Keeps (a : SpillArea) (records : List Record) : RecordStream → Prop
  | .through _ => False
  | .materialized kept => kept = records
  | .spilled store =>
    a.Holds store.id (fileText records) ∧ store.count = records.length ∧
      store.byteCount = (fileText records).utf8ByteSize ∧ ∀ r ∈ records, r.Survives

theorem Keeps.count? {a : SpillArea} {records : List Record} {s : RecordStream}
    (h : s.Keeps a records) : s.count? = some records.length := by
  cases s with
  | through left => exact h.elim
  | materialized kept =>
    obtain rfl : kept = records := h
    rfl
  | spilled store => exact congrArg some h.2.1

/-- A traversal of a stream that keeps some records yields them, and the stream stays as it is. -/
theorem Keeps.traverse {a : SpillArea} {records : List Record} {s : RecordStream}
    (h : s.Keeps a records) :
    ∃ t : Traversal, s.traverse a = (.ok t, s) ∧ t.items = records.map .ok := by
  cases s with
  | through left => exact h.elim
  | materialized kept =>
    obtain rfl : kept = records := h
    exact ⟨.ofRecords kept, rfl, Traversal.items_ofItems _⟩
  | spilled store =>
    obtain ⟨hholds, -, hsize, hsurvive⟩ := h
    have hscan : a.scan store = .ok (records.map .ok) := hholds.scan hsize hsurvive
    refine ⟨.pinned store.id (records.map .ok), ?_, Traversal.items_ofItems _⟩
    rw [RecordStream.traverse, hscan, Except.map]

/-- A stream keeps its records while its store can be opened. -/
theorem Keeps.mono {a b : SpillArea} {records : List Record} {s : RecordStream}
    (h : s.Keeps a records) (hab : ∀ id ∈ s.held, ∀ text, a.Holds id text → b.Holds id text) :
    s.Keeps b records := by
  cases s with
  | through left => exact h.elim
  | materialized kept => exact h
  | spilled store => exact ⟨hab store.id (List.mem_singleton_self _) _ h.1, h.2⟩

/-- Records put into a class that keeps them are kept there. -/
theorem keeps_keep {a : SpillArea} (ha : a.Numbered) (config : SpillConfig)
    {target : StorageClass} (htarget : target ≠ .streamThrough) {records : List Record}
    (hsurvive : target = .spilled → ∀ r ∈ records, r.Survives) :
    (keep a config target records).1.storageClass = target ∧
      (keep a config target records).1.Keeps (keep a config target records).2 records := by
  cases target with
  | streamThrough => exact absurd rfl htarget
  | materialized => exact ⟨rfl, rfl⟩
  | spilled =>
    have hholds := SpillArea.holds_fileText_create ha config records
    rw [SpillArea.create_eq] at hholds
    refine ⟨rfl, ?_⟩
    simp only [keep, SpillArea.create_eq]
    exact ⟨hholds, rfl, rfl, hsurvive rfl⟩

/-! ### Moves -/

/-- No stream becomes a stream-through stream. -/
theorem persist_streamThrough (a : SpillArea) (config : SpillConfig) (s : RecordStream) :
    s.persist a config .streamThrough =
      (.error (.unreachableClass s.storageClass.name StorageClass.streamThrough.name), s, a) := by
  rw [persist, if_pos rfl]

/-- A move to the class that a stream has does nothing. -/
theorem persist_self (a : SpillArea) (config : SpillConfig) {s : RecordStream}
    (h : s.storageClass ≠ .streamThrough) :
    s.persist a config s.storageClass = (.ok false, s, a) := by
  rw [persist, if_neg h, if_pos rfl]

/-- A stream whose items are all records is moved, and keeps them. -/
theorem persist_done {a : SpillArea} (config : SpillConfig) {target : StorageClass}
    {s : RecordStream} (htarget : target ≠ .streamThrough) (hne : target ≠ s.storageClass)
    {t : Traversal} (ht : (s.traverse a).1 = .ok t) {records : List Record}
    (hitems : t.items = records.map .ok) :
    s.persist a config target =
      (.ok true, (keep a config target records).1, (keep a config target records).2) := by
  rw [persist, if_neg htarget, if_neg hne, ht]
  simp only [Traversal.drain_done hitems]

/-- A stream-through stream with a failure among its items reports it, and is put together again
of the records before it and of what is left behind it. -/
theorem persist_fault (a : SpillArea) (config : SpillConfig) {target : StorageClass}
    (htarget : target ≠ .streamThrough) {left : Traversal} {before : List Record} {fault : Fault}
    {rest : List Item} (hitems : left.items = before.map .ok ++ .error fault :: rest) :
    ∃ behind : Traversal, behind.items = rest ∧
      (through left).persist a config target =
        (.error fault, restored (keep a config target before).2 (keep a config target before).1
          behind, (keep a config target before).2) := by
  obtain ⟨steps, hdrain, hsteps⟩ := Traversal.drain_fault hitems
  have hclass : target ≠ (through left).storageClass := htarget
  refine ⟨{ left with steps := steps }, hsteps, ?_⟩
  rw [persist, if_neg htarget, if_neg hclass]
  simp only [traverse, hdrain]

/-- A stream that is put together again has the records that were kept, then what is left. -/
theorem items_restored {a : SpillArea} {before : List Record} {kept : RecordStream}
    (h : kept.Keeps a before) (behind : Traversal) :
    ∃ left, restored a kept behind = .through left ∧
      left.items = before.map .ok ++ behind.items := by
  cases kept with
  | through front => exact h.elim
  | materialized records =>
    obtain rfl : records = before := h
    exact ⟨behind.prepend records, rfl, Traversal.items_prepend records behind⟩
  | spilled store =>
    obtain ⟨hholds, -, hsize, hread⟩ := h
    have hscan : a.scan store = .ok (before.map .ok) := hholds.scan hsize hread
    refine ⟨.chain store.id (before.map .ok) behind, ?_, Traversal.items_chain _ _ _⟩
    simp only [restored, hscan]

end RecordStream

end RecordFlow
