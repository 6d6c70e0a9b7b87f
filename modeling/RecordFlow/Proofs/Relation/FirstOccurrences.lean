import Mathlib.Data.List.Induction
import RecordFlow.Proofs.Relation.Algebra
import RecordFlow.Proofs.Value.Feed
import RecordFlow.Stream.Basic

/-!
# Rows without repeats

`firstOccurrences` are the elements of a list that equal none in front of them. A relation and a
stream leave out what has a hash that they have seen, so they keep the first occurrences wherever
the hash tells elements apart (`Relation.firstsBy_eq_firstOccurrences`). Unless the keyed hash
collides it does so: the bytes of a row tell its values, and so do those of its record
(`Relation.distinct_spec`). Whatever collides, leaving out repeats once more changes nothing.
-/

namespace RecordFlow

/-! ### First occurrences -/

/-- The elements of a list that equal none in front of them, in order. -/
def firstOccurrences {α : Type} [DecidableEq α] (as : List α) : List α :=
  (as.zipIdx.filter fun entry => entry.1 ∉ as.take entry.2).map (·.1)

theorem firstOccurrences_concat {α : Type} [DecidableEq α] (as : List α) (a : α) :
    firstOccurrences (as ++ [a]) =
      if a ∈ as then firstOccurrences as else firstOccurrences as ++ [a] := by
  have hfront : ∀ entry ∈ as.zipIdx,
      decide (entry.1 ∉ (as ++ [a]).take entry.2) = decide (entry.1 ∉ as.take entry.2) := by
    intro entry hentry
    rw [List.take_append_of_le_length (Nat.le_of_lt (List.snd_lt_of_mem_zipIdx hentry))]
  rw [firstOccurrences, List.zipIdx_append, List.filter_append, List.filter_congr hfront,
    List.map_append, ← firstOccurrences]
  by_cases h : a ∈ as <;> simp [h]

namespace Relation

section FirstsBy

variable {α : Type} {hash : α → UInt64}

theorem firstsBy_concat (seen : List UInt64) (as : List α) (a : α) :
    firstsBy hash seen (as ++ [a]) =
      if hash a ∈ seen ∨ hash a ∈ as.map hash then firstsBy hash seen as
      else firstsBy hash seen as ++ [a] := by
  induction as generalizing seen with
  | nil => by_cases ha : hash a ∈ seen <;> simp [firstsBy, ha]
  | cons b as ih =>
    rw [List.cons_append, firstsBy, firstsBy]
    simp only [List.contains_iff_mem]
    split
    · next hb =>
      have hseen : hash a ∈ seen ∨ hash a ∈ as.map hash ↔
          hash a ∈ seen ∨ hash a ∈ (b :: as).map hash := by
        by_cases ha : hash a = hash b <;> simp [ha, hb]
      simp only [ih, hseen]
    · have hseen : hash a ∈ hash b :: seen ∨ hash a ∈ as.map hash ↔
          hash a ∈ seen ∨ hash a ∈ (b :: as).map hash := by
        simp only [List.map_cons, List.mem_cons, or_assoc, or_left_comm]
      simp only [ih, hseen]
      split <;> rfl

/-- What has hashes that have not been seen is kept once, if the hash tells the elements apart. -/
theorem firstsBy_eq_firstOccurrences [DecidableEq α] {as : List α}
    (hinj : ∀ a ∈ as, ∀ b ∈ as, hash a = hash b → a = b) :
    firstsBy hash [] as = firstOccurrences as := by
  -- From the right: whether the last element stays depends on all in front of it.
  induction as using List.reverseRecOn with
  | nil => rfl
  | append_singleton as a ih =>
    have hseen : hash a ∈ as.map hash ↔ a ∈ as := by
      rw [List.mem_map]
      constructor
      · rintro ⟨b, hb, heq⟩
        rwa [← hinj b (List.mem_append_left _ hb) a (by simp) heq]
      · exact fun ha => ⟨a, ha, rfl⟩
    have hrest := ih fun b hb c hc =>
      hinj b (List.mem_append_left _ hb) c (List.mem_append_left _ hc)
    rw [firstsBy_concat, firstOccurrences_concat, hrest]
    simp only [List.not_mem_nil, false_or, hseen]

/-- Among what is left no hash occurs twice, and none that has been seen. -/
theorem firstsBy_firstsBy {seen seen' : List UInt64} (h : seen' ⊆ seen) (as : List α) :
    firstsBy hash seen' (firstsBy hash seen as) = firstsBy hash seen as := by
  induction as generalizing seen seen' with
  | nil => rfl
  | cons a as ih =>
    by_cases ha : hash a ∈ seen
    · simp [firstsBy, ha, ih h]
    · have ha' : hash a ∉ seen' := fun hmem => ha (h hmem)
      have hrest := ih (List.cons_subset_cons (hash a) h)
      simp [firstsBy, ha, ha', hrest]

end FirstsBy

theorem distinct_distinct (r : Relation) : r.distinct.distinct = r.distinct := by
  rw [distinct, distinct, withRows_withRows]
  exact congrArg r.withRows (firstsBy_firstsBy (List.Subset.refl []) r.rows)

end Relation

/-! ### Repeats in a traversal -/

namespace Traversal

/-- A pass over records is left with those that have a hash for the first time. -/
theorem run_distinct (seen : List UInt64) (records : List Record) :
    (Stage.distinct seen).run (records.map .ok) =
      (Relation.firstsBy Record.contentHash seen records).map .ok := by
  induction records generalizing seen with
  | nil => rfl
  | cons r records ih =>
    by_cases hr : r.contentHash ∈ seen <;>
      simp [Stage.run, Stage.onItem, Stage.onRecord, Relation.firstsBy, hr, ih]

theorem stageSteps_distinct {seen seen' : List UInt64} (h : seen' ⊆ seen) (steps : List Step) :
    stageSteps (.distinct seen') (stageSteps (.distinct seen) steps) =
      stageSteps (.distinct seen) steps := by
  induction steps generalizing seen seen' with
  | nil => rfl
  | cons step steps ih =>
    match step with
    | .release store => simp [stageSteps, ih h]
    | .item (.error fault) => simp [stageSteps, Stage.onItem, ih h]
    | .item (.ok r) =>
      by_cases hr : r.contentHash ∈ seen
      · simp [stageSteps, Stage.onItem, Stage.onRecord, hr, ih h]
      · have hr' : r.contentHash ∉ seen' := fun hmem => hr (h hmem)
        have hrest := ih (List.cons_subset_cons r.contentHash h)
        simp [stageSteps, Stage.onItem, Stage.onRecord, hr, hr', hrest]

/-- A pass without repeats has none to leave out. -/
theorem through_distinct_distinct (t : Traversal) :
    (t.through (.distinct [])).through (.distinct []) = t.through (.distinct []) := by
  rw [through, through, stageSteps_distinct (List.Subset.refl [])]

end Traversal

/-! ### Hashes without collisions -/

/-- The keyed hash tells some byte strings apart. -/
def CollisionFree (feeds : List (List UInt8)) : Prop :=
  ∀ as ∈ feeds, ∀ bs ∈ feeds, contentHashOf as = contentHashOf bs → as = bs

instance (feeds : List (List UInt8)) : Decidable (CollisionFree feeds) :=
  inferInstanceAs (Decidable (∀ as ∈ feeds, ∀ bs ∈ feeds, _ → _))

namespace Relation

variable {r : Relation}

theorem firstsBy_map {α β : Type} (hash : β → UInt64) (f : α → β) (seen : List UInt64)
    (as : List α) : firstsBy hash seen (as.map f) = (firstsBy (hash ∘ f) seen as).map f := by
  induction as generalizing seen with
  | nil => rfl
  | cons a as ih => by_cases ha : hash (f a) ∈ seen <;> simp [firstsBy, ha, ih]

/-- The record of a row as wide as the schema tells the row. -/
theorem recordOf_inj {row row' : Tuple} (hrow : row.length = r.schema.length)
    (hrow' : row'.length = r.schema.length) (h : r.recordOf row = r.recordOf row') :
    row = row' := by
  have hvalues : ∀ {row : Tuple}, row.length = r.schema.length →
      (r.recordOf row).map (·.2) = row := fun hlength =>
    List.map_snd_zip (Nat.le_of_eq (hlength.trans (List.length_map _).symm))
  rw [← hvalues hrow, h, hvalues hrow']

section CollisionFree

variable {r : ShapedRelation}
  (hcounted : ∀ row ∈ r.rows, ∀ v ∈ row, v.Everywhere Value.IsCounted)
include hcounted

/-- The hash of rows tells rows apart unless the keyed hash collides. -/
theorem eq_of_identityHash (hrows : CollisionFree (r.rows.map Tuple.feed)) :
    ∀ row ∈ r.rows, ∀ row' ∈ r.rows, row.identityHash = row'.identityHash → row = row' := by
  intro row hrow row' hrow' hhash
  have hlength : row.length = row'.length :=
    (r.shaped.2 row hrow).trans (r.shaped.2 row' hrow').symm
  have hfeed := hrows _ (List.mem_map_of_mem hrow) _ (List.mem_map_of_mem hrow') hhash
  exact Tuple.feed_inj (hcounted row hrow) (hcounted row' hrow') hlength hfeed

/-- So does the hash of their records. -/
theorem eq_of_contentHash_recordOf (hrecords : CollisionFree (r.records.map Record.feed)) :
    ∀ row ∈ r.rows, ∀ row' ∈ r.rows,
      (r.recordOf row).contentHash = (r.recordOf row').contentHash → row = row' := by
  intro row hrow row' hrow' hhash
  have hmem : ∀ {row : Tuple}, row ∈ r.rows →
      Record.feed (r.recordOf row) ∈ r.records.map Record.feed := fun hrow =>
    List.mem_map_of_mem (List.mem_map_of_mem hrow)
  have hlength : (r.recordOf row).length = (r.recordOf row').length := by
    rw [recordOf, recordOf, List.length_zip, List.length_zip, r.shaped.2 row hrow,
      r.shaped.2 row' hrow']
  have hfields : ∀ {row : Tuple}, row ∈ r.rows →
      ∀ field ∈ r.recordOf row, field.2.Everywhere Value.IsCounted := fun hrow field hfield =>
    hcounted _ hrow _ (List.of_mem_zip hfield).2
  have hfeed := hrecords _ (hmem hrow) _ (hmem hrow') hhash
  exact recordOf_inj (r.shaped.2 row hrow) (r.shaped.2 row' hrow')
    (Record.feed_inj (hfields hrow) (hfields hrow') hlength hfeed)

end CollisionFree

/-- Unless the keyed hash collides on the bytes of its rows or of their records, a relation without
repeats has those of its rows that are identical to none in front of them, in order, and so has its
stream without repeats. Rows are identical when all values are, bit by bit and field by field.
Leaving out repeats once more changes neither the relation nor any pass over any stream. -/
theorem distinct_spec (r : ShapedRelation)
    (hcounted : ∀ row ∈ r.rows, ∀ v ∈ row, v.Everywhere Value.IsCounted)
    (hrows : CollisionFree (r.rows.map Tuple.feed))
    (hrecords : CollisionFree (r.records.map Record.feed)) (a : SpillArea) :
    r.distinct.records = (firstOccurrences r.rows).map r.recordOf ∧
    (∃ t, ((RecordStream.ofRelation r.toRelation).traverse a).1 = .ok t ∧
      (t.through (.distinct [])).items = ((firstOccurrences r.rows).map r.recordOf).map .ok) ∧
    r.distinct.distinct = r.distinct ∧
    ∀ t : Traversal, (t.through (.distinct [])).through (.distinct []) =
      t.through (.distinct []) := by
  have hfirst := firstsBy_eq_firstOccurrences (eq_of_identityHash hcounted hrows)
  have hfirst' := firstsBy_eq_firstOccurrences (eq_of_contentHash_recordOf hcounted hrecords)
  refine ⟨?_, ⟨_, rfl, ?_⟩, r.distinct_distinct, Traversal.through_distinct_distinct⟩
  · rw [distinct, records_withRows, hfirst]
  · rw [Traversal.items, Traversal.through, Traversal.itemsOf_stageSteps, ← Traversal.items,
      Traversal.ofRecords, Traversal.items_ofItems, Traversal.run_distinct, records, firstsBy_map]
    exact congrArg (List.map Except.ok) (congrArg (List.map r.recordOf) hfirst')

/-- Rows some of which are told apart by the kind of a number, the sign of a zero or the order of
fields only, and two that repeat others. -/
def repeatedRows : Relation :=
  .ofTuples [("n", { kind := .numeric }), ("s", { kind := .other })] [
    [.int 1, .struct [("x", .int 1), ("y", .text "a")]],
    [.float .one, .struct [("x", .int 1), ("y", .text "a")]],
    [.int 1, .struct [("y", .text "a"), ("x", .int 1)]],
    [.float .zero, .list [.null]],
    [.float ⟨0x8000000000000000⟩, .list [.null]],
    [.int 1, .struct [("x", .int 1), ("y", .text "a")]],
    [.float .zero, .list [.null]]]

theorem distinct_spec_repeatedRows :
    ((∀ row ∈ repeatedRows.rows, ∀ v ∈ row, v.Everywhere Value.IsCounted) ∧
      CollisionFree (repeatedRows.rows.map Tuple.feed) ∧
      CollisionFree (repeatedRows.records.map Record.feed)) ∧
    repeatedRows.distinct.records = (repeatedRows.rows.take 5).map repeatedRows.recordOf ∧
    ∃ t, ((RecordStream.ofRelation repeatedRows).traverse {}).1 = .ok t ∧
      (t.through (.distinct [])).items =
        ((repeatedRows.rows.take 5).map repeatedRows.recordOf).map .ok := by
  have hflat : ∀ row ∈ repeatedRows.rows, ∀ v ∈ row,
      v.IsCounted ∧ ∀ u ∈ v.inner, u.inner = [] ∧ u.IsCounted := by decide
  have hcounted : ∀ row ∈ repeatedRows.rows, ∀ v ∈ row, v.Everywhere Value.IsCounted :=
    fun row hrow v hv => .flat (hflat row hrow v hv).1 (hflat row hrow v hv).2
  have hrows : CollisionFree (repeatedRows.rows.map Tuple.feed) := by decide +kernel
  have hrecords : CollisionFree (repeatedRows.records.map Record.feed) := by decide +kernel
  have hfirst : firstOccurrences repeatedRows.rows = repeatedRows.rows.take 5 := by decide
  have hshaped : repeatedRows.WellShaped := wellShaped_ofTuples (by decide) _
  obtain ⟨hrelation, hstream, -⟩ :=
    distinct_spec ⟨repeatedRows, hshaped⟩ hcounted hrows hrecords {}
  rw [hfirst] at hrelation hstream
  exact ⟨⟨hcounted, hrows, hrecords⟩, hrelation, hstream⟩

end Relation

end RecordFlow
