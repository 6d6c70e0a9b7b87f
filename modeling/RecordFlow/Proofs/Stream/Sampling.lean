import RecordFlow.Proofs.Binary64.Rational
import RecordFlow.Proofs.Relation.Selection
import RecordFlow.Proofs.Stream.Item
import RecordFlow.Stream.Basic

/-!
# Sampling is consistent and monotone

A draw keeps a record if it is below the fraction times `2 ^ 64`, truncated (`Rate.IsKept`). No draw
is as great as `2 ^ 64`, so this is the law of the full rate as well, which looks at no draw
(`Rate.exists_ofFraction`). A record looks at the draw whose number is that of the records in front
of it, whatever became of these and of the failures between them (`Stage.run_sample`). So a relation
and its stream keep the same rows, and with the same draws a greater fraction keeps more
(`Relation.sample_spec`).
-/

namespace RecordFlow

/-! ### Rates -/

namespace Binary64

/-- The number is finite and from zero to one. -/
def IsFraction (x : Binary64) : Prop :=
  x.isFinite ∧ 0 ≤ x.toRat ∧ x.toRat ≤ 1

theorem isFraction_iff {x : Binary64} :
    x.IsFraction ↔ x.isFinite ∧ 0 ≤ x.units ∧ x.units ≤ unitsPerOne := by
  have hone : x.toRat ≤ 1 ↔ x.units ≤ unitsPerOne := by
    rw [toRat, div_le_one unitsPerOne_pos_rat]
    norm_cast
  have hzero : 0 ≤ x.toRat ↔ 0 ≤ x.units := by
    rw [toRat, le_div_iff₀ unitsPerOne_pos_rat, zero_mul, Int.cast_nonneg_iff]
  rw [IsFraction, hone, hzero]

end Binary64

namespace Rate

/-- The draw is below the fraction times the number of all draws, truncated. -/
def IsKept (fraction : Binary64) (draw : UInt64) : Prop :=
  (draw.toNat : Int) < ⌊fraction.toRat * 2 ^ 64⌋

instance (fraction : Binary64) (draw : UInt64) : Decidable (IsKept fraction draw) :=
  inferInstanceAs (Decidable (_ < _))

theorem IsKept.mono {p q : Binary64} (h : p.toRat ≤ q.toRat) {draw : UInt64}
    (hp : IsKept p draw) : IsKept q draw := by
  have hscaled : p.toRat * 2 ^ 64 ≤ q.toRat * 2 ^ 64 :=
    mul_le_mul_of_nonneg_right h (by positivity)
  exact lt_of_lt_of_le hp (Int.floor_le_floor hscaled)

/-- No draw is as great as the number of all draws. -/
theorem isKept_of_toRat_eq_one {fraction : Binary64} (h : fraction.toRat = 1) (draw : UInt64) :
    IsKept fraction draw := by
  have hfloor : ⌊(1 : ℚ) * 2 ^ 64⌋ = 2 ^ 64 := by norm_num
  have hlt := draw.toNat_lt
  rw [IsKept, h, hfloor]
  omega

theorem floor_toRat (x : Binary64) :
    ⌊x.toRat * 2 ^ 64⌋ = x.units * 2 ^ 64 / (Binary64.unitsPerOne : Int) := by
  rw [← Rat.floor_intCast_div_natCast, Binary64.toRat, div_mul_eq_mul_div]
  push_cast
  rfl

/-- A fraction has a rate, and at it a draw keeps a record exactly if it is below the fraction. -/
theorem exists_ofFraction {fraction : Binary64} (h : fraction.IsFraction) :
    ∃ rate, ofFraction fraction = .ok rate ∧
      ∀ draw, rate.keeps draw = decide (IsKept fraction draw) := by
  obtain ⟨hfinite, hzero, hone⟩ := Binary64.isFraction_iff.1 h
  have hvalid : (fraction.isNaN || fraction.units < 0 ||
      (Binary64.unitsPerOne : Int) < fraction.units) = false := by
    rw [Binary64.isNaN_of_isFinite hfinite, Bool.false_or, Bool.or_eq_false_iff,
      decide_eq_false_iff_not, decide_eq_false_iff_not]
    exact ⟨not_lt.2 hzero, not_lt.2 hone⟩
  rw [ofFraction, hvalid, if_neg (by decide)]
  split
  · next hall =>
    refine ⟨.all, rfl, fun draw => ?_⟩
    have htoRat : fraction.toRat = 1 := by
      rw [Binary64.toRat, hall]
      exact div_self (ne_of_gt Binary64.unitsPerOne_pos_rat)
    exact (decide_eq_true (isKept_of_toRat_eq_one htoRat draw)).symm
  · refine ⟨.below _, rfl, fun draw => ?_⟩
    have hunits : (fraction.units.toNat : Int) = fraction.units := Int.toNat_of_nonneg hzero
    have hthreshold : fraction.units * 2 ^ 64 / (Binary64.unitsPerOne : Int) =
        (fraction.units.toNat * 2 ^ 64 / Binary64.unitsPerOne : Nat) := by
      rw [Int.natCast_ediv, Int.natCast_mul, hunits]
      rfl
    simp only [IsKept, floor_toRat, hthreshold, keeps, Int.ofNat_lt]

end Rate

/-! ### Elements by their numbers -/

/-- The elements of a list at some places, in order. -/
def elementsAt {α : Type} (wanted : Nat → Bool) (as : List α) : List α :=
  (as.zipIdx.filter fun entry => wanted entry.2).map (·.1)

/-- The failures among some items and some of the records, each by the number of records in front
of it. -/
def Item.withRecordsAt (wanted : Nat → Bool) (items : List Item) : List Item :=
  (items.zipIdx.filter fun entry =>
    isFault entry.1 || wanted (oks (items.take entry.2)).length).map (·.1)

theorem map_filter_zipIdx_cons {α : Type} (p : α × Nat → Bool) (a : α) (as : List α) :
    ((a :: as).zipIdx.filter p).map (·.1) =
      (if p (a, 0) then [a] else []) ++
        (as.zipIdx.filter fun entry => p (entry.1, entry.2 + 1)).map (·.1) := by
  have hrest : ((as.zipIdx 1).filter p).map (·.1) =
      (as.zipIdx.filter fun entry => p (entry.1, entry.2 + 1)).map (·.1) := by
    rw [List.zipIdx_succ, List.filter_map, List.map_map]
    rfl
  rw [List.zipIdx_cons, List.filter_cons, ← hrest]
  split <;> rfl

theorem elementsAt_cons {α : Type} (wanted : Nat → Bool) (a : α) (as : List α) :
    elementsAt wanted (a :: as) =
      (if wanted 0 then [a] else []) ++ elementsAt (fun n => wanted (n + 1)) as :=
  map_filter_zipIdx_cons _ a as

theorem elementsAt_all {α : Type} {wanted : Nat → Bool} (h : ∀ n, wanted n) (as : List α) :
    elementsAt wanted as = as := by
  rw [elementsAt, List.filter_eq_self.2 fun entry _ => h entry.2, List.zipIdx_map_fst]

theorem elementsAt_map {α β : Type} (wanted : Nat → Bool) (f : α → β) (as : List α) :
    elementsAt wanted (as.map f) = (elementsAt wanted as).map f := by
  rw [elementsAt, elementsAt, List.zipIdx_map, List.filter_map, List.map_map, List.map_map]
  rfl

theorem sublist_elementsAt {α : Type} {wanted wanted' : Nat → Bool}
    (h : ∀ n, wanted n → wanted' n) (as : List α) :
    (elementsAt wanted as).Sublist (elementsAt wanted' as) := by
  refine List.Sublist.map _ (List.monotone_filter_right _ fun entry => ?_)
  exact h entry.2

namespace Item

theorem withRecordsAt_error (wanted : Nat → Bool) (fault : Fault) (items : List Item) :
    withRecordsAt wanted (.error fault :: items) = .error fault :: withRecordsAt wanted items := by
  rw [withRecordsAt, map_filter_zipIdx_cons]
  rfl

/-- Behind a record, the numbers of all records are greater by one. -/
theorem withRecordsAt_ok (wanted : Nat → Bool) (r : Record) (items : List Item) :
    withRecordsAt wanted (.ok r :: items) =
      (if wanted 0 then [.ok r] else []) ++ withRecordsAt (fun n => wanted (n + 1)) items := by
  rw [withRecordsAt, map_filter_zipIdx_cons]
  rfl

theorem sublist_withRecordsAt {wanted wanted' : Nat → Bool} (h : ∀ n, wanted n → wanted' n)
    (items : List Item) : (withRecordsAt wanted items).Sublist (withRecordsAt wanted' items) := by
  refine List.Sublist.map _ (List.monotone_filter_right _ fun entry => ?_)
  rw [Bool.or_eq_true, Bool.or_eq_true]
  exact Or.imp_right (h _)

theorem withRecordsAt_all {wanted : Nat → Bool} (h : ∀ n, wanted n) (items : List Item) :
    withRecordsAt wanted items = items := by
  have hall : ∀ entry ∈ items.zipIdx,
      (isFault entry.1 || wanted (oks (items.take entry.2)).length) = true := by
    intro entry _
    rw [h, Bool.or_true]
  rw [withRecordsAt, List.filter_eq_self.2 hall, List.zipIdx_map_fst]

/-- Which records there are does not depend on the failures between them. -/
theorem oks_withRecordsAt (wanted : Nat → Bool) (items : List Item) :
    oks (withRecordsAt wanted items) = elementsAt wanted (oks items) := by
  induction items generalizing wanted with
  | nil => rfl
  | cons item items ih =>
    cases item with
    | error fault => rw [withRecordsAt_error, oks_error, oks_error, ih]
    | ok r =>
      rw [withRecordsAt_ok, oks_ok, elementsAt_cons, ← ih]
      split <;> rfl

theorem withRecordsAt_map_ok (wanted : Nat → Bool) (records : List Record) :
    withRecordsAt wanted (records.map .ok) = (elementsAt wanted records).map .ok := by
  induction records generalizing wanted with
  | nil => rfl
  | cons r records ih =>
    rw [List.map_cons, withRecordsAt_ok, elementsAt_cons, ih]
    split <;> rfl

end Item

/-! ### Samples -/

/-- Each element looks at the draw of its own number. -/
theorem Rate.sample_eq {α : Type} (rate : Rate) (draws : Draws) (drawn : Nat) (as : List α) :
    rate.sample draws drawn as = elementsAt (fun n => rate.keeps (draws (drawn + n))) as := by
  induction as generalizing drawn with
  | nil => rfl
  | cons a as ih =>
    rw [sample, ih, elementsAt_cons]
    simp only [Nat.add_zero, Nat.add_assoc, Nat.add_comm 1]
    split <;> rfl

/-- Failures stay, and a record looks at the draw whose number is that of the records in front of
it. -/
theorem Stage.run_sample (rate : Rate) (draws : Draws) (drawn : Nat) (items : List Item) :
    (Stage.sample rate draws drawn).run items =
      Item.withRecordsAt (fun n => rate.keeps (draws (drawn + n))) items := by
  induction items generalizing drawn with
  | nil => rfl
  | cons item items ih =>
    cases item with
    | error fault =>
      have hrun : (Stage.sample rate draws drawn).run (.error fault :: items) =
          .error fault :: (Stage.sample rate draws drawn).run items := rfl
      rw [hrun, ih, Item.withRecordsAt_error]
    | ok r =>
      have hrun : (Stage.sample rate draws drawn).run (.ok r :: items) =
          (if rate.keeps (draws drawn) then [.ok r] else []) ++
            (Stage.sample rate draws (drawn + 1)).run items := by
        cases h : rate.keeps (draws drawn) <;> simp [run, onItem, onRecord, h]
      rw [hrun, ih, Item.withRecordsAt_ok]
      simp only [Nat.add_zero, Nat.add_assoc, Nat.add_comm 1]

theorem Traversal.exists_sample {fraction : Binary64} (h : fraction.IsFraction) (draws : Draws) :
    ∃ stage, Stage.ofFraction fraction draws = .ok stage ∧
      ∀ t : Traversal, (t.through stage).items =
        Item.withRecordsAt (fun n => Rate.IsKept fraction (draws n)) t.items := by
  obtain ⟨rate, hrate, hkeeps⟩ := Rate.exists_ofFraction h
  refine ⟨.sample rate draws 0, ?_, fun t => ?_⟩
  · rw [Stage.ofFraction, hrate]
    rfl
  · rw [items, through, itemsOf_stageSteps, ← items, Stage.run_sample]
    simp only [Nat.zero_add, hkeeps]

namespace Relation

theorem exists_sample {fraction : Binary64} (h : fraction.IsFraction) (draws : Draws)
    (r : Relation) :
    ∃ s, r.sample fraction draws = .ok s ∧
      s.rows = elementsAt (fun n => Rate.IsKept fraction (draws n)) r.rows ∧
      s.records = elementsAt (fun n => Rate.IsKept fraction (draws n)) r.records := by
  obtain ⟨rate, hrate, hkeeps⟩ := Rate.exists_ofFraction h
  have hrows : rate.sample draws 0 r.rows =
      elementsAt (fun n => Rate.IsKept fraction (draws n)) r.rows := by
    rw [Rate.sample_eq]
    simp only [Nat.zero_add, hkeeps]
  refine ⟨r.withRows (rate.sample draws 0 r.rows), ?_, hrows, ?_⟩
  · rw [sample, hrate]
    rfl
  · rw [records_withRows, hrows, records, elementsAt_map]

/-- With some draws, a relation keeps at a fraction the rows whose draws keep them, and a pass over
its stream keeps the records of these rows. A pass over any stream keeps every failure in its place,
and the records that it would keep without the failures. At a greater fraction the same draws keep
what they kept, and more, in the same order; at one nothing is left out, whatever the draws. -/
theorem sample_spec {p q : Binary64} (hp : p.IsFraction) (hq : q.IsFraction)
    (hle : p.toRat ≤ q.toRat) (draws : Draws) (r : Relation) (a : SpillArea) (left : Traversal) :
    ∃ (stage stage' : Stage) (s s' : Relation) (t : Traversal),
      (Stage.ofFraction p draws = .ok stage ∧ Stage.ofFraction q draws = .ok stage') ∧
      (r.sample p draws = .ok s ∧ r.sample q draws = .ok s') ∧
      ((RecordStream.ofRelation r).traverse a).1 = .ok t ∧
      s.rows = elementsAt (fun n => Rate.IsKept p (draws n)) r.rows ∧
      (t.through stage).items = s.records.map .ok ∧
      (left.through stage).items =
        Item.withRecordsAt (fun n => Rate.IsKept p (draws n)) left.items ∧
      Item.oks (left.through stage).items =
        elementsAt (fun n => Rate.IsKept p (draws n)) (Item.oks left.items) ∧
      (∀ draw, Rate.IsKept p draw → Rate.IsKept q draw) ∧
      s.rows.Sublist s'.rows ∧
      (left.through stage).items.Sublist (left.through stage').items ∧
      (q.toRat = 1 → s'.rows = r.rows ∧ (left.through stage').items = left.items) := by
  obtain ⟨stage, hstage, hitems⟩ := Traversal.exists_sample hp draws
  obtain ⟨stage', hstage', hitems'⟩ := Traversal.exists_sample hq draws
  obtain ⟨s, hs, hrows, hrecords⟩ := r.exists_sample hp draws
  obtain ⟨s', hs', hrows', -⟩ := r.exists_sample hq draws
  have hmono : ∀ n, decide (Rate.IsKept p (draws n)) → decide (Rate.IsKept q (draws n)) :=
    fun n h => decide_eq_true ((of_decide_eq_true h).mono hle)
  refine ⟨stage, stage', s, s', .ofRecords r.records, ⟨hstage, hstage'⟩, ⟨hs, hs'⟩, rfl, hrows, ?_,
    hitems left, ?_, fun draw => Rate.IsKept.mono hle, ?_, ?_, fun hone => ?_⟩
  · rw [hitems, Traversal.ofRecords, Traversal.items_ofItems, Item.withRecordsAt_map_ok, hrecords]
  · rw [hitems, Item.oks_withRecordsAt]
  · rw [hrows, hrows']
    exact sublist_elementsAt hmono _
  · rw [hitems, hitems']
    exact Item.sublist_withRecordsAt hmono _
  · have hall : ∀ n, decide (Rate.IsKept q (draws n)) = true :=
      fun n => decide_eq_true (Rate.isKept_of_toRat_eq_one hone (draws n))
    rw [hrows', hitems', elementsAt_all hall, Item.withRecordsAt_all hall]
    exact ⟨rfl, rfl⟩

/-- The draws at even places are the least one, and those at odd places the half of all. -/
def evenDraws : Draws :=
  fun n => if n % 2 = 0 then 0 else 0x8000000000000000

def threeRows : Relation :=
  .ofTuples [("n", { kind := .numeric })] [[.int 1], [.int 2], [.int 3]]

/-- Three records, with a failure behind the first one. -/
def recordsAndFault : Traversal :=
  .ofItems [.ok [("n", .int 1)], .error (.producer "lost"), .ok [("n", .int 2)],
    .ok [("n", .int 3)]]

/-- At one half the draw of the second record, which is the half of all, is not below. -/
theorem sample_spec_evenDraws :
    (Binary64.IsFraction ⟨0x3FE0000000000000⟩ ∧ Binary64.one.IsFraction ∧
      Binary64.toRat ⟨0x3FE0000000000000⟩ ≤ Binary64.one.toRat) ∧
    ∃ stage s, Stage.ofFraction ⟨0x3FE0000000000000⟩ evenDraws = .ok stage ∧
      threeRows.sample ⟨0x3FE0000000000000⟩ evenDraws = .ok s ∧
      s.rows = [[.int 1], [.int 3]] ∧
      (recordsAndFault.through stage).items =
        [.ok [("n", .int 1)], .error (.producer "lost"), .ok [("n", .int 3)]] := by
  have hp : Binary64.IsFraction ⟨0x3FE0000000000000⟩ :=
    Binary64.isFraction_iff.2 (by decide +kernel)
  have hq : Binary64.one.IsFraction := Binary64.isFraction_iff.2 (by decide +kernel)
  have hle : Binary64.toRat ⟨0x3FE0000000000000⟩ ≤ Binary64.one.toRat := by decide +kernel
  obtain ⟨stage, -, s, -, -, ⟨hstage, -⟩, ⟨hs, -⟩, -, hrows, -, hitems, -⟩ :=
    sample_spec hp hq hle evenDraws threeRows {} recordsAndFault
  have hleast : Rate.IsKept ⟨0x3FE0000000000000⟩ 0 := by decide +kernel
  have hhalf : ¬ Rate.IsKept ⟨0x3FE0000000000000⟩ 0x8000000000000000 := by decide +kernel
  have hkept : ∀ n, Rate.IsKept ⟨0x3FE0000000000000⟩ (evenDraws n) ↔ n % 2 = 0 := by
    intro n
    by_cases h : n % 2 = 0 <;> simp only [evenDraws, h, if_true, if_false, hleast, hhalf]
  refine ⟨⟨hp, hq, hle⟩, stage, s, hstage, hs, ?_, ?_⟩
  · rw [hrows]
    simp only [hkept]
    rfl
  · rw [hitems]
    simp only [hkept]
    rfl

end Relation

end RecordFlow
