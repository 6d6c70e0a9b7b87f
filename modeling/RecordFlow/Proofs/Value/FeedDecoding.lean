import RecordFlow.Proofs.Value.Feed

/-!
# Only identical values are fed alike

A value can be told from what follows its bytes, so values that are fed one after the other are told
apart whatever their number (`Value.elementsFeed_eq_iff`). The bytes of a record and of a row are
those of a struct and of a list without the tag, so byte strings of values, records and rows are
equal exactly where these are identical, and equal hashes of others are a collision of the keyed
hash (`Value.feed_spec`).
-/

namespace RecordFlow

/-- The keyed hash takes two different byte strings for one. -/
def Collides (as bs : List UInt8) : Prop :=
  as ≠ bs ∧ contentHashOf as = contentHashOf bs

/-- Where byte strings are equal exactly if something holds, their hashes are equal if it holds or
they collide. -/
theorem contentHashOf_eq_iff {as bs : List UInt8} {p : Prop} (h : as = bs ↔ p) :
    contentHashOf as = contentHashOf bs ↔ p ∨ Collides as bs := by
  constructor
  · intro hhash
    by_cases heq : as = bs
    · exact .inl (h.1 heq)
    · exact .inr ⟨heq, hhash⟩
  · rintro (hp | hcollides)
    · rw [h.2 hp]
    · exact hcollides.2

namespace Value

/-- A value and what follows it are told by the bytes of both. -/
theorem feed_append_eq_iff {a b : Value} (ha : a.Everywhere IsCounted) (hb : b.Everywhere IsCounted)
    (rest rest' : List UInt8) :
    a.feed ++ rest = b.feed ++ rest' ↔ a.identical b ∧ rest = rest' := by
  rw [identical_iff_eq]
  constructor
  · exact a.told b rest rest' ha hb
  · rintro ⟨rfl, rfl⟩
    rfl

theorem feed_eq_iff {a b : Value} (ha : a.Everywhere IsCounted) (hb : b.Everywhere IsCounted) :
    a.feed = b.feed ↔ a.identical b := by
  simpa using feed_append_eq_iff ha hb [] []

/-- No value is fed without a byte. -/
theorem feed_ne_nil (v : Value) : v.feed ≠ [] := by
  cases v <;> simp [feed]

/-- Values fed one after the other are told apart, however many they are on either side. -/
theorem elementsFeed_eq_iff {as bs : List Value} (ha : ∀ a ∈ as, a.Everywhere IsCounted)
    (hb : ∀ b ∈ bs, b.Everywhere IsCounted) :
    elementsFeed as = elementsFeed bs ↔ identicalElements as bs := by
  induction as generalizing bs with
  | nil =>
    cases bs with
    | nil => exact iff_of_true rfl rfl
    | cons b bs => simp [elementsFeed, identicalElements, b.feed_ne_nil]
  | cons a as ih =>
    cases bs with
    | nil => simp [elementsFeed, identicalElements, a.feed_ne_nil]
    | cons b bs =>
      rw [List.forall_mem_cons] at ha hb
      rw [elementsFeed, elementsFeed, identicalElements, Bool.and_eq_true,
        feed_append_eq_iff ha.1 hb.1, ih ha.2 hb.2]

end Value

/-- Records are fed as structs are, without the tag. -/
theorem Record.feed_eq_iff {r s : Record} (hr : (Value.struct r).Everywhere Value.IsCounted)
    (hs : (Value.struct s).Everywhere Value.IsCounted) :
    Record.feed r = Record.feed s ↔ Value.identicalFields r s := by
  have htagged : Record.feed r = Record.feed s ↔ (Value.struct r).feed = (Value.struct s).feed :=
    (List.cons_inj_right 7).symm
  rw [htagged, Value.feed_eq_iff hr hs, Value.identical]

/-- Rows are fed as lists are, without the tag. -/
theorem Tuple.feed_eq_iff {t u : Tuple} (ht : (Value.list t).Everywhere Value.IsCounted)
    (hu : (Value.list u).Everywhere Value.IsCounted) :
    Tuple.feed t = Tuple.feed u ↔ Value.identicalElements t u := by
  have htagged : Tuple.feed t = Tuple.feed u ↔ (Value.list t).feed = (Value.list u).feed :=
    (List.cons_inj_right 6).symm
  rw [htagged, Value.feed_eq_iff ht hu, Value.identical]

namespace Value

/-- Two values, two records and two rows have the same bytes exactly if they are identical: of one
kind with the same content, floats bit by bit, lists of one length, and fields by name and place.
Their hashes are equal only if they are identical or the keyed hash collides on their bytes. Also
what follows a value, and any number of values one after the other, are told by their bytes. -/
theorem feed_spec {a b : Value} {r s : Record} {t u : Tuple}
    (ha : a.Everywhere IsCounted) (hb : b.Everywhere IsCounted)
    (hr : (struct r).Everywhere IsCounted) (hs : (struct s).Everywhere IsCounted)
    (ht : (list t).Everywhere IsCounted) (hu : (list u).Everywhere IsCounted) :
    ((a.feed = b.feed ↔ a.identical b) ∧
      (a.contentHash = b.contentHash ↔ a.identical b ∨ Collides a.feed b.feed)) ∧
    ((Record.feed r = Record.feed s ↔ identicalFields r s) ∧
      (Record.contentHash r = Record.contentHash s ↔
        identicalFields r s ∨ Collides (Record.feed r) (Record.feed s))) ∧
    ((Tuple.feed t = Tuple.feed u ↔ identicalElements t u) ∧
      (Tuple.identityHash t = Tuple.identityHash u ↔
        identicalElements t u ∨ Collides (Tuple.feed t) (Tuple.feed u))) ∧
    (∀ rest rest', a.feed ++ rest = b.feed ++ rest' ↔ a.identical b ∧ rest = rest') ∧
    (elementsFeed t = elementsFeed u ↔ identicalElements t u) := by
  have hvalues := feed_eq_iff ha hb
  have hrecords := Record.feed_eq_iff hr hs
  have hrows := Tuple.feed_eq_iff ht hu
  exact ⟨⟨hvalues, contentHashOf_eq_iff hvalues⟩, ⟨hrecords, contentHashOf_eq_iff hrecords⟩,
    ⟨hrows, contentHashOf_eq_iff hrows⟩, feed_append_eq_iff ha hb,
    elementsFeed_eq_iff ht.inside hu.inside⟩

/-- Texts that are one when put together, fields in another order, and rows that are one when their
lists are opened. -/
theorem feed_spec_lookalikes :
    ((list [.text "a", .text "bc"]).Everywhere IsCounted ∧
      (list [.text "ab", .text "c"]).Everywhere IsCounted ∧
      (struct [("x", .int 1), ("y", .list [])]).Everywhere IsCounted ∧
      (struct [("y", .list []), ("x", .int 1)]).Everywhere IsCounted ∧
      (list [.list [.null], .null]).Everywhere IsCounted ∧
      (list [.list [.null, .null]]).Everywhere IsCounted) ∧
    (list [.text "a", .text "bc"]).feed ≠ (list [.text "ab", .text "c"]).feed ∧
    Record.feed [("x", .int 1), ("y", .list [])] ≠ Record.feed [("y", .list []), ("x", .int 1)] ∧
    Tuple.feed [.list [.null], .null] ≠ Tuple.feed [.list [.null, .null]] := by
  have hflat : ∀ v ∈ [list [.text "a", .text "bc"], .list [.text "ab", .text "c"],
      .struct [("x", .int 1), ("y", .list [])], .struct [("y", .list []), ("x", .int 1)],
      .list [.null], .list [.null, .null], .null], v.Everywhere IsCounted := by
    have hinner : ∀ v ∈ [list [.text "a", .text "bc"], .list [.text "ab", .text "c"],
        .struct [("x", .int 1), ("y", .list [])], .struct [("y", .list []), ("x", .int 1)],
        .list [.null], .list [.null, .null], .null],
        v.IsCounted ∧ ∀ u ∈ v.inner, u.inner = [] ∧ u.IsCounted := by decide
    exact fun v hv => .flat (hinner v hv).1 (hinner v hv).2
  simp only [List.forall_mem_cons] at hflat
  obtain ⟨ha, hb, hr, hs, hone, htwo, hnull, -⟩ := hflat
  have ht : (list [.list [.null], .null]).Everywhere IsCounted := .pair (by decide) hone hnull
  have hu : (list [.list [.null, .null]]).Everywhere IsCounted :=
    .intro _ (by decide) (List.forall_mem_singleton.2 htwo)
  obtain ⟨hvalues, hrecords, hrows, -⟩ := feed_spec ha hb hr hs ht hu
  exact ⟨⟨ha, hb, hr, hs, ht, hu⟩, mt hvalues.1.1 (by decide), mt hrecords.1.1 (by decide),
    mt hrows.1.1 (by decide)⟩

end Value

end RecordFlow
