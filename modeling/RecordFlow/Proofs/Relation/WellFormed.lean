import RecordFlow.Proofs.Relation.Construction
import RecordFlow.Proofs.Relation.Selection
import RecordFlow.Relation.Grouping

/-!
# Relations stay well formed

`Relation.Derived` are the relations that any operations make of the relation of some records. All
of them are well formed, and no operation on them looks past the end of a row
(`Relation.derived_spec`). An operation keeps the statistics only if it keeps the columns: what
leaves out rows or columns has the statistics of no relation (`Relation.WellFormed.of_rows`,
`Relation.WellFormed.project`), and a profile has those of its own columns.
-/

namespace RecordFlow

namespace Relation

variable {r s : Relation}

/-! ### Operations that keep rows and schema -/

theorem WellFormed.of_eq (h : r.WellFormed) (hschema : s.schema = r.schema)
    (hrows : s.rows = r.rows) : s.WellFormed := by
  have hvalues : s.valuesAt = r.valuesAt := by
    funext p
    rw [valuesAt, valuesAt, hrows]
  refine ⟨?_, ?_, ?_⟩
  · rw [WellShaped, hschema, hrows]
    exact h.shape
  · rw [hschema, hvalues]
    exact h.fits
  · rw [hschema, hvalues]
    exact h.described

theorem WellFormed.withName (h : r.WellFormed) (name : String) : (r.withName name).WellFormed :=
  h.of_eq rfl rfl

theorem WellFormed.materialize (h : r.WellFormed) : r.materialize.WellFormed :=
  h.of_eq rfl rfl

/-! ### Operations that leave out rows -/

theorem exists_of_withoutStatistics_getElem? {schema : Schema} {p : Nat} {name : String}
    {d : AttributeDomain} (h : schema.withoutStatistics[p]? = some (name, d)) :
    ∃ d₀, schema[p]? = some (name, d₀) ∧ d = d₀.withoutStatistics := by
  rw [Schema.withoutStatistics, List.getElem?_map] at h
  obtain ⟨⟨name', d₀⟩, hget, heq⟩ := Option.map_eq_some_iff.1 h
  cases heq
  exact ⟨d₀, hget, rfl⟩

theorem hasStatistics_of_withoutStatistics {schema : Schema} {p : Nat} {name : String}
    {d : AttributeDomain} (h : schema.withoutStatistics[p]? = some (name, d)) :
    d.hasStatistics = false := by
  obtain ⟨d₀, -, rfl⟩ := exists_of_withoutStatistics_getElem? h
  rfl

/-- Some rows of a relation with the schema without its statistics are a well-formed relation. -/
theorem WellFormed.of_rows (h : r.WellFormed) (hschema : s.schema = r.schema.withoutStatistics)
    (hrows : ∀ row ∈ s.rows, row ∈ r.rows) : s.WellFormed := by
  refine ⟨⟨?_, ?_⟩, ?_, ?_⟩
  · rw [hschema, names_withoutStatistics]
    exact h.shape.1
  · intro row hrow
    rw [h.shape.2 row (hrows row hrow), hschema, Schema.withoutStatistics, List.length_map]
  · intro p name d hget v hv
    rw [hschema] at hget
    obtain ⟨d₀, hd₀, rfl⟩ := exists_of_withoutStatistics_getElem? hget
    obtain ⟨row, hrow, rfl⟩ := List.mem_map.1 hv
    exact h.fits hd₀ _ (List.mem_map_of_mem (hrows row hrow))
  · intro p name d hget hstatistics
    rw [hschema] at hget
    rw [hasStatistics_of_withoutStatistics hget] at hstatistics
    cases hstatistics

theorem select_eq_ok {f : Query.Filter} (h : r.select f = .ok s) :
    ∃ placed : Query.PlacedFilter, s = r.withRows (r.rows.filter placed.holds) := by
  rw [select_eq] at h
  cases hplace : f.place r.schema with
  | error fault => rw [hplace] at h; cases h
  | ok placed =>
    rw [hplace] at h
    exact ⟨placed, (Except.ok.inj h).symm⟩

theorem WellFormed.select (h : r.WellFormed) {f : Query.Filter} (hs : r.select f = .ok s) :
    s.WellFormed := by
  obtain ⟨placed, rfl⟩ := select_eq_ok hs
  exact h.of_rows rfl fun _ hrow => (List.mem_filter.1 hrow).1

theorem mem_of_mem_firstsBy {α : Type} {hash : α → UInt64} {seen : List UInt64} {a : α}
    {as : List α} (h : a ∈ firstsBy hash seen as) : a ∈ as := by
  induction as generalizing seen with
  | nil => cases h
  | cons b as ih =>
    rw [firstsBy] at h
    split at h
    · exact List.mem_cons_of_mem b (ih h)
    · rcases List.mem_cons.1 h with rfl | h
      · exact List.mem_cons_self
      · exact List.mem_cons_of_mem b (ih h)

theorem WellFormed.distinct (h : r.WellFormed) : r.distinct.WellFormed :=
  h.of_rows rfl fun _ hrow => mem_of_mem_firstsBy hrow

theorem mem_of_mem_sample {α : Type} {rate : Rate} {draws : Draws} {drawn : Nat} {a : α}
    {as : List α} (h : a ∈ rate.sample draws drawn as) : a ∈ as := by
  induction as generalizing drawn with
  | nil => cases h
  | cons b as ih =>
    rw [Rate.sample] at h
    split at h
    · rcases List.mem_cons.1 h with rfl | h
      · exact List.mem_cons_self
      · exact List.mem_cons_of_mem b (ih h)
    · exact List.mem_cons_of_mem b (ih h)

theorem sample_eq_ok {fraction : Binary64} {draws : Draws} (h : r.sample fraction draws = .ok s) :
    ∃ rate : Rate, s = r.withRows (rate.sample draws 0 r.rows) := by
  rw [Relation.sample] at h
  cases hrate : Rate.ofFraction fraction with
  | error fault => rw [hrate] at h; cases h
  | ok rate =>
    rw [hrate] at h
    exact ⟨rate, (Except.ok.inj h).symm⟩

theorem WellFormed.sample (h : r.WellFormed) {fraction : Binary64} {draws : Draws}
    (hs : r.sample fraction draws = .ok s) : s.WellFormed := by
  obtain ⟨rate, rfl⟩ := sample_eq_ok hs
  exact h.of_rows rfl fun _ hrow => mem_of_mem_sample hrow

/-! ### Profiles -/

theorem profile_getElem? {p : Nat} {name : String} {d : AttributeDomain}
    (h : r.profile.schema[p]? = some (name, d)) :
    ∃ d₀, r.schema[p]? = some (name, d₀) ∧
      d = (ColumnSummary.ofColumn (r.valuesAt p)).domain d₀.kind := by
  rw [profile, List.getElem?_map, List.getElem?_zipIdx, Nat.zero_add] at h
  obtain ⟨⟨⟨name', d₀⟩, position⟩, hget, heq⟩ := Option.map_eq_some_iff.1 h
  obtain ⟨entry, hentry, hpair⟩ := Option.map_eq_some_iff.1 hget
  cases hpair
  cases heq
  exact ⟨d₀, hentry, rfl⟩

theorem names_profile (r : Relation) : r.profile.schema.names = r.schema.names := by
  have hfirst : (r.schema.zipIdx.map Prod.fst).map Prod.fst = r.schema.map Prod.fst := by
    rw [List.zipIdx_map_fst]
  rw [Attributes.names, Attributes.names, ← hfirst, profile, List.map_map, List.map_map]
  rfl

/-- A profile has the statistics of its own columns. -/
theorem WellFormed.profile (h : r.WellFormed) : r.profile.WellFormed := by
  refine ⟨⟨?_, ?_⟩, ?_, ?_⟩
  · rw [names_profile]
    exact h.shape.1
  · intro row hrow
    rw [h.shape.2 row hrow, Relation.profile, List.length_map, List.length_zipIdx]
  · intro p name d hget v hv
    obtain ⟨d₀, hd₀, rfl⟩ := profile_getElem? hget
    exact h.fits hd₀ v hv
  · intro p name d hget _
    obtain ⟨d₀, -, rfl⟩ := profile_getElem? hget
    exact ColumnSummary.describes_domain _ _

/-! ### Projections -/

theorem lt_of_mem_places {columns : List String} {p : Nat} (h : p ∈ r.places columns) :
    p < r.schema.length := by
  rw [places, List.mem_eraseDups, List.mem_filterMap] at h
  obtain ⟨name, -, hp⟩ := h
  exact Attributes.lt_of_position? hp

/-- Places in range all have an entry. -/
theorem getElem?_filterMap_getElem? {α : Type} {as : List α} {places : List Nat}
    (h : ∀ p ∈ places, p < as.length) (q : Nat) :
    (places.filterMap (as[·]?))[q]? = places[q]?.bind (as[·]?) := by
  induction places generalizing q with
  | nil => rfl
  | cons p places ih =>
    have hp := List.getElem?_eq_getElem (h p List.mem_cons_self)
    have hrest := ih fun p' hp' => h p' (List.mem_cons_of_mem p hp')
    rw [List.filterMap_cons_some hp]
    cases q with
    | zero => exact hp.symm
    | succ q => exact hrest q

theorem length_filterMap_getElem? {α : Type} {as : List α} {places : List Nat}
    (h : ∀ p ∈ places, p < as.length) : (places.filterMap (as[·]?)).length = places.length := by
  induction places with
  | nil => rfl
  | cons p places ih =>
    have hp := List.getElem?_eq_getElem (h p List.mem_cons_self)
    have hrest := ih fun p' hp' => h p' (List.mem_cons_of_mem p hp')
    rw [List.filterMap_cons_some hp, List.length_cons, hrest, List.length_cons]

/-- Different places of distinct names have different names. -/
theorem nodup_names_filterMap_getElem? {schema : Schema} {places : List Nat}
    (hschema : schema.names.Nodup) (hplaces : places.Nodup) :
    (Attributes.names (places.filterMap (schema[·]?))).Nodup := by
  rw [Attributes.names, List.Nodup, List.pairwise_map, List.pairwise_filterMap]
  refine hplaces.imp ?_
  intro p q hne entry hentry entry' hentry' heq
  have hname : ∀ {p : Nat} {entry : String × AttributeDomain}, schema[p]? = some entry →
      schema.names[p]? = some entry.1 := by
    intro p entry hentry
    rw [Attributes.names, List.getElem?_map, hentry]
    rfl
  have hp := hname hentry
  have hq := hname hentry'
  rw [← heq, ← hp] at hq
  exact hne ((List.getElem?_inj (List.getElem?_eq_some_iff.1 hp).1 hschema).1 hq.symm)

theorem WellFormed.project (h : r.WellFormed) (columns : List String) :
    (r.project columns).WellFormed := by
  have hlt : ∀ p ∈ r.places columns, p < r.schema.length := fun p hp => lt_of_mem_places hp
  refine ⟨⟨?_, ?_⟩, ?_, ?_⟩
  · rw [Relation.project, names_withoutStatistics]
    exact nodup_names_filterMap_getElem? h.shape.1 (nodup_eraseDups _)
  · intro row hrow
    obtain ⟨source, -, rfl⟩ := List.mem_map.1 hrow
    rw [List.length_map, Relation.project, Schema.withoutStatistics, List.length_map,
      length_filterMap_getElem? hlt]
  · -- The column at place `q` of the projection is the one at place `p` of the relation.
    intro q name d hget v hv
    obtain ⟨d₀, hd₀, rfl⟩ := exists_of_withoutStatistics_getElem? hget
    rw [getElem?_filterMap_getElem? hlt] at hd₀
    obtain ⟨p, hp, hentry⟩ := Option.bind_eq_some_iff.1 hd₀
    obtain ⟨row, hrow, rfl⟩ := List.mem_map.1 hv
    obtain ⟨source, hsource, rfl⟩ := List.mem_map.1 hrow
    rw [List.getElem?_map, hp]
    exact h.fits hentry _ (List.mem_map_of_mem hsource)
  · intro q name d hget hstatistics
    rw [hasStatistics_of_withoutStatistics hget] at hstatistics
    cases hstatistics

/-! ### Renaming -/

theorem not_mem_names_of_not_has {α : Type} {as : Attributes α} {name : String}
    (h : as.has name = false) : name ∉ as.names := by
  induction as with
  | nil => exact List.not_mem_nil
  | cons entry as ih =>
    rw [Attributes.has, Attributes.get?_cons] at h
    split at h
    · cases h
    · rename_i hne
      exact List.not_mem_cons_of_ne_of_not_mem hne (ih h)

theorem nodup_rename {names : List String} {source target : String} (h : names.Nodup)
    (htarget : target ∉ names) :
    (names.map fun name => if name = source then target else name).Nodup := by
  rw [List.Nodup, List.pairwise_map]
  refine h.imp_of_mem ?_
  intro a b ha hb hne
  split <;> split
  · rename_i hasource hbsource
    exact absurd (hasource.trans hbsource.symm) hne
  · rintro rfl
    exact htarget hb
  · rintro rfl
    exact htarget ha
  · exact hne

theorem rename_eq_ok {source target : String} (h : r.rename source target = .ok s) :
    s = r ∨ r.schema.has target = false ∧
      s = { r with
        schema := r.schema.map fun (name, d) => (if name = source then target else name, d) } := by
  rw [rename] at h
  cases hp : r.position source with
  | error fault => rw [hp] at h; cases h
  | ok p =>
    rw [hp] at h
    by_cases heq : source = target
    · simp only [heq] at h
      exact .inl (Except.ok.inj h).symm
    · cases hhas : r.schema.has target with
      | true => simp only [heq, hhas] at h; cases h
      | false => simp only [heq, hhas] at h; exact .inr ⟨rfl, (Except.ok.inj h).symm⟩

/-- Renaming keeps the columns, so it keeps their statistics. -/
theorem WellFormed.rename (h : r.WellFormed) {source target : String}
    (hs : r.rename source target = .ok s) : s.WellFormed := by
  obtain rfl | ⟨hhas, rfl⟩ := rename_eq_ok hs
  · exact h
  · have hget : ∀ {p : Nat} {name : String} {d : AttributeDomain},
        (r.schema.map fun (name, d) => (if name = source then target else name, d))[p]? =
          some (name, d) → ∃ name₀, r.schema[p]? = some (name₀, d) := by
      intro p name d hget
      rw [List.getElem?_map] at hget
      obtain ⟨⟨name₀, d₀⟩, hentry, heq⟩ := Option.map_eq_some_iff.1 hget
      cases heq
      exact ⟨name₀, hentry⟩
    refine ⟨⟨?_, ?_⟩, ?_, ?_⟩
    · have hnodup : (r.schema.names.map fun name => if name = source then target else name).Nodup :=
        nodup_rename h.shape.1 (not_mem_names_of_not_has hhas)
      rw [Attributes.names, List.map_map] at hnodup ⊢
      exact hnodup
    · intro row hrow
      rw [List.length_map]
      exact h.shape.2 row hrow
    · intro p name d hentry
      obtain ⟨name₀, hentry⟩ := hget hentry
      exact h.fits hentry
    · intro p name d hentry
      obtain ⟨name₀, hentry⟩ := hget hentry
      exact h.described hentry

/-! ### Groups -/

theorem groupBy_eq_ok {columns : List String} {g : Grouping} (h : r.groupBy columns = .ok g) :
    ∃ places, columns.mapM r.position = .ok places ∧
      g = ⟨r.schema.withoutStatistics, r.rows, columns,
        (Grouping.groupsOf places r.rows).map (·.2)⟩ := by
  rw [groupBy] at h
  split at h
  · cases h
  · cases hplaces : columns.mapM r.position with
    | error fault => rw [hplaces] at h; cases h
    | ok places =>
      rw [hplaces] at h
      exact ⟨places, rfl, (Except.ok.inj h).symm⟩

/-- The rows of a group are rows of the relation. -/
theorem mem_rows_of_groupBy {columns : List String} {g : Grouping} (hg : r.groupBy columns = .ok g)
    {group : Group} {row : Tuple} (h : row ∈ (g.relationOf group).rows) : row ∈ r.rows := by
  obtain ⟨places, -, rfl⟩ := groupBy_eq_ok hg
  obtain ⟨p, -, hp⟩ := List.mem_filterMap.1 h
  exact List.mem_of_getElem? hp

theorem WellFormed.relationOf (h : r.WellFormed) {columns : List String} {g : Grouping}
    (hg : r.groupBy columns = .ok g) (group : Group) : (g.relationOf group).WellFormed := by
  refine h.of_rows ?_ fun row hrow => mem_rows_of_groupBy hg hrow
  obtain ⟨places, -, rfl⟩ := groupBy_eq_ok hg
  rfl

/-- Every row of every group is among the first so many. -/
def PositionsBelow (limit : Nat) (groups : List (List UInt8 × Group)) : Prop :=
  ∀ entry ∈ groups, ∀ i ∈ entry.2.positions, i < limit

theorem PositionsBelow.join {limit position : Nat} {groups : List (List UInt8 × Group)}
    (h : PositionsBelow limit groups) (hlt : position < limit) (key : List UInt8)
    (values : List Value) : PositionsBelow limit (Grouping.join key values position groups) := by
  induction groups with
  | nil =>
    intro entry hentry i hi
    obtain rfl := List.mem_singleton.1 hentry
    obtain rfl := List.mem_singleton.1 hi
    exact hlt
  | cons first rest ih =>
    obtain ⟨k, g⟩ := first
    have hfirst := h (k, g) List.mem_cons_self
    have hrest : PositionsBelow limit rest := fun entry hentry =>
      h entry (List.mem_cons_of_mem _ hentry)
    intro entry hentry
    rw [Grouping.join] at hentry
    split at hentry
    · rcases List.mem_cons.1 hentry with rfl | hentry
      · intro i hi
        rcases List.mem_append.1 hi with hi | hi
        · exact hfirst i hi
        · obtain rfl := List.mem_singleton.1 hi
          exact hlt
      · exact hrest entry hentry
    · rcases List.mem_cons.1 hentry with rfl | hentry
      · exact hfirst
      · exact ih hrest entry hentry

theorem PositionsBelow.foldl_join {limit : Nat} {numbered : List (Tuple × Nat)}
    {groups : List (List UInt8 × Group)} (h : PositionsBelow limit groups)
    (hlt : ∀ entry ∈ numbered, entry.2 < limit) (values : Tuple → List Value) :
    PositionsBelow limit (numbered.foldl (fun groups entry =>
      Grouping.join ((values entry.1).flatMap Value.key) (values entry.1) entry.2 groups)
      groups) := by
  induction numbered generalizing groups with
  | nil => exact h
  | cons entry numbered ih =>
    exact ih (h.join (hlt entry List.mem_cons_self) _ _)
      fun entry' hentry' => hlt entry' (List.mem_cons_of_mem _ hentry')

/-- The groups of some rows hold positions of these rows. -/
theorem positionsBelow_groupsOf (places : List Nat) (rows : List Tuple) :
    PositionsBelow rows.length (Grouping.groupsOf places rows) := by
  have hnone : PositionsBelow rows.length [] := fun entry hentry => (by cases hentry)
  refine hnone.foldl_join (fun entry hentry => ?_) (Grouping.valuesAt places)
  exact (List.mem_zipIdx' hentry).1

/-! ### Every relation -/

/-- The position is one of every row. -/
def InRows (r : Relation) (p : Nat) : Prop :=
  ∀ row ∈ r.rows, p < row.length

/-- No operation looks past the end of a row, or past the last row. -/
structure InRange (r : Relation) : Prop where
  profile : ∀ p < r.schema.length, r.InRows p
  column : ∀ {name : String} {p : Nat}, r.position name = .ok p → r.InRows p
  projection : ∀ {columns : List String}, ∀ p ∈ r.places columns, r.InRows p
  grouping : ∀ {columns : List String} {places : List Nat},
    columns.mapM r.position = .ok places → ∀ p ∈ places, r.InRows p
  groups : ∀ {columns : List String} {g : Grouping}, r.groupBy columns = .ok g →
    ∀ group ∈ g.groups, ∀ i ∈ group.positions, i < g.rows.length

theorem WellShaped.inRows (h : r.WellShaped) {p : Nat} (hp : p < r.schema.length) :
    r.InRows p := by
  intro row hrow
  rw [h.2 row hrow]
  exact hp

theorem lt_of_position {name : String} {p : Nat} (h : r.position name = .ok p) :
    p < r.schema.length := by
  rw [position] at h
  cases hp : r.schema.position? name with
  | none => rw [hp] at h; cases h
  | some q =>
    rw [hp] at h
    obtain rfl := Except.ok.inj h
    exact Attributes.lt_of_position? hp

theorem WellShaped.inRange (h : r.WellShaped) : r.InRange where
  profile _ hp := h.inRows hp
  column hp := h.inRows (lt_of_position hp)
  projection _ hp := h.inRows (lt_of_mem_places hp)
  grouping hplaces p hp := by
    obtain ⟨name, -, hname⟩ := exists_mem_of_mapM hplaces hp
    exact h.inRows (lt_of_position hname)
  groups hg group hgroup := by
    obtain ⟨places, -, rfl⟩ := groupBy_eq_ok hg
    obtain ⟨entry, hentry, rfl⟩ := List.mem_map.1 hgroup
    exact positionsBelow_groupsOf places r.rows entry hentry

/-- The relations that operations make of the relation of some records. -/
inductive Derived (records : List Record) : Relation → Prop where
  | ofRecords : Derived records (.ofRecords records)
  | select {r s : Relation} (f : Query.Filter) (h : Derived records r) (hs : r.select f = .ok s) :
    Derived records s
  | project {r : Relation} (columns : List String) (h : Derived records r) :
    Derived records (r.project columns)
  | distinct {r : Relation} (h : Derived records r) : Derived records r.distinct
  | sample {r s : Relation} (fraction : Binary64) (draws : Draws) (h : Derived records r)
    (hs : r.sample fraction draws = .ok s) : Derived records s
  | rename {r s : Relation} (source target : String) (h : Derived records r)
    (hs : r.rename source target = .ok s) : Derived records s
  | withName {r : Relation} (name : String) (h : Derived records r) :
    Derived records (r.withName name)
  | materialize {r : Relation} (h : Derived records r) : Derived records r.materialize
  | profile {r : Relation} (h : Derived records r) : Derived records r.profile
  | group {r : Relation} (columns : List String) {g : Grouping} (h : Derived records r)
    (hg : r.groupBy columns = .ok g) {values : List Value} {s : Relation}
    (hs : (values, s) ∈ g.relations) : Derived records s

theorem Derived.wellFormed {records : List NamedRecord} (h : Derived (records.map (·.val)) r) :
    r.WellFormed := by
  induction h with
  | ofRecords => exact wellFormed_ofRecords records
  | select f _ hs ih => exact ih.select hs
  | project columns _ ih => exact ih.project columns
  | distinct _ ih => exact ih.distinct
  | sample fraction draws _ hs ih => exact ih.sample hs
  | rename source target _ hs ih => exact ih.rename hs
  | withName name _ ih => exact ih.withName name
  | materialize _ ih => exact ih.materialize
  | profile _ ih => exact ih.profile
  | group columns _ hg hs ih =>
    obtain ⟨group, -, heq⟩ := List.mem_map.1 hs
    cases heq
    exact ih.relationOf hg group

/-- Whatever operations make of the relation of some records, the rows have a value for every
attribute, no operation looks past them, the names are distinct, the values fit their columns, and
statistics are those of the columns as they are. -/
theorem derived_spec {records : List NamedRecord} (h : Derived (records.map (·.val)) r) :
    r.WellFormed ∧ r.InRange :=
  ⟨h.wellFormed, h.wellFormed.shape.inRange⟩

/-- Records with numbers of both kinds, one of them without a text. -/
def mixedRecords : List NamedRecord :=
  [.ofPairs [("n", .int 2), ("s", .text "x")], .ofPairs [("n", .float .one), ("s", .null)]]

/-- A profile with another name for a column still has the statistics of that column. -/
theorem derived_spec_mixedRecords :
    ∃ s, (ofRecords (mixedRecords.map (·.val))).profile.rename "n" "m" = .ok s ∧
      Derived (mixedRecords.map (·.val)) s ∧ (s.WellFormed ∧ s.InRange) ∧
      (s.schema.map fun (name, d) => (name, d.count, d.unique, d.nullable)) =
        [("m", some 2, some 2, some false), ("s", some 1, some 1, some true)] := by
  refine ⟨_, rfl, ?_⟩
  have hprofile :
      Derived (mixedRecords.map (·.val)) (ofRecords (mixedRecords.map (·.val))).profile :=
    .profile .ofRecords
  have hderived := hprofile.rename "n" "m" rfl
  exact ⟨hderived, derived_spec hderived, by decide +kernel⟩

end Relation

end RecordFlow
