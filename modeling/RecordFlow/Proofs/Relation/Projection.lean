import RecordFlow.Proofs.Relation.WellFormed

/-!
# Positions behind a projection

A projection renumbers the attributes of a relation: its first place is that of the first known
name, and every name that it keeps stands at the place of its first mention. The position of a name
in the projected schema leads back to its position in the relation (`Relation.position?_project`).
So a projection of a projection is one projection to the names that both keep
(`Relation.project_project`).
-/

namespace RecordFlow

/-! ### Names and positions -/

namespace Attributes

variable {α β : Type} {as : Attributes α} {name : String}

theorem position?_eq_idxOf? (as : Attributes α) (name : String) :
    as.position? name = as.names.idxOf? name := by
  rw [position?, names, List.idxOf?, List.findIdx?_map]
  rfl

theorem getElem?_names_of_position? {p : Nat} (h : as.position? name = some p) :
    as.names[p]? = some name := by
  rw [position?_eq_idxOf?, List.idxOf?, List.findIdx?_eq_some_iff_getElem] at h
  obtain ⟨hlt, hname, -⟩ := h
  rw [List.getElem?_eq_getElem hlt, eq_of_beq hname]

/-- Different names have different positions. -/
theorem eq_of_position? {other : String} {p : Nat} (h : as.position? name = some p)
    (hother : as.position? other = some p) : name = other := by
  have hname := getElem?_names_of_position? h
  rw [getElem?_names_of_position? hother] at hname
  exact (Option.some.inj hname).symm

theorem isSome_position?_iff : (as.position? name).isSome ↔ name ∈ as.names := by
  rw [← not_iff_not, ← position?_eq_none_iff, Option.not_isSome_iff_eq_none]

/-- The positions of names depend on the names only. -/
theorem position?_congr {bs : Attributes β} (h : as.names = bs.names) :
    as.position? = bs.position? := by
  funext name
  rw [position?_eq_idxOf?, position?_eq_idxOf?, h]

end Attributes

namespace Relation

variable {r : Relation} {name : String}

theorem places_eq (r : Relation) (columns : List String) :
    r.places columns = columns.eraseDups.filterMap r.schema.position? :=
  eraseDups_filterMap Attributes.eq_of_position? columns

/-! ### Picking by places -/

section Places

variable {α β : Type} {as : List α} {places further : List Nat}

theorem filterMap_getElem?_map (as : List α) (f : α → β) (places : List Nat) :
    places.filterMap ((as.map f)[·]?) = (places.filterMap (as[·]?)).map f := by
  rw [List.map_filterMap]
  refine List.filterMap_congr fun p _ => ?_
  rw [List.getElem?_map]

/-- What stands at places of what stands at places. -/
theorem filterMap_getElem?_filterMap (h : ∀ p ∈ places, p < as.length) (further : List Nat) :
    further.filterMap ((places.filterMap (as[·]?))[·]?) =
      (further.filterMap (places[·]?)).filterMap (as[·]?) := by
  rw [List.filterMap_filterMap]
  refine List.filterMap_congr fun q _ => ?_
  exact getElem?_filterMap_getElem? h q

theorem map_getElem?_map (h : ∀ q ∈ further, q < places.length) (f : Nat → α) (default : α) :
    (further.map fun q => (places.map f)[q]?.getD default) =
      (further.filterMap (places[·]?)).map f := by
  induction further with
  | nil => rfl
  | cons q further ih =>
    have hq := List.getElem?_eq_getElem (h q List.mem_cons_self)
    have hrest := ih fun q' hq' => h q' (List.mem_cons_of_mem q hq')
    rw [List.map_cons, List.filterMap_cons_some hq, List.map_cons, hrest, List.getElem?_map, hq]
    rfl

/-- The place among the known names of a list leads to what the name is known as. -/
theorem bind_idxOf?_filter (known : String → Option Nat) (names : List String) (name : String) :
    ((names.filter fun n => (known n).isSome).idxOf? name).bind ((names.filterMap known)[·]?) =
      if name ∈ names then known name else none := by
  induction names with
  | nil => rfl
  | cons n names ih =>
    cases hn : known n with
    | none =>
      rw [List.filter_cons_of_neg (by simp [hn]), List.filterMap_cons_none hn, ih]
      by_cases heq : name = n
      · simp [heq, hn]
      · simp [heq]
    | some p =>
      rw [List.filter_cons_of_pos (by simp [hn]), List.filterMap_cons_some hn, List.idxOf?_cons]
      by_cases heq : n = name
      · simp [← heq, hn]
      · rw [beq_false_of_ne heq, if_neg Bool.false_ne_true, Option.bind_map]
        refine Eq.trans ih ?_
        simp [Ne.symm heq]

end Places

/-! ### The schema of a projection -/

theorem schema_project (r : Relation) (columns : List String) : (r.project columns).schema =
    Schema.withoutStatistics ((r.places columns).filterMap (r.schema[·]?)) := rfl

theorem rows_project (r : Relation) (columns : List String) : (r.project columns).rows =
    r.rows.map fun row => (r.places columns).map fun p => row[p]?.getD .null := rfl

/-- A projection has the known ones of the names, each where it is first mentioned. -/
theorem names_project (r : Relation) (columns : List String) :
    (r.project columns).schema.names =
      columns.eraseDups.filter fun n => (r.schema.position? n).isSome := by
  rw [schema_project, names_withoutStatistics, Attributes.names, ← filterMap_getElem?_map,
    places_eq, List.filterMap_filterMap, ← List.filterMap_eq_filter]
  refine List.filterMap_congr fun n _ => ?_
  cases hn : r.schema.position? n with
  | none => simp [Option.guard, hn]
  | some p =>
    have hname := Attributes.getElem?_names_of_position? hn
    rw [Attributes.names] at hname
    rw [Option.bind_some, hname]
    simp [Option.guard, hn]

theorem mem_names_project {columns : List String} :
    name ∈ (r.project columns).schema.names ↔ name ∈ columns ∧ name ∈ r.schema.names := by
  rw [names_project, List.mem_filter, List.mem_eraseDups, Attributes.isSome_position?_iff]

theorem length_schema_project (r : Relation) (columns : List String) :
    (r.project columns).schema.length = (r.places columns).length := by
  rw [schema_project, Schema.withoutStatistics, List.length_map,
    length_filterMap_getElem? fun p hp => lt_of_mem_places hp]

/-- The position of a name in a projection leads back to its position in the relation. -/
theorem position?_project (r : Relation) (columns : List String) (name : String) :
    ((r.project columns).schema.position? name).bind ((r.places columns)[·]?) =
      if name ∈ columns then r.schema.position? name else none := by
  have hlead := bind_idxOf?_filter r.schema.position? columns.eraseDups name
  rw [← names_project, ← Attributes.position?_eq_idxOf?, ← places_eq] at hlead
  simpa only [List.mem_eraseDups] using hlead

/-! ### Projections of projections -/

/-- The places that a second projection leaves are those of the names that both keep. -/
theorem places_project (r : Relation) (columns further : List String) :
    ((r.project columns).places further).filterMap ((r.places columns)[·]?) =
      r.places (further.filter (columns.contains ·)) := by
  rw [places_eq (r.project columns), places_eq r (further.filter _), List.filterMap_filterMap,
    eraseDups_filter, List.filterMap_filter]
  refine List.filterMap_congr fun n _ => ?_
  rw [position?_project]
  simp only [List.contains_iff_mem]

@[simp] theorem withoutStatistics_withoutStatistics (s : Schema) :
    s.withoutStatistics.withoutStatistics = s.withoutStatistics := by
  simp [Schema.withoutStatistics, AttributeDomain.withoutStatistics]

/-- Entries at places of a schema without statistics are entries of the schema without them. -/
theorem filterMap_getElem?_withoutStatistics (s : Schema) (places : List Nat) :
    places.filterMap (s.withoutStatistics[·]?) =
      Schema.withoutStatistics (places.filterMap (s[·]?)) :=
  filterMap_getElem?_map s _ places

/-- Projecting twice is projecting to those of the later names that the earlier ones have. -/
theorem project_project (r : Relation) (columns further : List String) :
    (r.project columns).project further = r.project (further.filter (columns.contains ·)) := by
  have hplaces := places_project r columns further
  have hlt : ∀ q ∈ (r.project columns).places further, q < (r.places columns).length := by
    intro q hq
    rw [← length_schema_project]
    exact lt_of_mem_places hq
  have hschema : ((r.project columns).project further).schema =
      (r.project (further.filter (columns.contains ·))).schema := by
    rw [schema_project (r.project columns), schema_project r columns,
      filterMap_getElem?_withoutStatistics, withoutStatistics_withoutStatistics,
      filterMap_getElem?_filterMap fun p hp => lt_of_mem_places hp, hplaces, ← schema_project]
  have hrows : ((r.project columns).project further).rows =
      (r.project (further.filter (columns.contains ·))).rows := by
    rw [rows_project (r.project columns), rows_project r columns, List.map_map,
      rows_project r (further.filter _), ← hplaces]
    refine List.map_congr_left fun row _ => ?_
    exact map_getElem?_map hlt _ _
  exact congrArg₂ (fun schema rows => Relation.mk r.name schema rows false) hschema hrows

end Relation

end RecordFlow
