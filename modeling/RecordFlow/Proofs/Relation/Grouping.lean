import Mathlib.Data.List.Induction
import RecordFlow.Proofs.Relation.Digest
import RecordFlow.Proofs.Value.KeyMeaning

/-!
# Groupings are exact

The groups of a relation grow row by row (`Grouping.join`). What has become of them after some rows
can be told without the order in which they grew: they are the different keys of these rows, in the
order of their first occurrences, each with the rows that have it (`Grouping.groupsOf_eq`). Rows
have one key exactly if their values have, column by column, because the keys of several values tell
the key of each of them (`Value.flatMap_key_eq_iff_map`).

`Grouping.Exact` collects what follows for the groups of a relation, and `Relation.groupBy_spec` has
it for all columns that the relation knows.
-/

namespace RecordFlow

namespace Grouping

/-- The keys of the values of a row, behind one another. -/
def keyAt (places : List Nat) (row : Tuple) : List UInt8 :=
  (valuesAt places row).flatMap Value.key

/-- The numbered rows of a key. -/
def membersOf (places : List Nat) (key : List UInt8) (numbered : List (Tuple × Nat)) :
    List (Tuple × Nat) :=
  numbered.filter fun entry => keyAt places entry.1 == key

/-- Numbered rows as a group, with the values of the first one. -/
def groupOf (places : List Nat) (members : List (Tuple × Nat)) : Group :=
  ⟨members.head?.elim [] fun entry => valuesAt places entry.1, members.map (·.2)⟩

/-! ### A row joins the groups -/

section Join

variable {key : List UInt8} {keys : List (List UInt8)} (values : List Value) (position : Nat)
  (group : List UInt8 → Group)

theorem join_of_mem (hkeys : keys.Nodup) (hkey : key ∈ keys) :
    join key values position (keys.map fun k => (k, group k)) =
      keys.map fun k => (k, if k = key
        then ⟨(group k).values, (group k).positions ++ [position]⟩ else group k) := by
  induction keys with
  | nil => cases hkey
  | cons k keys ih =>
    obtain ⟨hk, hkeys⟩ := List.nodup_cons.1 hkeys
    rw [List.map_cons, join, List.map_cons]
    by_cases hfirst : k = key
    · subst hfirst
      have hrest : ∀ k' ∈ keys, (k', group k') = (k', if k' = k
          then ⟨(group k').values, (group k').positions ++ [position]⟩ else group k') := by
        intro k' hk'
        rw [if_neg (ne_of_mem_of_not_mem hk' hk)]
      rw [if_pos (beq_self_eq_true k), if_pos rfl, List.map_congr_left hrest]
    · have hmem : key ∈ keys := (List.mem_cons.1 hkey).resolve_left (Ne.symm hfirst)
      rw [if_neg (by simpa using hfirst), if_neg hfirst, ih hkeys hmem]

theorem join_of_not_mem (hkey : key ∉ keys) :
    join key values position (keys.map fun k => (k, group k)) =
      (keys.map fun k => (k, group k)) ++ [(key, ⟨values, [position]⟩)] := by
  induction keys with
  | nil => rfl
  | cons k keys ih =>
    obtain ⟨hfirst, hrest⟩ := not_or.1 (mt List.mem_cons.2 hkey)
    rw [List.map_cons, join, if_neg (by simpa using Ne.symm hfirst), ih hrest, List.cons_append]

end Join

/-! ### Groups by their keys -/

section Groups

variable {places : List Nat} {key : List UInt8} {numbered : List (Tuple × Nat)}
  {entry : Tuple × Nat}

theorem membersOf_concat (places : List Nat) (key : List UInt8) (numbered : List (Tuple × Nat))
    (entry : Tuple × Nat) : membersOf places key (numbered ++ [entry]) =
      membersOf places key numbered ++ if key = keyAt places entry.1 then [entry] else [] := by
  rw [membersOf, List.filter_append, membersOf]
  by_cases h : key = keyAt places entry.1
  · rw [if_pos h, List.filter_cons_of_pos (by simp [h]), List.filter_nil]
  · rw [if_neg h, List.filter_cons_of_neg (by simpa using Ne.symm h), List.filter_nil]

theorem mem_membersOf : entry ∈ membersOf places key numbered ↔
    entry ∈ numbered ∧ keyAt places entry.1 = key := by
  rw [membersOf, List.mem_filter, beq_iff_eq]

theorem membersOf_eq_nil_iff : membersOf places key numbered = [] ↔
    key ∉ numbered.map fun entry => keyAt places entry.1 := by
  rw [List.eq_nil_iff_forall_not_mem, List.mem_map]
  simp only [mem_membersOf, not_and, not_exists]

theorem groupOf_concat {members : List (Tuple × Nat)} (h : members ≠ []) :
    groupOf places (members ++ [entry]) =
      ⟨(groupOf places members).values, (groupOf places members).positions ++ [entry.2]⟩ := by
  obtain ⟨first, rest, rfl⟩ := List.exists_cons_of_ne_nil h
  rw [groupOf, List.map_append]
  rfl

/-- The different keys of numbered rows, in the order of their first occurrences. -/
def keysOf (places : List Nat) (numbered : List (Tuple × Nat)) : List (List UInt8) :=
  (numbered.map fun entry => keyAt places entry.1).eraseDups

theorem mem_keysOf : key ∈ keysOf places numbered ↔ membersOf places key numbered ≠ [] := by
  rw [keysOf, List.mem_eraseDups, Ne, membersOf_eq_nil_iff, not_not]

theorem keysOf_concat (places : List Nat) (numbered : List (Tuple × Nat)) (entry : Tuple × Nat) :
    keysOf places (numbered ++ [entry]) =
      if keyAt places entry.1 ∈ keysOf places numbered then keysOf places numbered
      else keysOf places numbered ++ [keyAt places entry.1] := by
  rw [keysOf, List.map_append, List.map_singleton, eraseDups_concat]
  simp only [keysOf, List.mem_eraseDups]

/-- A row of a new key is alone at first. -/
theorem membersOf_concat_of_not_mem (h : keyAt places entry.1 ∉ keysOf places numbered) :
    membersOf places (keyAt places entry.1) (numbered ++ [entry]) = [entry] := by
  rw [membersOf_concat, if_pos rfl, not_not.1 (mt mem_keysOf.2 h), List.nil_append]

/-- The groups of numbered rows that joined one after the other. -/
theorem foldl_join (places : List Nat) (numbered : List (Tuple × Nat)) :
    numbered.foldl (fun groups entry =>
        join (keyAt places entry.1) (valuesAt places entry.1) entry.2 groups) [] =
      (keysOf places numbered).map fun k => (k, groupOf places (membersOf places k numbered)) := by
  induction numbered using List.reverseRecOn with
  | nil => rfl
  | append_singleton numbered entry ih =>
    rw [List.foldl_concat, ih, keysOf_concat]
    by_cases hkey : keyAt places entry.1 ∈ keysOf places numbered
    · have hkeys : (keysOf places numbered).Nodup := nodup_eraseDups _
      rw [if_pos hkey, join_of_mem _ _ _ hkeys hkey]
      refine List.map_congr_left fun k hk => ?_
      rw [membersOf_concat]
      split
      · rw [groupOf_concat (mem_keysOf.1 hk)]
      · rw [List.append_nil]
    · have hold : ∀ k ∈ keysOf places numbered,
          (k, groupOf places (membersOf places k numbered)) =
            (k, groupOf places (membersOf places k (numbered ++ [entry]))) := by
        intro k hk
        rw [membersOf_concat, if_neg (ne_of_mem_of_not_mem hk hkey), List.append_nil]
      rw [if_neg hkey, join_of_not_mem _ _ _ hkey, List.map_append, List.map_singleton,
        membersOf_concat_of_not_mem hkey, List.map_congr_left hold]
      rfl

/-- The groups are the keys of the rows in the order of their first occurrences, each with the rows
that have it. -/
theorem groupsOf_eq (places : List Nat) (rows : List Tuple) :
    groupsOf places rows = (keysOf places rows.zipIdx).map fun k =>
      (k, groupOf places (membersOf places k rows.zipIdx)) :=
  foldl_join places rows.zipIdx

/-- The first rows of the groups come in the order of the rows. -/
theorem sublist_heads (places : List Nat) (numbered : List (Tuple × Nat)) :
    ((keysOf places numbered).filterMap fun k =>
      (membersOf places k numbered).head?).Sublist numbered := by
  induction numbered using List.reverseRecOn with
  | nil => exact .slnil
  | append_singleton numbered entry ih =>
    have hold : ∀ k ∈ keysOf places numbered,
        (membersOf places k (numbered ++ [entry])).head? =
          (membersOf places k numbered).head? := by
      intro k hk
      rw [membersOf_concat, List.head?_append_of_ne_nil _ (mem_keysOf.1 hk)]
    rw [keysOf_concat]
    split
    · rw [List.filterMap_congr hold]
      exact ih.trans (List.sublist_append_left _ _)
    · rename_i hkey
      rw [List.filterMap_append, List.filterMap_congr hold, List.filterMap_cons,
        membersOf_concat_of_not_mem hkey]
      exact ih.append (.refl _)

/-- The positions of rows that stand together. -/
theorem exists_together_iff (places : List Nat) {rows : List Tuple} {i j : Nat}
    {row row' : Tuple} (hi : rows[i]? = some row) (hj : rows[j]? = some row') :
    (∃ k ∈ keysOf places rows.zipIdx, i ∈ (membersOf places k rows.zipIdx).map (·.2) ∧
        j ∈ (membersOf places k rows.zipIdx).map (·.2)) ↔
      keyAt places row = keyAt places row' := by
  have hmem : ∀ {p : Nat} {row : Tuple} (k : List UInt8), rows[p]? = some row →
      (p ∈ (membersOf places k rows.zipIdx).map (·.2) ↔ keyAt places row = k) := by
    intro p row k hp
    rw [List.mem_map]
    constructor
    · rintro ⟨⟨row', p⟩, hentry, rfl⟩
      obtain ⟨hrow', hkey⟩ := mem_membersOf.1 hentry
      rw [List.mem_zipIdx_iff_getElem?, hp] at hrow'
      rwa [Option.some.inj hrow']
    · exact fun hkey => ⟨(row, p), mem_membersOf.2 ⟨List.mem_zipIdx_iff_getElem?.2 hp, hkey⟩, rfl⟩
  constructor
  · rintro ⟨k, -, hik, hjk⟩
    rw [(hmem k hi).1 hik, (hmem k hj).1 hjk]
  · intro heq
    have hik := (hmem (keyAt places row) hi).2 rfl
    refine ⟨keyAt places row, mem_keysOf.2 fun hnil => ?_, hik, (hmem _ hj).2 heq.symm⟩
    rw [hnil] at hik
    cases hik

end Groups

end Grouping

/-! ### The groups of a relation -/

namespace Relation

/-- The value that a relation has in a row under a name. -/
def cell (r : Relation) (i : Nat) (name : String) : Value :=
  (r.record? i).elim .null (·.value name)

end Relation

/-- A grouping parts the rows of a relation by their values in some columns. -/
structure Grouping.Exact (g : Grouping) (r : Relation) (columns : List String) : Prop where
  /-- Every row stands in one group, and there once. -/
  covers : (g.groups.flatMap (·.positions)).Perm (List.range r.rows.length)
  /-- Rows stand together exactly if their values have equal keys, column by column. -/
  together : ∀ i < r.rows.length, ∀ j < r.rows.length,
    (∃ group ∈ g.groups, i ∈ group.positions ∧ j ∈ group.positions) ↔
      ∀ name ∈ columns, (r.cell i name).key = (r.cell j name).key
  ascending : ∀ group ∈ g.groups, group.positions.Pairwise (· < ·)
  /-- Every group has a first row and the values of that row. -/
  named : ∀ group ∈ g.groups, ∃ first, group.positions.head? = some first ∧
    group.values = columns.map (r.cell first)
  /-- The groups come in the order of their first rows. -/
  ordered : g.groups.Pairwise fun group later =>
    ∀ first ∈ group.positions.head?, ∀ first' ∈ later.positions.head?, first < first'
  /-- The relation of a group has the rows of the group. -/
  relations : g.relations.map (fun part => (part.1, part.2.rows.map some)) =
    g.groups.map fun group => (group.values, group.positions.map (r.rows[·]?))

namespace Grouping

/-- The groups of all rows are exact when the places are those of the columns. -/
theorem exact_groupsOf {r : Relation} {columns : List String} {places : List Nat}
    (hvalues : ∀ {i : Nat} {row : Tuple}, r.rows[i]? = some row →
      valuesAt places row = columns.map (r.cell i)) :
    Exact ⟨r.schema.withoutStatistics, r.rows, columns,
      (groupsOf places r.rows).map (·.2)⟩ r columns := by
  have hgroups : (groupsOf places r.rows).map (·.2) = (keysOf places r.rows.zipIdx).map fun k =>
      groupOf places (membersOf places k r.rows.zipIdx) := by
    rw [groupsOf_eq, List.map_map]
    rfl
  have hmembers : ∀ k, (membersOf places k r.rows.zipIdx).Sublist r.rows.zipIdx :=
    fun k => List.filter_sublist
  have hnumbers : (r.rows.zipIdx.map (·.2)).Pairwise (· < ·) :=
    List.pairwise_map.2 (pairwise_snd_zipIdx r.rows 0)
  refine ⟨?covers, ?together, ?ascending, ?named, ?ordered, ?relations⟩
  case covers =>
    rw [List.flatMap_map]
    exact positions_groupsOf places r.rows
  case together =>
    intro i hi j hj
    have hrow := List.getElem?_eq_getElem hi
    have hrow' := List.getElem?_eq_getElem hj
    have hkeys := exists_together_iff places hrow hrow'
    rw [keyAt, keyAt, hvalues hrow, hvalues hrow', Value.flatMap_key_eq_iff_map, List.map_map,
      List.map_map, List.map_inj_left] at hkeys
    rw [hgroups]
    simp only [List.mem_map, exists_exists_and_eq_and]
    simpa only [groupOf, Function.comp_apply, List.mem_map] using hkeys
  case ascending =>
    rw [hgroups, List.forall_mem_map]
    exact fun k _ => hnumbers.sublist ((hmembers k).map _)
  case named =>
    rw [hgroups, List.forall_mem_map]
    intro k hk
    obtain ⟨⟨row, i⟩, rest, hcons⟩ := List.exists_cons_of_ne_nil (mem_keysOf.1 hk)
    have hrow : r.rows[i]? = some row :=
      List.mem_zipIdx_iff_getElem?.1 ((hmembers k).subset (hcons ▸ List.mem_cons_self))
    rw [hcons]
    exact ⟨i, rfl, hvalues hrow⟩
  case ordered =>
    have hheads := hnumbers.sublist ((sublist_heads places _).map (·.2))
    rw [List.map_filterMap, List.pairwise_filterMap] at hheads
    rw [hgroups, List.pairwise_map]
    refine hheads.imp fun hlt => ?_
    simpa [groupOf] using hlt
  case relations =>
    have hrows : ∀ k, (((membersOf places k r.rows.zipIdx).map (·.2)).filterMap
        (r.rows[·]?)).map some =
          ((membersOf places k r.rows.zipIdx).map (·.2)).map (r.rows[·]?) := by
      intro k
      rw [filterMap_numbers (hmembers k).subset, map_getElem?_numbers (hmembers k).subset,
        List.map_map]
      rfl
    rw [relations, hgroups, List.map_map, List.map_map, List.map_map]
    exact List.map_congr_left fun k _ => congrArg (Prod.mk _) (hrows k)

end Grouping

namespace Relation

variable {r : Relation} {columns : List String}

/-- The place of a known name. -/
def place (r : Relation) (name : String) : Nat :=
  (r.schema.position? name).getD 0

theorem position?_of_mem {name : String} (h : name ∈ r.schema.names) :
    r.schema.position? name = some (r.place name) := by
  obtain ⟨p, hp⟩ := Option.isSome_iff_exists.1 (Attributes.isSome_position?_iff.2 h)
  rw [place, hp]
  rfl

/-- The values of a row at the places of known names. -/
theorem valuesAt_place (h : ∀ name ∈ columns, name ∈ r.schema.names) {i : Nat} {row : Tuple}
    (hrow : r.rows[i]? = some row) :
    Grouping.valuesAt (columns.map r.place) row = columns.map (r.cell i) := by
  rw [Grouping.valuesAt, List.map_map]
  refine List.map_congr_left fun name hname => ?_
  rw [cell, record?, hrow, Option.map_some, Option.elim_some, Record.value, recordOf,
    Attributes.get?_zip, position?_of_mem (h name hname)]
  rfl

theorem groupBy_of_mem (hne : columns ≠ []) (h : ∀ name ∈ columns, name ∈ r.schema.names) :
    r.groupBy columns = .ok ⟨r.schema.withoutStatistics, r.rows, columns,
      (Grouping.groupsOf (columns.map r.place) r.rows).map (·.2)⟩ := by
  have hempty : columns.isEmpty = false := by simpa using hne
  have hplaces : columns.mapM r.position = .ok (columns.map r.place) :=
    mapM_of_ok fun name hname => by rw [position, position?_of_mem (h name hname)]; rfl
  rw [groupBy, hempty, hplaces]
  rfl

theorem kind_of_groupBy_error {fault : Fault} (h : r.groupBy columns = .error fault) :
    fault.kind = .invalidArgument := by
  rw [groupBy] at h
  split at h
  · obtain rfl := Except.error.inj h
    rfl
  · cases hplaces : columns.mapM r.position with
    | ok places => rw [hplaces] at h; cases h
    | error fault' =>
      rw [hplaces] at h
      obtain rfl := Except.error.inj h
      obtain ⟨name, -, hname⟩ := exists_error_of_mapM hplaces
      rw [position] at hname
      cases hp : r.schema.position? name with
      | some p => rw [hp] at hname; cases hname
      | none =>
        rw [hp] at hname
        obtain rfl := Except.error.inj hname
        rfl

/-- Rows can be grouped by any columns that the relation knows, at least one, and the groups are
exact. There is no grouping by other columns. -/
theorem groupBy_spec (r : Relation) (columns : List String) :
    (columns ≠ [] → (∀ name ∈ columns, name ∈ r.schema.names) →
      ∃ g, r.groupBy columns = .ok g ∧ g.Exact r columns) ∧
    ((columns = [] ∨ ∃ name ∈ columns, name ∉ r.schema.names) →
      ∃ fault, r.groupBy columns = .error fault ∧ fault.kind = .invalidArgument) := by
  refine ⟨fun hne h => ⟨_, groupBy_of_mem hne h, Grouping.exact_groupsOf (valuesAt_place h)⟩, ?_⟩
  intro hbad
  cases hg : r.groupBy columns with
  | error fault => exact ⟨fault, rfl, kind_of_groupBy_error hg⟩
  | ok g =>
    obtain ⟨hne, hnames⟩ := exists_groupBy_iff.1 ⟨g, hg⟩
    obtain hempty | ⟨name, hname, hunknown⟩ := hbad
    · exact (hne hempty).elim
    · exact (hunknown (hnames name hname)).elim

/-- Rows whose texts join to one text, numbers of both kinds, and structs of which the key of one
begins that of the other. -/
def lookalikes : Relation :=
  .ofTuples [("left", { kind := .other }), ("right", { kind := .other })] [
    [.text "a", .text "bc"], [.text "ab", .text "c"], [.int 1, .struct []],
    [.int 1, .struct [("", .null)]], [.float (.ofInt 1), .struct []]]

theorem groupBy_spec_lookalikes :
    (∃ g, lookalikes.groupBy ["left", "right", "left"] = .ok g ∧
      g.Exact lookalikes ["left", "right", "left"] ∧
      g.groups.map (·.positions) = [[0], [1], [2, 4], [3]]) ∧
    ∃ fault, lookalikes.groupBy ["left", "middle"] = .error fault ∧
      fault.kind = .invalidArgument := by
  have hpositions : (lookalikes.groupBy ["left", "right", "left"]).toOption.map
      (·.groups.map (·.positions)) = some [[0], [1], [2, 4], [3]] := by decide +kernel
  obtain ⟨g, hg, hexact⟩ :=
    (groupBy_spec lookalikes ["left", "right", "left"]).1 (by decide) (by decide)
  rw [hg] at hpositions
  exact ⟨⟨g, hg, hexact, Option.some.inj hpositions⟩,
    (groupBy_spec lookalikes ["left", "middle"]).2 (.inr ⟨"middle", by decide, by decide⟩)⟩

end Relation

end RecordFlow
