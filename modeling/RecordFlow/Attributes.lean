/-!
# Named attributes in order

`Attributes α` is a list of named entries. Names keep the order in which they were first put:
`put` replaces the entry of a name that is present and appends any other, so a list built by `put`
alone has distinct names. Records and schemas are both lists of this kind.
-/

namespace RecordFlow

abbrev Attributes (α : Type) := List (String × α)

namespace Attributes

variable {α : Type}

def get? (as : Attributes α) (name : String) : Option α :=
  List.lookup name as

@[simp] theorem get?_nil (name : String) : get? ([] : Attributes α) name = none := rfl

theorem get?_cons (entry : String × α) (rest : Attributes α) (name : String) :
    get? (entry :: rest) name = if name = entry.1 then some entry.2 else get? rest name := by
  obtain ⟨key, value⟩ := entry
  by_cases h : name = key
  · simp [get?, h]
  · simp [get?, List.lookup_cons, beq_false_of_ne h, h]

theorem mem_of_get?_eq_some {as : Attributes α} {name : String} {a : α}
    (h : as.get? name = some a) : (name, a) ∈ as := by
  induction as with
  | nil => cases h
  | cons entry as ih =>
    rw [get?_cons] at h
    split at h
    · next hname =>
      obtain rfl := Option.some.inj h
      subst hname
      exact List.mem_cons_self
    · exact List.mem_cons_of_mem entry (ih h)

def names (as : Attributes α) : List String :=
  as.map (·.1)

/-- Where names are distinct, every entry is the one of its name. -/
theorem get?_of_mem {as : Attributes α} (hnames : as.names.Nodup) {name : String} {a : α}
    (h : (name, a) ∈ as) : as.get? name = some a := by
  induction as with
  | nil => cases h
  | cons entry as ih =>
    obtain ⟨hnew, hrest⟩ := List.nodup_cons.1 hnames
    rw [get?_cons]
    rcases List.mem_cons.1 h with rfl | h
    · rw [if_pos rfl]
    · have hne : name ≠ entry.1 := by
        rintro rfl
        exact hnew (List.mem_map.2 ⟨_, h, rfl⟩)
      rw [if_neg hne]
      exact ih hrest h

def entries (as : Attributes α) : List α :=
  as.map (·.2)

def has (as : Attributes α) (name : String) : Bool :=
  (as.get? name).isSome

def position? (as : Attributes α) (name : String) : Option Nat :=
  as.findIdx? (·.1 == name)

/-- Gives a name its entry, in place if it has one and at the end otherwise. -/
def put (as : Attributes α) (name : String) (a : α) : Attributes α :=
  match as with
  | [] => [(name, a)]
  | (n, b) :: rest => if n == name then (n, a) :: rest else (n, b) :: put rest name a

@[simp] theorem get?_put_self (as : Attributes α) (name : String) (a : α) :
    (as.put name a).get? name = some a := by
  induction as with
  | nil => simp [put, get?_cons]
  | cons entry rest ih =>
    by_cases h : entry.1 = name
    · simp [put, get?_cons, h]
    · simp [put, get?_cons, h, Ne.symm h, ih]

theorem get?_put_of_ne (as : Attributes α) {name other : String} (a : α) (h : other ≠ name) :
    (as.put name a).get? other = as.get? other := by
  induction as with
  | nil => simp [put, get?_cons, h]
  | cons entry rest ih =>
    by_cases hn : entry.1 = name
    · simp [put, get?_cons, hn, h]
    · simp [put, get?_cons, hn, ih]

/-- A name that is new comes last. -/
theorem names_put (as : Attributes α) (name : String) (a : α) :
    (as.put name a).names = if name ∈ as.names then as.names else as.names ++ [name] := by
  induction as with
  | nil => simp [put, names]
  | cons entry rest ih =>
    by_cases h : entry.1 = name <;> by_cases hr : name ∈ names rest <;>
      simp_all [put, names, Ne.symm]

def remove (as : Attributes α) (name : String) : Attributes α :=
  as.eraseP (·.1 == name)

/-- The entries put one after the other: a repeated name keeps its first place and takes its last
entry. -/
def ofPairs (pairs : List (String × α)) : Attributes α :=
  pairs.foldl (fun as (name, a) => put as name a) []

theorem put_of_not_mem (as : Attributes α) {name : String} (a : α) (h : name ∉ as.names) :
    as.put name a = as ++ [(name, a)] := by
  induction as with
  | nil => rfl
  | cons entry rest ih =>
    have hne : entry.1 ≠ name ∧ name ∉ names rest := by simpa [names, eq_comm] using h
    simp [put, hne.1, ih hne.2]

theorem foldl_put_of_nodup (as : Attributes α) {pairs : List (String × α)}
    (h : (as.names ++ pairs.map (·.1)).Nodup) :
    pairs.foldl (fun as (name, a) => put as name a) as = as ++ pairs := by
  induction pairs generalizing as with
  | nil => simp
  | cons pair pairs ih =>
    obtain ⟨name, a⟩ := pair
    have hnew : name ∉ as.names := by
      intro hm
      exact (List.nodup_append.1 h).2.2 _ hm _ List.mem_cons_self rfl
    simp only [List.foldl_cons]
    rw [put_of_not_mem as a hnew, ih]
    · simp
    · simpa [names] using h

theorem nodup_names_put {as : Attributes α} (h : as.names.Nodup) (name : String) (a : α) :
    (as.put name a).names.Nodup := by
  rw [names_put]
  split
  · exact h
  · next hnew =>
    refine List.nodup_append.2 ⟨h, List.pairwise_singleton _ _, ?_⟩
    rintro other hother last hlast rfl
    exact hnew (List.mem_singleton.1 hlast ▸ hother)

/-- What is put one after the other has distinct names. -/
theorem nodup_names_ofPairs (pairs : List (String × α)) : (ofPairs pairs).names.Nodup := by
  have hfold : ∀ (pairs : List (String × α)) (as : Attributes α), as.names.Nodup →
      (pairs.foldl (fun as (name, a) => put as name a) as).names.Nodup := by
    intro pairs
    induction pairs with
    | nil => exact fun as h => h
    | cons pair pairs ih => exact fun as h => ih _ (nodup_names_put h pair.1 pair.2)
  exact hfold pairs [] List.nodup_nil

/-- Entries of distinct names stay as they are. -/
theorem ofPairs_of_nodup {pairs : List (String × α)} (h : (pairs.map (·.1)).Nodup) :
    ofPairs pairs = pairs :=
  foldl_put_of_nodup [] (by simpa [names] using h)

end Attributes

end RecordFlow
