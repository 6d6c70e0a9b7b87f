import RecordFlow.Stream.Item

/-!
# Failures among items

The failures and the records of a sequence of items, and the sequence without its first failures.
-/

namespace RecordFlow.Item

/-- The item is a failure. -/
def isFault : Item → Bool
  | .error _ => true
  | .ok _ => false

/-- The failures among some items, in order. -/
def faults (items : List Item) : List Fault :=
  items.filterMap fun
    | .error fault => some fault
    | .ok _ => none

/-- The records among some items, in order. -/
def oks (items : List Item) : List Record :=
  items.filterMap fun
    | .error _ => none
    | .ok r => some r

/-- The items without the one at which the first failure stands. -/
def withoutFault (items : List Item) : List Item :=
  items.eraseIdx (items.findIdx isFault)

/-- The items without the first `n` failures. -/
def withoutFaults : Nat → List Item → List Item
  | 0, items => items
  | n + 1, items => withoutFault (withoutFaults n items)

@[simp] theorem faults_nil : faults [] = [] := rfl

@[simp] theorem faults_error (fault : Fault) (items : List Item) :
    faults (.error fault :: items) = fault :: faults items := rfl

@[simp] theorem faults_ok (r : Record) (items : List Item) :
    faults (.ok r :: items) = faults items := rfl

@[simp] theorem oks_nil : oks [] = [] := rfl

@[simp] theorem oks_error (fault : Fault) (items : List Item) :
    oks (.error fault :: items) = oks items := rfl

@[simp] theorem oks_ok (r : Record) (items : List Item) :
    oks (.ok r :: items) = r :: oks items := rfl

theorem mem_oks {r : Record} {items : List Item} : r ∈ oks items ↔ .ok r ∈ items := by
  induction items with
  | nil => simp
  | cons item items ih => cases item <;> simp [ih]

/-- Without failures there are only the records. -/
theorem eq_map_ok_of_faults_eq_nil {items : List Item} (h : faults items = []) :
    items = (oks items).map .ok := by
  induction items with
  | nil => rfl
  | cons item items ih =>
    cases item with
    | error fault => simp at h
    | ok r => rw [oks_ok, List.map_cons, ← ih h]

/-- A first failure has only records in front of it. -/
theorem exists_eq_of_faults_eq_cons {items : List Item} {fault : Fault} {later : List Fault}
    (h : faults items = fault :: later) :
    ∃ (before : List Record) (rest : List Item), items = before.map .ok ++ .error fault :: rest := by
  induction items with
  | nil => simp at h
  | cons item items ih =>
    cases item with
    | error fault' =>
      obtain ⟨rfl, -⟩ : fault' = fault ∧ faults items = later := by simpa using h
      exact ⟨[], items, rfl⟩
    | ok r =>
      obtain ⟨before, rest, rfl⟩ := ih h
      exact ⟨r :: before, rest, rfl⟩

theorem withoutFault_append (before : List Record) (fault : Fault) (rest : List Item) :
    withoutFault (before.map .ok ++ .error fault :: rest) = before.map .ok ++ rest := by
  induction before with
  | nil => rfl
  | cons r before ih =>
    have hcons : ∀ items : List Item, withoutFault (.ok r :: items) =
        .ok r :: withoutFault items := by
      intro items
      simp [withoutFault, List.findIdx_cons, isFault]
    rw [List.map_cons, List.cons_append, hcons, ih, List.cons_append]

theorem faults_map_ok_append (before : List Record) (rest : List Item) :
    faults (before.map .ok ++ rest) = faults rest := by
  induction before with
  | nil => rfl
  | cons r before ih => exact ih

theorem oks_map_ok_append (before : List Record) (rest : List Item) :
    oks (before.map .ok ++ rest) = before ++ oks rest := by
  induction before with
  | nil => rfl
  | cons r before ih => rw [List.map_cons, List.cons_append, oks_ok, ih, List.cons_append]

/-- Only the first failure goes. -/
theorem withoutFault_spec (items : List Item) :
    faults (withoutFault items) = (faults items).tail ∧ oks (withoutFault items) = oks items := by
  cases hfaults : faults items with
  | nil =>
    have hnone : ∀ item ∈ items, isFault item = false := by
      rw [eq_map_ok_of_faults_eq_nil hfaults]
      intro item hitem
      obtain ⟨r, -, rfl⟩ := List.mem_map.1 hitem
      rfl
    have hsame : withoutFault items = items := by
      rw [withoutFault, List.findIdx_eq_length_of_false hnone, List.eraseIdx_of_length_le]
      exact Nat.le_refl _
    rw [hsame, hfaults]
    exact ⟨rfl, rfl⟩
  | cons fault later =>
    obtain ⟨before, rest, rfl⟩ := exists_eq_of_faults_eq_cons hfaults
    rw [faults_map_ok_append, faults_error] at hfaults
    obtain ⟨-, rfl⟩ : fault = fault ∧ faults rest = later := by simpa using hfaults
    rw [withoutFault_append, faults_map_ok_append, oks_map_ok_append, oks_map_ok_append, oks_error]
    exact ⟨rfl, rfl⟩

theorem withoutFaults_spec (n : Nat) (items : List Item) :
    faults (withoutFaults n items) = (faults items).drop n ∧
      oks (withoutFaults n items) = oks items := by
  induction n with
  | zero => exact ⟨rfl, rfl⟩
  | succ n ih =>
    obtain ⟨hfaults, hoks⟩ := withoutFault_spec (withoutFaults n items)
    rw [withoutFaults, hfaults, hoks, ih.1, ih.2, List.tail_drop]
    exact ⟨rfl, rfl⟩

end RecordFlow.Item
