import RecordFlow.Query.Expression

/-!
# An expression reads its variables and nothing else

Two records with the same values at the paths that an expression mentions cannot be told apart by
it: its value, its error if it has one, and what it matches are the same on both
(`Expression.value_congr`), and without a call of NOW they do not depend on the moment either. A
path looks at two attributes of a record at most, so all others can be changed or removed without
any effect on a filter (`Expression.value_eq_of_agree`).
-/

namespace RecordFlow

/-! ### Attributes behind a path -/

theorem Attributes.get?_remove_of_ne {α : Type} (as : Attributes α) {name other : String}
    (h : other ≠ name) : (as.remove name).get? other = as.get? other := by
  induction as with
  | nil => rfl
  | cons entry as ih =>
    by_cases hname : entry.1 = name
    · have hother : other ≠ entry.1 := hname ▸ h
      rw [remove, List.eraseP_cons_of_pos (by simpa using hname), get?_cons, if_neg hother]
    · rw [remove, List.eraseP_cons_of_neg (by simpa using hname), get?_cons, get?_cons, ← remove,
        ih]

namespace Record

/-- The attribute that a path goes through, unless the whole path is the name of one. -/
def firstStep (path : String) : String :=
  String.ofList ((path.toList.splitOn '.').headD [])

theorem follow_struct_congr {r r' : Record} {name : String} (h : r.get? name = r'.get? name)
    (rest : List String) :
    follow (.struct r) (name :: rest) = follow (.struct r') (name :: rest) := by
  rw [follow, follow, value, value, h]

/-- A path looks at the attribute of its name and at the one of its first step. -/
theorem atPath_congr {r r' : Record} {path : String} (hwhole : r.get? path = r'.get? path)
    (hfirst : r.get? (firstStep path) = r'.get? (firstStep path)) :
    r.atPath path = r'.atPath path := by
  obtain ⟨step, steps, hsteps⟩ :=
    List.exists_cons_of_ne_nil (List.splitOn_ne_nil '.' path.toList)
  have hstep : firstStep path = String.ofList step := by rw [firstStep, hsteps, List.headD_cons]
  rw [hstep] at hfirst
  rw [atPath, atPath, hwhole, hsteps, List.map_cons, follow_struct_congr hfirst]

end Record

namespace Query

/-- Only NOW looks at the moment. -/
theorem Function.value?_congr {f : Function} (hf : f ≠ .now) (now now' : Timestamp)
    (args : List Value) : f.value? now args = f.value? now' args := by
  cases args with
  | nil =>
    rw [value?, value?]
    · exact hf
    · exact hf
  | cons v args =>
    cases f with
    | now => exact absurd rfl hf
    | _ => rfl

theorem Function.call_congr {f : Function} (hf : f ≠ .now) (now now' : Timestamp)
    (args : List Value) : f.call now args = f.call now' args := by
  rw [call, call, value?_congr hf now now']

namespace Expression

/-! ### Functions -/

mutual

/-- The functions that an expression calls, from left to right. -/
def functions : Expression → List Function
  | .constant _ => []
  | .variable _ => []
  | .list items => itemFunctions items
  | .call function args => function :: itemFunctions args
  | .compare _ left right => functions left ++ functions right
  | .not operand => functions operand
  | .and left right => functions left ++ functions right
  | .or left right => functions left ++ functions right

def itemFunctions : List Expression → List Function
  | [] => []
  | e :: rest => functions e ++ itemFunctions rest

end

/-! ### Records that agree -/

/-- Two records have the same values at some paths. -/
def Agree (paths : List String) (r r' : Record) : Prop :=
  ∀ path ∈ paths, r.atPath path = r'.atPath path

theorem agree_append {paths paths' : List String} {r r' : Record} :
    Agree (paths ++ paths') r r' ↔ Agree paths r r' ∧ Agree paths' r r' :=
  List.forall_mem_append

section TwoRuns

variable {r r' : Record} (now now' : Timestamp)

-- The recursion is on the expression. An operand that a conjunction or a disjunction does not look
-- at is the same on both sides as well, so there is no case for short cuts.
mutual

theorem value_congr : ∀ e : Expression, .now ∉ e.functions → Agree e.occurrences r r' →
    e.value now r = e.value now' r'
  | .constant v, _, _ => rfl
  | .variable name, _, h => congrArg Except.ok (h name (List.mem_singleton_self name))
  | .list items, hnow, h => by
    rw [value, value, itemValues_congr items hnow h]
  | .call function args, hnow, h => by
    obtain ⟨hfunction, hargs⟩ := not_or.1 (mt List.mem_cons.2 hnow)
    have hcall : function.call now = function.call now' :=
      funext (Function.call_congr (Ne.symm hfunction) now now')
    rw [value, value, itemValues_congr args hargs h, hcall]
  | .compare operator left right, hnow, h => by
    obtain ⟨hleft, hright⟩ := not_or.1 (mt List.mem_append.2 hnow)
    obtain ⟨hl, hr⟩ := agree_append.1 h
    rw [value, value, value_congr left hleft hl, value_congr right hright hr]
  | .not operand, hnow, h => by
    rw [value, value, value_congr operand hnow h]
  | .and left right, hnow, h => by
    obtain ⟨hleft, hright⟩ := not_or.1 (mt List.mem_append.2 hnow)
    obtain ⟨hl, hr⟩ := agree_append.1 h
    rw [value, value, value_congr left hleft hl, value_congr right hright hr]
  | .or left right, hnow, h => by
    obtain ⟨hleft, hright⟩ := not_or.1 (mt List.mem_append.2 hnow)
    obtain ⟨hl, hr⟩ := agree_append.1 h
    rw [value, value, value_congr left hleft hl, value_congr right hright hr]

theorem itemValues_congr : ∀ items : List Expression, .now ∉ itemFunctions items →
    Agree (itemOccurrences items) r r' → itemValues now r items = itemValues now' r' items
  | [], _, _ => rfl
  | e :: items, hnow, h => by
    obtain ⟨he, hitems⟩ := not_or.1 (mt List.mem_append.2 hnow)
    obtain ⟨hagree, hrest⟩ := agree_append.1 h
    rw [itemValues, itemValues, value_congr e he hagree,
      itemValues_congr items hitems hrest]

end

end TwoRuns

theorem mem_variableNames {e : Expression} {path : String} :
    path ∈ e.variableNames ↔ path ∈ e.occurrences :=
  List.mem_eraseDups

/-- Of two records that agree at the listed variables, an expression that does not call NOW has the
same value or the same error at any two moments, and it matches both or neither. So an attribute
that is no listed variable, and not the first step of one, can be put into a record, changed or
removed without any effect. -/
theorem value_eq_of_agree {e : Expression} (hnow : .now ∉ e.functions) (now now' : Timestamp) :
    (∀ r r' : Record, Agree e.variableNames r r' →
      e.value now r = e.value now' r' ∧ e.matches? now r = e.matches? now' r') ∧
    ∀ name, (∀ path ∈ e.variableNames, path ≠ name ∧ Record.firstStep path ≠ name) →
      ∀ (r : Record) (v : Value), e.matches? now (r.put name v) = e.matches? now' r ∧
        e.matches? now (r.remove name) = e.matches? now' r := by
  have hruns : ∀ r r' : Record, Agree e.variableNames r r' →
      e.value now r = e.value now' r' ∧ e.matches? now r = e.matches? now' r' := by
    intro r r' h
    have hvalue : e.value now r = e.value now' r' :=
      value_congr now now' e hnow fun path hpath => h path (mem_variableNames.2 hpath)
    exact ⟨hvalue, by rw [matches?, matches?, hvalue]⟩
  refine ⟨hruns, fun name hname r v => ⟨(hruns _ _ ?_).2, (hruns _ _ ?_).2⟩⟩
  · intro path hpath
    obtain ⟨hwhole, hfirst⟩ := hname path hpath
    exact Record.atPath_congr (r.get?_put_of_ne v hwhole) (r.get?_put_of_ne v hfirst)
  · intro path hpath
    obtain ⟨hwhole, hfirst⟩ := hname path hpath
    exact Record.atPath_congr (r.get?_remove_of_ne hwhole) (r.get?_remove_of_ne hfirst)

/-- The expression `UPPER(user.name) == 'JO' OR ABS(age) > 1`. -/
def personFilter : Expression :=
  .or (.compare .eq (.call .upper [.variable "user.name"]) (.constant (.text "JO")))
    (.compare .gt (.call .abs [.variable "age"]) (.constant (.int 1)))

/-- Two persons that differ in what the filter does not read run into the same error, a day apart,
and the first one also with another city. -/
theorem value_eq_of_agree_persons :
    ∃ (now now' : Timestamp) (r r' : Record), now ≠ now' ∧ Function.now ∉ personFilter.functions ∧
      r = [("user", .struct [("name", .text "Al"), ("id", .int 1)]), ("age", .text "old"),
        ("city", .text "Bern")] ∧
      r' = [("age", .text "old"), ("user.name", .text "Al"), ("user", .null)] ∧
      Agree personFilter.variableNames r r' ∧
      personFilter.value now r = .error (.badArguments "ABS" [.text "old"]) ∧
      personFilter.value now' r' = .error (.badArguments "ABS" [.text "old"]) ∧
      (∀ path ∈ personFilter.variableNames, path ≠ "city" ∧ Record.firstStep path ≠ "city") ∧
      personFilter.matches? now (r.put "city" (.text "Rome")) = personFilter.matches? now' r := by
  have hnow : Function.now ∉ personFilter.functions := by decide
  have hnames : personFilter.variableNames = ["user.name", "age"] := by decide
  have hcity : ∀ path ∈ personFilter.variableNames,
      path ≠ "city" ∧ Record.firstStep path ≠ "city" := by
    rw [hnames]
    decide
  let now : Timestamp := ⟨⟨2021, 3, 4, by decide, by decide, by decide⟩,
    ⟨5, 6, 7, 0, by decide, by decide, by decide, by decide⟩⟩
  let now' : Timestamp := { now with date := ⟨2021, 3, 5, by decide, by decide, by decide⟩ }
  let r : Record := [("user", .struct [("name", .text "Al"), ("id", .int 1)]),
    ("age", .text "old"), ("city", .text "Bern")]
  let r' : Record := [("age", .text "old"), ("user.name", .text "Al"), ("user", .null)]
  have hagree : Agree personFilter.variableNames r r' := by
    rw [hnames]
    exact List.forall_mem_cons.2 ⟨rfl, List.forall_mem_singleton.2 rfl⟩
  have hvalue : personFilter.value now r = .error (.badArguments "ABS" [.text "old"]) := rfl
  obtain ⟨hruns, hothers⟩ := value_eq_of_agree hnow now now'
  exact ⟨now, now', r, r', by decide, hnow, rfl, rfl, hagree, hvalue,
    (hruns r r' hagree).1.symm.trans hvalue, hcity, (hothers "city" hcity r (.text "Rome")).1⟩

end Expression

end Query

end RecordFlow
