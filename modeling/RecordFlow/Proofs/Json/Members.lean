import Mathlib.Data.List.Forall2
import RecordFlow.Proofs.Json.Depth

/-!
# Members of objects

A document that means an object has a member for each member of the object, with the same name and a
document that means its value (`exists_members_of_value?`, `exists_named_of_memberValues?`).
-/

namespace RecordFlow.Json

/-! ### Members by name -/

theorem lookup_cons_eq {α : Type} (entry : String × α) (rest : List (String × α)) (name : String) :
    (entry :: rest).lookup name = if name = entry.1 then some entry.2 else rest.lookup name :=
  Attributes.get?_cons entry rest name

theorem lookup_rereadMembers (members : List (String × Json)) (name : String) :
    (rereadMembers members).lookup name = (members.lookup name).map Json.reread := by
  induction members with
  | nil => rfl
  | cons member members ih =>
    rw [rereadMembers, List.lookup_cons, List.lookup_cons, ih]
    split <;> rfl

theorem map_fst_rereadMembers (members : List (String × Json)) :
    (rereadMembers members).map (·.1) = members.map (·.1) := by
  induction members with
  | nil => rfl
  | cons member members ih => rw [rereadMembers, List.map_cons, ih, List.map_cons]

/-! ### Members that can be read -/

theorem membersReadable_of_forall {members : List (String × Json)}
    (h : ∀ member ∈ members, member.2.Readable) : MembersReadable members := by
  induction members with
  | nil => trivial
  | cons member members ih =>
    exact ⟨h member List.mem_cons_self, ih fun m hm => h m (List.mem_cons_of_mem _ hm)⟩

theorem readable_natCast {n : Nat} (h : n < 2 ^ 64) : (Json.int n).Readable := by
  simp only [Readable]
  omega

/-! ### Documents of objects -/

/-- A named part of a document means a named value. -/
def Means (depth : Nat) (part : String × Written) (value : String × Json) : Prop :=
  part.1 = value.1 ∧ part.2.value? depth = some value.2

/-- Only an object means an object. -/
theorem exists_members_of_value? {depth : Nat} {w : Written} {js : List (String × Json)}
    (h : w.value? (depth + 1) = some (.object js)) :
    ∃ ms, w = .object ms ∧ Written.memberValues? depth ms = some js := by
  cases w with
  | object ms =>
    rw [Written.value?, if_neg (Nat.succ_ne_zero depth)] at h
    obtain ⟨js', hjs, hobject⟩ := Option.map_eq_some_iff.1 h
    cases hobject
    exact ⟨ms, rfl, hjs⟩
  | number n =>
    have hdepth := depth_of_number? h
    cases hdepth
  | null | bool b => cases h
  | string parts =>
    obtain ⟨cs, -, hobject⟩ := Option.map_eq_some_iff.1 h
    cases hobject
  | array elements =>
    rw [Written.value?, if_neg (Nat.succ_ne_zero depth)] at h
    obtain ⟨js', -, hobject⟩ := Option.map_eq_some_iff.1 h
    cases hobject

/-- Members that have values have names, and each is found with its value under its name. -/
theorem exists_named_of_memberValues? {depth : Nat} {ms : List (List StringPart × Written)} :
    ∀ {js : List (String × Json)}, Written.memberValues? depth ms = some js →
    ∃ named, (ms.mapM fun (name, w) => do return (String.ofList (← joinHalves name), w)) =
      some named ∧ List.Forall₂ (Means depth) named js := by
  induction ms with
  | nil =>
    intro js h
    cases h
    exact ⟨[], rfl, .nil⟩
  | cons m ms ih =>
    intro js h
    obtain ⟨cs, j, js', hcs, hj, hjs, rfl⟩ := Written.memberValues?_cons_eq_some.1 h
    obtain ⟨named, hnamed, hmeans⟩ := ih hjs
    refine ⟨(String.ofList cs, m.2) :: named, ?_, .cons ⟨rfl, hj⟩ hmeans⟩
    rw [List.mapM_cons, hnamed]
    simp [hcs]

end RecordFlow.Json
