import Mathlib.Data.List.Nodup
import Mathlib.Data.List.Perm.Basic

/-!
# Lists without repeats

`List.eraseDups` keeps the first of equal elements. What is made of a list element by element, by a
function that tells elements apart, may be made before or after that (`eraseDups_filterMap`).
-/

namespace RecordFlow

variable {α : Type} [BEq α] [LawfulBEq α]

theorem nodup_eraseDups (as : List α) : as.eraseDups.Nodup := by
  match as with
  | [] => exact List.nodup_nil
  | a :: as =>
    rw [List.eraseDups_cons, List.nodup_cons]
    exact ⟨by simp [List.mem_eraseDups], nodup_eraseDups _⟩
termination_by as.length
decreasing_by exact Nat.lt_succ_of_le (List.length_filter_le _ as)

/-- Every list of the elements, each once, has the same length. -/
theorem length_eraseDups {as distinct : List α} (hnodup : distinct.Nodup)
    (hmem : ∀ a, a ∈ distinct ↔ a ∈ as) : distinct.length = as.eraseDups.length := by
  apply List.Perm.length_eq
  rw [List.perm_ext_iff_of_nodup hnodup (nodup_eraseDups as)]
  intro a
  rw [hmem, List.mem_eraseDups]

omit [LawfulBEq α] in
theorem sublist_eraseDups (as : List α) : as.eraseDups.Sublist as := by
  match as with
  | [] => exact List.nil_sublist _
  | a :: as =>
    rw [List.eraseDups_cons]
    exact ((sublist_eraseDups _).trans List.filter_sublist).cons_cons a
termination_by as.length
decreasing_by exact Nat.lt_succ_of_le (List.length_filter_le _ as)

theorem eraseDups_concat (as : List α) (a : α) :
    (as ++ [a]).eraseDups = if a ∈ as then as.eraseDups else as.eraseDups ++ [a] := by
  rw [List.eraseDups_append]
  by_cases h : a ∈ as <;> simp [h, List.removeAll, List.eraseDups_cons]

/-- A partial function that tells apart the elements it has a result for finds repeats where the
list has them. -/
theorem eraseDups_filterMap {β : Type} [BEq β] [LawfulBEq β] {f : α → Option β}
    (hf : ∀ {a b : α} {c : β}, f a = some c → f b = some c → a = b) (as : List α) :
    (as.filterMap f).eraseDups = as.eraseDups.filterMap f := by
  match as with
  | [] => rfl
  | a :: as =>
    have ih := eraseDups_filterMap hf (as.filter fun b => !b == a)
    rw [List.filterMap_filter] at ih
    rw [List.eraseDups_cons]
    cases ha : f a with
    | none =>
      have hsame : (as.filterMap fun b => if !b == a then f b else none) = as.filterMap f := by
        refine List.filterMap_congr fun b _ => ?_
        by_cases hb : b = a
        · simp [hb, ha]
        · simp [hb]
      rw [List.filterMap_cons_none ha, List.filterMap_cons_none ha, ← ih, hsame]
    | some c =>
      have hsame : (as.filterMap fun b => if !b == a then f b else none) =
          (as.filterMap f).filter fun d => !d == c := by
        rw [List.filter_filterMap]
        refine List.filterMap_congr fun b _ => ?_
        cases hfb : f b with
        | none => simp
        | some d =>
          have hiff : b = a ↔ d = c := by
            refine ⟨?_, ?_⟩
            · rintro rfl
              exact Option.some.inj (hfb.symm.trans ha)
            · rintro rfl
              exact hf hfb ha
          by_cases hb : b = a
          · simp [hb, hiff.1 hb, Option.filter]
          · simp [hb, mt hiff.2 hb, Option.filter]
      rw [List.filterMap_cons_some ha, List.filterMap_cons_some ha, List.eraseDups_cons, ← ih,
        hsame]
termination_by as.length
decreasing_by exact Nat.lt_succ_of_le (List.length_filter_le _ as)

theorem eraseDups_filter (p : α → Bool) (as : List α) :
    (as.filter p).eraseDups = as.eraseDups.filter p := by
  have hguard : ∀ {a b c : α}, Option.guard p a = some c → Option.guard p b = some c → a = b := by
    intro a b c ha hb
    rw [Option.guard_eq_some_iff] at ha hb
    exact ha.1.trans hb.1.symm
  rw [← List.filterMap_eq_filter, eraseDups_filterMap hguard, List.filterMap_eq_filter]

end RecordFlow
