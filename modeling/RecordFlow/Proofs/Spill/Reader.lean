import Mathlib.Data.List.TakeWhile
import RecordFlow.Spill.Reader

/-!
# The items that a positional reader has left

`PositionalReader.rest` reads with as many attempts as there are lines. Every item takes a line
(`length_next`), so more attempts give no more items (`nextItems_congr`), and what is left of a
reader is its next item with what is left behind it (`rest_of_next_some`). A reader that starts with
all lines reads those at the positions that were asked for, in order (`rest_ofLines`): it stops
only when no line ahead is wanted, and every step preserves that (`Sound.next`).
-/

namespace RecordFlow

/-- The elements of a list are numbered in ascending order. -/
theorem pairwise_snd_zipIdx {α : Type} (as : List α) (start : Nat) :
    (as.zipIdx start).Pairwise fun entry later => entry.2 < later.2 := by
  induction as generalizing start with
  | nil => exact .nil
  | cons a as ih =>
    rw [List.zipIdx_cons, List.pairwise_cons]
    exact ⟨fun entry hentry => List.le_snd_of_mem_zipIdx hentry, ih (start + 1)⟩

namespace PositionalReader

/-- A reader that has nothing left has stopped. -/
theorem next_of_next_none {r r' : PositionalReader} (h : r.next = (none, r')) :
    r'.next = (none, r') := by
  unfold next at h
  split at h
  · next hdone =>
    obtain rfl : r = r' := by simpa using h
    rw [next, if_pos hdone]
  split at h
  · obtain rfl : { r with ahead := [], done := true } = r' := by simpa using h
    rw [next, if_pos rfl]
  · simp at h

/-- An item takes a line. -/
theorem length_next {r r' : PositionalReader} {item : Item} (h : r.next = (some item, r')) :
    r'.ahead.length < r.ahead.length := by
  unfold next at h
  split at h
  · simp at h
  split at h
  · simp at h
  next line position rest hahead =>
  obtain ⟨-, rfl⟩ : readSpilled line position = item ∧ _ = r' := by simpa using h
  have hsuffix := (List.dropWhile_suffix (l := r.ahead)
    fun x => !r.targets.contains x.2).length_le
  rw [hahead, List.length_cons] at hsuffix
  exact hsuffix

theorem nextItems_of_next_none {r r' : PositionalReader} (h : r.next = (none, r')) (fuel : Nat) :
    r.nextItems (fuel + 1) = ([], r') := by
  rw [nextItems, h]

theorem nextItems_of_next_some {r r' : PositionalReader} {item : Item}
    (h : r.next = (some item, r')) (fuel : Nat) :
    r.nextItems (fuel + 1) = (item :: (r'.nextItems fuel).1, (r'.nextItems fuel).2) := by
  rw [nextItems, h]

/-- Enough attempts are as good as any other number that is enough. -/
theorem nextItems_congr : ∀ {m n : Nat} {r : PositionalReader}, r.ahead.length < m →
    r.ahead.length < n → r.nextItems m = r.nextItems n
  | 0, _, _, hm, _ => absurd hm (Nat.not_lt_zero _)
  | _ + 1, 0, _, _, hn => absurd hn (Nat.not_lt_zero _)
  | m + 1, n + 1, r, hm, hn => by
    match h : r.next with
    | (none, r') => rw [nextItems_of_next_none h, nextItems_of_next_none h]
    | (some item, r') =>
      have hlt := length_next h
      have ih : r'.nextItems m = r'.nextItems n := nextItems_congr (by omega) (by omega)
      rw [nextItems_of_next_some h, nextItems_of_next_some h, ih]

theorem rest_of_next_none {r r' : PositionalReader} (h : r.next = (none, r')) :
    r.rest = ([], r') :=
  nextItems_of_next_none h _

theorem rest_of_next_some {r r' : PositionalReader} {item : Item} (h : r.next = (some item, r')) :
    r.rest = (item :: r'.rest.1, r'.rest.2) := by
  have hfuel : r'.nextItems r.ahead.length = r'.rest :=
    nextItems_congr (length_next h) (Nat.lt_succ_self _)
  rw [rest, nextItems_of_next_some h, hfuel]

/-- Nothing is left of a reader that has been read to its end. -/
theorem rest_rest (r : PositionalReader) : r.rest.2.rest.1 = [] := by
  match h : r.next with
  | (none, r') => rw [rest_of_next_none h, rest_of_next_none (next_of_next_none h)]
  | (some item, r') =>
    have ih := rest_rest r'
    rwa [rest_of_next_some h]
termination_by r.ahead.length
decreasing_by exact length_next h

/-! ### The lines that are wanted -/

/-- The lines ahead that have been asked for. -/
def wanted (r : PositionalReader) : List (List Char × Nat) :=
  r.ahead.filter fun entry => r.targets.contains entry.2

/-- The lines ahead are in order, and a reader that has stopped has left out none of them that is
wanted. -/
structure Sound (r : PositionalReader) : Prop where
  ascending : r.ahead.Pairwise fun entry later => entry.2 < later.2
  stopped : r.done → r.wanted = []

theorem le_last {r : PositionalReader} {position : Nat} (h : position ∈ r.targets) :
    position ≤ r.last :=
  List.le_max?_getD_of_mem h

/-- The lines that a reader passes over are not wanted. -/
theorem wanted_eq_dropWhile (r : PositionalReader) :
    r.wanted = (r.ahead.dropWhile fun entry => !r.targets.contains entry.2).filter
      fun entry => r.targets.contains entry.2 := by
  have hpassed : (r.ahead.takeWhile fun entry => !r.targets.contains entry.2).filter
      (fun entry => r.targets.contains entry.2) = [] :=
    List.filter_eq_nil_iff.2 fun entry hentry => by simpa using List.mem_takeWhile_imp hentry
  calc
    r.wanted = ((r.ahead.takeWhile fun entry => !r.targets.contains entry.2) ++
        r.ahead.dropWhile fun entry => !r.targets.contains entry.2).filter
          fun entry => r.targets.contains entry.2 := by
      rw [List.takeWhile_append_dropWhile, wanted]
    _ = _ := by rw [List.filter_append, hpassed, List.nil_append]

/-- A reader takes the first line that is wanted, if there is one. -/
theorem Sound.next {r : PositionalReader} (h : r.Sound) :
    (r.wanted = [] ∧ ∃ r', r.next = (none, r')) ∨
      ∃ line position r', r.wanted = (line, position) :: r'.wanted ∧
        r.next = (some (readSpilled line position), r') ∧ r'.Sound := by
  have hwanted := r.wanted_eq_dropWhile
  cases hdone : r.done with
  | true => exact .inl ⟨h.stopped hdone, r, by rw [PositionalReader.next, if_pos hdone]⟩
  | false =>
    have hnext := PositionalReader.next.eq_1 r
    rw [hdone, if_neg Bool.false_ne_true] at hnext
    cases hahead : r.ahead.dropWhile fun entry => !r.targets.contains entry.2 with
    | nil =>
      rw [hahead] at hwanted hnext
      exact .inl ⟨hwanted, _, hnext⟩
    | cons entry rest =>
      obtain ⟨line, position⟩ := entry
      have htarget : r.targets.contains (line, position).2 := by
        have hhead := List.head_dropWhile_not (fun entry => !r.targets.contains entry.2)
          (l := r.ahead) (by rw [hahead]; exact List.cons_ne_nil _ _)
        simp only [hahead, List.head_cons] at hhead
        simpa using hhead
      have hsorted : ((line, position) :: rest).Pairwise fun entry later => entry.2 < later.2 := by
        rw [← hahead]
        exact h.ascending.sublist (List.dropWhile_suffix _).sublist
      obtain ⟨hbehind, hascending⟩ := List.pairwise_cons.1 hsorted
      rw [hahead] at hwanted hnext
      have hfirst := List.filter_cons_of_pos (p := fun entry => r.targets.contains entry.2)
        (a := (line, position)) (l := rest) htarget
      rw [hfirst] at hwanted
      refine .inr ⟨line, position,
        { r with ahead := rest, done := r.last ≤ position, decoded := r.decoded + 1 },
        hwanted, hnext, hascending, ?_⟩
      -- Behind the last position that is wanted there is none.
      intro hstop
      refine List.filter_eq_nil_iff.2 fun entry hentry hcontains => ?_
      have hle := le_last (r := r) (List.contains_iff_mem.1 hcontains)
      have hlt := hbehind entry hentry
      have hlast : r.last ≤ position := of_decide_eq_true hstop
      omega

/-- What is left of a reader are the lines ahead that have been asked for. -/
theorem Sound.rest {r : PositionalReader} (h : r.Sound) :
    r.rest.1 = r.wanted.map fun (line, position) => readSpilled line position := by
  rcases h.next with ⟨hwanted, r', hnext⟩ | ⟨line, position, r', hwanted, hnext, hsound⟩
  · rw [rest_of_next_none hnext, hwanted]
    rfl
  · have ih := hsound.rest
    rw [rest_of_next_some hnext, hwanted, List.map_cons, ← ih]
termination_by r.ahead.length
decreasing_by exact length_next hnext

theorem sound_ofLines (lines : List (List Char)) (targets : List Nat) :
    (ofLines lines targets).Sound := by
  refine ⟨pairwise_snd_zipIdx lines 0, fun hdone => ?_⟩
  obtain rfl : targets = [] := List.isEmpty_iff.1 hdone
  exact List.filter_eq_nil_iff.2 fun entry _ => List.not_mem_nil ∘ List.contains_iff_mem.1

/-- A new reader reads every line that is asked for, once and in order. -/
theorem rest_ofLines (lines : List (List Char)) (targets : List Nat) :
    (ofLines lines targets).rest.1 =
      (lines.zipIdx.filter fun entry => targets.contains entry.2).map
        fun (line, position) => readSpilled line position :=
  (sound_ofLines lines targets).rest

end PositionalReader

end RecordFlow
