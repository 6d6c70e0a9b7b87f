import RecordFlow.Proofs.Spill.Register
import RecordFlow.Proofs.Stream.Held
import RecordFlow.Workspace.Storage

/-!
# Slots and the stores that they hold

The register of a workspace is sound (`Workspace.Sound`) when it has exactly the stores that some
slot holds and that have not been removed. The two ways in which slots change keep it so: a new slot
(`leads_add`), and another object in a slot (`leads_replace`).
-/

namespace RecordFlow.Workspace

/-! ### Objects in slots -/

theorem get_eq_ok {w : Workspace} {slot : Nat} {h : Holding} :
    w.get slot = .ok h ↔ w.slots[slot]? = some (some h) := by
  unfold get
  cases hslot : w.slots[slot]? with
  | none => simp
  | some object => cases object <;> simp

/-- The slot of an object of some kind. -/
theorem getAs_eq_ok {α : Type} {w : Workspace} {slot : Nat} {kind : Holding → Option α} {a : α} :
    w.getAs slot kind = .ok a ↔ ∃ h, w.slots[slot]? = some (some h) ∧ kind h = some a := by
  unfold getAs
  constructor
  · intro hget
    cases hslot : w.get slot with
    | error refusal => simp [hslot, bind, Except.bind] at hget
    | ok h =>
      refine ⟨h, get_eq_ok.1 hslot, ?_⟩
      cases hkind : kind h with
      | none => simp [hslot, hkind, bind, Except.bind] at hget
      | some b => simpa [hslot, hkind, bind, Except.bind] using hget
  · rintro ⟨h, hslot, hkind⟩
    simp [get_eq_ok.2 hslot, hkind, bind, Except.bind]

theorem lt_of_getAs {α : Type} {w : Workspace} {slot : Nat} {kind : Holding → Option α} {a : α}
    (h : w.getAs slot kind = .ok a) : slot < w.slots.length := by
  obtain ⟨object, hslot, -⟩ := getAs_eq_ok.1 h
  exact (List.getElem?_eq_some_iff.1 hslot).1

@[simp] theorem slots_replace (w : Workspace) (slot : Nat) (h : Option Holding) :
    (w.replace slot h).slots = w.slots.set slot h := rfl

@[simp] theorem slots_add (w : Workspace) (h : Holding) :
    (w.add h).2.slots = w.slots ++ [some h] := rfl

/-! ### Stores that are held -/

/-- The stores that the object of a slot holds. -/
def heldIn (slot : Option Holding) : List StoreId :=
  slot.elim [] Holding.held

theorem held_eq (w : Workspace) : w.held = w.slots.flatMap heldIn := rfl

/-- An object holds what it holds in its slot. -/
theorem held_subset_of_slot {w : Workspace} {slot : Nat} {h : Holding}
    (hslot : w.slots[slot]? = some (some h)) : h.held ⊆ w.held :=
  fun _ hid => List.mem_flatMap.2 ⟨some h, List.mem_of_getElem? hslot, hid⟩

theorem mem_held_add (w : Workspace) (h : Holding) (id : StoreId) :
    id ∈ (w.add h).2.held ↔ id ∈ w.held ∨ id ∈ h.held := by
  simp [held_eq, heldIn]

/-- The other slots hold what they held. -/
theorem exists_held_others {w : Workspace} {slot : Nat} (hslot : slot < w.slots.length)
    (h : Option Holding) : ∃ others : List StoreId,
      (∀ id, id ∈ w.held ↔ id ∈ heldIn (w.slots[slot]?).join ∨ id ∈ others) ∧
      ∀ id, id ∈ (w.replace slot h).held ↔ id ∈ heldIn h ∨ id ∈ others := by
  have hbefore : w.slots = w.slots.take slot ++ w.slots[slot] :: w.slots.drop (slot + 1) := by
    simp
  have hafter : (w.replace slot h).slots = w.slots.take slot ++ h :: w.slots.drop (slot + 1) := by
    rw [slots_replace, List.set_eq_take_append_cons_drop, if_pos hslot]
  refine ⟨(w.slots.take slot).flatMap heldIn ++ (w.slots.drop (slot + 1)).flatMap heldIn, ?_, ?_⟩
  · intro id
    rw [held_eq, List.getElem?_eq_getElem hslot, Option.join_some]
    conv_lhs => rw [hbefore]
    simp only [List.flatMap_append, List.flatMap_cons, List.mem_append]
    exact or_left_comm
  · intro id
    rw [held_eq, hafter]
    simp only [List.flatMap_append, List.flatMap_cons, List.mem_append]
    exact or_left_comm

/-! ### The register of a workspace -/

/-- The register has exactly the stores that are held and have not been removed. -/
def Sound (w : Workspace) (removed : Set StoreId) : Prop :=
  w.area.Registers {id | id ∈ w.held} removed

/-- A workspace becomes another one with a sound register, by changes of its area. -/
structure Leads (w w' : Workspace) (removed : Set StoreId) : Prop where
  sound : w'.Sound removed
  reaches : w.area.Reaches w'.area

variable {w : Workspace} {removed : Set StoreId}

theorem Sound.leads_self (h : w.Sound removed) : w.Leads w removed :=
  ⟨h, .refl⟩

theorem Leads.trans {w' w'' : Workspace} (h : w.Leads w' removed) (h' : w'.Leads w'' removed) :
    w.Leads w'' removed :=
  ⟨h'.sound, h.reaches.trans h'.reaches⟩

/-- A new object, whose stores are in the register with those that were held before. -/
theorem leads_add {area : SpillArea} {held : Set StoreId} {h : Holding}
    (hregisters : area.Registers held removed) (hreaches : w.area.Reaches area)
    (hheld : ∀ id, id ∈ held ↔ id ∈ w.held ∨ id ∈ h.held) :
    w.Leads (add { w with area := area } h).2 removed := by
  refine ⟨?_, hreaches⟩
  have hset : {id | id ∈ (add { w with area := area } h).2.held} = held := by
    ext id
    exact (mem_held_add { w with area := area } h id).trans (hheld id).symm
  rw [Sound, hset]
  exact hregisters

/-- A new object that holds nothing new. -/
theorem Sound.leads_add (hw : w.Sound removed) {h : Holding} (hsub : h.held ⊆ w.held) :
    w.Leads (w.add h).2 removed := by
  refine Workspace.leads_add hw .refl ?_
  intro id
  refine ⟨Or.inl, ?_⟩
  rintro (hid | hid)
  · exact hid
  · exact hsub hid

theorem reaches_foldl_dispose (ids : List StoreId) :
    ∀ {a : SpillArea}, (∀ id ∈ ids, id < a.next) → a.Reaches (ids.foldl SpillArea.dispose a) := by
  induction ids with
  | nil =>
    intro a _
    exact .refl
  | cons id ids ih =>
    intro a hlt
    have hrest : ∀ other ∈ ids, other < (a.dispose id).next := by
      intro other hother
      rw [SpillArea.next_dispose]
      exact hlt other (List.mem_cons_of_mem id hother)
    exact .head (.dispose id (hlt id List.mem_cons_self)) (ih hrest)

/-- Another object in a slot. All that the old one and the new one hold is in the register, and
what nobody holds afterwards leaves it. -/
theorem leads_replace {held : Set StoreId} {slot : Nat} {h : Option Holding}
    (hregisters : w.area.Registers held removed) (hslot : slot < w.slots.length)
    (hheld : ∀ id, id ∈ held ↔ id ∈ w.held ∨ id ∈ heldIn h) :
    w.Leads (w.replace slot h) removed := by
  obtain ⟨others, hbefore, hafter⟩ := exists_held_others hslot h
  have hgone : ∀ id ∈ (heldIn (w.slots[slot]?).join).filter
      fun id => !(w.replace slot h).held.contains id, id < w.area.next := by
    intro id hid
    refine hregisters.held_lt id ((hheld id).2 (.inl ((hbefore id).2 (.inl ?_))))
    exact (List.mem_filter.1 hid).1
  refine ⟨?_, reaches_foldl_dispose _ hgone⟩
  -- What is let go was held in this slot only, so exactly what is still held stays in the register.
  have hset : {id | id ∈ (w.replace slot h).held} =
      {id | id ∈ held ∧ id ∉ (heldIn (w.slots[slot]?).join).filter
        fun id => !(w.replace slot h).held.contains id} := by
    ext id
    show id ∈ (w.replace slot h).held ↔ id ∈ held ∧ ¬ id ∈ List.filter _ _
    rw [hheld, hbefore, List.mem_filter]
    by_cases hid : id ∈ (w.replace slot h).held
    · simp only [hid, List.contains_eq_mem, decide_true, Bool.not_true, Bool.false_eq_true,
        and_false, not_false_eq_true, and_true, true_iff]
      rcases (hafter id).1 hid with hnew | hother
      · exact .inr hnew
      · exact .inl (.inr hother)
    · have hnow : ¬ (id ∈ heldIn h ∨ id ∈ others) := fun hnow => hid ((hafter id).2 hnow)
      simp only [hid, List.contains_eq_mem, decide_false, Bool.not_false, and_true, false_iff]
      rintro ⟨(hold | hother) | hnew, hnot⟩
      · exact hnot hold
      · exact hnow (.inr hother)
      · exact hnow (.inl hnew)
  rw [Sound, hset]
  exact hregisters.foldl_letGo _ hgone

/-- Another object in a slot that holds nothing new. -/
theorem Sound.leads_replace (hw : w.Sound removed) {slot : Nat} {h : Option Holding}
    (hslot : slot < w.slots.length) (hsub : heldIn h ⊆ w.held) :
    w.Leads (w.replace slot h) removed := by
  refine Workspace.leads_replace hw hslot ?_
  intro id
  refine ⟨Or.inl, ?_⟩
  rintro (hid | hid)
  · exact hid
  · exact hsub hid

end RecordFlow.Workspace
