import RecordFlow.Proofs.Stream.Item
import RecordFlow.Proofs.Stream.Persist
import RecordFlow.Proofs.Workspace.LifeCycle

/-!
# Attempts to move a stream

A stream-through stream is asked again and again to move, with any targets. `Stands` says where it
stands after some moves to classes that keep records: each of the first moves has taken one failure
from its items, and a further one has moved it. Every attempt goes from one such state to the next
(`Stands.persist`), which gives the law of whole runs (`persist_attempts`).
-/

namespace RecordFlow.Workspace

/-- The workspace after attempts to move the stream of a slot, each with its settings. -/
def attempts (w : Workspace) (slot : Nat) (targets : List (SpillConfig × StorageClass)) :
    Workspace :=
  targets.foldl (fun w attempt => (w.persist slot attempt.1 attempt.2).2) w

/-- The targets of attempts that ask for a class which keeps records. -/
def moves (targets : List (SpillConfig × StorageClass)) : List StorageClass :=
  (targets.map (·.2)).filter (· ≠ .streamThrough)

/-- A stream that had some items stands behind some moves: before the failures are used up it is a
stream-through stream without as many of them as there were moves; behind that it is in the class of
the last move and keeps all records. -/
def Stands (w : Workspace) (slot : Nat) (items : List Item) (moved : List StorageClass) : Prop :=
  ∃ s, w.getAs slot Holding.stream? = .ok s ∧
    ((moved.length ≤ (Item.faults items).length ∧
      ∃ left, s = .through left ∧ left.items = Item.withoutFaults moved.length items) ∨
    ((Item.faults items).length < moved.length ∧ moved.getLast? = some s.storageClass ∧
      s.storageClass ≠ .streamThrough ∧ s.Keeps w.area (Item.oks items)))

variable {w : Workspace} {removed : Set StoreId} {slot : Nat} {items : List Item}

/-! ### One attempt -/

theorem getAs_replace_stream (hslot : slot < w.slots.length) (s : RecordStream) :
    (w.replace slot (some (.stream s))).getAs slot Holding.stream? = .ok s := by
  refine getAs_eq_ok.2 ⟨.stream s, ?_, rfl⟩
  rw [slots_replace, List.getElem?_set_self hslot]

/-- Behind an attempt the slot holds what the stream has become. -/
theorem getAs_persist {s : RecordStream} (hget : w.getAs slot Holding.stream? = .ok s)
    (config : SpillConfig) (target : StorageClass) :
    (w.persist slot config target).2.getAs slot Holding.stream? =
      .ok (s.persist w.area config target).2.1 := by
  rw [persist_eq hget]
  exact getAs_replace_stream (w := { w with area := _ }) (lt_of_getAs hget) _

/-- The records that a stream keeps after a move are still kept when it is back in its slot. -/
theorem Sound.keeps_persist (hw : w.Sound removed) {s : RecordStream}
    (hget : w.getAs slot Holding.stream? = .ok s) (config : SpillConfig) (target : StorageClass)
    (records : List Record)
    (h : (s.persist w.area config target).2.1.Keeps (s.persist w.area config target).2.2 records) :
    (s.persist w.area config target).2.1.Keeps (w.persist slot config target).2.area records := by
  obtain ⟨⟨held, hmoved⟩, -, hleads⟩ := hw.leads_moved hget config target
  rw [persist_eq hget]
  -- Back in its slot the stream holds its new store, so the old one going does not concern it.
  apply h.mono
  intro id hid text hholds
  apply hmoved.holds_of_reaches hleads.sound hleads.reaches hholds
  have hslot := stream_slot (getAs_replace_stream
    (w := { w with area := (s.persist w.area config target).2.2 }) (lt_of_getAs hget)
    (s.persist w.area config target).2.1)
  exact held_subset_of_slot hslot hid

/-- A stream that has only records left is moved. -/
theorem Sound.stands_done (hw : w.Sound removed) {s : RecordStream}
    (hget : w.getAs slot Holding.stream? = .ok s) (config : SpillConfig) {target : StorageClass}
    (htarget : target ≠ .streamThrough) (hne : target ≠ s.storageClass) {t : Traversal}
    (ht : (s.traverse w.area).1 = .ok t) (hitems : t.items = (Item.oks items).map .ok)
    (hsurvive : target = .spilled → ∀ r ∈ Item.oks items, r.Survives)
    {moved : List StorageClass} (hmoved : (Item.faults items).length ≤ moved.length) :
    (w.persist slot config target).2.Stands slot items (moved ++ [target]) := by
  have hnext := getAs_persist hget config target
  have hkept := hw.keeps_persist hget config target
  rw [RecordStream.persist_done config htarget hne ht hitems] at hnext hkept
  obtain ⟨hclass, hkeeps⟩ := RecordStream.keeps_keep hw.numbered config htarget hsurvive
  refine ⟨_, hnext, .inr ⟨?_, ?_, ?_, hkept _ hkeeps⟩⟩
  · rw [List.length_append, List.length_singleton]
    omega
  · rw [List.getLast?_concat, hclass]
  · rwa [hclass]

/-- Behind as many moves as there are failures in front of it, a failure is the first one left. -/
theorem exists_split {left : Traversal} {fault : Fault} {n : Nat}
    (hleft : left.items = Item.withoutFaults n items)
    (hfault : (Item.faults items)[n]? = some fault) :
    ∃ (before : List Record) (rest : List Item),
      left.items = before.map .ok ++ .error fault :: rest := by
  obtain ⟨hlt, hnth⟩ := List.getElem?_eq_some_iff.1 hfault
  have hfaults := (Item.withoutFaults_spec n items).1
  rw [← hleft, List.drop_eq_getElem_cons hlt, hnth] at hfaults
  exact Item.exists_eq_of_faults_eq_cons hfaults

/-- Behind as many moves as there are failures only records are left. -/
theorem items_eq_oks {left : Traversal} {n : Nat} (hleft : left.items = Item.withoutFaults n items)
    (hn : n = (Item.faults items).length) : left.items = (Item.oks items).map .ok := by
  obtain ⟨hfaults, hoks⟩ := Item.withoutFaults_spec n items
  rw [hn, List.drop_length, ← hn, ← hleft] at hfaults
  have hitems := Item.eq_map_ok_of_faults_eq_nil hfaults
  rwa [hleft, hoks, ← hleft] at hitems

/-- A stream-through stream that has a failure left loses the first one. -/
theorem Sound.stands_fault (hw : w.Sound removed) {left : Traversal}
    (hget : w.getAs slot Holding.stream? = .ok (.through left)) (config : SpillConfig)
    {target : StorageClass} (htarget : target ≠ .streamThrough) {fault : Fault}
    {moved : List StorageClass} (hleft : left.items = Item.withoutFaults moved.length items)
    (hfault : (Item.faults items)[moved.length]? = some fault)
    (hsurvive : target = .spilled → ∀ r ∈ Item.oks items, r.Survives) :
    (w.persist slot config target).2.Stands slot items (moved ++ [target]) := by
  obtain ⟨before, rest, hitems⟩ := exists_split hleft hfault
  have hbefore : target = .spilled → ∀ r ∈ before, r.Survives := by
    intro hspilled r hr
    apply hsurvive hspilled r
    rw [← (Item.withoutFaults_spec moved.length items).2, ← hleft, hitems, Item.oks_map_ok_append]
    exact List.mem_append_left _ hr
  obtain ⟨behind, hbehind, hpersist⟩ := RecordStream.persist_fault w.area config htarget hitems
  obtain ⟨-, hkeeps⟩ := RecordStream.keeps_keep hw.numbered config htarget hbefore
  obtain ⟨left', hrestored, hleft'⟩ := RecordStream.items_restored hkeeps behind
  have hnext := getAs_persist hget config target
  rw [hpersist, hrestored] at hnext
  refine ⟨.through left', hnext, .inl ⟨?_, left', rfl, ?_⟩⟩
  · rw [List.length_append, List.length_singleton]
    exact (List.getElem?_eq_some_iff.1 hfault).1
  · rw [List.length_append, List.length_singleton, Item.withoutFaults, ← hleft, hitems,
      Item.withoutFault_append, hleft', hbehind]

/-- An attempt leads from one state to the next one; one that asks for no class which keeps records
leaves the state as it is. -/
theorem Stands.persist (hw : w.Sound removed) {moved : List StorageClass}
    (h : w.Stands slot items moved) (config : SpillConfig) (target : StorageClass)
    (hsurvive : target = .spilled → ∀ r ∈ Item.oks items, r.Survives) :
    (w.persist slot config target).2.Stands slot items
      (if target = .streamThrough then moved else moved ++ [target]) := by
  obtain ⟨s, hget, hstate⟩ := h
  have hnext := getAs_persist hget config target
  have hkept := hw.keeps_persist hget config target
  split
  · next hthrough =>
    subst hthrough
    rw [RecordStream.persist_streamThrough] at hnext hkept
    refine ⟨s, hnext, hstate.imp_right ?_⟩
    rintro ⟨hlt, hlast, hclass, hkeeps⟩
    exact ⟨hlt, hlast, hclass, hkept _ hkeeps⟩
  next htarget =>
  rcases hstate with ⟨hle, left, rfl, hleft⟩ | ⟨hlt, hlast, hclass, hkeeps⟩
  -- Nothing has been moved yet: the attempt meets a failure, or there are only records left.
  · rcases Nat.lt_or_eq_of_le hle with hlt | heq
    · exact hw.stands_fault hget config htarget hleft (List.getElem?_eq_getElem hlt) hsurvive
    · have hitems := items_eq_oks hleft heq
      exact hw.stands_done hget config htarget htarget rfl hitems hsurvive (Nat.le_of_eq heq.symm)
  -- The stream is kept somewhere, here already or elsewhere.
  · obtain ⟨t, htraverse, hitems⟩ := hkeeps.traverse
    by_cases hsame : target = s.storageClass
    · subst hsame
      rw [RecordStream.persist_self w.area config hclass] at hnext hkept
      refine ⟨s, hnext, .inr ⟨?_, List.getLast?_concat, hclass, hkept _ hkeeps⟩⟩
      rw [List.length_append, List.length_singleton]
      omega
    · exact hw.stands_done hget config htarget hsame (congrArg Prod.fst htraverse) hitems
        hsurvive (Nat.le_of_lt hlt)

/-! ### Runs of attempts -/

theorem Stands.attempts {targets : List (SpillConfig × StorageClass)} (hw : w.Sound removed)
    {moved : List StorageClass} (h : w.Stands slot items moved)
    (hsurvive : (∃ config, (config, .spilled) ∈ targets) → ∀ r ∈ Item.oks items, r.Survives) :
    (∃ removed, (w.attempts slot targets).Sound removed) ∧
      (w.attempts slot targets).Stands slot items (moved ++ moves targets) := by
  induction targets generalizing w moved with
  | nil =>
    rw [moves, List.map_nil, List.filter_nil, List.append_nil]
    exact ⟨⟨removed, hw⟩, h⟩
  | cons attempt targets ih =>
    obtain ⟨config, target⟩ := attempt
    have hfirst := h.persist hw config target (by
      rintro rfl
      exact hsurvive ⟨config, List.mem_cons_self⟩)
    have hrest := ih (hw.leads_persist slot config target).sound hfirst (by
      rintro ⟨config', hmem⟩
      exact hsurvive ⟨config', List.mem_cons_of_mem _ hmem⟩)
    refine ⟨hrest.1, ?_⟩
    have hmoves : (if target = .streamThrough then moved else moved ++ [target]) ++ moves targets =
        moved ++ moves ((config, target) :: targets) := by
      by_cases htarget : target = .streamThrough <;> simp [moves, htarget]
    rw [← hmoves]
    exact hrest.2

/-- The stream as the state of a run says. -/
theorem Stands.traverse {moved : List StorageClass} {s : RecordStream}
    (h : w.Stands slot items moved) (hget : w.getAs slot Holding.stream? = .ok s) :
    (moved.length ≤ (Item.faults items).length → s.storageClass = .streamThrough ∧
      ∃ t, (s.traverse w.area).1 = .ok t ∧ t.items = Item.withoutFaults moved.length items) ∧
    ((Item.faults items).length < moved.length → moved.getLast? = some s.storageClass ∧
      s.count? = some (Item.oks items).length ∧
      ∃ t, (s.traverse w.area).1 = .ok t ∧ t.items = (Item.oks items).map .ok) := by
  obtain ⟨s', hget', hstate⟩ := h
  obtain rfl : s' = s := by simpa [hget] using hget'.symm
  rcases hstate with ⟨hle, left, rfl, hleft⟩ | ⟨hlt, hlast, -, hkeeps⟩
  · refine ⟨fun _ => ⟨rfl, left, rfl, hleft⟩, ?_⟩
    intro hlt
    omega
  · refine ⟨?_, ?_⟩
    · intro hle
      omega
    · intro _
      obtain ⟨t, htraverse, hitems⟩ := hkeeps.traverse
      exact ⟨hlast, hkeeps.count?, t, congrArg Prod.fst htraverse, hitems⟩

/-- What the next attempt to move the stream answers. -/
theorem Stands.answer {moved : List StorageClass} {s : RecordStream}
    (h : w.Stands slot items moved) (hget : w.getAs slot Holding.stream? = .ok s)
    (config : SpillConfig) {target : StorageClass} (htarget : target ≠ .streamThrough) :
    (∀ fault, (Item.faults items)[moved.length]? = some fault →
      (w.persist slot config target).1 = .error (.fault fault)) ∧
    (moved.length = (Item.faults items).length → (w.persist slot config target).1 = .ok true) := by
  obtain ⟨s', hget', hstate⟩ := h
  obtain rfl : s' = s := by simpa [hget] using hget'.symm
  rcases hstate with ⟨-, left, rfl, hleft⟩ | ⟨hlt, -⟩
  · refine ⟨?_, ?_⟩
    · intro fault hfault
      obtain ⟨before, rest, hitems⟩ := exists_split hleft hfault
      obtain ⟨behind, -, hpersist⟩ := RecordStream.persist_fault w.area config htarget hitems
      rw [persist_eq hget, hpersist]
      rfl
    · intro heq
      have hclass : target ≠ (RecordStream.through left).storageClass := htarget
      rw [persist_eq hget,
        RecordStream.persist_done config htarget hclass rfl (items_eq_oks hleft heq)]
      rfl
  · refine ⟨?_, ?_⟩
    · intro fault hfault
      have hgt := (List.getElem?_eq_some_iff.1 hfault).1
      omega
    · intro heq
      omega

/-- Attempts to move a stream-through stream, with targets in any order. Behind each run of them:
as long as there have been no more moves than failures, the stream is a stream-through stream and
has all items but the first failures, as many as there were moves; behind that it has the class of
the last move and exactly the records. To ask for a stream-through stream is an invalid argument,
to ask for the class that a kept stream has is answered with no, and both leave the stream as it is.
Every other attempt reports the first failure left, or succeeds when there is none. Records only
have to survive in spill files if some attempt asks for one. -/
theorem persist_attempts (hw : w.Sound removed) {left : Traversal}
    (hget : w.getAs slot Holding.stream? = .ok (.through left))
    (targets : List (SpillConfig × StorageClass))
    (hsurvive : (∃ config, (config, .spilled) ∈ targets) →
      ∀ r, .ok r ∈ left.items → r.Survives) :
    let w' := w.attempts slot targets
    let faults := Item.faults left.items
    let records := Item.oks left.items
    let count := (moves targets).length
    ∃ s, w'.getAs slot Holding.stream? = .ok s ∧
      (count ≤ faults.length → s.storageClass = .streamThrough ∧
        ∃ t, (s.traverse w'.area).1 = .ok t ∧ t.items = Item.withoutFaults count left.items) ∧
      (faults.length < count → (moves targets).getLast? = some s.storageClass ∧
        s.count? = some records.length ∧
        ∃ t, (s.traverse w'.area).1 = .ok t ∧ t.items = records.map .ok) ∧
      ∀ config,
        ((∃ fault, fault.kind = .invalidArgument ∧
            (w'.persist slot config .streamThrough).1 = .error (.fault fault)) ∧
          (w'.persist slot config .streamThrough).2.getAs slot Holding.stream? = .ok s) ∧
        ∀ target, target ≠ .streamThrough →
          (target = s.storageClass → (w'.persist slot config target).1 = .ok false ∧
            (w'.persist slot config target).2.getAs slot Holding.stream? = .ok s) ∧
          (∀ fault, faults[count]? = some fault →
            (w'.persist slot config target).1 = .error (.fault fault)) ∧
          (count = faults.length → (w'.persist slot config target).1 = .ok true) := by
  intro w' faults records count
  have hstart : w.Stands slot left.items [] :=
    ⟨.through left, hget, .inl ⟨Nat.zero_le _, left, rfl, rfl⟩⟩
  have hstands : w'.Stands slot left.items (moves targets) :=
    (hstart.attempts hw fun hspilled r hr => hsurvive hspilled r (Item.mem_oks.1 hr)).2
  obtain ⟨s, hs, -⟩ := id hstands
  obtain ⟨hbefore, hafter⟩ := hstands.traverse hs
  refine ⟨s, hs, hbefore, hafter, ?_⟩
  intro config
  refine ⟨⟨?_, ?_⟩, ?_⟩
  · refine ⟨.unreachableClass s.storageClass.name StorageClass.streamThrough.name, rfl, ?_⟩
    rw [persist_eq hs, RecordStream.persist_streamThrough]
    rfl
  · rw [getAs_persist hs, RecordStream.persist_streamThrough]
  · intro target htarget
    refine ⟨?_, hstands.answer hs config htarget⟩
    rintro rfl
    rw [getAs_persist hs, persist_eq hs, RecordStream.persist_self w'.area config htarget]
    exact ⟨rfl, rfl⟩

/-- A failure between two records. -/
def mixedItems : List Item :=
  [.ok [("a", .text "\n")], .error .invalidJson, .ok []]

/-- Asked to move to a spill file, to what it is and to memory, the stream of these items fails once
and is then in memory with both records. -/
theorem persist_attempts_mixedItems :
    ∃ s, ((run {} [.createStream .default .streamThrough mixedItems]).attempts 0
        [(.default, .spilled), (.default, .streamThrough), (.default, .materialized)]).getAs 0
        Holding.stream? = .ok s ∧
      s.storageClass = .materialized ∧ s.count? = some 2 := by
  have hget : (run {} [.createStream .default .streamThrough mixedItems]).getAs 0
      Holding.stream? = .ok (.through (.ofItems mixedItems)) := rfl
  have hsurvive : ∀ r, .ok r ∈ (Traversal.ofItems mixedItems).items → r.Survives := by
    intro r hr
    rw [Traversal.items_ofItems, ← Item.mem_oks] at hr
    change r ∈ [[("a", .text "\n")], []] at hr
    rcases List.mem_pair.1 hr with rfl | rfl
    · exact Record.Spillable.survives (by decide) rfl
    · exact Record.Spillable.survives (by decide) rfl
  obtain ⟨s, hs, -, hkept, -⟩ := persist_attempts
    (sound_run [.createStream .default .streamThrough mixedItems]) hget
    [(.default, .spilled), (.default, .streamThrough), (.default, .materialized)] fun _ => hsurvive
  obtain ⟨hclass, hcount, -⟩ := hkept (by decide)
  exact ⟨s, hs, (Option.some.inj hclass).symm, hcount⟩

end RecordFlow.Workspace
