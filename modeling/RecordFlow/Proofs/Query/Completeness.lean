import RecordFlow.Proofs.Query.Grammar

/-!
# Every derivation is read

If some tokens derive an expression in the grammar, the reader on a level that is deep enough yields
this expression and stops behind the tokens, provided that what follows does not go on with it
(`Parts`). A chain that recurs on the left in the grammar is a loop in the reader, so what is said
of it is that the reader comes to the loop with the chain read so far.
-/

namespace RecordFlow.Query

/-! ### Readers that succeed -/

theorem Reader.andThen_of_ok {α β : Type} {first : Reader α} {second : α → Reader β}
    {ts rest : List Token} {a : α} (h : first ts = (.ok a, rest)) :
    first.andThen second ts = second a rest := by
  rw [Reader.andThen, h]

theorem Reader.map_of_ok {α β : Type} {f : α → β} {r : Reader α} {ts rest : List Token} {a : α}
    (h : r ts = (.ok a, rest)) : r.map f ts = (.ok (f a), rest) :=
  Reader.andThen_of_ok h

/-! ### What follows -/

/-- The next token has none of some kinds. -/
def Parts (kinds : List TokenKind) (rest : List Token) : Prop :=
  ∀ t ∈ rest.head?, t.kind ∉ kinds

theorem Parts.mono {kinds kinds' : List TokenKind} {rest : List Token} (h : Parts kinds rest)
    (hsub : kinds' ⊆ kinds) : Parts kinds' rest :=
  fun t ht hmem => h t ht (hsub hmem)

theorem parts_nil (kinds : List TokenKind) : Parts kinds [] :=
  fun _ ht => absurd ht (by simp)

theorem parts_cons {kinds : List TokenKind} {t : Token} {rest : List Token} :
    Parts kinds (t :: rest) ↔ t.kind ∉ kinds := by
  simp [Parts]

section Chains

variable {kind : TokenKind} {join : Expression → Expression → Expression}
  {operand : Reader Expression}

theorem readFurther_stop (fuel : Nat) (left : Expression) {rest : List Token}
    (h : Parts [kind] rest) : readFurther kind join operand fuel left rest = (.ok left, rest) := by
  cases fuel with
  | zero => rfl
  | succ fuel =>
    cases rest with
    | nil => rfl
    | cons t rest =>
      have ht : ¬ t.kind = kind := by simpa using parts_cons.1 h
      rw [readFurther, if_neg ht]

/-- The loop behind a chain goes on with a further operand. -/
theorem readFurther_cons {fuel : Nat} {left right : Expression} {t : Token} {us rest : List Token}
    (hfuel : (t :: (us ++ rest)).length ≤ fuel) (ht : t.kind = kind)
    (hright : operand (us ++ rest) = (.ok right, rest)) :
    ∃ fuel', rest.length ≤ fuel' ∧ readFurther kind join operand fuel left (t :: (us ++ rest)) =
      readFurther kind join operand fuel' (join left right) rest := by
  cases fuel with
  | zero => simp at hfuel
  | succ fuel =>
    refine ⟨fuel, ?_, ?_⟩
    · simp only [List.length_cons, List.length_append] at hfuel
      omega
    · rw [readFurther, if_pos ht, Reader.andThen_of_ok hright]

theorem readChain_of_ok {ts rest : List Token} {left : Expression}
    (h : operand ts = (.ok left, rest)) :
    readChain kind join operand ts = readFurther kind join operand rest.length left rest :=
  Reader.andThen_of_ok h

end Chains

/-! ### First tokens -/

/-- The first token of some tokens has none of some kinds. -/
def StartsWithout (kinds : List TokenKind) (ts : List Token) : Prop :=
  ∃ t rest, ts = t :: rest ∧ t.kind ∉ kinds

theorem StartsWithout.append {kinds : List TokenKind} {ts : List Token}
    (h : StartsWithout kinds ts) (us : List Token) : StartsWithout kinds (ts ++ us) := by
  obtain ⟨t, rest, rfl, ht⟩ := h
  exact ⟨t, rest ++ us, rfl, ht⟩

theorem Bracketed.opens {b : Bracket} {n : Nat} {ts : List Token} {es : List Expression}
    (h : Bracketed b n ts es) : ∃ o inner, ts = o :: inner ∧ b.Opens o := by
  cases h with
  | empty ho hc => exact ⟨_, _, rfl, ho⟩
  | items ho h hc => exact ⟨_, _, rfl, ho⟩

theorem Bracketed.startsWithout {b : Bracket} {n : Nat} {ts : List Token} {es : List Expression}
    (h : Bracketed b n ts es) : StartsWithout [.not, .rightBracket] ts := by
  obtain ⟨o, inner, rfl, ho⟩ := h.opens
  exact ⟨o, inner, rfl, by simp [ho.1]⟩

theorem Token.Denotes.isConstant {t : Token} {v : Value} (h : t.Denotes v) :
    t.kind.isConstant := by
  cases h <;> simp [*, TokenKind.isConstant]

theorem Primary.startsWithout {n : Nat} {ts : List Token} {e : Expression}
    (h : Primary n ts e) : StartsWithout [.not, .rightBracket] ts := by
  cases h with
  | constant hv =>
    refine ⟨_, _, rfl, ?_⟩
    have hkind := hv.isConstant
    intro hmem
    simp only [List.mem_cons, List.not_mem_nil, or_false] at hmem
    rcases hmem with h | h <;> rw [h] at hkind <;> cases hkind
  | name ht => exact ⟨_, _, rfl, by simp [ht]⟩
  | call ht hf args => exact ⟨_, _, rfl, by simp [ht]⟩
  | group h => exact h.startsWithout
  | tuple h => exact h.startsWithout
  | list h => exact h.startsWithout

theorem Comparison.startsWithout {n : Nat} {ts : List Token} {e : Expression}
    (h : Comparison n ts e) : StartsWithout [.not, .rightBracket] ts := by
  cases h with
  | one h => exact h.startsWithout
  | compare left ht hop right => exact left.startsWithout.append _

theorem Negation.startsWithout {n : Nat} {ts : List Token} {e : Expression}
    (h : Negation n ts e) : StartsWithout [.rightBracket] ts := by
  cases h with
  | one h =>
    obtain ⟨t, rest, hts, ht⟩ := h.startsWithout
    exact ⟨t, rest, hts, fun hmem => ht (List.mem_cons_of_mem _ hmem)⟩
  | not ht h => exact ⟨_, _, rfl, by simp [ht]⟩

theorem Conjunction.startsWithout : ∀ {n : Nat} {ts : List Token} {e : Expression},
    Conjunction n ts e → StartsWithout [.rightBracket] ts
  | _, _, _, .one h => h.startsWithout
  | _, _, _, .and left _ _ => left.startsWithout.append _

theorem Disjunction.startsWithout : ∀ {n : Nat} {ts : List Token} {e : Expression},
    Disjunction n ts e → StartsWithout [.rightBracket] ts
  | _, _, _, .one h => h.startsWithout
  | _, _, _, .or left _ _ => left.startsWithout.append _

theorem Items.startsWithout {n : Nat} {ts : List Token} {es : List Expression}
    (h : Items n ts es) : StartsWithout [.rightBracket] ts := by
  cases h with
  | one h => exact h.startsWithout
  | more h ht later => exact h.startsWithout.append _

/-! ### Levels -/

/-- The reader of negations below a level, if there is one. -/
def negationBelow : Nat → Option (Reader Expression)
  | 0 => none
  | level + 1 => some (readNegation level)

theorem readNegation_eq (level : Nat) :
    readNegation level = readNegationOver (negationBelow level) := by
  cases level <;> rfl

theorem readConstant_of_denotes {t : Token} {v : Value} (h : t.Denotes v) :
    readConstant t = some (.ok v) := by
  cases h with
  | integer hkind hread => simp only [readConstant, hkind, hread]
  | float hkind hread => simp only [readConstant, hkind, hread]
  | literal hkind => simp only [readConstant, hkind]
  | date hkind hread => simp only [readConstant, hkind, hread]
  | yes hkind hword => simp only [readConstant, hkind, hword]
  | no hkind hword =>
    have hnot : equalIgnoringCase t.text ['t', 'r', 'u', 'e'] = false := by
      rw [equalIgnoringCase, beq_iff_eq] at hword
      rw [equalIgnoringCase, hword]
      rfl
    simp only [readConstant, hkind, hnot]
  | null hkind => simp only [readConstant, hkind]

theorem readClose_of_closes {b : Bracket} {c : Token} (hc : b.Closes c) (rest : List Token) :
    readClose b.opening (c :: rest) = (.ok (), rest) := by
  have htext : c.text = closing b.opening := by
    rw [hc.2]
    cases b <;> rfl
  rw [readClose, if_pos ⟨hc.1, htext⟩]

theorem readGroup_square (item : Reader Expression) :
    readGroup item Bracket.square.opening =
      (readItems item Bracket.square.opening).map .list := rfl

theorem readPrimary_of_opens {b : Bracket} {o : Token} (ho : b.Opens o) (item : Reader Expression)
    (rest : List Token) :
    readPrimary item (o :: rest) = readGroup item b.opening rest := by
  simp only [readPrimary, readConstant, ho.1, ho.2]

/-! ### Derivations -/

-- The recursion is on derivations. The level and what follows are arbitrary in every statement, as
-- a part of a derivation is read one level below and in front of the other parts.
mutual

/-- A disjunction brings the reader to its loop with the disjunction read so far. -/
theorem Disjunction.loop : ∀ {n ts e}, Disjunction n ts e → ∀ {level}, n ≤ level →
    ∀ rest, Parts [.operator, .and] rest → ∃ fuel, rest.length ≤ fuel ∧
      readDisjunction (some (readNegation level)) (ts ++ rest) =
        readFurther .or .or (readChain .and .and (readNegation level)) fuel e rest
  | _, _, _, .one h, level, hlevel, rest, hrest => by
    obtain ⟨fuel, -, hloop⟩ := h.loop hlevel rest (hrest.mono (by simp))
    rw [readFurther_stop fuel _ (hrest.mono (by simp))] at hloop
    exact ⟨rest.length, Nat.le_refl _, readChain_of_ok hloop⟩
  | _, _, _, .or (r := us) (t := t) left ht right, level, hlevel, rest, hrest => by
    obtain ⟨fuel, hfuel, hleft⟩ := left.loop hlevel (t :: (us ++ rest))
      (parts_cons.2 (by simp [ht]))
    obtain ⟨fuel', -, hright⟩ := right.loop hlevel rest (hrest.mono (by simp))
    rw [readFurther_stop fuel' _ (hrest.mono (by simp))] at hright
    obtain ⟨later, hlater, hstep⟩ := readFurther_cons hfuel ht hright
    refine ⟨later, hlater, ?_⟩
    rw [List.append_assoc, List.cons_append, hleft, hstep]

theorem Conjunction.loop : ∀ {n ts e}, Conjunction n ts e → ∀ {level}, n ≤ level →
    ∀ rest, Parts [.operator] rest → ∃ fuel, rest.length ≤ fuel ∧
      readChain .and .and (readNegation level) (ts ++ rest) =
        readFurther .and .and (readNegation level) fuel e rest
  | _, _, _, .one h, level, hlevel, rest, hrest =>
    ⟨rest.length, Nat.le_refl _, readChain_of_ok (h.read hlevel rest hrest)⟩
  | _, _, _, .and (r := us) (t := t) left ht right, level, hlevel, rest, hrest => by
    obtain ⟨fuel, hfuel, hleft⟩ := left.loop hlevel (t :: (us ++ rest))
      (parts_cons.2 (by simp [ht]))
    have hright := right.read hlevel rest hrest
    obtain ⟨later, hlater, hstep⟩ := readFurther_cons hfuel ht hright
    refine ⟨later, hlater, ?_⟩
    rw [List.append_assoc, List.cons_append, hleft, hstep]

theorem Negation.read : ∀ {n ts e}, Negation n ts e → ∀ {level}, n ≤ level →
    ∀ rest, Parts [.operator] rest → readNegation level (ts ++ rest) = (.ok e, rest)
  | _, _, _, .one (l := ts) h, level, hlevel, rest, hrest => by
    obtain ⟨t, us, rfl, ht⟩ := h.startsWithout
    have hkind : ¬ t.kind = .not := fun hkind => ht (by simp [hkind])
    have hread := h.read hlevel rest hrest
    rw [readNegation_eq, List.cons_append]
    exact (if_neg hkind).trans hread
  | _, _, _, .not ht h, 0, hlevel, rest, hrest => absurd hlevel (by simp)
  | _, _, _, .not ht h, level + 1, hlevel, rest, hrest => by
    have hread := h.read (Nat.le_of_succ_le_succ hlevel) rest hrest
    rw [readNegation, List.cons_append, readNegationOver, if_pos ht]
    exact Reader.map_of_ok hread

theorem Comparison.read : ∀ {n ts e}, Comparison n ts e → ∀ {level}, n ≤ level →
    ∀ rest, Parts [.operator] rest →
    readComparison (readDisjunction (negationBelow level)) (ts ++ rest) = (.ok e, rest)
  | _, _, _, .one h, level, hlevel, rest, hrest => by
    rw [readComparison, Reader.andThen_of_ok (h.read hlevel rest)]
    cases rest with
    | nil => rfl
    | cons t rest =>
      have ht : ¬ t.kind = .operator := by simpa using parts_cons.1 hrest
      exact if_neg ht
  | _, _, _, .compare (r := us) (t := t) left ht hop right, level, hlevel, rest, hrest => by
    have hleft := left.read hlevel (t :: (us ++ rest))
    have hright := right.read hlevel rest
    rw [List.append_assoc, List.cons_append, readComparison, Reader.andThen_of_ok hleft]
    simp only [if_pos ht, hop]
    exact Reader.map_of_ok hright

theorem Primary.read : ∀ {n ts e}, Primary n ts e → ∀ {level}, n ≤ level → ∀ rest,
    readPrimary (readDisjunction (negationBelow level)) (ts ++ rest) = (.ok e, rest)
  | _, _, _, .constant h, level, hlevel, rest => by
    rw [List.singleton_append, readPrimary, readConstant_of_denotes h]
  | _, _, _, .name ht, level, hlevel, rest => by
    simp only [List.singleton_append, readPrimary, readConstant, ht]
  | _, _, _, .call ht hf args, level, hlevel, rest => by
    obtain ⟨o, inner, rfl, ho⟩ := args.opens
    have hread := args.read hlevel rest o inner rfl
    simp only [List.cons_append, readPrimary, readConstant, ht, readCall, hf, ho.1, if_true, ho.2]
    exact Reader.map_of_ok hread
  | _, _, _, .group h, level, hlevel, rest => by
    obtain ⟨o, inner, rfl, ho⟩ := h.opens
    rw [List.cons_append, readPrimary_of_opens ho]
    exact Reader.andThen_of_ok (h.read hlevel rest o inner rfl)
  | _, _, _, .tuple h, level, hlevel, rest => by
    obtain ⟨o, inner, rfl, ho⟩ := h.opens
    rw [List.cons_append, readPrimary_of_opens ho]
    exact Reader.andThen_of_ok (h.read hlevel rest o inner rfl)
  | _, _, _, .list h, level, hlevel, rest => by
    obtain ⟨o, inner, rfl, ho⟩ := h.opens
    rw [List.cons_append, readPrimary_of_opens ho, readGroup_square]
    exact Reader.map_of_ok (h.read hlevel rest o inner rfl)

theorem Bracketed.read : ∀ {b n ts es}, Bracketed b n ts es → ∀ {level}, n ≤ level →
    ∀ rest o inner, ts = o :: inner →
    readItems (readDisjunction (negationBelow level)) b.opening (inner ++ rest) = (.ok es, rest)
  | _, _, _, _, .empty (c := c) ho hc, level, hlevel, rest, o, inner, hts => by
    obtain ⟨rfl, rfl⟩ := List.cons.inj hts
    have hhead : ((c :: rest).head?.any (·.kind = .rightBracket)) = true := by simp [hc.1]
    rw [List.singleton_append, readItems, if_pos hhead]
    exact Reader.map_of_ok (readClose_of_closes hc rest)
  | _, _, _, _, .items ho h hc, 0, hlevel, rest, o, inner, hts => absurd hlevel (by simp)
  | _, _, _, _, .items (l := ts) (c := c) ho h hc, level + 1, hlevel, rest, o, inner, hts => by
    obtain ⟨rfl, rfl⟩ := List.cons.inj hts
    have hhead : ¬ ((ts ++ c :: rest).head?.any (·.kind = .rightBracket)) = true := by
      obtain ⟨t, us, rfl, ht⟩ := h.startsWithout
      simpa using ht
    rw [List.append_assoc, List.singleton_append, readItems, if_neg hhead]
    apply h.read (Nat.le_of_succ_le_succ hlevel) hc rest _
    rw [List.length_append]
    omega

theorem Items.read : ∀ {n ts es}, Items n ts es → ∀ {level}, n ≤ level → ∀ {b : Bracket} {c},
    b.Closes c → ∀ rest fuel, ts.length < fuel →
    readItemsFrom (readDisjunction (some (readNegation level))) b.opening fuel (ts ++ c :: rest) =
      (.ok es, rest)
  | _, _, _, .one h, level, hlevel, b, c, hc, rest, 0, hfuel => absurd hfuel (by simp)
  | _, _, _, .one h, level, hlevel, b, c, hc, rest, fuel + 1, hfuel => by
    obtain ⟨fuel', -, hloop⟩ := h.loop hlevel (c :: rest) (parts_cons.2 (by simp [hc.1]))
    rw [readFurther_stop fuel' _ (parts_cons.2 (by simp [hc.1]))] at hloop
    have hcomma : ¬ c.kind = .comma := by simp [hc.1]
    rw [readItemsFrom, Reader.andThen_of_ok hloop]
    exact (if_neg hcomma).trans (Reader.map_of_ok (readClose_of_closes hc rest))
  | _, _, _, .more h ht later, level, hlevel, b, c, hc, rest, 0, hfuel => absurd hfuel (by simp)
  | _, _, _, .more (r := us) (t := t) h ht later, level, hlevel, b, c, hc, rest, fuel + 1,
      hfuel => by
    obtain ⟨fuel', -, hloop⟩ := h.loop hlevel (t :: (us ++ c :: rest))
      (parts_cons.2 (by simp [ht]))
    rw [readFurther_stop fuel' _ (parts_cons.2 (by simp [ht]))] at hloop
    have hlength : us.length < fuel := by
      rw [List.length_append, List.length_cons] at hfuel
      omega
    have hlater := later.read hlevel hc rest fuel hlength
    rw [List.append_assoc, List.cons_append, readItemsFrom, Reader.andThen_of_ok hloop]
    exact (if_pos ht).trans (Reader.map_of_ok hlater)

end

end RecordFlow.Query
