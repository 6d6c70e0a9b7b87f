import RecordFlow.Proofs.Query.Classified
import RecordFlow.Proofs.Query.Grammar

/-!
# What the readers take derives what they yield

`Takes` is what is said of every reader: it takes a part in front of the tokens; if it yields
something, this part derives it, and if it fails, the failure is an invalid argument. The
combinators keep this, so each reader has it from the readers that it is made of, up to
`takes_readNegation`, which goes through the levels.
-/

namespace RecordFlow.Query

/-! ### Readers -/

/-- What a reader may come to on some tokens. -/
def Outcome {α : Type} (R : List Token → α → Prop) (ts : List Token) :
    Except Fault α × List Token → Prop
  | (.ok a, rest) => ∃ read, ts = read ++ rest ∧ R read a
  | (.error fault, rest) => rest <:+ ts ∧ fault.kind = .invalidArgument

/-- The reader takes tokens in front that stand in a relation to what it yields. -/
def Takes {α : Type} (r : Reader α) (R : List Token → α → Prop) : Prop :=
  ∀ ts, (∀ t ∈ ts, t.WellSpelled) → Outcome R ts (r ts)

variable {α β : Type} {R S : List Token → α → Prop}

theorem Outcome.mono {ts : List Token} {o : Except Fault α × List Token} (h : Outcome R ts o)
    (himp : ∀ read a, R read a → S read a) : Outcome S ts o := by
  obtain ⟨result, rest⟩ := o
  cases result with
  | error fault => exact h
  | ok a =>
    obtain ⟨read, hts, ha⟩ := h
    exact ⟨read, hts, himp read a ha⟩

theorem Takes.mono {r : Reader α} (h : Takes r R) (himp : ∀ read a, R read a → S read a) :
    Takes r S :=
  fun ts hts => (h ts hts).mono himp

/-- One token more has been taken in front. -/
theorem Outcome.cons {t : Token} {ts : List Token} {o : Except Fault α × List Token}
    (h : Outcome R ts o) (himp : ∀ read a, R read a → S (t :: read) a) :
    Outcome S (t :: ts) o := by
  obtain ⟨result, rest⟩ := o
  cases result with
  | error fault => exact ⟨h.1.trans (List.suffix_cons t ts), h.2⟩
  | ok a =>
    obtain ⟨read, rfl, ha⟩ := h
    exact ⟨t :: read, rfl, himp read a ha⟩

/-- A reader that goes on behind a token. -/
theorem Takes.behind {t : Token} {ts : List Token} {r : Reader α}
    (h : Takes r fun read a => R (t :: read) a) (hts : ∀ u ∈ t :: ts, u.WellSpelled) :
    Outcome R (t :: ts) (r ts) :=
  (h ts fun u hu => hts u (List.mem_cons_of_mem t hu)).cons fun _ _ ha => ha

theorem outcome_error {fault : Fault} (hkind : fault.kind = .invalidArgument) {ts rest : List Token}
    (hrest : rest <:+ ts) : Outcome R ts (.error fault, rest) :=
  ⟨hrest, hkind⟩

theorem takes_fail {fault : Fault} (hkind : fault.kind = .invalidArgument) :
    Takes (Reader.fail fault) R :=
  fun ts _ => outcome_error hkind (List.suffix_refl ts)

/-- The second reader goes on where the first one has stopped. -/
theorem takes_andThen {first : Reader α} {second : α → Reader β} {T : List Token → β → Prop}
    (hfirst : Takes first R)
    (hsecond : ∀ read a, R read a → Takes (second a) fun later b => T (read ++ later) b) :
    Takes (first.andThen second) T := by
  intro ts hts
  have hout := hfirst ts hts
  unfold Reader.andThen
  generalize first ts = o at hout
  obtain ⟨result, rest⟩ := o
  cases result with
  | error fault => exact hout
  | ok a =>
    obtain ⟨read, rfl, ha⟩ := hout
    have hlater := hsecond read a ha rest fun t ht => hts t (List.mem_append_right read ht)
    dsimp only
    generalize second a rest = o at hlater
    obtain ⟨result, left⟩ := o
    cases result with
    | error fault => exact ⟨hlater.1.trans (List.suffix_append read rest), hlater.2⟩
    | ok b =>
      obtain ⟨later, rfl, hb⟩ := hlater
      exact ⟨read ++ later, (List.append_assoc read later left).symm, hb⟩

/-- A reader that takes nothing. -/
theorem takes_nothing {a : α} (h : R [] a) : Takes (fun ts => (.ok a, ts)) R :=
  fun _ _ => ⟨[], rfl, h⟩

theorem takes_map {f : α → β} {r : Reader α} {T : List Token → β → Prop} (h : Takes r R)
    (himp : ∀ read a, R read a → T read (f a)) : Takes (r.map f) T := by
  apply takes_andThen h
  intro read a ha
  apply takes_nothing
  rw [List.append_nil]
  exact himp read a ha

/-! ### Chains -/

section Chains

variable {kind : TokenKind} {join : Expression → Expression → Expression}
  {operand : Reader Expression} {O C : List Token → Expression → Prop}

/-- Further operands are joined to a chain that has been read. -/
theorem takes_readFurther (hoperand : Takes operand O)
    (hstep : ∀ {lts left t rts right}, C lts left → t.kind = kind → O rts right →
      C (lts ++ t :: rts) (join left right)) :
    ∀ (fuel : Nat) {lts : List Token} {left : Expression}, C lts left →
      Takes (readFurther kind join operand fuel left) fun read e => C (lts ++ read) e := by
  -- The chain grows from the left, so the induction is over all chains read so far.
  intro fuel
  induction fuel with
  | zero =>
    intro lts left hleft
    exact takes_nothing (by simpa using hleft)
  | succ fuel ih =>
    intro lts left hleft ts hts
    have hstop : Outcome (fun read e => C (lts ++ read) e) ts (.ok left, ts) :=
      takes_nothing (by simpa using hleft) ts hts
    cases ts with
    | nil => exact hstop
    | cons t rest =>
      rw [readFurther]
      split
      · next ht =>
        have hlater : Takes
            (operand.andThen fun right => readFurther kind join operand fuel (join left right))
            fun read e => C (lts ++ t :: read) e := by
          apply takes_andThen hoperand
          intro rts right hright
          apply (ih (hstep hleft ht hright)).mono
          intro read e he
          simpa using he
        exact hlater.behind hts
      · exact hstop

theorem takes_readChain (hoperand : Takes operand O)
    (hone : ∀ {ts e}, O ts e → C ts e)
    (hstep : ∀ {lts left t rts right}, C lts left → t.kind = kind → O rts right →
      C (lts ++ t :: rts) (join left right)) : Takes (readChain kind join operand) C := by
  apply takes_andThen hoperand
  intro lts left hleft ts hts
  exact takes_readFurther hoperand hstep ts.length (hone hleft) ts hts

end Chains

/-! ### Bracketed lists -/

/-- The relation on the level below; below the lowest level nothing is derived. -/
def Below {α : Type} (R : Nat → List Token → α → Prop) : Nat → List Token → α → Prop
  | 0, _, _ => False
  | n + 1, ts, a => R n ts a

/-- What stands behind an opening bracket. -/
def Inside (b : Bracket) (n : Nat) (read : List Token) (es : List Expression) : Prop :=
  ∃ ts c, b.Closes c ∧ read = ts ++ [c] ∧ (ts = [] ∧ es = [] ∨ Below Items n ts es)

theorem Inside.bracketed {b : Bracket} {n : Nat} {o : Token} {read : List Token}
    {es : List Expression} (h : Inside b n read es) (ho : b.Opens o) :
    Bracketed b n (o :: read) es := by
  obtain ⟨ts, c, hc, rfl, ⟨rfl, rfl⟩ | hitems⟩ := h
  · exact .empty ho hc
  · cases n with
    | zero => exact hitems.elim
    | succ n => exact .items ho hitems hc

theorem closing_opening (b : Bracket) : closing b.opening = b.closing := by
  cases b <;> rfl

theorem takes_readClose (b : Bracket) :
    Takes (readClose b.opening) fun read _ => ∃ c, b.Closes c ∧ read = [c] := by
  intro ts _
  cases ts with
  | nil => exact outcome_error rfl (List.suffix_refl [])
  | cons t rest =>
    rw [readClose]
    split
    · next hclose =>
      rw [closing_opening] at hclose
      exact ⟨[t], rfl, t, hclose, rfl⟩
    · exact outcome_error rfl (List.suffix_cons t rest)

variable {n : Nat} {item : Reader Expression}

theorem takes_readItemsFrom (hitem : Takes item (Below Disjunction n)) (b : Bracket) :
    ∀ fuel, Takes (readItemsFrom item b.opening fuel) fun read es =>
      ∃ ts c, b.Closes c ∧ read = ts ++ [c] ∧ Below Items n ts es := by
  intro fuel
  induction fuel with
  | zero => exact takes_fail rfl
  | succ fuel ih =>
    apply takes_andThen hitem
    intro first e he ts hts
    cases ts with
    | nil => exact outcome_error rfl (List.suffix_refl [])
    | cons t rest =>
      dsimp only
      split
      · next ht =>
        have hlater := takes_map (f := (e :: ·)) (T := fun read es => ∃ ts c, b.Closes c ∧
          first ++ t :: read = ts ++ [c] ∧ Below Items n ts es) ih (by
            rintro _ es ⟨later, c, hc, rfl, hes⟩
            refine ⟨first ++ t :: later, c, hc, by simp, ?_⟩
            cases n with
            | zero => exact he.elim
            | succ n => exact .more he ht hes)
        exact hlater.behind hts
      · refine takes_map (takes_readClose b) ?_ (t :: rest) hts
        rintro _ _ ⟨c, hc, rfl⟩
        refine ⟨first, c, hc, rfl, ?_⟩
        cases n with
        | zero => exact he.elim
        | succ n => exact .one he

theorem takes_readItems (hitem : Takes item (Below Disjunction n)) (b : Bracket) :
    Takes (readItems item b.opening) (Inside b n) := by
  intro ts hts
  rw [readItems]
  split
  · refine takes_map (takes_readClose b) ?_ ts hts
    rintro _ _ ⟨c, hc, rfl⟩
    exact ⟨[], c, hc, rfl, .inl ⟨rfl, rfl⟩⟩
  · refine (takes_readItemsFrom hitem b (ts.length + 1)).mono ?_ ts hts
    rintro _ es ⟨inner, c, hc, rfl, hes⟩
    exact ⟨inner, c, hc, rfl, .inr hes⟩

/-! ### Primaries -/

/-- A constant that is read is what its token denotes; otherwise the token stands for none. -/
theorem readConstant_eq {t : Token} (ht : t.WellSpelled) :
    (∃ v, readConstant t = some (.ok v) ∧ t.Denotes v) ∨
    (∃ fault, readConstant t = some (.error fault) ∧ fault.kind = .invalidArgument) ∨
    readConstant t = none := by
  unfold readConstant
  split
  · next hkind =>
    split
    · next v hread => exact .inl ⟨_, rfl, .integer hkind hread⟩
    · exact .inr (.inl ⟨_, rfl, rfl⟩)
  · next hkind =>
    split
    · next v hread => exact .inl ⟨_, rfl, .float hkind hread⟩
    · exact .inr (.inl ⟨_, rfl, rfl⟩)
  · next hkind => exact .inl ⟨_, rfl, .literal hkind⟩
  · next hkind =>
    obtain ⟨d, hread⟩ := ht.date hkind
    rw [hread]
    exact .inl ⟨_, rfl, .date hkind hread⟩
  · next hkind =>
    refine .inl ⟨_, rfl, ?_⟩
    cases hyes : equalIgnoringCase t.text ['t', 'r', 'u', 'e'] with
    | true => exact .yes hkind hyes
    | false =>
      have hword := ht.boolean hkind
      rw [hyes] at hword
      exact .no hkind (hword.resolve_left Bool.false_ne_true)
  · next hkind => exact .inl ⟨_, rfl, .null hkind⟩
  · exact .inr (.inr rfl)

/-- An opening bracket opens one of the two kinds. -/
theorem exists_opens {t : Token} (ht : t.WellSpelled) (hkind : t.kind = .leftBracket) :
    ∃ b : Bracket, b.Opens t := by
  rcases ht.leftBracket hkind with htext | htext
  · exact ⟨.round, hkind, htext⟩
  · exact ⟨.square, hkind, htext⟩

theorem takes_readCall (hitem : Takes item (Below Disjunction n)) (name : String) :
    Takes (readCall item name) fun read e =>
      ∃ f b es, Function.ofName? name = some f ∧ Bracketed b n read es ∧ e = .call f es := by
  intro ts hts
  unfold readCall
  split
  · exact outcome_error rfl (List.suffix_refl ts)
  next f hf =>
  cases ts with
  | nil => exact outcome_error rfl (List.suffix_refl [])
  | cons t rest =>
    dsimp only
    split
    · next hkind =>
      obtain ⟨b, hb⟩ := exists_opens (hts t List.mem_cons_self) hkind
      rw [hb.2]
      have hargs := takes_map (f := Expression.call f) (T := fun read e => ∃ f b es,
        Function.ofName? name = some f ∧ Bracketed b n (t :: read) es ∧ e = .call f es)
        (takes_readItems hitem b) fun read es hes => ⟨f, b, es, hf, hes.bracketed hb, rfl⟩
      exact hargs.behind hts
    · exact outcome_error rfl (List.suffix_cons t rest)

theorem takes_readGroup (hitem : Takes item (Below Disjunction n)) {b : Bracket} {o : Token}
    (ho : b.Opens o) : Takes (readGroup item b.opening) fun read e => Primary n (o :: read) e := by
  cases b with
  | square =>
    exact takes_map (takes_readItems hitem .square) fun read es hes => .list (hes.bracketed ho)
  | round =>
    apply takes_andThen (takes_readItems hitem .round)
    intro read es hes ts _
    have hround := hes.bracketed ho
    match es, hround with
    | [], _ => exact outcome_error rfl (List.suffix_refl ts)
    | [e], hround => exact ⟨[], rfl, by simpa using .group hround⟩
    | e :: e' :: es, hround => exact ⟨[], rfl, by simpa using .tuple hround⟩

theorem takes_readPrimary (hitem : Takes item (Below Disjunction n)) :
    Takes (readPrimary item) (Primary n) := by
  intro ts hts
  cases ts with
  | nil => exact outcome_error rfl (List.suffix_refl [])
  | cons t rest =>
    have ht := hts t List.mem_cons_self
    rw [readPrimary]
    rcases readConstant_eq ht with ⟨v, hread, hv⟩ | ⟨fault, hread, hkind⟩ | hread
    · rw [hread]
      exact ⟨[t], rfl, .constant hv⟩
    · rw [hread]
      exact outcome_error hkind (List.suffix_cons t rest)
    · rw [hread]
      dsimp only
      split
      · next hkind => exact ⟨[t], rfl, .name hkind⟩
      · next hkind =>
        refine ((takes_readCall hitem t.text).mono ?_).behind hts
        rintro read _ ⟨f, b, es, hf, hargs, rfl⟩
        exact .call hkind hf hargs
      · next hkind =>
        obtain ⟨b, hb⟩ := exists_opens ht hkind
        rw [hb.2]
        exact (takes_readGroup hitem hb).behind hts
      · exact outcome_error rfl (List.suffix_cons t rest)
      · exact outcome_error rfl (List.suffix_cons t rest)

/-! ### Comparisons and levels -/

theorem takes_readComparison (hitem : Takes item (Below Disjunction n)) :
    Takes (readComparison item) (Comparison n) := by
  apply takes_andThen (takes_readPrimary hitem)
  intro read left hleft ts hts
  have hstop : Outcome (fun later e => Comparison n (read ++ later) e) ts (.ok left, ts) :=
    takes_nothing (by simpa using .one hleft) ts hts
  cases ts with
  | nil => exact hstop
  | cons t rest =>
    dsimp only
    split
    · next hkind =>
      split
      · next op hop =>
        have hright := takes_map (f := Expression.compare op left)
          (T := fun later e => Comparison n (read ++ t :: later) e) (takes_readPrimary hitem)
          fun later right hright => .compare hleft hkind hop hright
        exact hright.behind hts
      · exact outcome_error rfl (List.suffix_cons t rest)
    · exact hstop

theorem takes_readDisjunction {negation : Reader Expression} (h : Takes negation (Negation n)) :
    Takes (readDisjunction (some negation)) (Disjunction n) := by
  have hconjunction : Takes (readChain .and .and negation) (Conjunction n) :=
    takes_readChain h .one .and
  exact takes_readChain hconjunction .one .or

/-- Every level reads the negations with as many levels of depth. -/
theorem takes_readNegation : ∀ n, Takes (readNegation n) (Negation n)
  | 0 => by
    intro ts hts
    cases ts with
    | nil => exact outcome_error rfl (List.suffix_refl [])
    | cons t rest =>
      rw [readNegation, readNegationOver]
      split
      · exact outcome_error rfl (List.suffix_cons t rest)
      · exact (takes_readComparison (n := 0) (takes_fail rfl) (t :: rest) hts).mono
          fun _ _ h => .one h
  | n + 1 => by
    have ih := takes_readNegation n
    intro ts hts
    cases ts with
    | nil => exact outcome_error rfl (List.suffix_refl [])
    | cons t rest =>
      rw [readNegation, readNegationOver]
      split
      · next hkind =>
        have hoperand := takes_map (f := Expression.not) (T := fun read e =>
          Negation (n + 1) (t :: read) e) ih fun read e he => .not hkind he
        exact hoperand.behind hts
      · exact (takes_readComparison (n := n + 1) (takes_readDisjunction ih) (t :: rest) hts).mono
          fun _ _ h => .one h

/-- An expression is read as what it derives at the greatest depth. -/
theorem takes_readExpression : Takes readExpression (Disjunction (maxLevels - 1)) :=
  takes_readDisjunction (takes_readNegation _)

end RecordFlow.Query
