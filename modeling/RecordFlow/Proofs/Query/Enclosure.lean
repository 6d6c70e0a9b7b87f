import Mathlib.Order.Bounds.Defs
import RecordFlow.Proofs.Query.Parsing

/-!
# How deep an expression nests

`enclosure` counts along the tokens how many groups, lists, calls and NOTs are around what begins
there. Where the tokens derive an expression, the greatest count is the least depth of a derivation
(`Disjunction.isLeast_enclosure`), whatever the mix. As the reader takes one of its levels for the
whole expression, it accepts what is less than `maxLevels` deep and refuses all else
(`Expression.ofTokens_enclosure`): an expression inside `maxLevels` groups is refused.
-/

namespace RecordFlow.Query

/-! ### What is open along the tokens -/

/-- What is open at a place between tokens: how many NOTs wait for the end of their operand inside
the innermost bracket, and how many did so where each bracket was opened, from the innermost on. -/
structure Enclosure where
  waiting : Nat
  outside : List Nat

namespace Enclosure

/-- The number of brackets and NOTs around what comes next. -/
def count (s : Enclosure) : Nat :=
  s.waiting + s.outside.foldr (fun waiting around => waiting + 1 + around) 0

/-- What is open behind a token. An operand of NOT ends with AND, OR, a comma or the bracket that it
stands in. -/
def step (s : Enclosure) (t : Token) : Enclosure :=
  match t.kind with
  | .not => { s with waiting := s.waiting + 1 }
  | .and | .or | .comma => { s with waiting := 0 }
  | .leftBracket => ⟨0, s.waiting :: s.outside⟩
  | .rightBracket =>
    match s.outside with
    | [] => s
    | waiting :: outside => ⟨waiting, outside⟩
  | _ => s

def after (s : Enclosure) (ts : List Token) : Enclosure :=
  ts.foldl step s

/-- The greatest number of brackets and NOTs around what begins at one of the tokens; nothing begins
at a closing bracket. -/
def deepest (s : Enclosure) : List Token → Nat
  | [] => 0
  | t :: rest => max (if t.kind = .rightBracket then 0 else s.count) (deepest (s.step t) rest)

end Enclosure

/-- The greatest number of groups, lists, calls and NOTs around what begins at one of the tokens. -/
def enclosure (ts : List Token) : Nat :=
  Enclosure.deepest ⟨0, []⟩ ts

namespace Enclosure

theorem after_append (s : Enclosure) (ts us : List Token) :
    s.after (ts ++ us) = (s.after ts).after us :=
  List.foldl_append

theorem deepest_append (s : Enclosure) (ts us : List Token) :
    s.deepest (ts ++ us) = max (s.deepest ts) ((s.after ts).deepest us) := by
  induction ts generalizing s with
  | nil => exact (Nat.zero_max _).symm
  | cons t ts ih =>
    rw [List.cons_append, deepest, deepest, ih, Nat.max_assoc]
    rfl

theorem deepest_cons {t : Token} (ht : t.kind ≠ .rightBracket) (s : Enclosure) (ts : List Token) :
    s.deepest (t :: ts) = max s.count ((s.step t).deepest ts) := by
  rw [deepest, if_neg ht]

/-! ### What some tokens do -/

/-- The tokens are a number of brackets and NOTs deep and leave open what was open before. -/
structure Rests (s : Enclosure) (ts : List Token) (d : Nat) : Prop where
  after_eq : s.after ts = s
  deepest_eq : s.deepest ts = s.count + d

/-- The tokens are a number of brackets and NOTs deep and close every bracket that they open; the
NOTs that still wait at their end are among those. -/
structure Spans (s : Enclosure) (ts : List Token) (d : Nat) : Prop where
  outside_eq : (s.after ts).outside = s.outside
  waiting_le : (s.after ts).waiting ≤ s.waiting + d
  deepest_eq : s.deepest ts = s.count + d

variable {s : Enclosure} {ts us : List Token} {t : Token} {d d' : Nat}

theorem Rests.spans (h : s.Rests ts d) : s.Spans ts d where
  outside_eq := congrArg outside h.after_eq
  waiting_le := by rw [h.after_eq]; exact Nat.le_add_right _ _
  deepest_eq := h.deepest_eq

/-- A token at which something begins and ends. -/
theorem rests_singleton (ht : t.kind ≠ .rightBracket) (hstep : s.step t = s) : s.Rests [t] 0 where
  after_eq := hstep
  deepest_eq := by rw [deepest_cons ht, deepest, Nat.max_zero, Nat.add_zero]

theorem Rests.cons (h : s.Rests ts d) (ht : t.kind ≠ .rightBracket) (hstep : s.step t = s) :
    s.Rests (t :: ts) d where
  after_eq := by
    rw [after, List.foldl_cons, hstep]
    exact h.after_eq
  deepest_eq := by
    rw [deepest_cons ht, hstep, h.deepest_eq]
    omega

theorem Rests.append (h : s.Rests ts d) (h' : s.Rests us d') : s.Rests (ts ++ us) (max d d') where
  after_eq := by rw [after_append, h.after_eq, h'.after_eq]
  deepest_eq := by
    rw [deepest_append, h.after_eq, h.deepest_eq, h'.deepest_eq]
    omega

/-- Brackets around nothing. -/
theorem rests_empty {o c : Token} (ho : o.kind = .leftBracket) (hc : c.kind = .rightBracket) :
    s.Rests [o, c] 0 where
  after_eq := by simp only [after, List.foldl_cons, List.foldl_nil, step, ho, hc]
  deepest_eq := by
    rw [deepest_cons (by simp [ho]), deepest, if_pos hc, deepest]
    omega

/-- What stands in brackets is one deeper. -/
theorem Spans.bracketed {o c : Token} (ho : o.kind = .leftBracket) (hc : c.kind = .rightBracket)
    (h : Spans ⟨0, s.waiting :: s.outside⟩ ts d) : s.Rests (o :: (ts ++ [c])) (d + 1) := by
  have hopen : s.step o = ⟨0, s.waiting :: s.outside⟩ := by rw [step, ho]
  have hclose : ((s.step o).after ts).step c = s := by
    rw [step, hc, hopen, h.outside_eq]
  have hcount : (⟨0, s.waiting :: s.outside⟩ : Enclosure).count = s.count + 1 := by
    simp only [count, List.foldr_cons]
    omega
  constructor
  · rw [after, List.foldl_cons, List.foldl_append]
    exact hclose
  · rw [deepest_cons (by simp [ho]), deepest_append, hopen, h.deepest_eq, hcount, deepest, hc,
      if_pos rfl, deepest]
    omega

/-- A NOT is around its whole operand. -/
theorem Spans.not (ht : t.kind = .not) (h : Spans { s with waiting := s.waiting + 1 } ts d) :
    s.Spans (t :: ts) (d + 1) := by
  have hstep : s.step t = { s with waiting := s.waiting + 1 } := by rw [step, ht]
  have hafter : s.after (t :: ts) = after { s with waiting := s.waiting + 1 } ts := by
    rw [after, List.foldl_cons, hstep]
    rfl
  have hwaiting := h.waiting_le
  constructor
  · rw [hafter, h.outside_eq]
  · rw [hafter]
    simp only at hwaiting
    omega
  · rw [deepest_cons (by simp [ht]), hstep, h.deepest_eq]
    simp only [count]
    omega

/-- Two parts with AND, OR or a comma between them, after which no NOT waits any more. -/
theorem Spans.join {outside : List Nat} (h : Spans ⟨0, outside⟩ ts d)
    (ht : t.kind = .and ∨ t.kind = .or ∨ t.kind = .comma) (h' : Spans ⟨0, outside⟩ us d') :
    Spans ⟨0, outside⟩ (ts ++ t :: us) (max d d') := by
  have hne : t.kind ≠ .rightBracket := by
    rcases ht with ht | ht | ht <;> simp [ht]
  have hstep : (after ⟨0, outside⟩ ts).step t = ⟨0, outside⟩ := by
    rcases ht with ht | ht | ht <;> simp only [step, ht, h.outside_eq]
  have hafter : after ⟨0, outside⟩ (ts ++ t :: us) = after ⟨0, outside⟩ us := by
    rw [after_append, after, List.foldl_cons, hstep]
    rfl
  have hbetween : (after ⟨0, outside⟩ ts).count ≤ count ⟨0, outside⟩ + d := by
    have hwaiting : (after ⟨0, outside⟩ ts).waiting ≤ 0 + d := h.waiting_le
    simp only [count, h.outside_eq]
    omega
  constructor
  · rw [hafter, h'.outside_eq]
  · rw [hafter]
    exact Nat.le_trans h'.waiting_le (Nat.add_le_add_left (Nat.le_max_right d d') _)
  · rw [deepest_append, deepest_cons hne, hstep, h.deepest_eq, h'.deepest_eq]
    omega

end Enclosure

/-! ### Derivations -/

-- A derivation may be bounded by more than its depth.
mutual

theorem Disjunction.mono : ∀ {n ts e}, Disjunction n ts e → ∀ {m}, n ≤ m → Disjunction m ts e
  | _, _, _, .one h, _, hm => .one (h.mono hm)
  | _, _, _, .or left ht right, _, hm => .or (left.mono hm) ht (right.mono hm)

theorem Conjunction.mono : ∀ {n ts e}, Conjunction n ts e → ∀ {m}, n ≤ m → Conjunction m ts e
  | _, _, _, .one h, _, hm => .one (h.mono hm)
  | _, _, _, .and left ht right, _, hm => .and (left.mono hm) ht (right.mono hm)

theorem Negation.mono : ∀ {n ts e}, Negation n ts e → ∀ {m}, n ≤ m → Negation m ts e
  | _, _, _, .one h, _, hm => .one (h.mono hm)
  | _, _, _, .not ht h, _ + 1, hm => .not ht (h.mono (Nat.le_of_succ_le_succ hm))

theorem Comparison.mono : ∀ {n ts e}, Comparison n ts e → ∀ {m}, n ≤ m → Comparison m ts e
  | _, _, _, .one h, _, hm => .one (h.mono hm)
  | _, _, _, .compare left ht hop right, _, hm => .compare (left.mono hm) ht hop (right.mono hm)

theorem Primary.mono : ∀ {n ts e}, Primary n ts e → ∀ {m}, n ≤ m → Primary m ts e
  | _, _, _, .constant h, _, _ => .constant h
  | _, _, _, .name ht, _, _ => .name ht
  | _, _, _, .call ht hf args, _, hm => .call ht hf (args.mono hm)
  | _, _, _, .group h, _, hm => .group (h.mono hm)
  | _, _, _, .tuple h, _, hm => .tuple (h.mono hm)
  | _, _, _, .list h, _, hm => .list (h.mono hm)

theorem Bracketed.mono : ∀ {b n ts es}, Bracketed b n ts es → ∀ {m}, n ≤ m → Bracketed b m ts es
  | _, _, _, _, .empty ho hc, _, _ => .empty ho hc
  | _, _, _, _, .items ho h hc, _ + 1, hm => .items ho (h.mono (Nat.le_of_succ_le_succ hm)) hc

theorem Items.mono : ∀ {n ts es}, Items n ts es → ∀ {m}, n ≤ m → Items m ts es
  | _, _, _, .one h, _, hm => .one (h.mono hm)
  | _, _, _, .more h ht later, _, hm => .more (h.mono hm) ht (later.mono hm)

end

-- The recursion is on derivations, and what it finds for one is a derivation of the same whose
-- bound is the depth that the tokens show. Where a chain is read the innermost bracket has no NOT
-- waiting; a NOT has its operand behind one that waits, so the parts of a chain are taken anywhere.
mutual

theorem Disjunction.exists_spans : ∀ {n ts e}, Disjunction n ts e →
    ∃ d ≤ n, Disjunction d ts e ∧ ∀ outside, Enclosure.Spans ⟨0, outside⟩ ts d
  | _, _, _, .one h => by
    obtain ⟨d, hd, hder, hspans⟩ := h.exists_spans
    exact ⟨d, hd, .one hder, hspans⟩
  | _, _, _, .or left ht right => by
    obtain ⟨d, hd, hleft, hspans⟩ := left.exists_spans
    obtain ⟨d', hd', hright, hspans'⟩ := right.exists_spans
    refine ⟨max d d', Nat.max_le.2 ⟨hd, hd'⟩, ?_, fun outside => ?_⟩
    · exact .or (hleft.mono (Nat.le_max_left d d')) ht (hright.mono (Nat.le_max_right d d'))
    · exact (hspans outside).join (.inr (.inl ht)) (hspans' outside)

theorem Conjunction.exists_spans : ∀ {n ts e}, Conjunction n ts e →
    ∃ d ≤ n, Conjunction d ts e ∧ ∀ outside, Enclosure.Spans ⟨0, outside⟩ ts d
  | _, _, _, .one h => by
    obtain ⟨d, hd, hder, hspans⟩ := h.exists_spans
    exact ⟨d, hd, .one hder, fun outside => hspans ⟨0, outside⟩⟩
  | _, _, _, .and left ht right => by
    obtain ⟨d, hd, hleft, hspans⟩ := left.exists_spans
    obtain ⟨d', hd', hright, hspans'⟩ := right.exists_spans
    refine ⟨max d d', Nat.max_le.2 ⟨hd, hd'⟩, ?_, fun outside => ?_⟩
    · exact .and (hleft.mono (Nat.le_max_left d d')) ht (hright.mono (Nat.le_max_right d d'))
    · exact (hspans outside).join (.inl ht) (hspans' ⟨0, outside⟩)

theorem Negation.exists_spans : ∀ {n ts e}, Negation n ts e →
    ∃ d ≤ n, Negation d ts e ∧ ∀ s : Enclosure, s.Spans ts d
  | _, _, _, .one h => by
    obtain ⟨d, hd, hder, hrests⟩ := h.exists_rests
    exact ⟨d, hd, .one hder, fun s => (hrests s).spans⟩
  | _, _, _, .not ht h => by
    obtain ⟨d, hd, hder, hspans⟩ := h.exists_spans
    exact ⟨d + 1, Nat.succ_le_succ hd, .not ht hder, fun s => (hspans _).not ht⟩

theorem Comparison.exists_rests : ∀ {n ts e}, Comparison n ts e →
    ∃ d ≤ n, Comparison d ts e ∧ ∀ s : Enclosure, s.Rests ts d
  | _, _, _, .one h => by
    obtain ⟨d, hd, hder, hrests⟩ := h.exists_rests
    exact ⟨d, hd, .one hder, hrests⟩
  | _, _, _, .compare (t := t) left ht hop right => by
    obtain ⟨d, hd, hleft, hrests⟩ := left.exists_rests
    obtain ⟨d', hd', hright, hrests'⟩ := right.exists_rests
    refine ⟨max d d', Nat.max_le.2 ⟨hd, hd'⟩, ?_, fun s => ?_⟩
    · exact .compare (hleft.mono (Nat.le_max_left d d')) ht hop
        (hright.mono (Nat.le_max_right d d'))
    · have hstep : s.step t = s := by rw [Enclosure.step, ht]
      exact (hrests s).append ((hrests' s).cons (by simp [ht]) hstep)

theorem Primary.exists_rests : ∀ {n ts e}, Primary n ts e →
    ∃ d ≤ n, Primary d ts e ∧ ∀ s : Enclosure, s.Rests ts d
  | _, _, _, .constant h =>
    ⟨0, Nat.zero_le _, .constant h, fun s =>
      Enclosure.rests_singleton (by cases h <;> simp [*]) (by cases h <;> simp [Enclosure.step, *])⟩
  | _, _, _, .name ht =>
    ⟨0, Nat.zero_le _, .name ht, fun s =>
      Enclosure.rests_singleton (by simp [ht]) (by rw [Enclosure.step, ht])⟩
  | _, _, _, .call (t := t) ht hf args => by
    obtain ⟨d, hd, hder, hrests⟩ := args.exists_rests
    refine ⟨d, hd, .call ht hf hder, fun s => ?_⟩
    have hstep : s.step t = s := by rw [Enclosure.step, ht]
    exact (hrests s).cons (by simp [ht]) hstep
  | _, _, _, .group h => by
    obtain ⟨d, hd, hder, hrests⟩ := h.exists_rests
    exact ⟨d, hd, .group hder, hrests⟩
  | _, _, _, .tuple h => by
    obtain ⟨d, hd, hder, hrests⟩ := h.exists_rests
    exact ⟨d, hd, .tuple hder, hrests⟩
  | _, _, _, .list h => by
    obtain ⟨d, hd, hder, hrests⟩ := h.exists_rests
    exact ⟨d, hd, .list hder, hrests⟩

theorem Bracketed.exists_rests : ∀ {b n ts es}, Bracketed b n ts es →
    ∃ d ≤ n, Bracketed b d ts es ∧ ∀ s : Enclosure, s.Rests ts d
  | _, _, _, _, .empty ho hc =>
    ⟨0, Nat.zero_le _, .empty ho hc, fun _ => Enclosure.rests_empty ho.1 hc.1⟩
  | _, _, _, _, .items ho h hc => by
    obtain ⟨d, hd, hder, hspans⟩ := h.exists_spans
    exact ⟨d + 1, Nat.succ_le_succ hd, .items ho hder hc, fun s =>
      (hspans _).bracketed ho.1 hc.1⟩

theorem Items.exists_spans : ∀ {n ts es}, Items n ts es →
    ∃ d ≤ n, Items d ts es ∧ ∀ outside, Enclosure.Spans ⟨0, outside⟩ ts d
  | _, _, _, .one h => by
    obtain ⟨d, hd, hder, hspans⟩ := h.exists_spans
    exact ⟨d, hd, .one hder, hspans⟩
  | _, _, _, .more h ht later => by
    obtain ⟨d, hd, hfirst, hspans⟩ := h.exists_spans
    obtain ⟨d', hd', hlater, hspans'⟩ := later.exists_spans
    refine ⟨max d d', Nat.max_le.2 ⟨hd, hd'⟩, ?_, fun outside => ?_⟩
    · exact .more (hfirst.mono (Nat.le_max_left d d')) ht (hlater.mono (Nat.le_max_right d d'))
    · exact (hspans outside).join (.inr (.inr ht)) (hspans' outside)

end

theorem Token.Denotes.wellSpelled {t : Token} {v : Value} (h : t.Denotes v) : t.WellSpelled := by
  cases h with
  | date hkind hread => exact ⟨by simp [hkind], by simp [hkind], fun _ => ⟨_, hread⟩⟩
  | yes hkind hword => exact ⟨by simp [hkind], fun _ => .inl hword, by simp [hkind]⟩
  | no hkind hword => exact ⟨by simp [hkind], fun _ => .inr hword, by simp [hkind]⟩
  | integer hkind | float hkind | literal hkind | null hkind =>
    exact Token.wellSpelled_of_kind (by simp [hkind])

theorem Bracket.Opens.wellSpelled {b : Bracket} {o : Token} (ho : b.Opens o) : o.WellSpelled where
  leftBracket _ := by
    cases b with
    | round => exact .inl ho.2
    | square => exact .inr ho.2
  boolean hkind := by simp [ho.1] at hkind
  date hkind := by simp [ho.1] at hkind

theorem wellSpelled_append {ts us : List Token} {t : Token} (hts : ∀ u ∈ ts, u.WellSpelled)
    (ht : t.kind ∉ [.leftBracket, .boolean, .date]) (hus : ∀ u ∈ us, u.WellSpelled) :
    ∀ u ∈ ts ++ t :: us, u.WellSpelled :=
  List.forall_mem_append.2 ⟨hts, List.forall_mem_cons.2 ⟨Token.wellSpelled_of_kind ht, hus⟩⟩

-- The tokens of a derivation have texts that fit their kinds, whether a text has been split into
-- them or not.
mutual

theorem Disjunction.wellSpelled : ∀ {n ts e}, Disjunction n ts e → ∀ t ∈ ts, t.WellSpelled
  | _, _, _, .one h => h.wellSpelled
  | _, _, _, .or left ht right =>
    wellSpelled_append left.wellSpelled (by simp [ht]) right.wellSpelled

theorem Conjunction.wellSpelled : ∀ {n ts e}, Conjunction n ts e → ∀ t ∈ ts, t.WellSpelled
  | _, _, _, .one h => h.wellSpelled
  | _, _, _, .and left ht right =>
    wellSpelled_append left.wellSpelled (by simp [ht]) right.wellSpelled

theorem Negation.wellSpelled : ∀ {n ts e}, Negation n ts e → ∀ t ∈ ts, t.WellSpelled
  | _, _, _, .one h => h.wellSpelled
  | _, _, _, .not ht h => List.forall_mem_cons.2
    ⟨Token.wellSpelled_of_kind (by simp [ht]), h.wellSpelled⟩

theorem Comparison.wellSpelled : ∀ {n ts e}, Comparison n ts e → ∀ t ∈ ts, t.WellSpelled
  | _, _, _, .one h => h.wellSpelled
  | _, _, _, .compare left ht _ right =>
    wellSpelled_append left.wellSpelled (by simp [ht]) right.wellSpelled

theorem Primary.wellSpelled : ∀ {n ts e}, Primary n ts e → ∀ t ∈ ts, t.WellSpelled
  | _, _, _, .constant h => List.forall_mem_singleton.2 h.wellSpelled
  | _, _, _, .name ht => List.forall_mem_singleton.2 (Token.wellSpelled_of_kind (by simp [ht]))
  | _, _, _, .call ht _ args => List.forall_mem_cons.2
    ⟨Token.wellSpelled_of_kind (by simp [ht]), args.wellSpelled⟩
  | _, _, _, .group h => h.wellSpelled
  | _, _, _, .tuple h => h.wellSpelled
  | _, _, _, .list h => h.wellSpelled

theorem Bracketed.wellSpelled : ∀ {b n ts es}, Bracketed b n ts es → ∀ t ∈ ts, t.WellSpelled
  | _, _, _, _, .empty ho hc => List.forall_mem_cons.2
    ⟨ho.wellSpelled, List.forall_mem_singleton.2 (Token.wellSpelled_of_kind (by simp [hc.1]))⟩
  | _, _, _, _, .items ho h hc => List.forall_mem_cons.2
    ⟨ho.wellSpelled, wellSpelled_append h.wellSpelled (by simp [hc.1]) (by simp)⟩

theorem Items.wellSpelled : ∀ {n ts es}, Items n ts es → ∀ t ∈ ts, t.WellSpelled
  | _, _, _, .one h => h.wellSpelled
  | _, _, _, .more h ht later =>
    wellSpelled_append h.wellSpelled (by simp [ht]) later.wellSpelled

end

/-- What the tokens show is the least depth that an expression is derived with. -/
theorem Disjunction.isLeast_enclosure {n : Nat} {ts : List Token} {e : Expression}
    (h : Disjunction n ts e) : IsLeast {m | Disjunction m ts e} (enclosure ts) := by
  have hdepth : ∀ {d}, Enclosure.Spans ⟨0, []⟩ ts d → enclosure ts = d := fun hspans =>
    hspans.deepest_eq.trans (Nat.zero_add _)
  constructor
  · obtain ⟨d, -, hder, hspans⟩ := h.exists_spans
    rwa [hdepth (hspans [])]
  · intro m hm
    obtain ⟨d, hd, -, hspans⟩ := Disjunction.exists_spans hm
    rwa [hdepth (hspans [])]

/-! ### What the reader accepts -/

namespace Expression

/-- An expression is accepted when it is less than `maxLevels` deep, whatever the mix of groups,
lists, calls and NOTs, and is an invalid argument else. -/
theorem ofTokens_enclosure {s : TokenStream} {n : Nat} {e : Expression}
    (h : Disjunction n s.rest e) :
    IsLeast {m | Disjunction m s.rest e} (enclosure s.rest) ∧
    (enclosure s.rest < maxLevels → (ofTokens s).1 = .ok e) ∧
    (maxLevels ≤ enclosure s.rest →
      ∃ fault, (ofTokens s).1 = .error fault ∧ fault.kind = .invalidArgument) := by
  have hleast := h.isLeast_enclosure
  refine ⟨hleast, fun hlt => ?_, fun hle => ?_⟩
  · rw [ofTokens_of_disjunction hleast.1 hlt]
  · rcases ofTokens_cases_of_wellSpelled h.wellSpelled with
      ⟨f, s', -, hf, -⟩ | ⟨fault, read, s', heq, hkind, -⟩
    · -- An accepted expression is the derived one, at a depth that it does not have.
      rw [← h.unique hf] at hf
      have hbound : enclosure s.rest ≤ maxLevels - 1 := hleast.2 hf
      have hpos : 0 < maxLevels := by decide
      omega
    · exact ⟨fault, by rw [heq], hkind⟩

/-- The tokens of `NOT (UPPER(a) == [b])`. -/
def enclosedTokens : TokenStream :=
  ⟨[⟨"NOT", .not⟩, ⟨"(", .leftBracket⟩, ⟨"UPPER", .function⟩, ⟨"(", .leftBracket⟩,
    ⟨"a", .variable⟩, ⟨")", .rightBracket⟩, ⟨"==", .operator⟩, ⟨"[", .leftBracket⟩,
    ⟨"b", .variable⟩, ⟨"]", .rightBracket⟩, ⟨")", .rightBracket⟩], 0⟩

theorem ofTokens_enclosure_enclosedTokens :
    enclosure enclosedTokens.rest = 3 ∧
    ∃ e, IsLeast {m | Disjunction m enclosedTokens.rest e} 3 ∧
      (ofTokens enclosedTokens).1 = .ok e := by
  have hdeep : enclosure enclosedTokens.rest = 3 := by rfl
  have hname : ∀ t : Token, t.kind = .variable → Disjunction 0 [t] (.variable t.unquoted) :=
    fun _ ht => .one (.one (.one (.one (.name ht))))
  have hcall : Primary 1 [⟨"UPPER", .function⟩, ⟨"(", .leftBracket⟩, ⟨"a", .variable⟩,
      ⟨")", .rightBracket⟩] (.call .upper [.variable _]) :=
    .call rfl rfl (.items (b := .round) (l := [_]) ⟨rfl, rfl⟩ (.one (hname _ rfl)) ⟨rfl, rfl⟩)
  have hlist : Primary 1 [⟨"[", .leftBracket⟩, ⟨"b", .variable⟩, ⟨"]", .rightBracket⟩]
      (.list [.variable _]) :=
    .list (.items (l := [_]) ⟨rfl, rfl⟩ (.one (hname _ rfl)) ⟨rfl, rfl⟩)
  have hcompare : Disjunction 1 _ _ := .one (.one (.one (.compare hcall
    (t := ⟨"==", .operator⟩) rfl (by rfl : Operator.ofText? "==" = some .eq) hlist)))
  have hgroup : Primary 2 _ _ := .group (.items (o := ⟨"(", .leftBracket⟩)
    (c := ⟨")", .rightBracket⟩) ⟨rfl, rfl⟩ (.one hcompare) ⟨rfl, rfl⟩)
  have h : Disjunction 3 enclosedTokens.rest _ := .one (.one (.not rfl (.one (.one hgroup))))
  obtain ⟨hleast, haccepted, -⟩ := ofTokens_enclosure h
  rw [hdeep] at hleast
  exact ⟨hdeep, _, hleast, haccepted (by rw [hdeep]; decide)⟩

/-! ### The last level -/

/-- The tokens of a variable inside a number of groups. -/
def groupTokens : Nat → List Token
  | 0 => [⟨"a", .variable⟩]
  | n + 1 => ⟨"(", .leftBracket⟩ :: (groupTokens n ++ [⟨")", .rightBracket⟩])

theorem classified_groupTokens (n : Nat) : ∀ t ∈ groupTokens n, t.Classified := by
  induction n with
  | zero => decide
  | succ n ih =>
    have hbrackets : Token.Classified ⟨"(", .leftBracket⟩ ∧
        Token.Classified ⟨")", .rightBracket⟩ := by decide
    intro t ht
    simp only [groupTokens, List.mem_cons, List.mem_append, List.not_mem_nil, or_false] at ht
    rcases ht with rfl | ht | rfl
    · exact hbrackets.1
    · exact ih t ht
    · exact hbrackets.2

theorem primary_groupTokens (n : Nat) :
    Primary n (groupTokens n) (.variable (⟨"a", .variable⟩ : Token).unquoted) := by
  induction n with
  | zero => exact .name rfl
  | succ n ih =>
    exact .group (.items ⟨rfl, rfl⟩ (.one (.one (.one (.one (.one ih))))) ⟨rfl, rfl⟩)

theorem rests_groupTokens (n : Nat) (s : Enclosure) : s.Rests (groupTokens n) n := by
  induction n generalizing s with
  | zero => exact Enclosure.rests_singleton (by simp) rfl
  | succ n ih => exact (ih _).spans.bracketed rfl rfl

/-- The deepest nesting that is accepted is not `maxLevels`, not even if every kind is the one of its
text: a variable inside so many groups is refused. -/
theorem ofTokens_enclosure_not_groupTokens :
    ¬ ∀ (s : TokenStream) (n : Nat) (e : Expression), (∀ t ∈ s.rest, t.Classified) →
      Disjunction n s.rest e →
      (enclosure s.rest ≤ maxLevels → (ofTokens s).1 = .ok e) ∧
      (maxLevels < enclosure s.rest →
        ∃ fault, (ofTokens s).1 = .error fault ∧ fault.kind = .invalidArgument) := by
  intro hclaim
  have hclassified := classified_groupTokens maxLevels
  have hder : Disjunction maxLevels (groupTokens maxLevels) _ :=
    .one (.one (.one (.one (primary_groupTokens maxLevels))))
  have hdeep : enclosure (groupTokens maxLevels) = maxLevels :=
    (rests_groupTokens maxLevels ⟨0, []⟩).deepest_eq.trans (Nat.zero_add _)
  have haccepted := (hclaim ⟨groupTokens maxLevels, 0⟩ _ _ hclassified hder).1
    (Nat.le_of_eq hdeep)
  rcases ofTokens_cases (s := ⟨groupTokens maxLevels, 0⟩) hclassified with
    ⟨f, s', -, hf, -⟩ | ⟨fault, read, s', heq, -⟩
  · have hbound : enclosure (groupTokens maxLevels) ≤ maxLevels - 1 := hf.isLeast_enclosure.2 hf
    rw [hdeep] at hbound
    exact absurd hbound (by decide)
  · rw [heq] at haccepted
    cases haccepted

end Expression

end RecordFlow.Query
