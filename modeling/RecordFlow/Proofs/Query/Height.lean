import RecordFlow.Proofs.Query.Parsing

/-!
# The height of expressions

Groups, calls and NOT take a level of the reader each, and there are `maxLevels`; AND and OR take
none, since a loop joins the operands of a chain. So what is bounded is the height without the nodes
of conjunctions and disjunctions (`Expression.nesting`); the height itself is bounded only together
with the number of ANDs and ORs, and a chain of enough of them is higher than any bound.
-/

namespace RecordFlow.Query

/-! ### Heights -/

namespace Expression

mutual

/-- The height of an expression where a conjunction or a disjunction counts for some nodes. -/
def heightWith (joint : Nat) : Expression → Nat
  | .constant _ => 1
  | .variable _ => 1
  | .list items => itemsHeightWith joint items + 1
  | .call _ args => itemsHeightWith joint args + 1
  | .compare _ left right => max (heightWith joint left) (heightWith joint right) + 1
  | .not operand => heightWith joint operand + 1
  | .and left right => max (heightWith joint left) (heightWith joint right) + joint
  | .or left right => max (heightWith joint left) (heightWith joint right) + joint

def itemsHeightWith (joint : Nat) : List Expression → Nat
  | [] => 0
  | e :: rest => max (heightWith joint e) (itemsHeightWith joint rest)

end

/-- How many nodes stand above one another. -/
def height (e : Expression) : Nat :=
  e.heightWith 1

/-- How many nodes that are neither conjunctions nor disjunctions stand above one another. -/
def nesting (e : Expression) : Nat :=
  e.heightWith 0

end Expression

/-- The number of ANDs and ORs. -/
def joints (ts : List Token) : Nat :=
  ts.countP fun t => t.kind = .and ∨ t.kind = .or

/-- What the ANDs and ORs among some tokens count for. -/
def weight (joint : Nat) (ts : List Token) : Nat :=
  joint * joints ts

theorem weight_le_cons (joint : Nat) (t : Token) (ts : List Token) :
    weight joint ts ≤ weight joint (t :: ts) :=
  Nat.mul_le_mul_left joint (List.sublist_cons_self t ts).countP_le

theorem weight_cons_of_joint (joint : Nat) {t : Token} (ht : t.kind = .and ∨ t.kind = .or)
    (ts : List Token) : weight joint (t :: ts) = weight joint ts + joint := by
  rw [weight, joints, List.countP_cons_of_pos (by simpa using ht), Nat.mul_succ]
  rfl

/-! ### Readers -/

section Readers

variable {α β : Type} {joint bound : Nat}

theorem Reader.exists_of_andThen {first : Reader α} {second : α → Reader β} {ts rest : List Token}
    {b : β} (h : first.andThen second ts = (.ok b, rest)) :
    ∃ a behind, first ts = (.ok a, behind) ∧ second a behind = (.ok b, rest) := by
  rw [Reader.andThen] at h
  split at h
  · cases h
  · next a behind ha => exact ⟨a, behind, ha, h⟩

theorem Reader.exists_of_map {f : α → β} {r : Reader α} {ts rest : List Token} {b : β}
    (h : r.map f ts = (.ok b, rest)) : ∃ a, r ts = (.ok a, rest) ∧ f a = b := by
  obtain ⟨a, behind, ha, hb⟩ := Reader.exists_of_andThen h
  cases hb
  exact ⟨a, ha, rfl⟩

/-- What the reader yields has a size within a bound, but for what the ANDs and ORs that it takes
count for. -/
def Within (joint : Nat) (size : α → Nat) (bound : Nat) (r : Reader α) : Prop :=
  ∀ ts a rest, r ts = (.ok a, rest) → weight joint rest ≤ weight joint ts ∧
    size a + weight joint rest ≤ bound + weight joint ts

theorem Within.mono {size : α → Nat} {bound' : Nat} {r : Reader α} (h : Within joint size bound r)
    (hbound : bound ≤ bound') : Within joint size bound' r := by
  intro ts a rest hread
  obtain ⟨hrest, ha⟩ := h ts a rest hread
  exact ⟨hrest, by omega⟩

theorem within_fail {size : α → Nat} {fault : Fault} :
    Within joint size bound (Reader.fail fault) := by
  intro ts a rest hread
  cases hread

theorem Within.map {size : α → Nat} {size' : β → Nat} {r : Reader α} {f : α → β} {more : Nat}
    (h : Within joint size bound r) (hmore : ∀ a, size' (f a) ≤ size a + more) :
    Within joint size' (bound + more) (r.map f) := by
  intro ts b rest hread
  obtain ⟨a, ha, rfl⟩ := Reader.exists_of_map hread
  obtain ⟨hrest, hsize⟩ := h ts a rest ha
  have hb := hmore a
  exact ⟨hrest, by omega⟩

/-- A reader that goes on behind a token. -/
theorem Within.behind {size : α → Nat} {r : Reader α} (h : Within joint size bound r) {t : Token}
    {ts rest : List Token} {a : α} (hread : r ts = (.ok a, rest)) :
    weight joint rest ≤ weight joint (t :: ts) ∧
      size a + weight joint rest ≤ bound + weight joint (t :: ts) := by
  obtain ⟨hrest, hsize⟩ := h ts a rest hread
  have hcons := weight_le_cons joint t ts
  exact ⟨by omega, by omega⟩

end Readers

/-! ### Chains -/

open Expression

section Chains

variable {joint bound : Nat} {kind : TokenKind} {join : Expression → Expression → Expression}
  {operand : Reader Expression}
  (hkind : kind = .and ∨ kind = .or)
  (hjoin : ∀ left right, heightWith joint (join left right) =
    max (left.heightWith joint) (right.heightWith joint) + joint)
include hkind hjoin

/-- Every further operand makes the chain higher by what the token in front of it counts for. -/
theorem within_readFurther (hoperand : Within joint (heightWith joint) bound operand) (fuel : Nat)
    {left e : Expression} {ts rest : List Token} {most : Nat}
    (hread : readFurther kind join operand fuel left ts = (.ok e, rest))
    (hleft : left.heightWith joint + weight joint ts ≤ most)
    (hmost : bound + weight joint ts ≤ most) :
    weight joint rest ≤ weight joint ts ∧ e.heightWith joint + weight joint rest ≤ most := by
  -- The height so far and the ANDs and ORs to come stay below the same bound on every turn.
  induction fuel generalizing left ts with
  | zero =>
    cases hread
    exact ⟨Nat.le_refl _, hleft⟩
  | succ fuel ih =>
    cases ts with
    | nil =>
      cases hread
      exact ⟨Nat.le_refl _, hleft⟩
    | cons t ts =>
      rw [readFurther] at hread
      split at hread
      · next ht =>
        obtain ⟨right, behind, hright, hlater⟩ := Reader.exists_of_andThen hread
        have hcons := weight_cons_of_joint joint (ht ▸ hkind) ts
        obtain ⟨hbehind, hsize⟩ := hoperand ts right behind hright
        have hheight := hjoin left right
        obtain ⟨hrest, he⟩ := ih hlater (by omega) (by omega)
        exact ⟨by omega, he⟩
      · cases hread
        exact ⟨Nat.le_refl _, hleft⟩

theorem within_readChain (hoperand : Within joint (heightWith joint) bound operand) :
    Within joint (heightWith joint) bound (readChain kind join operand) := by
  intro ts e rest hread
  obtain ⟨left, behind, hleft, hlater⟩ := Reader.exists_of_andThen hread
  obtain ⟨hbehind, hsize⟩ := hoperand ts left behind hleft
  obtain ⟨hrest, he⟩ :=
    within_readFurther hkind hjoin hoperand behind.length hlater hsize (by omega)
  exact ⟨by omega, he⟩

end Chains

/-! ### Bracketed lists -/

section Items

variable {joint bound : Nat}

theorem within_readClose (joint : Nat) (opening : String) :
    Within joint (fun _ => 0) 0 (readClose opening) := by
  intro ts a rest hread
  cases ts with
  | nil => cases hread
  | cons t ts =>
    have hcons := weight_le_cons joint t ts
    rw [readClose] at hread
    split at hread
    · cases hread
      exact ⟨hcons, Nat.add_le_add_left hcons 0⟩
    · cases hread

variable {item : Reader Expression} (hitem : Within joint (heightWith joint) bound item)
include hitem

theorem within_readItemsFrom (opening : String) (fuel : Nat) :
    Within joint (itemsHeightWith joint) bound (readItemsFrom item opening fuel) := by
  induction fuel with
  | zero => exact within_fail
  | succ fuel ih =>
    intro ts es rest hread
    obtain ⟨e, behind, he, hlater⟩ := Reader.exists_of_andThen hread
    obtain ⟨hbehind, hsize⟩ := hitem ts e behind he
    cases behind with
    | nil => cases hlater
    | cons t behind =>
      dsimp only at hlater
      split at hlater
      · obtain ⟨later, hes, rfl⟩ := Reader.exists_of_map hlater
        obtain ⟨hrest, hsizes⟩ := ih.behind (t := t) hes
        rw [itemsHeightWith]
        exact ⟨by omega, by omega⟩
      · obtain ⟨_, hclose, rfl⟩ := Reader.exists_of_map hlater
        obtain ⟨hrest, -⟩ := within_readClose joint opening _ _ _ hclose
        rw [itemsHeightWith, itemsHeightWith, Nat.max_zero]
        exact ⟨by omega, by omega⟩

theorem within_readItems (opening : String) :
    Within joint (itemsHeightWith joint) bound (readItems item opening) := by
  intro ts es rest hread
  rw [readItems] at hread
  split at hread
  · obtain ⟨_, hclose, rfl⟩ := Reader.exists_of_map hread
    obtain ⟨hrest, -⟩ := within_readClose joint opening _ _ _ hclose
    rw [itemsHeightWith]
    exact ⟨hrest, by omega⟩
  · exact within_readItemsFrom hitem opening _ ts es rest hread

/-! ### Primaries -/

theorem within_readCall (name : String) :
    Within joint (heightWith joint) (bound + 1) (readCall item name) := by
  intro ts e rest hread
  rw [readCall] at hread
  split at hread
  · cases hread
  next f hf =>
  cases ts with
  | nil => cases hread
  | cons t ts =>
    dsimp only at hread
    split at hread
    · have hargs : Within joint (heightWith joint) (bound + 1)
          ((readItems item t.text).map (.call f)) :=
        (within_readItems hitem t.text).map fun args => Nat.le_refl _
      exact hargs.behind hread
    · cases hread

theorem within_readGroup (opening : String) :
    Within joint (heightWith joint) (bound + 1) (readGroup item opening) := by
  rw [readGroup]
  split
  · exact (within_readItems hitem opening).map fun items => Nat.le_refl _
  · intro ts e rest hread
    obtain ⟨items, behind, hitems, hlater⟩ := Reader.exists_of_andThen hread
    obtain ⟨hbehind, hsize⟩ := within_readItems hitem opening ts items behind hitems
    match items, hlater with
    | [], hlater => cases hlater
    | [only], hlater =>
      cases hlater
      rw [itemsHeightWith, itemsHeightWith] at hsize
      exact ⟨hbehind, by omega⟩
    | first :: second :: items, hlater =>
      cases hlater
      rw [heightWith]
      exact ⟨hbehind, by omega⟩

theorem within_readPrimary : Within joint (heightWith joint) (bound + 1) (readPrimary item) := by
  intro ts e rest hread
  cases ts with
  | nil => cases hread
  | cons t ts =>
    have hcons := weight_le_cons joint t ts
    have hleaf : 1 + weight joint ts ≤ bound + 1 + weight joint (t :: ts) := by omega
    rw [readPrimary] at hread
    split at hread
    · cases hread
      exact ⟨hcons, hleaf⟩
    · cases hread
    · split at hread
      · cases hread
        exact ⟨hcons, hleaf⟩
      · exact (within_readCall hitem t.text).behind hread
      · exact (within_readGroup hitem t.text).behind hread
      · cases hread
      · cases hread

/-! ### Comparisons and levels -/

theorem within_readComparison :
    Within joint (heightWith joint) (bound + 2) (readComparison item) := by
  intro ts e rest hread
  obtain ⟨left, behind, hleft, hlater⟩ := Reader.exists_of_andThen hread
  obtain ⟨hbehind, hsize⟩ := within_readPrimary hitem ts left behind hleft
  cases behind with
  | nil =>
    cases hlater
    exact ⟨hbehind, by omega⟩
  | cons t behind =>
    dsimp only at hlater
    split at hlater
    · split at hlater
      · obtain ⟨right, hright, rfl⟩ := Reader.exists_of_map hlater
        obtain ⟨hrest, hsize'⟩ := (within_readPrimary hitem).behind (t := t) hright
        rw [heightWith]
        exact ⟨by omega, by omega⟩
      · cases hlater
    · cases hlater
      exact ⟨hbehind, by omega⟩

end Items

section Levels

variable {joint bound : Nat}

theorem within_readDisjunction {below : Option (Reader Expression)}
    (h : ∀ negation ∈ below, Within joint (heightWith joint) bound negation) :
    Within joint (heightWith joint) bound (readDisjunction below) := by
  cases below with
  | none => exact within_fail
  | some negation =>
    have hconjunction : Within joint (heightWith joint) bound (readChain .and .and negation) :=
      within_readChain (.inl rfl) (fun _ _ => rfl) (h negation rfl)
    exact within_readChain (.inr rfl) (fun _ _ => rfl) hconjunction

theorem within_readNegationOver {below : Option (Reader Expression)}
    (h : ∀ negation ∈ below, Within joint (heightWith joint) bound negation) :
    Within joint (heightWith joint) (bound + 2) (readNegationOver below) := by
  intro ts e rest hread
  cases ts with
  | nil => cases hread
  | cons t ts =>
    rw [readNegationOver.eq_def] at hread
    dsimp only at hread
    split at hread
    · cases below with
      | none => cases hread
      | some negation =>
        have hnot : Within joint (heightWith joint) (bound + 1) (negation.map .not) :=
          (h negation rfl).map fun operand => Nat.le_refl _
        exact (hnot.mono (Nat.le_succ _)).behind hread
    · exact within_readComparison (within_readDisjunction h) (t :: ts) e rest hread

/-- Every level adds a comparison and what stands in brackets, or a NOT. -/
theorem within_readNegation (levels : Nat) :
    Within joint (heightWith joint) (2 * (levels + 1)) (readNegation levels) := by
  induction levels with
  | zero =>
    rw [readNegation]
    apply within_readNegationOver
    rintro _ ⟨⟩
  | succ levels ih =>
    rw [readNegation]
    apply within_readNegationOver
    rintro _ ⟨⟩
    exact ih

theorem within_readExpression :
    Within joint (heightWith joint) (2 * maxLevels) readExpression := by
  apply within_readDisjunction
  rintro _ ⟨⟩
  exact within_readNegation (maxLevels - 1)

end Levels

/-! ### Whole expressions -/

namespace Expression

theorem readExpression_of_ofTokens {s : TokenStream} {e : Expression}
    (h : (ofTokens s).1 = .ok e) : readExpression s.rest = (.ok e, []) := by
  by_cases hne : s.rest = []
  · rw [ofTokens, hne] at h
    cases h
  rw [ofTokens_eq hne] at h
  generalize readExpression s.rest = outcome at h
  obtain ⟨result, rest⟩ := outcome
  cases result with
  | error fault => cases h
  | ok f =>
    cases rest with
    | nil => rw [Except.ok.inj h]
    | cons t rest => cases h

theorem ofTokens_heightWith (joint : Nat) {s : TokenStream} {e : Expression}
    (h : (ofTokens s).1 = .ok e) :
    e.heightWith joint ≤ 2 * maxLevels + joint * joints s.rest := by
  obtain ⟨-, hheight⟩ := within_readExpression s.rest e [] (readExpression_of_ofTokens h)
  exact Nat.le_trans (Nat.le_add_right _ _) hheight

/-- An expression that the parser accepts is at most twice as high as there are levels, and higher
by one for each AND and OR at most: without conjunctions and disjunctions, the bound holds however
many tokens there are. -/
theorem ofTokens_height {s : TokenStream} {e : Expression} (h : (ofTokens s).1 = .ok e) :
    e.height ≤ 2 * maxLevels + joints s.rest ∧ e.nesting ≤ 2 * maxLevels := by
  have hheight := ofTokens_heightWith 1 h
  have hnesting := ofTokens_heightWith 0 h
  rw [Nat.one_mul] at hheight
  rw [Nat.zero_mul, Nat.add_zero] at hnesting
  exact ⟨hheight, hnesting⟩

/-- The tokens of `NOT (a OR UPPER(b) == c)`. -/
def negatedTokens : TokenStream :=
  ⟨[⟨"NOT", .not⟩, ⟨"(", .leftBracket⟩, ⟨"a", .variable⟩, ⟨"OR", .or⟩, ⟨"UPPER", .function⟩,
    ⟨"(", .leftBracket⟩, ⟨"b", .variable⟩, ⟨")", .rightBracket⟩, ⟨"==", .operator⟩,
    ⟨"c", .variable⟩, ⟨")", .rightBracket⟩], 0⟩

theorem ofTokens_height_negatedTokens :
    ∃ e, (ofTokens negatedTokens).1 = .ok e ∧ e.height ≤ 2 * maxLevels + 1 ∧
      e.nesting ≤ 2 * maxLevels ∧ e.height = 5 ∧ e.nesting = 4 := by
  have hread : (ofTokens negatedTokens).1 = .ok
      (.not (.or (.variable "a") (.compare .eq (.call .upper [.variable "b"]) (.variable "c")))) :=
    rfl
  obtain ⟨hheight, hnesting⟩ := ofTokens_height hread
  exact ⟨_, hread, hheight, hnesting, rfl, rfl⟩

/-! ### Long chains -/

/-- The tokens of `a OR a OR … OR a`, with a number of ORs. -/
def chainTokens : Nat → List Token
  | 0 => [⟨"a", .variable⟩]
  | n + 1 => chainTokens n ++ [⟨"OR", .or⟩, ⟨"a", .variable⟩]

/-- What a chain is read as. -/
def chain : Nat → Expression
  | 0 => .variable (⟨"a", .variable⟩ : Token).unquoted
  | n + 1 => .or (chain n) (.variable (⟨"a", .variable⟩ : Token).unquoted)

theorem disjunction_chainTokens (n : Nat) : Disjunction 0 (chainTokens n) (chain n) := by
  have hname : Conjunction 0 [⟨"a", .variable⟩]
      (.variable (⟨"a", .variable⟩ : Token).unquoted) := .one (.one (.one (.name rfl)))
  induction n with
  | zero => exact .one hname
  | succ n ih => exact .or ih rfl hname

theorem height_chain (n : Nat) : (chain n).height = n + 1 := by
  induction n with
  | zero => rfl
  | succ n ih =>
    rw [height] at ih ⊢
    rw [chain, heightWith, ih, heightWith]
    omega

/-- No bound on the height of accepted expressions holds for all numbers of tokens: a chain takes no
level, however long it is. -/
theorem ofTokens_height_not_bounded :
    ¬ ∃ bound, ∀ s e, (ofTokens s).1 = .ok e → e.height ≤ bound := by
  rintro ⟨bound, hbound⟩
  have hread := ofTokens_of_disjunction (s := ⟨chainTokens bound, 0⟩)
    (disjunction_chainTokens bound) (by decide)
  have hheight := hbound ⟨chainTokens bound, 0⟩ (chain bound) (congrArg Prod.fst hread)
  rw [height_chain] at hheight
  exact absurd hheight (Nat.not_succ_le_self bound)

end Expression

end RecordFlow.Query
