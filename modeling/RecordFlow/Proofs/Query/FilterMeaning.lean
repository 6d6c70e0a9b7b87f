import RecordFlow.Proofs.Query.FilterTokens
import RecordFlow.Proofs.Query.Parsing

/-!
# Filters and the expressions they are written as

A filter that is written as tokens is read as an expression which matches a record exactly when the
filter holds of it (`Filter.matches?_tokens`). The grammar derives each part of the tokens, and what
it derives has the truth value of that part for every record (`Decides`); the parser then yields
what the whole derives.
-/

namespace RecordFlow.Query

/-! ### Constants -/

theorem denotes_constantToken {v : Value} (h : IsSimple v) : (constantToken v).Denotes v := by
  cases v with
  | null => exact .null rfl
  | bool b =>
    cases b with
    | true => exact .yes rfl (by decide)
    | false => exact .no rfl (by decide)
  | int n =>
    refine .integer rfl ?_
    rw [toList_constantToken_int, readInt64?_intChars]
  | text s =>
    have hliteral : (constantToken (.text s)).Denotes (.text (constantToken (.text s)).unquoted) :=
      .literal rfl
    rwa [unquoted_constantToken_text] at hliteral
  | float x => exact h.elim
  | timestamp t => exact h.elim
  | list elements => exact h.elim
  | struct fields => exact h.elim

theorem disjunction_constantToken {v : Value} (h : IsSimple v) (n : Nat) :
    Disjunction n [constantToken v] (.constant v) :=
  .one (.one (.one (.one (.constant (denotes_constantToken h)))))

theorem items_constantTokens {n : Nat} {v : Value} {vs : List Value}
    (h : ∀ w ∈ v :: vs, IsSimple w) :
    Items n (List.intercalate [⟨",", .comma⟩] ((v :: vs).map fun w => [constantToken w]))
      ((v :: vs).map .constant) := by
  induction vs generalizing v with
  | nil => exact .one (disjunction_constantToken (h v List.mem_cons_self) n)
  | cons w vs ih =>
    have hlater := ih fun u hu => h u (List.mem_cons_of_mem v hu)
    have hmore := Items.more (disjunction_constantToken (h v List.mem_cons_self) n)
      (t := ⟨",", .comma⟩) rfl hlater
    simpa [List.intercalate_cons_cons] using hmore

theorem itemValues_constants (now : Timestamp) (r : Record) (vs : List Value) :
    Expression.itemValues now r (vs.map .constant) = .ok vs := by
  induction vs with
  | nil => rfl
  | cons v vs ih =>
    rw [List.map_cons, Expression.itemValues, ih]
    rfl

/-- The tokens of a constant derive an expression that has the constant as its value. -/
theorem exists_primary_constantTokens {v : Value} (h : IsWritable v) :
    ∃ e, Primary 1 (constantTokens v) e ∧ ∀ now r, e.value now r = .ok v := by
  rcases h.cases with ⟨elements, rfl, helements⟩ | ⟨hv, htokens⟩
  · refine ⟨.list (elements.map .constant), .list ?_, ?_⟩
    · cases elements with
      | nil => exact .empty ⟨rfl, rfl⟩ ⟨rfl, rfl⟩
      | cons e es => exact .items ⟨rfl, rfl⟩ (items_constantTokens helements) ⟨rfl, rfl⟩
    · intro now r
      rw [Expression.value, itemValues_constants]
      rfl
  · rw [htokens]
    exact ⟨.constant v, .constant (denotes_constantToken hv), fun _ _ => rfl⟩

/-! ### Truth values -/

/-- The tokens derive an expression that has, for every record, the given truth value. -/
def Decides (R : Nat → List Token → Expression → Prop) (ts : List Token) (holds : Record → Bool) :
    Prop :=
  ∃ e, R 1 ts e ∧ ∀ now r, e.value now r = .ok (.bool (holds r))

theorem Decides.mono {R S : Nat → List Token → Expression → Prop} {ts : List Token}
    {holds : Record → Bool} (h : Decides R ts holds) (himp : ∀ {e}, R 1 ts e → S 1 ts e) :
    Decides S ts holds := by
  obtain ⟨e, he, hvalue⟩ := h
  exact ⟨e, himp he, hvalue⟩

theorem Condition.decides {c : Condition} (h : IsWritable c.value) :
    Decides Comparison c.tokens c.holds := by
  obtain ⟨e, he, hvalue⟩ := exists_primary_constantTokens h
  have hname : Primary 1 [nameToken c.name] (.variable (nameToken c.name).unquoted) := .name rfl
  rw [unquoted_nameToken] at hname
  have hsymbol : Operator.ofText? c.operator.token.text = some c.operator := by
    cases c.operator <;> decide
  refine ⟨_, .compare hname rfl hsymbol he, ?_⟩
  intro now r
  rw [Expression.value, Expression.value, hvalue]
  rfl

theorem Decides.and {l r : List Token} {a b : Record → Bool} (hl : Decides Conjunction l a)
    (hr : Decides Negation r b) :
    Decides Conjunction (l ++ ⟨"AND", .and⟩ :: r) fun record => a record && b record := by
  obtain ⟨e, he, hevalue⟩ := hl
  obtain ⟨f, hf, hfvalue⟩ := hr
  refine ⟨.and e f, .and he rfl hf, ?_⟩
  intro now record
  simp only [Expression.value, hevalue, hfvalue]
  cases a record <;> rfl

theorem Decides.or {l r : List Token} {a b : Record → Bool} (hl : Decides Disjunction l a)
    (hr : Decides Conjunction r b) :
    Decides Disjunction (l ++ ⟨"OR", .or⟩ :: r) fun record => a record || b record := by
  obtain ⟨e, he, hevalue⟩ := hl
  obtain ⟨f, hf, hfvalue⟩ := hr
  refine ⟨.or e f, .or he rfl hf, ?_⟩
  intro now record
  simp only [Expression.value, hevalue, hfvalue]
  cases a record <;> rfl

/-! ### Chains -/

theorem intercalate_singleton_cons {α : Type} (sep : α) (xs : List α) (xss : List (List α)) :
    List.intercalate [sep] (xs :: xss) = xs ++ xss.flatMap (sep :: ·) := by
  induction xss generalizing xs with
  | nil => simp
  | cons ys yss ih => rw [List.intercalate_cons_cons, ih]; simp

/-- Parts that are joined one after the other, from the left. -/
theorem Decides.chain {α : Type} {C O : Nat → List Token → Expression → Prop} {sep : Token}
    {join : Bool → Bool → Bool} {tokens : α → List Token} {holds : α → Record → Bool}
    (hjoin : ∀ {l r a b}, Decides C l a → Decides O r b →
      Decides C (l ++ sep :: r) fun record => join (a record) (b record))
    {xs : List α} (hxs : ∀ x ∈ xs, Decides O (tokens x) (holds x))
    {l : List Token} {a : Record → Bool} (hl : Decides C l a) :
    Decides C (l ++ (xs.map tokens).flatMap (sep :: ·)) fun record =>
      xs.foldl (fun b x => join b (holds x record)) (a record) := by
  induction xs generalizing l a with
  | nil => simpa using hl
  | cons x xs ih =>
    have hfirst := hjoin hl (hxs x List.mem_cons_self)
    have hrest := ih (fun y hy => hxs y (List.mem_cons_of_mem x hy)) hfirst
    simpa using hrest

theorem foldl_and {α : Type} (p : α → Bool) (xs : List α) (a : Bool) :
    xs.foldl (fun b x => b && p x) a = (a && xs.all p) := by
  induction xs generalizing a with
  | nil => simp
  | cons x xs ih => rw [List.foldl_cons, ih, List.all_cons, Bool.and_assoc]

theorem foldl_or {α : Type} (p : α → Bool) (xs : List α) (a : Bool) :
    xs.foldl (fun b x => b || p x) a = (a || xs.any p) := by
  induction xs generalizing a with
  | nil => simp
  | cons x xs ih => rw [List.foldl_cons, ih, List.any_cons, Bool.or_assoc]

theorem Clause.decides {clause : Clause} (h : ∀ c ∈ clause.conditions, IsWritable c.value) :
    Decides Conjunction clause.tokens clause.holds := by
  obtain ⟨conditions, hne⟩ := clause
  obtain ⟨c, cs, rfl⟩ := List.exists_cons_of_ne_nil hne
  have hdecides : ∀ c' ∈ c :: cs, Decides Negation c'.tokens c'.holds :=
    fun c' hc' => (Condition.decides (h c' hc')).mono .one
  have hchain := Decides.chain Decides.and
    (fun c' hc' => hdecides c' (List.mem_cons_of_mem c hc'))
    ((hdecides c List.mem_cons_self).mono .one)
  have hholds : (⟨c :: cs, hne⟩ : Clause).holds =
      fun record => cs.foldl (fun b c' => b && c'.holds record) (c.holds record) := by
    funext record
    rw [foldl_and]
    rfl
  rwa [Clause.tokens, List.map_cons, intercalate_singleton_cons, hholds]

theorem Filter.decides {f : Filter} (h : f.IsWritable) :
    Decides Disjunction f.tokens f.holds := by
  obtain ⟨clauses, hne⟩ := f
  obtain ⟨c, cs, rfl⟩ := List.exists_cons_of_ne_nil hne
  have hdecides : ∀ c' ∈ c :: cs, Decides Conjunction c'.tokens c'.holds :=
    fun c' hc' => Clause.decides (h c' hc')
  have hchain := Decides.chain Decides.or
    (fun c' hc' => hdecides c' (List.mem_cons_of_mem c hc'))
    ((hdecides c List.mem_cons_self).mono .one)
  have hholds : (⟨c :: cs, hne⟩ : Filter).holds =
      fun record => cs.foldl (fun b c' => b || c'.holds record) (c.holds record) := by
    funext record
    rw [foldl_or]
    rfl
  rwa [Filter.tokens, List.map_cons, intercalate_singleton_cons, hholds]

/-! ### Whole filters -/

/-- A filter whose constants can be written is written as classified tokens, the parser accepts
them, and the expression that they are read as matches any record, at any moment, exactly when the
filter holds of it. -/
theorem Filter.matches?_tokens (f : Filter) (h : f.IsWritable) :
    (∀ t ∈ f.tokens, t.Classified) ∧
    ∃ e s, Expression.ofTokens ⟨f.tokens, 0⟩ = (.ok e, s) ∧
      ∀ now r, e.matches? now r = .ok (f.holds r) := by
  obtain ⟨e, he, hvalue⟩ := Filter.decides h
  refine ⟨f.classified_tokens h, e, _, Expression.ofTokens_of_disjunction he (by decide), ?_⟩
  intro now r
  rw [Expression.matches?, hvalue]
  rfl

/-- Three clauses with a dotted and an empty name, an operator of two words, a text with a
quotation mark, a list of several constants and an empty one. -/
def mixedFilter : Filter where
  clauses := [
    ⟨[⟨"a.b", .notLike, .text "it's%"⟩, ⟨"n", .isIn, .list [.int (-1), .null, .text "x"]⟩],
      by decide⟩,
    ⟨[⟨"", .is, .bool true⟩], by decide⟩,
    ⟨[⟨"l", .contains, .list []⟩], by decide⟩]
  clauses_ne_nil := by decide

theorem Filter.matches?_tokens_mixedFilter :
    mixedFilter.IsWritable ∧
    ∃ e s, Expression.ofTokens ⟨mixedFilter.tokens, 0⟩ = (.ok e, s) ∧
      ∀ now, e.matches? now [("a", .struct [("b", .text "its")]), ("n", .int (-1))] = .ok true := by
  have h : mixedFilter.IsWritable := by decide
  obtain ⟨-, e, s, hread, hmatches⟩ := Filter.matches?_tokens mixedFilter h
  have hholds :
      mixedFilter.holds [("a", .struct [("b", .text "its")]), ("n", .int (-1))] = true := by
    decide
  refine ⟨h, e, s, hread, fun now => ?_⟩
  rw [hmatches, hholds]

end RecordFlow.Query
