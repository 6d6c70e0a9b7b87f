import RecordFlow.Proofs.Query.Completeness
import RecordFlow.Proofs.Query.Soundness

/-!
# Filter expressions are read as the grammar says

`Expression.ofTokens_spec` is the contract of the parser: it yields an expression exactly when the
grammar derives it from all the tokens and does not nest too deep, the grammar never derives two
(`Disjunction.unique`), everything else is an invalid argument, and the stream is behind the tokens
that have been taken.
-/

namespace RecordFlow.Query

/-- A level that is deep enough reads a whole derivation. -/
theorem Disjunction.read {n level : Nat} {ts : List Token} {e : Expression}
    (h : Disjunction n ts e) (hlevel : n ≤ level) :
    readDisjunction (some (readNegation level)) ts = (.ok e, []) := by
  obtain ⟨fuel, -, hloop⟩ := h.loop hlevel [] (parts_nil _)
  rwa [List.append_nil, readFurther_stop fuel _ (parts_nil _)] at hloop

/-- Tokens derive one expression at most. -/
theorem Disjunction.unique {m n : Nat} {ts : List Token} {e f : Expression}
    (he : Disjunction m ts e) (hf : Disjunction n ts f) : e = f := by
  have hread := he.read (Nat.le_max_left m n)
  rw [hf.read (Nat.le_max_right m n)] at hread
  simpa using hread.symm

/-! ### The place of a stream -/

/-- The stream has moved on past some of its tokens, one after the other. -/
structure TokenStream.Passes (s : TokenStream) (read : List Token) (s' : TokenStream) : Prop where
  tokens_eq : s'.tokens = s.tokens
  rest_eq : s.rest = read ++ s'.rest
  cursor_eq : s'.cursor = s.cursor + read.length

theorem TokenStream.passes_nil (s : TokenStream) : s.Passes [] s :=
  ⟨rfl, rfl, rfl⟩

/-- A stream that is set to the last of its tokens has them still to be read. -/
theorem TokenStream.passes_atRest {s : TokenStream} {read rest : List Token}
    (h : s.rest = read ++ rest) (hne : s.rest ≠ []) : s.Passes read (s.atRest rest) := by
  have hlength : s.tokens.length - s.cursor = read.length + rest.length := by
    rw [← List.length_append, ← h, TokenStream.rest, List.length_drop]
  have hpos : s.rest.length ≠ 0 := fun hzero => hne (List.length_eq_zero_iff.1 hzero)
  rw [h, List.length_append] at hpos
  have hcursor : s.tokens.length - rest.length = s.cursor + read.length := by omega
  have hrest : (s.atRest rest).rest = rest := by
    show s.tokens.drop (s.tokens.length - rest.length) = rest
    rw [hcursor, ← List.drop_drop]
    show s.rest.drop read.length = rest
    rw [h, List.drop_left]
  exact ⟨rfl, by rw [hrest, h], hcursor⟩

/-! ### Whole expressions -/

namespace Expression

/-- What the parser yields and where it stops, in terms of the reader of expressions. -/
theorem ofTokens_eq {s : TokenStream} (hne : s.rest ≠ []) :
    ofTokens s =
      match readExpression s.rest with
      | (.ok _, t :: rest) =>
        (.error (.trailingToken t.display (s.atRest (t :: rest)).cursor), s.atRest (t :: rest))
      | (.ok e, []) => (.ok e, s.atRest [])
      | (.error fault, rest) => (.error fault, s.atRest rest) := by
  have hempty : s.rest.isEmpty = false := by simpa using hne
  rw [ofTokens, hempty, if_neg Bool.false_ne_true]
  obtain ⟨result, rest⟩ := readExpression s.rest
  cases result <;> cases rest <;> rfl

/-- Tokens that derive an expression without too much nesting are read as this expression. -/
theorem ofTokens_of_disjunction {s : TokenStream} {n : Nat} {e : Expression}
    (h : Disjunction n s.rest e) (hn : n < maxLevels) : ofTokens s = (.ok e, s.atRest []) := by
  have hne : s.rest ≠ [] := by
    obtain ⟨t, rest, hts, -⟩ := h.startsWithout
    rw [hts]
    exact List.cons_ne_nil t rest
  have hread : readExpression s.rest = (.ok e, []) := h.read (Nat.le_pred_of_lt hn)
  rw [ofTokens_eq hne, hread]

/-- Either all tokens derive what the parser yields, or it fails and they derive nothing. -/
theorem ofTokens_cases_of_wellSpelled {s : TokenStream} (hs : ∀ t ∈ s.rest, t.WellSpelled) :
    (∃ e s', ofTokens s = (.ok e, s') ∧ Disjunction (maxLevels - 1) s.rest e ∧
      s.Passes s.rest s') ∨
    ∃ fault read s', ofTokens s = (.error fault, s') ∧ fault.kind = .invalidArgument ∧
      s.Passes read s' ∧ ∀ n < maxLevels, ∀ e, ¬ Disjunction n s.rest e := by
  by_cases hne : s.rest = []
  · have hempty : ofTokens s = (.error .emptyExpression, s) := by
      rw [ofTokens, hne]
      rfl
    refine .inr ⟨_, [], s, hempty, rfl, s.passes_nil, ?_⟩
    intro n _ e h
    obtain ⟨t, rest, hts, -⟩ := h.startsWithout
    rw [hne] at hts
    cases hts
  -- Both directions speak of one and the same outcome of the reader.
  have hcomplete : ∀ n < maxLevels, ∀ e, Disjunction n s.rest e →
      readExpression s.rest = (.ok e, []) :=
    fun n hn e h => h.read (Nat.le_pred_of_lt hn)
  have htakes := takes_readExpression s.rest hs
  have heq := ofTokens_eq hne
  generalize readExpression s.rest = outcome at htakes heq hcomplete
  match outcome, htakes with
  | (.ok e, []), ⟨read, hread, h⟩ =>
    rw [List.append_nil] at hread
    rw [← hread] at h
    refine .inl ⟨e, _, heq, h, TokenStream.passes_atRest ?_ hne⟩
    rw [List.append_nil]
  | (.ok e, t :: rest), ⟨read, hread, _⟩ =>
    refine .inr ⟨_, read, _, heq, rfl, TokenStream.passes_atRest hread hne, ?_⟩
    intro n hn f hf
    cases hcomplete n hn f hf
  | (.error fault, rest), ⟨⟨read, hread⟩, hkind⟩ =>
    refine .inr ⟨fault, read, _, heq, hkind, TokenStream.passes_atRest hread.symm hne, ?_⟩
    intro n hn f hf
    cases hcomplete n hn f hf

theorem ofTokens_cases {s : TokenStream} (hs : ∀ t ∈ s.rest, t.Classified) :
    (∃ e s', ofTokens s = (.ok e, s') ∧ Disjunction (maxLevels - 1) s.rest e ∧
      s.Passes s.rest s') ∨
    ∃ fault read s', ofTokens s = (.error fault, s') ∧ fault.kind = .invalidArgument ∧
      s.Passes read s' ∧ ∀ n < maxLevels, ∀ e, ¬ Disjunction n s.rest e :=
  ofTokens_cases_of_wellSpelled fun t ht => (hs t ht).wellSpelled

/-- The parser yields an expression exactly when all the tokens derive it in the grammar and no part
of it lies inside as many groups, calls and negations as there are levels, or more. The tokens never
derive two expressions. Whatever else comes of them is an invalid argument. The tokens stay as they
are, and the stream moves on past a part in front of what was left, and past all of it if there is
an expression. -/
theorem ofTokens_spec (s : TokenStream) (hs : ∀ t ∈ s.rest, t.Classified) :
    (∀ e, (ofTokens s).1 = .ok e ↔ ∃ n < maxLevels, Disjunction n s.rest e) ∧
    (∀ m n e f, Disjunction m s.rest e → Disjunction n s.rest f → e = f) ∧
    (∀ fault, (ofTokens s).1 = .error fault → fault.kind = .invalidArgument) ∧
    ∃ read, s.Passes read (ofTokens s).2 ∧ ∀ e, (ofTokens s).1 = .ok e → read = s.rest := by
  have hunique : ∀ m n e f, Disjunction m s.rest e → Disjunction n s.rest f → e = f :=
    fun _ _ _ _ he hf => he.unique hf
  rcases ofTokens_cases hs with ⟨e, s', heq, h, hpasses⟩ | ⟨fault, read, s', heq, hkind, hpasses, h⟩
  · rw [heq]
    refine ⟨?_, hunique, fun fault hfault => (by cases hfault), s.rest, hpasses, fun _ _ => rfl⟩
    intro f
    constructor
    · intro hf
      obtain rfl := Except.ok.inj hf
      exact ⟨maxLevels - 1, by decide, h⟩
    · rintro ⟨n, -, hf⟩
      rw [h.unique hf]
  · rw [heq]
    refine ⟨?_, hunique, ?_, read, hpasses, fun e he => (by cases he)⟩
    · intro e
      refine ⟨fun he => (by cases he), ?_⟩
      rintro ⟨n, hn, he⟩
      exact absurd he (h n hn e)
    · intro fault' hfault
      obtain rfl := Except.error.inj hfault
      exact hkind

/-- The tokens of `NOT a = 1 OR ['x', (b)]`. -/
def mixedTokens : TokenStream :=
  ⟨[⟨"NOT", .not⟩, ⟨"a", .variable⟩, ⟨"=", .operator⟩, ⟨"1", .integer⟩, ⟨"OR", .or⟩,
    ⟨"[", .leftBracket⟩, ⟨"'x'", .literal⟩, ⟨",", .comma⟩, ⟨"(", .leftBracket⟩,
    ⟨"b", .variable⟩, ⟨")", .rightBracket⟩, ⟨"]", .rightBracket⟩], 0⟩

theorem ofTokens_spec_mixedTokens :
    (∀ t ∈ mixedTokens.rest, t.Classified) ∧
    ∃ n < maxLevels, Disjunction n mixedTokens.rest
      (.or (.not (.compare .eq (.variable "a") (.constant (.int 1))))
        (.list [.constant (.text "x"), .variable "b"])) := by
  have hs : ∀ t ∈ mixedTokens.rest, t.Classified := by decide
  exact ⟨hs, ((ofTokens_spec mixedTokens hs).1 _).1 (by rfl)⟩

end Expression

end RecordFlow.Query
