import Mathlib.Tactic.Ring
import RecordFlow.Proofs.Comparison
import RecordFlow.Proofs.Query.Patterns
import RecordFlow.Proofs.Query.QuotedLiteral

/-!
# Matching with two positions

The matcher as a scan of a text and a pattern side by side (`Scan`), which remembers what the last
wildcard has left of the text and the pattern behind it. Where the next characters do not fit, the
last wildcard passes over one more character and the scan begins anew behind it.

The scan moves back in the text and still ends, with the answer of `likeMatch`
(`Scan.exists_ends_start`): every step begins anew or uses up a character, and how often it can
begin anew is bounded by the lengths of text and pattern (`Scan.restarts`). `like_spec` says what
the two operators for patterns answer on texts.
-/

namespace RecordFlow.Query.Pattern

/-- What is left of a text and of a pattern and, behind a wildcard, what it has left of the text so
far and the pattern behind it. -/
structure Scan where
  text : List Char
  pattern : List Char
  retry : Option (List Char × List Char)

namespace Scan

/-- The scan of a whole text for a whole pattern. -/
def start (text pattern : List Char) : Scan :=
  ⟨text, pattern, none⟩

/-- The scan of what a wildcard leaves of a text for the pattern behind it. -/
def behind (text pattern : List Char) : Scan :=
  ⟨text, pattern, some (text, pattern)⟩

/-- Lets the last wildcard pass over one more character. Without one the text does not match. -/
def goBack (s : Scan) : Bool ⊕ Scan :=
  match s.retry with
  | some (_ :: text, pattern) => .inr (behind text pattern)
  | _ => .inl false

/-- One step of a scan, to its answer or to what is scanned next. -/
def step (s : Scan) : Bool ⊕ Scan :=
  match s.text, s.pattern with
  | [], pattern => .inl (pattern.all (· == '%'))
  | _ :: _, [] => s.goBack
  | c :: text, p :: pattern =>
    if p == '_' || p == c then .inr ⟨text, pattern, s.retry⟩
    else if p == '%' then .inr (behind (c :: text) pattern)
    else s.goBack

/-- The scan comes to its answer in this number of steps. -/
inductive Ends : Scan → Nat → Bool → Prop where
  | last {s answer} : s.step = .inl answer → Ends s 1 answer
  | next {s s' n answer} : s.step = .inr s' → Ends s' n answer → Ends s (n + 1) answer

variable {s s' : Scan}

/-! ### The answer -/

/-- What going back to the last wildcard comes to. -/
def answerBehind (s : Scan) : Bool :=
  match s.retry with
  | some (_ :: text, pattern) => likeBehind text pattern
  | _ => false

/-- What a scan comes to: the outcome of an attempt or, if this gets stuck, of going back. -/
def answer (s : Scan) : Bool :=
  match likeAttempt s.text s.pattern with
  | .finished matched => matched
  | .wildcard text pattern => likeBehind text pattern
  | .stuck => s.answerBehind

theorem answer_start (text pattern : List Char) :
    (start text pattern).answer = likeMatch text pattern := by
  unfold answer likeMatch start
  cases likeAttempt text pattern <;> rfl

theorem answer_behind (text pattern : List Char) :
    (behind text pattern).answer = likeBehind text pattern := by
  unfold answer behind
  fun_cases likeBehind text pattern with
  | case1 _ _ h => simp only [h]
  | case2 _ _ _ h => simp only [h]
  | case3 h => simp only [h, answerBehind]
  | case4 c text h => simp only [h, answerBehind]

theorem answer_goBack (s : Scan) : s.goBack.elim id answer = s.answerBehind := by
  unfold answerBehind
  fun_cases goBack s with
  | case1 c text pattern hretry =>
    rw [hretry]
    exact answer_behind text pattern
  | case2 hretry =>
    split
    · exact absurd ‹_› (hretry _ _ _)
    · rfl

/-- A step keeps the answer. -/
theorem answer_step (s : Scan) : s.step.elim id answer = s.answer := by
  obtain ⟨text, pattern, retry⟩ := s
  cases text with
  | nil => rfl
  | cons c text =>
    cases pattern with
    | nil => exact answer_goBack _
    | cons p pattern =>
      simp only [step, answer, likeAttempt]
      split
      · rfl
      · split
        · exact answer_behind (c :: text) pattern
        · exact answer_goBack _

/-! ### The number of steps -/

/-- How often a scan can still begin anew: a wildcard of the pattern is passed, or the last one
passes over a character of the text. -/
def restarts (s : Scan) : Nat :=
  match s.retry with
  | some (text, pattern) => text.length + pattern.length
  | none => s.text.length + s.pattern.length + 1

/-- Nothing that is scanned is longer than what the last wildcard has left, and no text is longer
than `n`. -/
structure Within (n : Nat) (s : Scan) : Prop where
  text_le : s.text.length ≤ n
  retry_le : ∀ text pattern, s.retry = some (text, pattern) →
    text.length ≤ n ∧ s.text.length ≤ text.length ∧ s.pattern.length ≤ pattern.length

theorem within_start (text pattern : List Char) : Within text.length (start text pattern) :=
  ⟨Nat.le_refl _, fun _ _ h => nomatch h⟩

theorem within_behind {n : Nat} {text pattern : List Char} (h : text.length ≤ n) :
    Within n (behind text pattern) := by
  refine ⟨h, fun text' pattern' hretry => ?_⟩
  cases hretry
  exact ⟨h, Nat.le_refl _, Nat.le_refl _⟩

/-- Going back begins anew with less text than before. -/
theorem Within.goBack {n : Nat} (h : Within n s) (hback : s.goBack = .inr s') :
    Within n s' ∧ s'.restarts < s.restarts := by
  unfold Scan.goBack at hback
  split at hback
  · next c text pattern hretry =>
    cases hback
    have hlength := (h.retry_le _ _ hretry).1
    rw [List.length_cons] at hlength
    refine ⟨within_behind (by omega), ?_⟩
    simp only [restarts, behind, hretry, List.length_cons]
    omega
  · cases hback

theorem Within.useUp {n : Nat} {c p : Char} {text pattern : List Char}
    {retry : Option (List Char × List Char)} (h : Within n ⟨c :: text, p :: pattern, retry⟩) :
    Within n ⟨text, pattern, retry⟩ ∧
      restarts ⟨text, pattern, retry⟩ ≤ restarts ⟨c :: text, p :: pattern, retry⟩ := by
  obtain ⟨htext, hretry⟩ := h
  simp only [List.length_cons] at htext hretry
  refine ⟨⟨Nat.le_of_succ_le htext, fun text' pattern' heq => ?_⟩, ?_⟩
  · obtain ⟨hn, hle, hpattern⟩ := hretry text' pattern' heq
    exact ⟨hn, Nat.le_of_succ_le hle, Nat.le_of_succ_le hpattern⟩
  · cases retry <;> simp only [restarts, List.length_cons] <;> omega

theorem Within.begin {n : Nat} {c p : Char} {text pattern : List Char}
    {retry : Option (List Char × List Char)} (h : Within n ⟨c :: text, p :: pattern, retry⟩) :
    Within n (behind (c :: text) pattern) ∧
      restarts (behind (c :: text) pattern) < restarts ⟨c :: text, p :: pattern, retry⟩ := by
  refine ⟨within_behind h.text_le, ?_⟩
  cases retry with
  | none =>
    simp only [restarts, behind, List.length_cons]
    omega
  | some retry =>
    have hle := (h.retry_le _ _ rfl).2
    simp only [restarts, behind, List.length_cons] at hle ⊢
    omega

/-- Every step begins anew or uses up a character of the text. -/
theorem Within.step {n : Nat} (h : Within n s) (hstep : s.step = .inr s') :
    Within n s' ∧ (s'.restarts < s.restarts ∨
      (s'.restarts ≤ s.restarts ∧ s'.text.length < s.text.length)) := by
  obtain ⟨text, pattern, retry⟩ := s
  cases text with
  | nil => cases hstep
  | cons c text =>
    cases pattern with
    | nil => exact (h.goBack hstep).imp_right .inl
    | cons p pattern =>
      simp only [Scan.step] at hstep
      split at hstep
      · cases hstep
        exact h.useUp.imp_right fun hle => .inr ⟨hle, Nat.lt_succ_self _⟩
      · split at hstep
        · cases hstep
          exact h.begin.imp_right .inl
        · exact (h.goBack hstep).imp_right .inl

/-- A bound of the steps that are left, for texts of at most this length. -/
def budget (n : Nat) (s : Scan) : Nat :=
  s.restarts * (n + 1) + s.text.length

theorem Within.budget_lt {n : Nat} (h : Within n s) (hstep : s.step = .inr s') :
    Within n s' ∧ s'.budget n < s.budget n := by
  obtain ⟨hwithin, hless⟩ := h.step hstep
  refine ⟨hwithin, ?_⟩
  unfold budget
  rcases hless with hlt | ⟨hle, hlt⟩
  · exact mul_add_lt hlt (Nat.lt_succ_of_le hwithin.text_le)
  · exact Nat.add_lt_add_of_le_of_lt (Nat.mul_le_mul_right _ hle) hlt

/-- A scan ends with its answer before its budget is used up. -/
theorem Within.exists_ends {n : Nat} (h : Within n s) :
    ∃ count ≤ s.budget n + 1, s.Ends count s.answer := by
  -- On the budget, because neither the text nor the pattern gets shorter with every step.
  induction hbudget : s.budget n using Nat.strongRecOn generalizing s with
  | ind k ih =>
    have hanswer := answer_step s
    cases hstep : s.step with
    | inl answer =>
      rw [hstep] at hanswer
      exact ⟨1, Nat.le_add_left _ _, .last (hstep.trans (congrArg _ hanswer))⟩
    | inr s' =>
      rw [hstep] at hanswer
      obtain ⟨hwithin, hlt⟩ := h.budget_lt hstep
      obtain ⟨count, hcount, hends⟩ := ih _ (hbudget ▸ hlt) hwithin rfl
      refine ⟨count + 1, by omega, .next hstep ?_⟩
      rwa [← hanswer]

/-- Whatever the text and the pattern are, the scan comes to the answer of the matcher, in a number
of steps that their lengths bound. -/
theorem exists_ends_start (text pattern : List Char) :
    ∃ count ≤ (text.length + pattern.length + 2) * (text.length + 1),
      (start text pattern).Ends count (likeMatch text pattern) := by
  obtain ⟨count, hcount, hends⟩ := (within_start text pattern).exists_ends
  rw [answer_start] at hends
  refine ⟨count, hcount.trans (Nat.le_of_eq ?_), hends⟩
  simp only [budget, restarts, start]
  ring

end Scan

/-! ### The operators -/

/-- The scan of a text for a pattern ends, with the answer of the matcher. On texts without `%` this
is whether the text fits the pattern, and on texts the two operators are complements. -/
theorem like_spec (text pattern : String) :
    (∃ count ≤ (text.toList.length + pattern.toList.length + 2) * (text.toList.length + 1),
      (Scan.start text.toList pattern.toList).Ends count
        (likeMatch text.toList pattern.toList)) ∧
    ('%' ∉ text.toList →
      (likeMatch text.toList pattern.toList = true ↔ Fits text.toList pattern.toList)) ∧
    Operator.like.apply (.text text) (.text pattern) = likeMatch text.toList pattern.toList ∧
    Operator.notLike.apply (.text text) (.text pattern) =
      !Operator.like.apply (.text text) (.text pattern) := by
  have hlike := apply_text_text (show Operator.like.isTextual from rfl) text pattern
  have hnotLike := apply_text_text (show Operator.notLike.isTextual from rfl) text pattern
  refine ⟨Scan.exists_ends_start _ _, likeMatch_iff_fits, hlike, ?_⟩
  rw [hnotLike, hlike]
  rfl

/-- The first `%` has to pass over a `-`, although the pattern goes on with one. -/
theorem like_spec_wildcards :
    '%' ∉ "a-b-c.md".toList ∧
    Operator.like.apply (.text "a-b-c.md") (.text "%-_.%d") = true ∧
    Operator.notLike.apply (.text "a-b-c.md") (.text "%-_.%d") = false := by
  have hpercent : '%' ∉ "a-b-c.md".toList := by decide
  have hfits : Fits "a-b-c.md".toList "%-_.%d".toList :=
    ⟨[['a', '-', 'b'], ['-'], ['c'], ['.'], ['m'], ['d']], by simp [Covers], rfl⟩
  obtain ⟨-, hiff, hlike, hnotLike⟩ := like_spec "a-b-c.md" "%-_.%d"
  rw [(hiff hpercent).2 hfits] at hlike
  exact ⟨hpercent, hlike, by rw [hnotLike, hlike]; rfl⟩

end RecordFlow.Query.Pattern
