import Mathlib.Data.List.Forall2
import Mathlib.Data.List.Infix
import RecordFlow.Query.Like

/-!
# What patterns match

A text fits a pattern (`Fits`) if it is the pattern with any run of characters in the place of each
`%`, one character in the place of each `_`, and the other characters kept. The matcher reads
patterns more narrowly (`Leaves`): a `%` that meets a `%` of the text is used up for this character.
So read it is exact on all texts (`likeMatch_iff`), although it only ever goes back to the last
wildcard: a later start does not get to the next wildcard earlier (`likeAttempt_of_leaves`).

On texts without `%` both readings agree (`likeMatch_iff_fits`). On others they do not, and a `%`
behind a pattern does not take in everything (`likeMatch_append_percent`).
-/

namespace RecordFlow.Query.Pattern

/-- What can stand in a text for a character of a pattern: any run of characters for `%`, any one
character for `_`, and nothing but itself for every other. -/
def Covers (p : Char) (piece : List Char) : Prop :=
  if p = '%' then True else if p = '_' then piece.length = 1 else piece = [p]

/-- The text is the pattern with something in the place of each character that this stands for. -/
def Fits (text pattern : List Char) : Prop :=
  ∃ pieces, List.Forall₂ Covers pattern pieces ∧ pieces.flatten = text

/-- What a pattern may leave of a text. Like any character that meets itself, a `%` in front of a
`%` of the text is used up for it; else it passes over a run of characters. -/
inductive Leaves : List Char → List Char → List Char → Prop where
  | nil {text} : Leaves [] text text
  | one {p c pattern text rest} : p = '_' ∨ p = c → Leaves pattern text rest →
      Leaves (p :: pattern) (c :: text) rest
  | run {pattern text behind rest} : text.head? ≠ some '%' → behind <:+ text →
      Leaves pattern behind rest → Leaves ('%' :: pattern) text rest

variable {text behind rest pattern : List Char}

theorem leaves_nil_iff : Leaves pattern [] rest ↔ pattern.all (· == '%') ∧ rest = [] := by
  induction pattern with
  | nil =>
    constructor
    · rintro ⟨⟩
      exact ⟨rfl, rfl⟩
    · rintro ⟨-, rfl⟩
      exact .nil
  | cons p pattern ih =>
    rw [List.all_cons, Bool.and_eq_true, beq_iff_eq, and_assoc, ← ih]
    constructor
    · intro h
      cases h with
      | run _ hbehind h =>
        obtain rfl := List.suffix_nil.1 hbehind
        exact ⟨rfl, h⟩
    · rintro ⟨rfl, h⟩
      exact .run (by simp) List.suffix_rfl h

/-- Patterns behind one another are followed one after the other. -/
theorem leaves_append_iff {front : List Char} : Leaves (front ++ pattern) text rest ↔
    ∃ behind, Leaves front text behind ∧ Leaves pattern behind rest := by
  constructor
  · intro h
    induction front generalizing text with
    | nil => exact ⟨text, .nil, h⟩
    | cons p front ih =>
      cases h with
      | one hp h =>
        obtain ⟨behind, hfront, hrest⟩ := ih h
        exact ⟨behind, .one hp hfront, hrest⟩
      | run hhead hsuffix h =>
        obtain ⟨behind, hfront, hrest⟩ := ih h
        exact ⟨behind, .run hhead hsuffix hfront, hrest⟩
  · rintro ⟨behind, hfront, hrest⟩
    induction hfront with
    | nil => exact hrest
    | one hp _ ih => exact .one hp (ih hrest)
    | run hhead hsuffix _ ih => exact .run hhead hsuffix (ih hrest)

/-! ### Attempts -/

theorem leaves_of_finished (h : likeAttempt text pattern = .finished true) :
    Leaves pattern text [] := by
  fun_induction likeAttempt text pattern with
  | case1 pattern => exact leaves_nil_iff.2 ⟨by simpa using h, rfl⟩
  | case3 c text p pattern hp ih => exact .one (by simpa using hp) (ih h)
  | case2 | case4 | case5 => cases h

theorem leaves_of_wildcard {text' pattern' : List Char}
    (h : likeAttempt text pattern = .wildcard text' pattern') (hbehind : behind <:+ text')
    (hleaves : Leaves pattern' behind []) : Leaves pattern text [] := by
  fun_induction likeAttempt text pattern with
  | case3 c text p pattern hp ih => exact .one (by simpa using hp) (ih h)
  | case4 c text p pattern hp hpercent =>
    cases h
    obtain rfl : p = '%' := by simpa using hpercent
    have hc : '%' ≠ c := by simpa using hp
    exact .run (by simpa using hc.symm) hbehind hleaves
  | case1 | case2 | case5 => cases h

theorem suffix_of_cons_suffix_cons {a b : Char} {as bs : List Char} (h : a :: as <:+ b :: bs) :
    as <:+ bs := by
  rcases List.suffix_cons_iff.1 h with heq | hsuffix
  · exact (List.cons.inj heq).2 ▸ List.suffix_rfl
  · exact (List.suffix_cons a as).trans hsuffix

/-- If the pattern is followed to the end of the text from some place on, an attempt from the start
of the text succeeds, or comes to a wildcard from where the rest of the pattern can be followed, or
gets stuck, which only an earlier start than that place can. -/
theorem likeAttempt_of_leaves {start : List Char} (hstart : start <:+ text)
    (h : Leaves pattern start []) :
    likeAttempt text pattern = .finished true ∨
    (∃ text' pattern' behind, likeAttempt text pattern = .wildcard text' pattern' ∧
      behind <:+ text' ∧ Leaves pattern' behind []) ∨
    (likeAttempt text pattern = .stuck ∧ start ≠ text) := by
  fun_induction likeAttempt text pattern generalizing start with
  | case1 pattern =>
    obtain rfl := List.suffix_nil.1 hstart
    exact .inl (congrArg _ (leaves_nil_iff.1 h).1)
  | case2 c text =>
    cases h
    exact .inr (.inr ⟨rfl, (List.cons_ne_nil _ _).symm⟩)
  | case3 c text p pattern hp ih =>
    cases h with
    | one _ h =>
      refine (ih (suffix_of_cons_suffix_cons hstart) h).imp_right (.imp_right ?_)
      exact fun ⟨hstuck, hne⟩ => ⟨hstuck, fun heq => hne (List.cons.inj heq).2⟩
    | run hhead hbehind h =>
      -- From the later start the `%` is a wildcard, from the first one it meets itself. So the
      -- starts differ, and the wildcard stands behind the character that the attempt uses up.
      have hne : start ≠ c :: text := by
        rintro rfl
        have hc : '%' = c := by simpa using hp
        exact hhead (congrArg some hc.symm)
      have hsuffix : start <:+ text := (List.suffix_cons_iff.1 hstart).resolve_left hne
      refine (ih (hbehind.trans hsuffix) h).imp_right (.imp_right ?_)
      exact fun ⟨hstuck, _⟩ => ⟨hstuck, hne⟩
  | case4 c text p pattern hp hpercent =>
    obtain rfl : p = '%' := by simpa using hpercent
    refine .inr (.inl ⟨c :: text, pattern, ?_⟩)
    cases h with
    | one _ h => exact ⟨_, rfl, (List.suffix_cons _ _).trans hstart, h⟩
    | run _ hbehind h => exact ⟨_, rfl, hbehind.trans hstart, h⟩
  | case5 c text p pattern hp hpercent =>
    refine .inr (.inr ⟨rfl, ?_⟩)
    cases h with
    | one hp' =>
      intro heq
      obtain ⟨rfl, -⟩ := List.cons.inj heq
      exact hp (by simpa using hp')
    | run => exact absurd rfl hpercent

/-! ### Matches -/

/-- Behind a wildcard the matcher finds a place from where the pattern can be followed, if there is
one. -/
theorem likeBehind_iff :
    likeBehind text pattern = true ↔ ∃ start, start <:+ text ∧ Leaves pattern start [] := by
  fun_induction likeBehind text pattern with
  | case1 text pattern matched h =>
    constructor
    · rintro rfl
      exact ⟨text, List.suffix_rfl, leaves_of_finished h⟩
    · rintro ⟨start, hstart, hleaves⟩
      simpa [h] using likeAttempt_of_leaves hstart hleaves
  | case2 text pattern text' pattern' h _ ih =>
    rw [ih]
    constructor
    · rintro ⟨behind, hbehind, hleaves⟩
      exact ⟨text, List.suffix_rfl, leaves_of_wildcard h hbehind hleaves⟩
    · rintro ⟨start, hstart, hleaves⟩
      simpa [h] using likeAttempt_of_leaves hstart hleaves
  | case3 pattern h => cases h
  | case4 pattern c text h ih =>
    rw [ih]
    constructor
    · rintro ⟨start, hstart, hleaves⟩
      exact ⟨start, hstart.trans (List.suffix_cons c text), hleaves⟩
    · rintro ⟨start, hstart, hleaves⟩
      have hne : start ≠ c :: text := by
        simpa [h] using likeAttempt_of_leaves hstart hleaves
      exact ⟨start, (List.suffix_cons_iff.1 hstart).resolve_left hne, hleaves⟩

/-- The matcher is exact: a text matches if the pattern can leave nothing of it. -/
theorem likeMatch_iff : likeMatch text pattern = true ↔ Leaves pattern text [] := by
  have hattempt (h : Leaves pattern text []) := likeAttempt_of_leaves List.suffix_rfl h
  unfold likeMatch
  cases h : likeAttempt text pattern with
  | finished matched =>
    constructor
    · rintro rfl
      exact leaves_of_finished h
    · intro hleaves
      simpa [h] using hattempt hleaves
  | wildcard text' pattern' =>
    rw [likeBehind_iff]
    constructor
    · rintro ⟨behind, hbehind, hleaves⟩
      exact leaves_of_wildcard h hbehind hleaves
    · intro hleaves
      simpa [h] using hattempt hleaves
  | stuck =>
    refine iff_of_false Bool.false_ne_true fun hleaves => ?_
    simpa [h] using hattempt hleaves

/-! ### Texts without `%` -/

/-- What a pattern passes over consists of what its characters can stand for. -/
theorem Leaves.exists_pieces (h : Leaves pattern text rest) :
    ∃ pieces, List.Forall₂ Covers pattern pieces ∧ text = pieces.flatten ++ rest := by
  induction h with
  | nil => exact ⟨[], .nil, rfl⟩
  | @one p c pattern text rest hp _ ih =>
    obtain ⟨pieces, hpieces, rfl⟩ := ih
    refine ⟨[c] :: pieces, .cons ?_ hpieces, rfl⟩
    rcases hp with rfl | rfl <;> simp [Covers]
  | run _ hbehind _ ih =>
    obtain ⟨pieces, hpieces, rfl⟩ := ih
    obtain ⟨front, rfl⟩ := hbehind
    exact ⟨front :: pieces, .cons (by simp [Covers]) hpieces, (List.append_assoc _ _ _).symm⟩

theorem leaves_of_pieces {pieces : List (List Char)} (hpieces : List.Forall₂ Covers pattern pieces)
    (h : '%' ∉ pieces.flatten) : Leaves pattern pieces.flatten [] := by
  induction hpieces with
  | nil => exact .nil
  | @cons p piece pattern pieces hp _ ih =>
    rw [List.flatten_cons] at h ⊢
    have hrest := ih fun hmem => h (List.mem_append_right _ hmem)
    unfold Covers at hp
    split at hp
    · next hpercent =>
      subst hpercent
      exact .run (fun hhead => h (List.mem_of_head? hhead)) (List.suffix_append _ _) hrest
    · split at hp
      · obtain ⟨c, rfl⟩ := List.length_eq_one_iff.1 hp
        exact .one (.inl ‹_›) hrest
      · subst hp
        exact .one (.inr rfl) hrest

theorem fits_of_likeMatch (h : likeMatch text pattern = true) : Fits text pattern := by
  obtain ⟨pieces, hpieces, htext⟩ := (likeMatch_iff.1 h).exists_pieces
  exact ⟨pieces, hpieces, by rw [htext, List.append_nil]⟩

theorem likeMatch_iff_fits (htext : '%' ∉ text) :
    likeMatch text pattern = true ↔ Fits text pattern := by
  refine ⟨fits_of_likeMatch, ?_⟩
  rintro ⟨pieces, hpieces, rfl⟩
  exact likeMatch_iff.2 (leaves_of_pieces hpieces htext)

/-! ### A wildcard at the end -/

theorem leaves_percent_iff : Leaves ['%'] text [] ↔ text.head? ≠ some '%' ∨ text = ['%'] := by
  constructor
  · intro h
    cases h with
    | one hp h =>
      cases h
      rcases hp with hp | rfl
      · cases hp
      · exact .inr rfl
    | run hhead => exact .inl hhead
  · rintro (hhead | rfl)
    · exact .run hhead List.nil_suffix .nil
    · exact .one (.inr rfl) .nil

theorem likeMatch_concat_percent_iff : likeMatch text (pattern ++ ['%']) = true ↔
    ∃ behind, Leaves pattern text behind ∧ (behind.head? ≠ some '%' ∨ behind = ['%']) := by
  simp only [likeMatch_iff, leaves_append_iff, leaves_percent_iff]

/-- What stands behind a text is left over with what was left of it, unless it begins with `%`. -/
theorem Leaves.append_right {more : List Char} (hmore : more.head? ≠ some '%')
    (h : Leaves pattern text rest) : Leaves pattern (text ++ more) (rest ++ more) := by
  induction h with
  | nil => exact .nil
  | one hp _ ih => exact .one hp ih
  | @run pattern text behind rest hhead hbehind _ ih =>
    refine .run ?_ (List.suffix_append_self_iff.2 hbehind) ih
    cases text with
    | nil => exact hmore
    | cons c text => exact hhead

/-- Of a single `%` behind a matched text either all is left over, or nothing, because one of the
last wildcards of the pattern has met it. -/
theorem exists_leaves_concat_percent (h : Leaves pattern text []) :
    ∃ behind, Leaves pattern (text ++ ['%']) behind ∧
      (behind.head? ≠ some '%' ∨ behind = ['%']) := by
  induction pattern generalizing text with
  | nil =>
    cases h
    exact ⟨['%'], .nil, .inr rfl⟩
  | cons p pattern ih =>
    cases h with
    | one hp h =>
      obtain ⟨behind, hleaves, hbehind⟩ := ih h
      exact ⟨behind, .one hp hleaves, hbehind⟩
    | run hhead hsuffix h =>
      cases text with
      | nil =>
        obtain rfl := List.suffix_nil.1 hsuffix
        exact ⟨[], .one (.inr rfl) h, .inl (by simp)⟩
      | cons c text =>
        obtain ⟨behind, hleaves, hbehind⟩ := ih h
        exact ⟨behind, .run hhead (List.suffix_append_self_iff.2 hsuffix) hleaves, hbehind⟩

/-- A text matches a pattern with a `%` behind it exactly if the pattern can leave a rest that does
not begin with `%`, or is this character only. So behind every match the `%` takes in some more text
if, and only if, this does not begin with `%` or is this character only. -/
theorem likeMatch_append_percent (more : List Char) :
    (∀ text pattern, likeMatch (text ++ more) (pattern ++ ['%']) = true ↔
      ∃ behind, Leaves pattern (text ++ more) behind ∧
        (behind.head? ≠ some '%' ∨ behind = ['%'])) ∧
    ((∀ text pattern, likeMatch text pattern = true →
      likeMatch (text ++ more) (pattern ++ ['%']) = true) ↔
        more.head? ≠ some '%' ∨ more = ['%']) := by
  refine ⟨fun text pattern => likeMatch_concat_percent_iff, ?_, ?_⟩
  · intro htakes
    -- The empty pattern leaves all of the text.
    obtain ⟨behind, hnil, hbehind⟩ := likeMatch_concat_percent_iff.1 (htakes [] [] rfl)
    cases hnil
    exact hbehind
  · rintro (hmore | rfl) text pattern h <;> refine likeMatch_concat_percent_iff.2 ?_
    · exact ⟨more, (likeMatch_iff.1 h).append_right hmore, .inl hmore⟩
    · exact exists_leaves_concat_percent (likeMatch_iff.1 h)

/-- The empty text matches the empty pattern, and `%a` does not match `%`. -/
theorem likeMatch_append_percent_not_of_percent :
    ¬ ∀ text more pattern, likeMatch text pattern = true →
      likeMatch (text ++ more) (pattern ++ ['%']) = true := by
  intro htakes
  have hmatch : likeMatch ['%', 'a'] ['%'] = true := htakes [] ['%', 'a'] [] rfl
  exact absurd hmatch (by decide)

end RecordFlow.Query.Pattern
