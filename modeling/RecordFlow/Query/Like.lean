/-!
# Patterns with wildcards

`likeMatch text pattern` compares a text with a pattern in which `_` stands for any character and
`%` for any run of characters. The pattern is followed up to its next `%`; when the characters
behind a `%` do not fit, they are tried again one character further on, and only the last `%` is
ever moved. A character of the pattern that equals the character of the text is used up as that
character, `%` included.
-/

namespace RecordFlow.Query

/-- How far a pattern can be followed without choice. -/
inductive LikeAttempt where
  /-- The text is used up, and the pattern does or does not allow that. -/
  | finished (matched : Bool)
  /-- A `%` comes next: the text still to match and the pattern behind it. -/
  | wildcard (text pattern : List Char)
  /-- The next characters do not fit. -/
  | stuck

/-- Follows a pattern up to its next `%`. -/
def likeAttempt : List Char → List Char → LikeAttempt
  | [], pattern => .finished (pattern.all (· == '%'))
  | _ :: _, [] => .stuck
  | c :: text, p :: pattern =>
    if p == '_' || p == c then likeAttempt text pattern
    else if p == '%' then .wildcard (c :: text) pattern
    else .stuck

/-- What stands behind the next `%` is shorter than the pattern. -/
theorem length_lt_of_likeAttempt {text pattern text' pattern' : List Char}
    (h : likeAttempt text pattern = .wildcard text' pattern') :
    pattern'.length < pattern.length := by
  induction text generalizing pattern with
  | nil => simp [likeAttempt] at h
  | cons c text ih =>
    cases pattern with
    | nil => simp [likeAttempt] at h
    | cons p pattern =>
      simp only [likeAttempt] at h
      split at h
      · exact Nat.lt_succ_of_lt (ih h)
      · split at h
        · injection h with _ h
          simp [h]
        · simp at h

/-- Matches the pattern behind a `%`, which may pass over characters of the text. -/
def likeBehind (text pattern : List Char) : Bool :=
  match h : likeAttempt text pattern with
  | .finished matched => matched
  | .wildcard text' pattern' =>
    have := length_lt_of_likeAttempt h
    likeBehind text' pattern'
  | .stuck =>
    match text with
    | [] => false
    | _ :: text => likeBehind text pattern
termination_by (pattern.length, text.length)

/-- The text fits the pattern. -/
def likeMatch (text pattern : List Char) : Bool :=
  match likeAttempt text pattern with
  | .finished matched => matched
  | .wildcard text pattern => likeBehind text pattern
  | .stuck => false

end RecordFlow.Query
