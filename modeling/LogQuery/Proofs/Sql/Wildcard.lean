import LogQuery.Sql.Wildcard
import Mathlib.Tactic.Lemma
import Mathlib.Tactic.SplitIfs

namespace LogQuery.Sql

/-! ### Rules -/

/-- A subject matches a pattern of `LIKE`. The case of letters counts, and a backslash takes the
meaning from the next character. A lone backslash at the end matches nothing. -/
inductive Like : List Char → List Char → Prop where
  | nil : Like [] []
  | percent {pattern subject : List Char} (skipped : List Char) (h : Like pattern subject) :
      Like ('%' :: pattern) (skipped ++ subject)
  | underscore {pattern subject : List Char} (c : Char) (h : Like pattern subject) :
      Like ('_' :: pattern) (c :: subject)
  | escaped {pattern subject : List Char} (c : Char) (h : Like pattern subject) :
      Like ('\\' :: c :: pattern) (c :: subject)
  | char {c : Char} {pattern subject : List Char} (hpercent : c ≠ '%') (hunderscore : c ≠ '_')
      (hback : c ≠ '\\') (h : Like pattern subject) : Like (c :: pattern) (c :: subject)

/-- A subject matches a text in which a star stands for any row of characters, and every other
character for itself. -/
inductive Glob : List Char → List Char → Prop where
  | nil : Glob [] []
  | star {pattern subject : List Char} (skipped : List Char) (h : Glob pattern subject) :
      Glob ('*' :: pattern) (skipped ++ subject)
  | char {c : Char} {pattern subject : List Char} (hstar : c ≠ '*') (h : Glob pattern subject) :
      Glob (c :: pattern) (c :: subject)

variable {c : Char} {pattern subject : List Char}

/-! ### The first character of a pattern -/

lemma like_nil : Like [] subject ↔ subject = [] := by
  constructor
  · rintro ⟨⟩
    rfl
  · rintro rfl
    exact .nil

/-- `%` skips any characters. -/
lemma like_percent :
    Like ('%' :: pattern) subject ↔
      ∃ skipped rest, subject = skipped ++ rest ∧ Like pattern rest := by
  constructor
  · intro h
    cases h with
    | percent skipped h => exact ⟨skipped, _, rfl, h⟩
    | char hpercent => exact absurd rfl hpercent
  · rintro ⟨skipped, rest, rfl, h⟩
    exact .percent skipped h

/-- A character behind a backslash stands for itself. -/
lemma like_escaped :
    Like ('\\' :: c :: pattern) subject ↔ ∃ rest, subject = c :: rest ∧ Like pattern rest := by
  constructor
  · intro h
    cases h with
    | escaped _ h => exact ⟨_, rfl, h⟩
    | char _ _ hback => exact absurd rfl hback
  · rintro ⟨rest, rfl, h⟩
    exact .escaped c h

/-- Any other character stands for itself. -/
lemma like_char (hpercent : c ≠ '%') (hunderscore : c ≠ '_') (hback : c ≠ '\\') :
    Like (c :: pattern) subject ↔ ∃ rest, subject = c :: rest ∧ Like pattern rest := by
  constructor
  · intro h
    cases h with
    | percent => exact absurd rfl hpercent
    | underscore => exact absurd rfl hunderscore
    | escaped => exact absurd rfl hback
    | char _ _ _ h => exact ⟨_, rfl, h⟩
  · rintro ⟨rest, rfl, h⟩
    exact .char hpercent hunderscore hback h

lemma glob_nil : Glob [] subject ↔ subject = [] := by
  constructor
  · rintro ⟨⟩
    rfl
  · rintro rfl
    exact .nil

/-- `*` skips any characters. -/
lemma glob_star :
    Glob ('*' :: pattern) subject ↔
      ∃ skipped rest, subject = skipped ++ rest ∧ Glob pattern rest := by
  constructor
  · intro h
    cases h with
    | star skipped h => exact ⟨skipped, _, rfl, h⟩
    | char hstar => exact absurd rfl hstar
  · rintro ⟨skipped, rest, rfl, h⟩
    exact .star skipped h

/-- Any other character of a wildcard value stands for itself. -/
lemma glob_char (hstar : c ≠ '*') :
    Glob (c :: pattern) subject ↔ ∃ rest, subject = c :: rest ∧ Glob pattern rest := by
  constructor
  · intro h
    cases h with
    | star => exact absurd rfl hstar
    | char _ h => exact ⟨_, rfl, h⟩
  · rintro ⟨rest, rfl, h⟩
    exact .char hstar h

/-! ### Patterns made of texts -/

/-- A character that is no star stands for itself in the pattern, with or without a backslash. -/
lemma like_likeChar (hstar : c ≠ '*') :
    Like (likeChar c ++ pattern) subject ↔ ∃ rest, subject = c :: rest ∧ Like pattern rest := by
  rw [likeChar, if_neg hstar]
  split_ifs with hspecial
  · exact like_escaped
  · simp only [not_or] at hspecial
    exact like_char hspecial.1 hspecial.2.1 hspecial.2.2

/-- A pattern matches a subject just if the text does from which it was made. The induction is on
the text; each of its characters takes the same part of the subject under either rules. -/
theorem like_likePattern_iff_glob (value subject : String) :
    Like (likePattern value).toList subject.toList ↔ Glob value.toList subject.toList := by
  rw [likePattern, String.toList_ofList]
  generalize subject.toList = subject
  induction value.toList generalizing subject with
  | nil => exact like_nil.trans glob_nil.symm
  | cons c cs ih =>
    rw [List.flatMap_cons]
    by_cases hstar : c = '*'
    · subst hstar
      change Like ('%' :: cs.flatMap likeChar) subject ↔ _
      rw [like_percent, glob_star]
      simp only [ih]
    · rw [like_likeChar hstar, glob_char hstar]
      simp only [ih]

/-- The percent sign, the underscore and the backslash of a text are escaped, its stars are not. -/
example : likePattern "*50%_off\\*" = "%50\\%\\_off\\\\%" := by decide

end LogQuery.Sql
