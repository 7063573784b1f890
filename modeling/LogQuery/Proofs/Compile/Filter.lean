import LogQuery.CommandLine.Libraries
import LogQuery.Compile.Pipeline
import LogQuery.Proofs.Compile.Statement
import LogQuery.Proofs.Parser.Condition
import LogQuery.Proofs.Parser.Stages
import LogQuery.Proofs.Sql.Filter

namespace LogQuery

open Sql

variable {truth : Test → Bool} {d : Dialect}

/-! ### Words with connectives between them -/

namespace Sql

/-- Rows of words with one more word between any two of them. -/
def joined (separator : FilterWord) : List (List FilterWord) → List FilterWord
  | [] => []
  | row :: rest => row ++ rest.flatMap (separator :: ·)

lemma spelled_cons (w : FilterWord) (words : List FilterWord) :
    spelled d (w :: words) = w.text d ++ spelled d words := String.join_cons

lemma spelled_append (words words' : List FilterWord) :
    spelled d (words ++ words') = spelled d words ++ spelled d words' := by
  induction words with
  | nil => simp [spelled]
  | cons w words ih => rw [List.cons_append, spelled_cons, spelled_cons, ih, String.append_assoc]

/-- Words joined by a separator are spelled as their texts joined by it. -/
lemma spelled_joined (separator : FilterWord) (rows : List (List FilterWord)) :
    spelled d (joined separator rows) =
      String.intercalate (separator.text d) (rows.map (spelled d)) := by
  cases rows with
  | nil => rfl
  | cons row rest =>
    change spelled d (row ++ rest.flatMap (separator :: ·)) = _
    induction rest generalizing row with
    | nil => simp
    | cons row' rest ih =>
      rw [List.flatMap_cons, List.map_cons, List.map_cons, String.intercalate_cons_cons,
        ← List.map_cons, ← ih, spelled_append, List.cons_append, spelled_cons, String.append_assoc]

/-- One more operand behind words of the level of a connective. -/
lemma means_snoc (logic : Connective) {words words' : List FilterWord} {v v' : Bool}
    (h : Means truth (.ofConnective logic) words v) (h' : Means truth .operand words' v') :
    Means truth (.ofConnective logic) (words ++ .ofConnective logic :: words')
      (logic.combine v v') := by
  cases logic with
  | and => exact .and h h'
  | or => exact .or h (.operand h')

variable {α : Type} {words : α → List FilterWord} {v : α → Bool} {as : List α}

/-- More operands behind words of the level of a connective. -/
lemma means_behind (logic : Connective) {front : List FilterWord} {b : Bool}
    (hfront : Means truth (.ofConnective logic) front b)
    (h : ∀ a ∈ as, Means truth .operand (words a) (v a)) :
    Means truth (.ofConnective logic) (front ++ (as.map words).flatMap (.ofConnective logic :: ·))
      (logic.combine b (logic.value (as.map v))) := by
  -- What was read grows at its end, as the rules of SQL group to the left.
  induction as generalizing front b with
  | nil => simpa using hfront
  | cons a rest ih =>
    have hmore := ih (means_snoc logic hfront (h a (by simp))) fun a' ha' => h a' (by simp [ha'])
    rw [Connective.combine_assoc, ← Connective.value_cons] at hmore
    simpa using hmore

/-- Operands with the same connective between any two of them mean what the connective makes of
them. -/
lemma means_joined (logic : Connective) (hne : as ≠ [])
    (h : ∀ a ∈ as, Means truth .operand (words a) (v a)) :
    Means truth (.ofConnective logic) (joined (.ofConnective logic) (as.map words))
      (logic.value (as.map v)) := by
  cases as with
  | nil => contradiction
  | cons a rest =>
    rw [List.map_cons, List.map_cons, Connective.value_cons]
    refine means_behind logic ?_ fun a' ha' => h a' (by simp [ha'])
    cases logic with
    | and => exact .operand (h a (by simp))
    | or => exact .conjunction (.operand (h a (by simp)))

end Sql

/-! ### Conditions -/

namespace Condition

mutual

def words : Condition → List FilterWord
  | .compare field comparison value negated =>
    if negated then [.not, .lParen, .test ⟨field, comparison, value⟩, .rParen]
    else [.test ⟨field, comparison, value⟩]
  | .group logic members negated =>
    let whole := .lParen :: joined (.ofConnective logic) (allWords members) ++ [.rParen]
    if negated then .not :: whole else whole

def allWords : List Condition → List (List FilterWord)
  | [] => []
  | c :: rest => words c :: allWords rest

end

lemma allWords_eq_map (cs : List Condition) : allWords cs = cs.map words := by
  induction cs with
  | nil => rfl
  | cons c rest ih => rw [allWords, ih, List.map_cons]

mutual

/-- The words of a condition are its text in SQL. -/
lemma spelled_words : ∀ c : Condition, spelled d c.words = (c.toSql d).render d
  | .compare field comparison value negated => by
    cases negated with
    | false => simp [words, toSql, spelled, FilterWord.text]
    | true =>
      have hparens : spelled d (words (.compare field comparison value true)) = "NOT " ++
          ("(" ++ (comparison.toSql d (Column.ofField field) value).render d ++ ")") := by
        simp [words, spelled, FilterWord.text, String.append_assoc]
      exact hparens
  | .group logic members negated => by
    have hoperator : " " ++ (Operator.ofConnective logic).text ++ " " =
        (FilterWord.ofConnective logic).text d := by cases logic <;> rfl
    have hwhole : spelled d (.lParen :: joined (.ofConnective logic) (allWords members)
        ++ [.rParen]) =
        (Expr.paren (.chain (.ofConnective logic) (allToSql d members))).render d := by
      change _ = "(" ++ String.intercalate (" " ++ (Operator.ofConnective logic).text ++ " ")
        (Expr.renderAll d (allToSql d members)) ++ ")"
      rw [hoperator, spelled_append, spelled_cons, spelled_joined, spelled_allWords members]
      rfl
    unfold words toSql
    split_ifs
    · dsimp only
      rw [spelled_cons, hwhole]
      rfl
    · exact hwhole

/-- The words of conditions spell the SQL of these conditions. -/
lemma spelled_allWords : ∀ cs : List Condition,
    (allWords cs).map (spelled d) = Expr.renderAll d (allToSql d cs)
  | [] => rfl
  | c :: rest => by
    rw [allWords, List.map_cons, spelled_words c, spelled_allWords rest]
    rfl

end

/-- The words of a condition without empty groups have its value. -/
lemma Full.means_words {c : Condition} (h : c.Full) :
    Means truth .operand c.words (c.holds truth) := by
  induction h with
  | @compare field comparison value negated =>
    have htest : Means truth .operand [.test ⟨field, comparison, value⟩]
        (truth ⟨field, comparison, value⟩) := .test _
    cases negated with
    | false => simpa [words, holds] using htest
    | true => simpa [words, holds] using (Means.parens (.conjunction (.operand htest))).not
  | @group logic members negated hne _ ih =>
    have hjoined := means_joined logic hne ih
    rw [← allWords_eq_map] at hjoined
    have hwhole : Means truth .operand
        (.lParen :: joined (.ofConnective logic) (allWords members) ++ [.rParen])
        (logic.value (members.map (holds truth))) := by
      cases logic with
      | and => exact .parens (.conjunction hjoined)
      | or => exact .parens hjoined
    rw [holds_group]
    cases negated with
    | false => simpa [words] using hwhole
    | true => simpa [words] using hwhole.not

/-! ### The comparisons among the words -/

lemma filterMap_test_joined (logic : Connective) (rows : List (List FilterWord)) :
    (joined (.ofConnective logic) rows).filterMap FilterWord.test? =
      rows.flatMap (List.filterMap FilterWord.test?) := by
  cases rows with
  | nil => rfl
  | cons row rest =>
    change (row ++ rest.flatMap (.ofConnective logic :: ·)).filterMap _ = _
    rw [List.filterMap_append, List.flatMap_cons, List.filterMap_flatMap]
    congr 2
    funext words
    cases logic <;> rfl

mutual

/-- The tests among the words of a condition are those of the condition. -/
lemma filterMap_test_words : ∀ c : Condition, c.words.filterMap FilterWord.test? = c.tests
  | .compare field comparison value negated => by cases negated <;> rfl
  | .group logic members negated => by
    have hwhole : (FilterWord.lParen :: joined (.ofConnective logic) (allWords members)
        ++ [FilterWord.rParen]).filterMap FilterWord.test? = allTests members := by
      rw [List.cons_append, List.filterMap_cons_none rfl, List.filterMap_append,
        filterMap_test_joined, flatMap_test_allWords members]
      exact List.append_nil _
    cases negated with
    | false => exact hwhole
    | true => exact hwhole

lemma flatMap_test_allWords : ∀ cs : List Condition,
    (allWords cs).flatMap (List.filterMap FilterWord.test?) = allTests cs
  | [] => rfl
  | c :: rest => by
    rw [allWords, List.flatMap_cons, filterMap_test_words c, flatMap_test_allWords rest, allTests]

end

lemma words_ne_nil (c : Condition) : c.words ≠ [] := by
  cases c with
  | compare field comparison value negated => cases negated <;> simp [words]
  | group logic members negated => cases negated <;> simp [words]

/-! ### Stages -/

/-- The words of the fragment of conditions that must all hold. -/
def fragmentWords : List Condition → List FilterWord
  | [] => []
  | [c] => c.words
  | cs => .lParen :: joined .and (cs.map words) ++ [.rParen]

lemma spelled_fragmentWords (cs : List Condition) :
    (fragment? d cs).toList.map (Expr.render d) =
      if cs.isEmpty then [] else [spelled d (fragmentWords cs)] := by
  rcases cs with _ | ⟨c, _ | ⟨c', rest⟩⟩
  · rfl
  · simp [fragment?, allToSql, fragmentWords, spelled_words]
  · have hwords := spelled_words (d := d) (.group .and (c :: c' :: rest) false)
    rw [words, allWords_eq_map] at hwords
    exact congrArg (fun t => [t]) hwords.symm

/-- The words that a stage adds to the filter have the value of all its conditions. -/
lemma means_fragmentWords {cs : List Condition} (hne : cs ≠ []) (h : ∀ c ∈ cs, c.Full) :
    Means truth .operand (fragmentWords cs) (cs.all (holds truth)) := by
  rcases cs with _ | ⟨c, _ | ⟨c', rest⟩⟩
  · contradiction
  · simpa [fragmentWords] using (h c (by simp)).means_words
  · have hmembers : ∀ a ∈ c :: c' :: rest, Means truth .operand a.words (a.holds truth) :=
      fun a ha => (h a ha).means_words
    have hjoined := means_joined .and hne hmembers
    have hwhole := (Means.conjunction hjoined).parens
    simpa [fragmentWords, FilterWord.ofConnective, Connective.value] using hwhole

lemma fragmentWords_ne_nil {cs : List Condition} (hne : cs ≠ []) : fragmentWords cs ≠ [] := by
  rcases cs with _ | ⟨c, _ | ⟨c', rest⟩⟩
  · contradiction
  · exact words_ne_nil c
  · simp [fragmentWords]

lemma filterMap_test_fragmentWords (cs : List Condition) :
    (fragmentWords cs).filterMap FilterWord.test? = allTests cs := by
  rcases cs with _ | ⟨c, _ | ⟨c', rest⟩⟩
  · rfl
  · simpa [allTests, fragmentWords] using filterMap_test_words c
  · have htests := filterMap_test_words (.group .and (c :: c' :: rest) false)
    rwa [words, allWords_eq_map] at htests

end Condition

/-! ### Pipelines -/

namespace Pipeline

variable {p : Pipeline} {target : Target}

/-- The stages of a pipeline that have conditions. -/
def selecting (p : Pipeline) : List Stage := p.stages.filter fun stage => !stage.conditions.isEmpty

/-- The words of the filter of a pipeline. -/
def filterWords (p : Pipeline) : List FilterWord :=
  joined .and (p.selecting.map fun stage => Condition.fragmentWords stage.conditions)

/-- The stages that select are those with conditions. -/
lemma mem_selecting {stage : Stage} :
    stage ∈ p.selecting ↔ stage ∈ p.stages ∧ stage.conditions ≠ [] := by
  simp [selecting]

/-- The filter of a draft is spelled by the words of the stages that select. -/
lemma map_render_filter (p : Pipeline) :
    (p.draft target []).filter.map (Expr.render target.dialect) =
      p.selecting.map fun stage =>
        spelled target.dialect (Condition.fragmentWords stage.conditions) := by
  rw [filter_draft, List.nil_append, selecting]
  induction p.stages with
  | nil => rfl
  | cons stage stages ih =>
    rw [List.flatMap_cons, List.map_append, ih, Condition.spelled_fragmentWords, List.filter_cons]
    cases stage.conditions.isEmpty <;> rfl

lemma filterWords_eq_nil_iff : p.filterWords = [] ↔ p.selecting = [] := by
  rw [filterWords]
  cases hp : p.selecting with
  | nil => simp [joined]
  | cons stage rest =>
    have hstage : stage ∈ p.selecting := by simp [hp]
    have hne := Condition.fragmentWords_ne_nil (mem_selecting.1 hstage).2
    simp [joined, hne]

/-- The clause of the filter, which is left out if there are no conditions. -/
lemma clause_filter (p : Pipeline) (target : Target) :
    Statement.clause "WHERE" " AND " ((p.draft target []).filter.map (Expr.render target.dialect)) =
      if p.filterWords.isEmpty then ""
      else " WHERE " ++ spelled target.dialect p.filterWords := by
  have hempty : p.filterWords.isEmpty = p.selecting.isEmpty := by
    rw [Bool.eq_iff_iff, List.isEmpty_iff, List.isEmpty_iff, filterWords_eq_nil_iff]
  rw [map_render_filter, hempty, filterWords, spelled_joined, List.map_map]
  rw [Statement.clause]
  rw [List.isEmpty_map]
  rfl

/-- The words of the filter have the value of all conditions of the query. -/
lemma means_filterWords (truth : Test → Bool) (hne : p.filterWords ≠ [])
    (h : ∀ stage ∈ p.stages, stage.Meets (fun cs => ∀ c ∈ cs, c.Full) fun _ => True) :
    Means truth .conjunction p.filterWords
      (p.stages.all fun stage => stage.conditions.all (Condition.holds truth)) := by
  have hselecting : ∀ stage ∈ p.selecting, Means truth .operand
      (Condition.fragmentWords stage.conditions)
      (stage.conditions.all (Condition.holds truth)) := by
    intro stage hstage
    obtain ⟨hmem, hconditions⟩ := mem_selecting.1 hstage
    refine Condition.means_fragmentWords hconditions ?_
    have hmeets := h stage hmem
    cases stage with
    | filter command conditions => exact hmeets
    | _ => exact absurd rfl hconditions
  have hjoined := means_joined .and (mt filterWords_eq_nil_iff.2 hne) hselecting
  have hvalue : Connective.value .and (p.selecting.map fun stage =>
      stage.conditions.all (Condition.holds truth)) =
      p.stages.all fun stage => stage.conditions.all (Condition.holds truth) := by
    rw [Connective.value, List.all_map, selecting, List.all_filter]
    refine List.all_congr rfl fun stage => ?_
    rw [Function.comp_apply, id]
    cases stage.conditions <;> simp
  rw [hvalue] at hjoined
  exact hjoined

/-- The tests among the words of the filter are those of the query. -/
lemma filterMap_test_filterWords (p : Pipeline) :
    p.filterWords.filterMap FilterWord.test? =
      p.stages.flatMap fun stage => Condition.allTests stage.conditions := by
  refine (Condition.filterMap_test_joined .and _).trans ?_
  rw [List.flatMap_map, selecting]
  induction p.stages with
  | nil => rfl
  | cons stage stages ih =>
    rw [List.filter_cons, List.flatMap_cons, ← ih]
    cases hconditions : stage.conditions with
    | nil => simp [Condition.allTests]
    | cons c rest => simp [hconditions, Condition.filterMap_test_fragmentWords]

end Pipeline

namespace Config

variable {c : Config} {query : String} {p : Pipeline}

/-- The filter of the statement of a query is a row of words with the tests of all conditions in
their order. It is left out if there are no conditions, and otherwise it has, by the rules of SQL,
the value of all conditions of all stages together and no other value. -/
theorem filter_means_conditions [Libraries] (h : parseQuery c.parserLimits query = .ok p)
    (d : Dialect) :
    let s := p.statement (c.target d) c.defaultLimit []
    ∃ words : List FilterWord,
      c.compile query d none none = .ok (s.beginning d
        ++ (if words.isEmpty then "" else " WHERE " ++ spelled d words) ++ s.ending d) ∧
      words.filterMap FilterWord.test? =
        (p.stages.flatMap fun stage => Condition.allTests stage.conditions) ∧
      (words = [] ↔ ∀ stage ∈ p.stages, stage.conditions = []) ∧
      (words ≠ [] → ∀ truth v, Means truth .disjunction words v ↔
        v = p.stages.all fun stage => stage.conditions.all (Condition.holds truth)) := by
  intro s
  refine ⟨p.filterWords, ?_, p.filterMap_test_filterWords, ?_, fun hne truth v => ?_⟩
  · refine compile_eq_ok.2 ⟨p, h, Pipeline.compile_eq_ok.2 ⟨none, none, rfl, rfl, ?_⟩⟩
    refine Eq.trans ?_ (Statement.render_eq s).symm
    exact congrArg (fun t => s.beginning d ++ t ++ s.ending d) (p.clause_filter (c.target d)).symm
  · rw [Pipeline.filterWords_eq_nil_iff, Pipeline.selecting, List.filter_eq_nil_iff]
    simp
  · have hmeets : ∀ stage ∈ p.stages, stage.Meets (fun cs => ∀ c ∈ cs, c.Full) fun _ => True :=
      parseQuery_meets Parser.conditions_yields_full .trivial h fun _ _ _ _ => trivial
    have hmeans := (Pipeline.means_filterWords truth hne hmeets).conjunction
    constructor
    · exact fun hv => hv.unique hmeans
    · rintro rfl
      exact hmeans

/-- A negated group, and a second stage with conditions of its own. -/
theorem filter_means_conditions_grouped :
    ∃ p, parseQuery (parserLimits {}) "NOT (a=1 OR b=2) c~x | where d=null" = .ok p ∧
      ∃ words : List FilterWord, words.filterMap FilterWord.test? =
          (p.stages.flatMap fun stage => Condition.allTests stage.conditions) ∧
        (words ≠ [] → ∀ truth v, Means truth .disjunction words v ↔
          v = p.stages.all fun stage => stage.conditions.all (Condition.holds truth)) := by
  have hsome : (parseQuery (parserLimits {})
      "NOT (a=1 OR b=2) c~x | where d=null").toOption.isSome = true := by decide +kernel
  obtain ⟨p, hp⟩ := Option.isSome_iff_exists.1 hsome
  obtain ⟨words, -, htests, -, hvalue⟩ :=
    filter_means_conditions (eq_ok_of_toOption hp) .clickHouse
  exact ⟨p, eq_ok_of_toOption hp, words, htests, hvalue⟩

end Config

end LogQuery
