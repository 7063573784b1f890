import LogQuery.Parser.Condition
import Mathlib.Tactic.Lemma

namespace LogQuery

structure Test where
  field : String
  comparison : Comparison
  value : Value

namespace Connective

/-- What a connective makes of two values. -/
def combine : Connective → Bool → Bool → Bool
  | .and, v, v' => v && v'
  | .or, v, v' => v || v'

/-- What a connective makes of values. -/
def value : Connective → List Bool → Bool
  | .and, vs => vs.all id
  | .or, vs => vs.any id

variable {logic : Connective}

@[simp] lemma combine_value_nil (v : Bool) : logic.combine v (logic.value []) = v := by
  cases logic <;> simp [combine, value]

lemma value_cons (v : Bool) (vs : List Bool) :
    logic.value (v :: vs) = logic.combine v (logic.value vs) := by
  cases logic <;> rfl

/-- Both connectives are associative. -/
lemma combine_assoc (u v w : Bool) :
    logic.combine (logic.combine u v) w = logic.combine u (logic.combine v w) := by
  cases logic with
  | and => exact Bool.and_assoc u v w
  | or => exact Bool.or_assoc u v w

end Connective

namespace Condition

mutual

/-- The value of a condition, given which comparisons hold. -/
def holds (truth : Test → Bool) : Condition → Bool
  | .compare field comparison value negated => negated ^^ truth ⟨field, comparison, value⟩
  | .group .and members negated => negated ^^ allHold truth members
  | .group .or members negated => negated ^^ anyHolds truth members

def allHold (truth : Test → Bool) : List Condition → Bool
  | [] => true
  | c :: rest => holds truth c && allHold truth rest

/-- Some of the conditions hold. -/
def anyHolds (truth : Test → Bool) : List Condition → Bool
  | [] => false
  | c :: rest => holds truth c || anyHolds truth rest

end

mutual

/-- The comparisons in a condition, from left to right. -/
def tests : Condition → List Test
  | .compare field comparison value _ => [⟨field, comparison, value⟩]
  | .group _ members _ => allTests members

def allTests : List Condition → List Test
  | [] => []
  | c :: rest => tests c ++ allTests rest

end

/-- No group in the condition is empty. -/
inductive Full : Condition → Prop where
  | compare {field : String} {comparison : Comparison} {value : Value} {negated : Bool} :
      Full (.compare field comparison value negated)
  | group {logic : Connective} {members : List Condition} {negated : Bool} :
      members ≠ [] → (∀ c ∈ members, Full c) → Full (.group logic members negated)

variable {truth : Test → Bool} {c : Condition} {cs : List Condition} {logic : Connective}

/-! ### Values -/

lemma allHold_eq_all : allHold truth cs = cs.all (holds truth) := by
  induction cs with
  | nil => rfl
  | cons c rest ih => rw [allHold, ih, List.all_cons]

lemma anyHolds_eq_any : anyHolds truth cs = cs.any (holds truth) := by
  induction cs with
  | nil => rfl
  | cons c rest ih => rw [anyHolds, ih, List.any_cons]

/-- A group has the value of its members under its connective, or the opposite if it is negated. -/
lemma holds_group {negated : Bool} :
    holds truth (.group logic cs negated) = (negated ^^ logic.value (cs.map (holds truth))) := by
  cases logic with
  | and => rw [holds, allHold_eq_all, Connective.value, List.all_map, Function.id_comp]
  | or => rw [holds, anyHolds_eq_any, Connective.value, List.any_map, Function.id_comp]

/-- Negation turns the value over, also where it only toggles a flag. -/
lemma holds_negate : c.negate.holds truth = !c.holds truth := by
  cases c with
  | compare field comparison value negated => simp [negate, holds]
  | group logic members negated => cases logic <;> simp [negate, holds]

/-- No condition at all is true. -/
def holdsIfAny (truth : Test → Bool) (o : Option Condition) : Bool := o.all (holds truth)

/-- Joined conditions hold if all do; none at all hold. -/
lemma holdsIfAny_join_and : holdsIfAny truth (join? .and cs) = cs.all (holds truth) := by
  rcases cs with _ | ⟨c, _ | ⟨c', rest⟩⟩
  · rfl
  · simp [join?, holdsIfAny]
  · simp [join?, holdsIfAny, holds, allHold_eq_all]

/-- Alternatives hold if one does. Of none nothing is joined, so there has to be one. -/
lemma holdsIfAny_join_or (h : cs ≠ []) :
    holdsIfAny truth (join? .or cs) = cs.any (holds truth) := by
  rcases cs with _ | ⟨c, _ | ⟨c', rest⟩⟩
  · contradiction
  · simp [join?, holdsIfAny]
  · simp [join?, holdsIfAny, holds, anyHolds_eq_any]

/-- A stage lists the members of a group that all have to hold one by one. -/
lemma all_topLevel (o : Option Condition) :
    (topLevel o).all (holds truth) = holdsIfAny truth o := by
  simp only [topLevel]
  split
  · rfl
  · simp [holdsIfAny, holds, allHold_eq_all]
  · simp [holdsIfAny]

/-! ### Groups with members -/

/-- Negation does not change the members. -/
lemma Full.negate (h : c.Full) : c.negate.Full := by
  cases h with
  | compare => exact .compare
  | group hne hall => exact .group hne hall

/-- Only two members or more become a group. -/
lemma full_join (h : ∀ c ∈ cs, c.Full) : ∀ c ∈ join? logic cs, c.Full := by
  intro c hc
  rcases cs with _ | ⟨c', _ | ⟨c'', rest⟩⟩
  · cases hc
  · cases hc
    exact h c (by simp)
  · cases hc
    exact .group (by simp) h

lemma full_topLevel {o : Option Condition} (h : ∀ c ∈ o, c.Full) : ∀ c ∈ topLevel o, c.Full := by
  simp only [topLevel]
  split
  · simp
  · next members =>
    cases h _ rfl with
    | group _ hall => exact hall
  · next c _ => simpa using h c

end Condition

end LogQuery
