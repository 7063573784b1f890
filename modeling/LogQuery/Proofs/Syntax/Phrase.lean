import LogQuery.Proofs.Syntax.Meaning

/-!
# Phrases

What stands in a query in the place of conditions, part by part: terms, among them those that say
nothing, negations, pairs of parentheses, and members side by side or with `OR` between them.

The rules of `StandsFor` say which condition a phrase stands for, and those of `Lists` what a stage
with this condition lists. Neither knows how the reader builds conditions; that its functions follow
the rules is `StandsFor.eq_meaning` and `lists_iff`.
-/

namespace LogQuery

/-- A phrase of conditions, as it is written. -/
inductive Phrase where
  /-- A term, which may be no condition at all. -/
  | term (c : Option Condition)
  | not (p : Phrase)
  | parens (p : Phrase)
  /-- Members that must all hold, side by side or with `AND` between them. -/
  | all (members : List Phrase)
  /-- Members of which one must hold, with `OR` between them. -/
  | any (members : List Phrase)

/-! ### The rules of the tree -/

/-- A condition and its opposite differ in their sign only. -/
inductive Condition.Opposite : Condition → Condition → Prop
  | compare (field : String) (comparison : Comparison) (value : Value) (negated : Bool) :
      Opposite (.compare field comparison value negated) (.compare field comparison value !negated)
  | group (logic : Connective) (members : List Condition) (negated : Bool) :
      Opposite (.group logic members negated) (.group logic members !negated)

/-- What members joined by a connective come to: no members to nothing, a single one to itself, and
two or more to a group of them in their order. -/
inductive Condition.Gathers (logic : Connective) : List Condition → Option Condition → Prop
  | nothing : Gathers logic [] none
  | single (c : Condition) : Gathers logic [c] (some c)
  | group (c c' : Condition) (more : List Condition) :
      Gathers logic (c :: c' :: more) (some (.group logic (c :: c' :: more) false))

/-- What a stage with a condition lists: the members of a group of which all must hold, if it is not
negated, and any other condition as it is. -/
inductive Condition.Lists : Option Condition → List Condition → Prop
  | nothing : Lists none []
  | members (cs : List Condition) : Lists (some (.group .and cs false)) cs
  | alone (c : Condition) (h : ∀ cs, c ≠ .group .and cs false) : Lists (some c) [c]

namespace Phrase

mutual

/-- The condition that a phrase stands for, or that it stands for none. -/
inductive StandsFor : Phrase → Option Condition → Prop
  | term (c : Option Condition) : StandsFor (.term c) c
  | not {p : Phrase} {c c' : Condition} :
      StandsFor p (some c) → c.Opposite c' → StandsFor (.not p) (some c')
  | parens {p : Phrase} {c : Option Condition} : StandsFor p c → StandsFor (.parens p) c
  | all {ps : List Phrase} {cs : List Condition} {c : Option Condition} :
      StandForAll ps cs → Condition.Gathers .and cs c → StandsFor (.all ps) c
  | any {ps : List Phrase} {cs : List Condition} {c : Option Condition} :
      StandForAll ps cs → Condition.Gathers .or cs c → StandsFor (.any ps) c

/-- The conditions that the members of a phrase stand for, without those that stand for none. -/
inductive StandForAll : List Phrase → List Condition → Prop
  | nil : StandForAll [] []
  | dropped {p : Phrase} {ps : List Phrase} {cs : List Condition} :
      StandsFor p none → StandForAll ps cs → StandForAll (p :: ps) cs
  | member {p : Phrase} {c : Condition} {ps : List Phrase} {cs : List Condition} :
      StandsFor p (some c) → StandForAll ps cs → StandForAll (p :: ps) (c :: cs)

end

/-! ### How the reader builds it -/

mutual

/-- The condition that the reader makes of a phrase, if it says anything. -/
def meaning : Phrase → Option Condition
  | .term c => c
  | .not p => p.meaning.map Condition.negate
  | .parens p => p.meaning
  | .all members => Condition.join? .and (meanings members)
  | .any members => Condition.join? .or (meanings members)

/-- The conditions of the phrases that say anything, in order. -/
def meanings : List Phrase → List Condition
  | [] => []
  | p :: rest => p.meaning.toList ++ meanings rest

end

mutual

/-- How many negations and parentheses are open at once at most. -/
def nesting : Phrase → Nat
  | .term _ => 0
  | .not p | .parens p => p.nesting + 1
  | .all members | .any members => nestingOfAll members

/-- How many negations and parentheses are open at once at most in any of the phrases. -/
def nestingOfAll : List Phrase → Nat
  | [] => 0
  | p :: rest => max p.nesting (nestingOfAll rest)

end

/-- The conditions that a stage with this phrase lists. -/
def conditions (p : Phrase) : List Condition := Condition.topLevel p.meaning

end Phrase

/-! ### The reader follows the rules -/

namespace Condition

variable {c c' : Condition}

/-- Negation is the only way to the opposite. -/
lemma opposite_iff : c.Opposite c' ↔ c' = c.negate := by
  constructor
  · rintro ⟨⟩ <;> rfl
  · rintro rfl
    cases c with
    | compare => exact .compare ..
    | group => exact .group ..

/-- The rules for gathering members have one result, which is that of the parser. -/
lemma gathers_iff {logic : Connective} {cs : List Condition} {c : Option Condition} :
    Gathers logic cs c ↔ c = join? logic cs := by
  constructor
  · rintro ⟨⟩ <;> rfl
  · rintro rfl
    match cs with
    | [] => exact .nothing
    | [c] => exact .single c
    | c :: c' :: more => exact .group c c' more

/-- The rules for the list of a stage have one result too. -/
lemma lists_iff {c : Option Condition} {cs : List Condition} : Lists c cs ↔ cs = topLevel c := by
  constructor
  · rintro (_ | _ | ⟨c, hc⟩)
    · rfl
    · rfl
    · rw [topLevel.eq_def]
      split
      · next heq => cases heq
      · next members heq => exact absurd (Option.some.inj heq) (hc members)
      · next heq => rw [Option.some.inj heq]
  · rintro rfl
    rw [topLevel.eq_def]
    split
    · exact .nothing
    · next members => exact .members members
    · next c hgroup => exact .alone c fun cs heq => hgroup cs heq

end Condition

namespace Phrase

mutual

/-- A phrase stands for nothing but what the reader makes of it. -/
lemma StandsFor.eq_meaning {p : Phrase} {c : Option Condition} (h : StandsFor p c) :
    c = p.meaning := by
  cases h with
  | term => rfl
  | not hp hc =>
    rw [meaning, ← StandsFor.eq_meaning hp, Option.map_some, Condition.opposite_iff.1 hc]
  | parens hp => rw [meaning, ← StandsFor.eq_meaning hp]
  | all hps hc => rw [meaning, ← StandForAll.eq_meanings hps, Condition.gathers_iff.1 hc]
  | any hps hc => rw [meaning, ← StandForAll.eq_meanings hps, Condition.gathers_iff.1 hc]

/-- The conditions that the members stand for are their meanings, in order. -/
lemma StandForAll.eq_meanings {ps : List Phrase} {cs : List Condition} (h : StandForAll ps cs) :
    cs = meanings ps := by
  cases h with
  | nil => rfl
  | dropped hp hps =>
    rw [meanings, ← StandsFor.eq_meaning hp]
    exact StandForAll.eq_meanings hps
  | member hp hps =>
    rw [meanings, ← StandsFor.eq_meaning hp, ← StandForAll.eq_meanings hps]
    rfl

end

variable {p : Phrase} {ps : List Phrase} {c : Option Condition} {cs : List Condition}

/-- The opposite of what a phrase stands for is what its negation stands for. -/
lemma StandsFor.negation {c : Condition} (h : StandsFor p (some c)) :
    StandsFor (.not p) (some c.negate) := .not h (Condition.opposite_iff.2 rfl)

lemma StandsFor.standForAll (h : StandsFor (.all ps) c) : StandForAll ps (meanings ps) := by
  cases h with
  | all hps _ => exact hps.eq_meanings ▸ hps

lemma StandForAll.standsFor_all (h : StandForAll ps cs) :
    StandsFor (.all ps) (Condition.join? .and cs) := .all h (Condition.gathers_iff.2 rfl)

lemma StandForAll.standsFor_any (h : StandForAll ps cs) :
    StandsFor (.any ps) (Condition.join? .or cs) := .any h (Condition.gathers_iff.2 rfl)

/-- A phrase in front of others is left out or comes first. -/
lemma StandForAll.cons (hp : StandsFor p c) (hps : StandForAll ps cs) :
    StandForAll (p :: ps) (c.toList ++ cs) := by
  cases c with
  | none => exact .dropped hp hps
  | some c => exact .member hp hps

end Phrase

end LogQuery
