import LogQuery.Proofs.Syntax.Phrase
import Mathlib.Tactic.ByContra

/-!
# Leaving out what says nothing

The meaning of a phrase leaves out the parts that say nothing, such as a bare star. As a value,
such a part is true (`Phrase.holds`). Among members that must all hold the two agree. Among
alternatives they agree only if all of them are left out or none is: of `a` or anything only `a` is
left, although anything is true. So the meaning of a phrase has its value if the phrase is unmixed
(`Phrase.Unmixed`), and without negations only then (`Phrase.exists_truth_of_not_unmixed`).
-/

namespace LogQuery

namespace Condition

variable {truth truth' : Test → Bool} {c : Condition} {cs : List Condition} {logic : Connective}

lemma join_eq_none : join? logic cs = none ↔ cs = [] := by
  rcases cs with _ | ⟨c, _ | ⟨c', rest⟩⟩ <;> simp [join?]

/-- Of some members something is joined. -/
lemma exists_mem_join (logic : Connective) (h : cs ≠ []) : ∃ c, c ∈ join? logic cs :=
  Option.ne_none_iff_exists'.1 fun hnone => h (join_eq_none.1 hnone)

/-- A join has the value that the connective makes of the values of its members. -/
lemma holds_of_mem_join (h : c ∈ join? logic cs) :
    c.holds truth = logic.value (cs.map (holds truth)) := by
  rcases cs with _ | ⟨c', _ | ⟨c'', rest⟩⟩
  · cases h
  · cases h
    cases logic <;> simp [Connective.value]
  · cases h
    rw [holds_group, Bool.false_xor]

/-- If no member holds, neither does their join. -/
lemma not_holds_of_mem_join (h : ∀ c ∈ cs, c.holds truth = false) :
    ∀ c ∈ join? logic cs, c.holds truth = false := by
  intro c hc
  have hne : cs ≠ [] := by
    rintro rfl
    cases hc
  obtain ⟨c', hc'⟩ := List.exists_mem_of_ne_nil cs hne
  rw [holds_of_mem_join hc]
  cases logic with
  | and => exact List.all_eq_false.2 ⟨false, List.mem_map.2 ⟨c', hc', h c' hc'⟩, by simp⟩
  | or =>
    refine List.any_eq_false.2 fun v hv => ?_
    obtain ⟨c, hc, rfl⟩ := List.mem_map.1 hv
    simp [h c hc]

lemma holds_congr_of_mem_join (h : ∀ c ∈ cs, c.holds truth = c.holds truth') :
    ∀ c ∈ join? logic cs, c.holds truth = c.holds truth' := by
  intro c hc
  rw [holds_of_mem_join hc, holds_of_mem_join hc, List.map_congr_left h]

end Condition

namespace Phrase

open Condition (holdsIfAny)

/-! ### The value of a phrase -/

mutual

/-- The value of a phrase, given which comparisons hold. What says nothing is true. -/
def holds (truth : Test → Bool) : Phrase → Bool
  | .term c => holdsIfAny truth c
  | .not p => !holds truth p
  | .parens p => holds truth p
  | .all members => allHold truth members
  | .any members => anyHolds truth members

def allHold (truth : Test → Bool) : List Phrase → Bool
  | [] => true
  | p :: rest => holds truth p && allHold truth rest

def anyHolds (truth : Test → Bool) : List Phrase → Bool
  | [] => false
  | p :: rest => holds truth p || anyHolds truth rest

end

mutual

/-- The comparisons in a phrase, from left to right. -/
def tests : Phrase → List Test
  | .term c => c.toList.flatMap Condition.tests
  | .not p | .parens p => tests p
  | .all members | .any members => testsOfAll members

def testsOfAll : List Phrase → List Test
  | [] => []
  | p :: rest => tests p ++ testsOfAll rest

end

/-- A phrase as it is read: its terms are single comparisons, what it negates says something, and
there is at least one alternative. -/
inductive Formed : Phrase → Prop where
  | nothing : Formed (.term none)
  | test {field : String} {comparison : Comparison} {value : Value} :
      Formed (.term (some (.compare field comparison value false)))
  | not {p : Phrase} : Formed p → p.meaning ≠ none → Formed (.not p)
  | parens {p : Phrase} : Formed p → Formed (.parens p)
  | all {ps : List Phrase} : (∀ p ∈ ps, Formed p) → Formed (.all ps)
  | any {ps : List Phrase} : ps ≠ [] → (∀ p ∈ ps, Formed p) → Formed (.any ps)

/-- Of the alternatives anywhere in the phrase, all say something or none does. -/
inductive Unmixed : Phrase → Prop where
  | term {c : Option Condition} : Unmixed (.term c)
  | not {p : Phrase} : Unmixed p → Unmixed (.not p)
  | parens {p : Phrase} : Unmixed p → Unmixed (.parens p)
  | all {ps : List Phrase} : (∀ p ∈ ps, Unmixed p) → Unmixed (.all ps)
  | any {ps : List Phrase} : (∀ p ∈ ps, p.meaning = none) ∨ (∀ p ∈ ps, p.meaning ≠ none) →
      (∀ p ∈ ps, Unmixed p) → Unmixed (.any ps)

/-- There is no negation in the phrase. -/
inductive NotFree : Phrase → Prop where
  | term {c : Option Condition} : NotFree (.term c)
  | parens {p : Phrase} : NotFree p → NotFree (.parens p)
  | all {ps : List Phrase} : (∀ p ∈ ps, NotFree p) → NotFree (.all ps)
  | any {ps : List Phrase} : (∀ p ∈ ps, NotFree p) → NotFree (.any ps)

variable {truth truth' : Test → Bool} {p q : Phrase} {ps : List Phrase}

lemma allHold_eq_all : allHold truth ps = ps.all (holds truth) := by
  induction ps with
  | nil => rfl
  | cons p rest ih => rw [allHold, ih, List.all_cons]

lemma anyHolds_eq_any : anyHolds truth ps = ps.any (holds truth) := by
  induction ps with
  | nil => rfl
  | cons p rest ih => rw [anyHolds, ih, List.any_cons]

/-- A conjunction holds if all of its members do. -/
lemma holds_all : (all ps).holds truth = true ↔ ∀ p ∈ ps, p.holds truth = true := by
  rw [holds, allHold_eq_all, List.all_eq_true]

/-- A disjunction holds if one of its members does. -/
lemma holds_any : (any ps).holds truth = true ↔ ∃ p ∈ ps, p.holds truth = true := by
  rw [holds, anyHolds_eq_any, List.any_eq_true]

lemma mem_testsOfAll {t : Test} : t ∈ testsOfAll ps ↔ ∃ p ∈ ps, t ∈ p.tests := by
  induction ps with
  | nil => simp [testsOfAll]
  | cons p rest ih => simp [testsOfAll, ih]

lemma mem_meanings {c : Condition} : c ∈ meanings ps ↔ ∃ p ∈ ps, c ∈ p.meaning := by
  induction ps with
  | nil => simp [meanings]
  | cons p rest ih => simp [meanings, ih]

lemma forall_mem_meanings {P : Condition → Prop} (h : ∀ p ∈ ps, ∀ c ∈ p.meaning, P c) :
    ∀ c ∈ meanings ps, P c := by
  intro c hc
  obtain ⟨p, hp, hmeaning⟩ := mem_meanings.1 hc
  exact h p hp c hmeaning

lemma meanings_eq_nil : meanings ps = [] ↔ ∀ p ∈ ps, p.meaning = none := by
  simp only [List.eq_nil_iff_forall_not_mem, mem_meanings, Option.eq_none_iff_forall_not_mem]
  grind

/-! ### Where the meaning has the value -/

/-- What is left out is true. -/
lemma Formed.holds_of_meaning_eq_none (h : p.Formed) (hnone : p.meaning = none) :
    p.holds truth = true := by
  induction h with
  | nothing => rfl
  | test => cases hnone
  | not _ hmeaning _ =>
    rw [meaning, Option.map_eq_none_iff] at hnone
    contradiction
  | parens _ ih => exact ih hnone
  | all _ ih =>
    have hmembers := meanings_eq_nil.1 (Condition.join_eq_none.1 hnone)
    rw [holds_all]
    exact fun p hp => ih p hp (hmembers p hp)
  | @any ps hne _ ih =>
    have hmembers := meanings_eq_nil.1 (Condition.join_eq_none.1 hnone)
    obtain ⟨p, hp⟩ := List.exists_mem_of_ne_nil ps hne
    rw [holds_any]
    exact ⟨p, hp, ih p hp (hmembers p hp)⟩

/-- Members that say nothing make no difference among those that must all hold. -/
lemma all_meanings (h : ∀ p ∈ ps, holdsIfAny truth p.meaning = p.holds truth) :
    (meanings ps).all (Condition.holds truth) = ps.all (holds truth) := by
  induction ps with
  | nil => rfl
  | cons p rest ih =>
    have hfirst : p.meaning.toList.all (Condition.holds truth) = p.holds truth := by
      rw [← h p (by simp), holdsIfAny]
      cases p.meaning <;> simp
    rw [meanings, List.all_append, List.all_cons, hfirst,
      ih fun p hp => h p (List.mem_cons_of_mem _ hp)]

/-- With no member left out, the conditions of the members hold as the members do. -/
lemma any_meanings (hmembers : ∀ p ∈ ps, p.meaning ≠ none)
    (h : ∀ p ∈ ps, holdsIfAny truth p.meaning = p.holds truth) :
    (meanings ps).any (Condition.holds truth) = ps.any (holds truth) := by
  induction ps with
  | nil => rfl
  | cons p rest ih =>
    obtain ⟨c, hc⟩ := Option.ne_none_iff_exists'.1 (hmembers p (by simp))
    have hfirst : c.holds truth = p.holds truth := by
      rw [← h p (by simp), hc]
      rfl
    rw [meanings, hc, Option.toList_some, List.singleton_append, List.any_cons, List.any_cons,
      hfirst, ih (fun p hp => hmembers p (List.mem_cons_of_mem _ hp))
        fun p hp => h p (List.mem_cons_of_mem _ hp)]

/-- The meaning of an unmixed phrase has the value of the phrase. -/
lemma Formed.holdsIfAny_meaning (h : p.Formed) (hunmixed : p.Unmixed) :
    holdsIfAny truth p.meaning = p.holds truth := by
  induction h with
  | nothing => rfl
  | test => rfl
  | not _ hmeaning ih =>
    cases hunmixed with
    | not hunmixed =>
      obtain ⟨c, hc⟩ := Option.ne_none_iff_exists'.1 hmeaning
      have hvalue := ih hunmixed
      rw [hc] at hvalue
      rw [meaning, holds, hc, ← hvalue]
      exact Condition.holds_negate
  | parens _ ih =>
    cases hunmixed with
    | parens hunmixed => exact ih hunmixed
  | all _ ih =>
    cases hunmixed with
    | all hunmixed =>
      rw [meaning, Condition.holdsIfAny_join_and, holds, allHold_eq_all]
      exact all_meanings fun p hp => ih p hp (hunmixed p hp)
  | @any ps hne hformed ih =>
    cases hunmixed with
    | any hsame hunmixed =>
      rcases hsame with hnone | hsome
      -- All alternatives are left out, and so is the whole, which is true like each of them.
      · have hmeaning : (Phrase.any ps).meaning = none :=
          Condition.join_eq_none.2 (meanings_eq_nil.2 hnone)
        rw [(Formed.any hne hformed).holds_of_meaning_eq_none hmeaning, hmeaning]
        rfl
      · obtain ⟨p, hp⟩ := List.exists_mem_of_ne_nil ps hne
        have hmeanings : meanings ps ≠ [] := fun heq => hsome p hp (meanings_eq_nil.1 heq p hp)
        rw [meaning, Condition.holdsIfAny_join_or hmeanings, holds, anyHolds_eq_any]
        exact any_meanings hsome fun p hp => ih p hp (hunmixed p hp)

/-! ### Where it has not -/

/-- Without negations nothing holds where no comparison does. -/
lemma Formed.not_holds_meaning (h : p.Formed) (hfree : p.NotFree)
    (htests : ∀ t ∈ p.tests, truth t = false) : ∀ c ∈ p.meaning, c.holds truth = false := by
  induction h with
  | nothing => simp [meaning]
  | test =>
    rintro c ⟨⟩
    simpa [tests, Condition.tests, Condition.holds] using htests
  | not => cases hfree
  | parens _ ih =>
    cases hfree with
    | parens hfree => exact ih hfree htests
  | all _ ih =>
    cases hfree with
    | all hfree =>
      refine Condition.not_holds_of_mem_join (forall_mem_meanings fun p hp => ?_)
      exact ih p hp (hfree p hp) fun t ht => htests t (mem_testsOfAll.2 ⟨p, hp, ht⟩)
  | any _ _ ih =>
    cases hfree with
    | any hfree =>
      refine Condition.not_holds_of_mem_join (forall_mem_meanings fun p hp => ?_)
      exact ih p hp (hfree p hp) fun t ht => htests t (mem_testsOfAll.2 ⟨p, hp, ht⟩)

/-- Without negations a phrase holds where every comparison does. -/
lemma Formed.holds_of_tests (h : p.Formed) (hfree : p.NotFree)
    (htests : ∀ t ∈ p.tests, truth t = true) : p.holds truth = true := by
  induction h with
  | nothing => rfl
  | test => simpa [tests, Condition.tests, holds, holdsIfAny, Condition.holds] using htests
  | not => cases hfree
  | parens _ ih =>
    cases hfree with
    | parens hfree => exact ih hfree htests
  | all _ ih =>
    cases hfree with
    | all hfree =>
      rw [holds_all]
      exact fun p hp => ih p hp (hfree p hp) fun t ht => htests t (mem_testsOfAll.2 ⟨p, hp, ht⟩)
  | @any ps hne _ ih =>
    cases hfree with
    | any hfree =>
      obtain ⟨p, hp⟩ := List.exists_mem_of_ne_nil ps hne
      rw [holds_any]
      exact ⟨p, hp, ih p hp (hfree p hp) fun t ht => htests t (mem_testsOfAll.2 ⟨p, hp, ht⟩)⟩

/-- The meaning of a phrase depends on its comparisons alone. -/
lemma Formed.meaning_congr (h : p.Formed) (htests : ∀ t ∈ p.tests, truth t = truth' t) :
    ∀ c ∈ p.meaning, c.holds truth = c.holds truth' := by
  induction h with
  | nothing => simp [meaning]
  | test =>
    rintro c ⟨⟩
    simpa [tests, Condition.tests, Condition.holds] using htests
  | not _ _ ih =>
    intro c hc
    obtain ⟨c', hc', rfl⟩ := Option.map_eq_some_iff.1 hc
    rw [Condition.holds_negate, Condition.holds_negate, ih htests c' hc']
  | parens _ ih => exact ih htests
  | all _ ih =>
    refine Condition.holds_congr_of_mem_join (forall_mem_meanings fun p hp => ?_)
    exact ih p hp fun t ht => htests t (mem_testsOfAll.2 ⟨p, hp, ht⟩)
  | any _ _ ih =>
    refine Condition.holds_congr_of_mem_join (forall_mem_meanings fun p hp => ?_)
    exact ih p hp fun t ht => htests t (mem_testsOfAll.2 ⟨p, hp, ht⟩)

/-- The value of a phrase depends on its comparisons alone. -/
lemma Formed.holds_congr (h : p.Formed) (htests : ∀ t ∈ p.tests, truth t = truth' t) :
    p.holds truth = p.holds truth' := by
  induction h with
  | nothing => rfl
  | test => simpa [tests, Condition.tests, holds, holdsIfAny, Condition.holds] using htests
  | not _ _ ih => rw [holds, holds, ih htests]
  | parens _ ih => exact ih htests
  | all _ ih =>
    rw [Bool.eq_iff_iff, holds_all, holds_all]
    refine forall₂_congr fun p hp => ?_
    rw [ih p hp fun t ht => htests t (mem_testsOfAll.2 ⟨p, hp, ht⟩)]
  | any _ _ ih =>
    rw [Bool.eq_iff_iff, holds_any, holds_any]
    refine exists_congr fun p => and_congr_right fun hp => ?_
    rw [ih p hp fun t ht => htests t (mem_testsOfAll.2 ⟨p, hp, ht⟩)]

open Classical in
/-- An assignment on the comparisons of a phrase, and one value for all others. -/
noncomputable def within (q : Phrase) (truth : Test → Bool) (v : Bool) : Test → Bool :=
  fun t => if t ∈ q.tests then truth t else v

/-- The changed assignment keeps the tests of the phrase. -/
lemma within_of_mem {v : Bool} {t : Test} (h : t ∈ q.tests) : q.within truth v t = truth t :=
  if_pos h

/-- It gives all other tests one value. -/
lemma within_of_not_mem {v : Bool} {t : Test} (h : t ∉ q.tests) : q.within truth v t = v :=
  if_neg h

/-- Where all comparisons are distinct, different phrases share none. -/
lemma not_mem_tests (hnodup : (testsOfAll ps).Nodup) (hp : p ∈ ps) (hq : q ∈ ps) (hne : p ≠ q)
    {t : Test} (ht : t ∈ p.tests) : t ∉ q.tests := by
  induction ps with
  | nil => cases hp
  | cons r rest ih =>
    obtain ⟨-, hrest, hapart⟩ := List.nodup_append.1 hnodup
    intro ht'
    rcases List.mem_cons.1 hp with rfl | hp'
    · rcases List.mem_cons.1 hq with rfl | hq'
      · exact hne rfl
      · exact hapart t ht t (mem_testsOfAll.2 ⟨q, hq', ht'⟩) rfl
    · rcases List.mem_cons.1 hq with rfl | hq'
      · exact hapart t ht' t (mem_testsOfAll.2 ⟨p, hp', ht⟩) rfl
      · exact ih hrest hp' hq' ht'

/-- A part of a phrase without repeated tests repeats none. -/
lemma nodup_tests_of_mem (hnodup : (testsOfAll ps).Nodup) (hp : p ∈ ps) : p.tests.Nodup := by
  induction ps with
  | nil => cases hp
  | cons q rest ih =>
    obtain ⟨hfirst, hrest, -⟩ := List.nodup_append.1 hnodup
    rcases List.mem_cons.1 hp with rfl | hp
    · exact hfirst
    · exact ih hrest hp

/-- The assignment makes the meaning of a phrase false and the phrase itself true. -/
def Separates (truth : Test → Bool) (p : Phrase) : Prop :=
  (∃ c ∈ p.meaning, c.holds truth = false) ∧ p.holds truth = true

/-- Whatever is assigned to the comparisons outside of a phrase, it is separated alike. -/
lemma Separates.within (h : Separates truth q) (hq : q.Formed) (v : Bool) :
    Separates (q.within truth v) q := by
  obtain ⟨⟨c, hc, hfalse⟩, htrue⟩ := h
  have hagree : ∀ t ∈ q.tests, q.within truth v t = truth t := fun t ht => within_of_mem ht
  refine ⟨⟨c, hc, ?_⟩, ?_⟩
  · rw [hq.meaning_congr hagree c hc]
    exact hfalse
  · rw [hq.holds_congr hagree]
    exact htrue

/-- One separated member separates members that must all hold: the others are made true. -/
lemma Separates.all (h : Separates truth q) (hq : q ∈ ps) (hformed : ∀ p ∈ ps, p.Formed)
    (hfree : ∀ p ∈ ps, p.NotFree) (hnodup : (testsOfAll ps).Nodup) :
    Separates (q.within truth true) (.all ps) := by
  obtain ⟨⟨c, hc, hfalse⟩, htrue⟩ := h.within (hformed q hq) true
  have hmem : c ∈ meanings ps := mem_meanings.2 ⟨q, hq, hc⟩
  constructor
  · obtain ⟨whole, hwhole⟩ := Condition.exists_mem_join .and (List.ne_nil_of_mem hmem)
    refine ⟨whole, hwhole, ?_⟩
    rw [Condition.holds_of_mem_join hwhole]
    exact List.all_eq_false.2 ⟨false, List.mem_map.2 ⟨c, hmem, hfalse⟩, by simp⟩
  · refine holds_all.2 fun p hp => ?_
    by_cases heq : p = q
    · rw [heq]
      exact htrue
    · exact (hformed p hp).holds_of_tests (hfree p hp) fun t ht =>
        within_of_not_mem (not_mem_tests hnodup hp hq heq ht)

/-- One separated member separates alternatives: the others are made false. -/
lemma Separates.any (h : Separates truth q) (hq : q ∈ ps) (hformed : ∀ p ∈ ps, p.Formed)
    (hfree : ∀ p ∈ ps, p.NotFree) (hnodup : (testsOfAll ps).Nodup) :
    Separates (q.within truth false) (.any ps) := by
  obtain ⟨⟨c, hc, hfalse⟩, htrue⟩ := h.within (hformed q hq) false
  constructor
  · have hmem : c ∈ meanings ps := mem_meanings.2 ⟨q, hq, hc⟩
    obtain ⟨whole, hwhole⟩ := Condition.exists_mem_join .or (List.ne_nil_of_mem hmem)
    refine ⟨whole, hwhole, ?_⟩
    refine Condition.not_holds_of_mem_join (forall_mem_meanings fun p hp c' hc' => ?_) whole hwhole
    by_cases heq : p = q
    · subst heq
      cases hc.symm.trans hc'
      exact hfalse
    · exact (hformed p hp).not_holds_meaning (hfree p hp) (fun t ht =>
        within_of_not_mem (not_mem_tests hnodup hp hq heq ht)) c' hc'
  · exact holds_any.2 ⟨q, hq, htrue⟩

/-- Alternatives of which one is left out and one is not are separated where no comparison holds. -/
lemma separates_any_of_mixed (hformed : ∀ p ∈ ps, p.Formed) (hfree : ∀ p ∈ ps, p.NotFree)
    (hp : p ∈ ps) (hnone : p.meaning = none) (hq : q ∈ ps) (hsome : q.meaning ≠ none) :
    Separates (fun _ => false) (.any ps) := by
  constructor
  · obtain ⟨c, hc⟩ := Option.ne_none_iff_exists'.1 hsome
    obtain ⟨whole, hwhole⟩ := Condition.exists_mem_join .or
      (List.ne_nil_of_mem (mem_meanings.2 ⟨q, hq, hc⟩))
    exact ⟨whole, hwhole, (Formed.any (List.ne_nil_of_mem hp) hformed).not_holds_meaning
      (.any hfree) (fun _ _ => rfl) whole hwhole⟩
  · exact holds_any.2 ⟨p, hp, (hformed p hp).holds_of_meaning_eq_none hnone⟩

/-- Without negations and with distinct comparisons, a mixed phrase is separated from its meaning by
some assignment. -/
lemma Formed.exists_separates (h : p.Formed) (hfree : p.NotFree) (hnodup : p.tests.Nodup)
    (hmixed : ¬ p.Unmixed) : ∃ truth, Separates truth p := by
  induction h with
  | nothing => exact (hmixed .term).elim
  | test => exact (hmixed .term).elim
  | not => cases hfree
  | parens _ ih =>
    cases hfree with
    | parens hfree => exact ih hfree hnodup fun hunmixed => hmixed (.parens hunmixed)
  | @all ps hformed ih =>
    cases hfree with
    | all hfree =>
      have hmember : ¬ ∀ q ∈ ps, q.Unmixed := fun hunmixed => hmixed (.all hunmixed)
      simp only [not_forall] at hmember
      obtain ⟨q, hq, hmember⟩ := hmember
      obtain ⟨truth, htruth⟩ := ih q hq (hfree q hq) (nodup_tests_of_mem hnodup hq) hmember
      exact ⟨_, htruth.all hq hformed hfree hnodup⟩
  | @any ps hne hformed ih =>
    cases hfree with
    | any hfree =>
      -- Either these alternatives are mixed, or one of them is further in.
      by_cases hmembers : ∀ q ∈ ps, q.Unmixed
      · have hhere : ¬ ((∀ p ∈ ps, p.meaning = none) ∨ ∀ p ∈ ps, p.meaning ≠ none) :=
          fun hsame => hmixed (.any hsame hmembers)
        simp only [not_or, not_forall, not_not] at hhere
        obtain ⟨⟨q, hq, hsome⟩, ⟨p, hp, hnone⟩⟩ := hhere
        exact ⟨_, separates_any_of_mixed hformed hfree hp hnone hq hsome⟩
      · simp only [not_forall] at hmembers
        obtain ⟨q, hq, hmember⟩ := hmembers
        obtain ⟨truth, htruth⟩ := ih q hq (hfree q hq) (nodup_tests_of_mem hnodup hq) hmember
        exact ⟨_, htruth.any hq hformed hfree hnodup⟩

/-- Without negations and with distinct comparisons, the meaning of a phrase has its value for every
assignment only if the phrase is unmixed. -/
lemma Formed.unmixed_of_holdsIfAny_meaning (h : p.Formed) (hfree : p.NotFree)
    (hnodup : p.tests.Nodup) (hvalue : ∀ truth, holdsIfAny truth p.meaning = p.holds truth) :
    p.Unmixed := by
  by_contra hmixed
  obtain ⟨truth, ⟨c, hc, hfalse⟩, htrue⟩ := h.exists_separates hfree hnodup hmixed
  have heq := hvalue truth
  rw [Option.mem_def.1 hc, htrue] at heq
  exact Bool.false_ne_true (hfalse.symm.trans heq)

end Phrase

end LogQuery
