import LogQuery.Proofs.Parser.Condition
import LogQuery.Proofs.Parser.Derivation
import LogQuery.Proofs.Syntax.Omission
import Mathlib.Tactic.ByContra
import Mathlib.Tactic.SplitIfs

namespace LogQuery.Parser

variable {s : Setting} {ts rest : List Token}

/-- What is derived is formed. The alternatives that are left to be read may be none. -/
def FormedAt : PhraseLevel → Phrase → Prop
  | .alternatives, p => ∃ ps, p = .any ps ∧ ∀ q ∈ ps, q.Formed
  | _, p => p.Formed

lemma formed_of_reads_termAt {t : Token} {c : Option Condition}
    (h : (termAt t).Reads s ts c rest) : (Phrase.term c).Formed := by
  have hyields : Yields (fun _ => True) (termAt t) fun c => (Phrase.term c).Formed :=
    termAt_yields .nothing (fun _ => .test) fun _ _ _ => .test
  exact hyields (fun _ _ => trivial) h

/-- The induction is on the derivation. -/
lemma Derives.formedAt {level : PhraseLevel} {p : Phrase} (h : Derives s level ts rest p) :
    FormedAt level p := by
  induction h with
  | term _ _ hterm => exact formed_of_reads_termAt hterm
  | not _ _ hstands ih => exact .not ih (hstands.eq_meaning ▸ Option.some_ne_none _)
  | parens _ _ _ ih => exact .parens ih
  | done => exact .all (by simp)
  | member _ _ _ ih ihs =>
    cases ihs with
    | all hs => exact .all (List.forall_mem_cons.2 ⟨ih, hs⟩)
  | andMember _ _ _ _ ih ihs =>
    cases ihs with
    | all hs => exact .all (List.forall_mem_cons.2 ⟨ih, hs⟩)
  | noMore => exact ⟨[], rfl, by simp⟩
  | alternative _ _ _ _ _ ih ihs ihs' =>
    obtain ⟨qs, heq, hqs⟩ := ihs'
    cases heq
    cases ihs with
    | all hs => exact ⟨_, rfl, List.forall_mem_cons.2 ⟨.all (List.forall_mem_cons.2 ⟨ih, hs⟩), hqs⟩⟩
  | disjunction _ _ ih ih' =>
    obtain ⟨qs, heq, hqs⟩ := ih'
    cases heq
    exact .any (List.cons_ne_nil _ _) (List.forall_mem_cons.2 ⟨ih, hqs⟩)

/-- The conditions of a stage have the value of the phrase that is written, with its stars true, if
no alternative is left out beside one that is not. Without negations, and if every comparison is
written once, there is no other case in which they always have it. -/
theorem conditions_hold_iff_unmixed {p : Phrase} (h : Derives s .disjunction ts rest p)
    (hdepth : p.nesting ≤ s.maxDepth) (hends : EndsStage rest) :
    conditions.Reads s ts p.conditions rest ∧
      (p.Unmixed → ∀ truth, p.conditions.all (Condition.holds truth) = p.holds truth) ∧
      (p.NotFree → p.tests.Nodup →
        (∀ truth, p.conditions.all (Condition.holds truth) = p.holds truth) → p.Unmixed) := by
  have hformed : p.Formed := h.formedAt
  have hvalue : ∀ truth, p.conditions.all (Condition.holds truth) =
      Condition.holdsIfAny truth p.meaning := fun truth => Condition.all_topLevel p.meaning
  simp only [hvalue]
  exact ⟨h.reads_conditions hdepth hends,
    fun hunmixed truth => hformed.holdsIfAny_meaning hunmixed,
    hformed.unmixed_of_holdsIfAny_meaning⟩

/-! ### A star as an alternative -/

/-- The tokens of `a OR *`. -/
def starTokens : List Token :=
  [⟨.identifier, "a", ⟨1, 1⟩⟩, ⟨.clause .or_, "OR", ⟨1, 3⟩⟩, ⟨.symbol .star, "*", ⟨1, 6⟩⟩]

/-- The phrase of `a OR *`. -/
def starPhrase : Phrase :=
  .any [.all [.term (some (.inRaw (.string "a")))], .all [.term none]]

lemma derives_starPhrase (s : Setting) : Derives s .disjunction starTokens [] starPhrase := by
  have ha : Derives s .unary starTokens starTokens.tail (.term (some (.inRaw (.string "a")))) :=
    .term (by decide) (by decide) ⟨List.suffix_rfl, rfl⟩
  have hstar : Derives s .unary [⟨.symbol .star, "*", ⟨1, 6⟩⟩] [] (.term none) :=
    .term (by decide) (by decide) ⟨List.suffix_rfl, rfl⟩
  refine .disjunction (.member ?_ ha .done) (.alternative rfl ?_ hstar .done .noMore)
  · simp [IsConnective]
  · simp [IsConnective]

/-- The conditions of `a OR *` do not have the value of the phrase where there is no `a`. -/
theorem conditions_hold_iff_unmixed_star :
    conditions.Reads ⟨⟨.eof, "", ⟨1, 7⟩⟩, 64⟩ starTokens [.inRaw (.string "a")] [] ∧
      ¬ starPhrase.Unmixed ∧
      ∃ truth, starPhrase.conditions.all (Condition.holds truth) ≠ starPhrase.holds truth := by
  obtain ⟨hread, -, honly⟩ := conditions_hold_iff_unmixed
    (derives_starPhrase ⟨⟨.eof, "", ⟨1, 7⟩⟩, 64⟩) (Nat.zero_le _) (by simp [EndsStage])
  have hmixed : ¬ starPhrase.Unmixed := by
    rintro ⟨⟩
    next hsame _ =>
      rcases hsame with hnone | hsome
      · cases hnone _ List.mem_cons_self
      · exact hsome (.all [.term none]) (by simp) rfl
  refine ⟨hread, hmixed, ?_⟩
  by_contra hall
  simp only [not_exists, not_not] at hall
  refine hmixed (honly ?_ ?_ hall)
  · refine .any fun p hp => ?_
    simp only [List.mem_cons, List.not_mem_nil, or_false] at hp
    rcases hp with rfl | rfl <;> exact .all (by simpa using .term)
  · simp [starPhrase, Phrase.tests, Phrase.testsOfAll, Condition.inRaw, Condition.tests]

end LogQuery.Parser
