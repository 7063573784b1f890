import LogQuery.Proofs.Parser.Condition
import LogQuery.Proofs.Parser.ConditionRederivation
import Mathlib.Algebra.Ring.Nat

namespace LogQuery

open Lexer

instance : DecidablePred NamesConnective := fun field =>
  inferInstanceAs (Decidable (Text.lowercase field = "and" ∨ Text.lowercase field = "or"))

/-! ### The comparisons of what is derived -/

namespace Condition

variable {c : Condition} {cs : List Condition} {logic : Connective} {negated : Bool}

lemma allTests_eq_flatMap : allTests cs = cs.flatMap tests := by
  induction cs with
  | nil => rfl
  | cons c rest ih => rw [allTests, ih, List.flatMap_cons]

lemma allTestsWith_eq_flatMap : allTestsWith negated cs = cs.flatMap (testsWith negated) := by
  induction cs with
  | nil => rfl
  | cons c rest ih => rw [allTestsWith, ih, List.flatMap_cons]

/-- Negation changes no test. -/
lemma tests_negate : c.negate.tests = c.tests := by
  cases c <;> simp [negate, tests]

/-- A group has the tests of its members. -/
lemma flatMap_tests_join : (join? logic cs).toList.flatMap tests = cs.flatMap tests := by
  rcases cs with _ | ⟨c, _ | ⟨c', rest⟩⟩ <;> simp [join?, tests, allTests_eq_flatMap]

/-- So has the list of a stage. -/
lemma flatMap_tests_topLevel (o : Option Condition) :
    (topLevel o).flatMap tests = o.toList.flatMap tests := by
  rw [topLevel.eq_def]
  split <;> simp [tests, allTests_eq_flatMap]

end Condition

namespace Phrase

mutual

/-- A phrase and what it stands for have the same comparisons. -/
lemma flatMap_tests_meaning (p : Phrase) : p.meaning.toList.flatMap Condition.tests = p.tests := by
  cases p with
  | term c => rw [meaning, tests]
  | not p =>
    have h := flatMap_tests_meaning p
    rw [tests, ← h, meaning]
    cases p.meaning <;> simp [Condition.tests_negate]
  | parens p =>
    rw [meaning, tests]
    exact flatMap_tests_meaning p
  | all ps | any ps =>
    rw [meaning, tests, Condition.flatMap_tests_join]
    exact flatMap_tests_meanings ps

/-- The conditions of some phrases hold the tests of the phrases. -/
lemma flatMap_tests_meanings (ps : List Phrase) :
    (meanings ps).flatMap Condition.tests = testsOfAll ps := by
  cases ps with
  | nil => rfl
  | cons p ps =>
    rw [meanings, testsOfAll, List.flatMap_append, flatMap_tests_meaning p,
      flatMap_tests_meanings ps]

end

end Phrase

/-! ### Connectives behind a `NOT` -/

/-- The kinds of the connectives. -/
def TokenKind.isConnective : TokenKind → Bool
  | .clause .and_ | .clause .or_ => true
  | _ => false

@[simp] lemma isConnective_not : (TokenKind.clause .not_).isConnective = false := rfl

@[simp] lemma isConnective_wordKind (field : String) :
    (wordKind field.toList).isConnective = true ↔ NamesConnective field := by
  rw [namesConnective_iff]
  cases wordKind field.toList with
  | clause word => cases word <;> simp [TokenKind.isConnective]
  | _ => simp [TokenKind.isConnective]

/-- How many connectives stand behind a `NOT`. -/
def negatedConnectives (previous : Option TokenKind) : List (TokenKind × String) → Nat
  | [] => 0
  | word :: words =>
    (if previous = some (.clause .not_) ∧ word.1.isConnective = true then 1 else 0) +
      negatedConnectives (some word.1) words

section NegatedConnectives

variable {previous : Option TokenKind} {word : TokenKind × String}
  {words words' : List (TokenKind × String)}

lemma negatedConnectives_append : negatedConnectives previous (words ++ words') =
    negatedConnectives previous words + negatedConnectives (lastKind previous words) words' := by
  induction words generalizing previous with
  | nil => simp [negatedConnectives]
  | cons word words ih =>
    rw [List.cons_append, negatedConnectives, ih, negatedConnectives, lastKind_cons, Nat.add_assoc]

lemma negatedConnectives_none_le :
    negatedConnectives none words ≤ negatedConnectives previous words := by
  cases words with
  | nil => exact Nat.le_refl 0
  | cons word words => simp [negatedConnectives]

lemma negatedConnectives_le_of_suffix (h : words' <:+ words) :
    negatedConnectives none words' ≤ negatedConnectives none words := by
  obtain ⟨front, rfl⟩ := h
  rw [negatedConnectives_append]
  exact Nat.le_trans negatedConnectives_none_le (Nat.le_add_left _ _)

end NegatedConnectives

/-- How many of the comparisons have a field that names a connective. -/
def connectiveTests (tests : List Test) : Nat :=
  tests.countP fun t => decide (NamesConnective t.field)

lemma connectiveTests_append (tests tests' : List Test) :
    connectiveTests (tests ++ tests') = connectiveTests tests + connectiveTests tests' :=
  List.countP_append

namespace Parser

variable {s : Setting} {t : Token} {ts rest : List Token} {p : Phrase}

/-- How many connectives stand behind a `NOT` among the tokens. -/
def negatedIn (ts : List Token) : Nat := negatedConnectives none (ts.map Token.spelling)

/-- Fewer tokens hold fewer negated connectives. -/
lemma negatedIn_le_of_suffix (h : rest <:+ ts) : negatedIn rest ≤ negatedIn ts :=
  negatedConnectives_le_of_suffix (h.map Token.spelling)

lemma negatedIn_le_cons : negatedIn ts ≤ negatedIn (t :: ts) :=
  negatedIn_le_of_suffix (List.suffix_cons t ts)

/-- One if the token is a connective. -/
def leading (t : Token) : Nat := if t.kind.isConnective = true then 1 else 0

lemma leading_of_not_isConnective (h : ¬ IsConnective t) : leading t = 0 := by
  refine if_neg fun hkind => h ?_
  rw [IsConnective]
  revert hkind
  cases t.kind with
  | clause word => cases word <;> simp [TokenKind.isConnective]
  | _ => simp [TokenKind.isConnective]

/-- Behind `NOT`, a connective counts once more. -/
lemma negatedIn_not {u : Token} (ht : t.kind = .clause .not_) :
    negatedIn (u :: ts) + leading u = negatedIn (t :: u :: ts) := by
  simp [negatedIn, negatedConnectives, leading, ht]
  omega

/-- A term whose field names a connective begins with that connective. -/
lemma connectiveTests_term {c : Option Condition} (ht : t.IsGenuine)
    (h : (termAt t).Reads s ts c rest) : connectiveTests (Phrase.term c).tests ≤ leading t := by
  have hyields : Yields (fun _ => True) (termAt t) fun c =>
      connectiveTests (Phrase.term c).tests ≤ leading t := by
    have hraw : ¬ NamesConnective rawField := by decide
    refine termAt_yields (Nat.zero_le _) (fun value => ?_) fun hword comparison value => ?_
    · simp [Phrase.tests, Condition.inRaw, Condition.tests, connectiveTests, hraw]
    have htests : (Phrase.term (some (.compare t.text comparison value false))).tests =
        [⟨t.text, comparison, value⟩] := by simp [Phrase.tests, Condition.tests]
    rw [htests, connectiveTests, List.countP_singleton]
    by_cases hnames : NamesConnective t.text
    · have hkind : t.kind.isConnective = true := by
        rw [(ht.word hword).2]
        exact (isConnective_wordKind t.text).2 hnames
      simp [leading, hkind, hnames]
    · simp [hnames]
  exact hyields (fun _ _ => trivial) h

lemma Derives.exists_cons (h : Derives s .unary ts rest p) : ∃ u us, ts = u :: us := by
  cases h <;> exact ⟨_, _, rfl⟩

/-- What a level may count beyond the connectives behind a `NOT`: a unary phrase can begin with a
connective, if there is a `NOT` in front of it. -/
def allowance : PhraseLevel → List Token → Nat
  | .unary, t :: _ => leading t
  | _, _ => 0

/-- Tokens derive no more comparisons of a field that names a connective than they have connectives
behind a `NOT`. The induction is on the derivation. -/
lemma Derives.connectiveTests_le {level : PhraseLevel} (h : Derives s level ts rest p)
    (hts : ∀ t ∈ ts, t.IsGenuine) :
    connectiveTests p.tests + negatedIn rest ≤ negatedIn ts + allowance level ts := by
  have hrest : ∀ {level ts mid p}, Derives s level ts mid p → (∀ t ∈ ts, t.IsGenuine) →
      ∀ t ∈ mid, t.IsGenuine := fun h hts t ht => hts t (h.isSuffix.subset ht)
  induction h with
  | @term t ts rest c _ _ hr =>
    have hterm := connectiveTests_term (hts t (by simp)) hr
    have hle := Nat.le_trans (negatedIn_le_of_suffix hr.isSuffix) (negatedIn_le_cons (t := t))
    exact Nat.add_comm _ _ ▸ Nat.add_le_add hle hterm
  | @not t ts rest p c hnot hp _ ih =>
    have hle := ih fun u hu => hts u (by simp [hu])
    obtain ⟨u, us, rfl⟩ := hp.exists_cons
    rw [allowance, negatedIn_not hnot] at hle
    exact Nat.le_trans hle (Nat.le_add_right _ _)
  | @parens t t' ts rest p _ _ _ ih =>
    have hle := ih fun u hu => hts u (by simp [hu])
    have hopen : negatedIn ts ≤ negatedIn (t :: ts) := negatedIn_le_cons
    have hclose : negatedIn rest ≤ negatedIn (t' :: rest) := negatedIn_le_cons
    rw [Phrase.tests]
    simp only [allowance] at hle ⊢
    omega
  | done | noMore => simp [Phrase.tests, Phrase.testsOfAll, connectiveTests]
  | @member t ts mid rest p ps hmember hp _ ih ihs =>
    have hle := ih hts
    have hles := ihs (hrest hp hts)
    rw [allowance, leading_of_not_isConnective hmember] at hle
    simp only [Phrase.tests, Phrase.testsOfAll, connectiveTests_append, allowance] at hles ⊢
    omega
  | @andMember t t' ts mid rest p ps _ hmember hp _ ih ihs =>
    have hts' : ∀ u ∈ t' :: ts, u.IsGenuine := fun u hu => hts u (List.mem_cons_of_mem _ hu)
    have hle := ih hts'
    have hles := ihs (hrest hp hts')
    have hand : negatedIn (t' :: ts) ≤ negatedIn (t :: t' :: ts) := negatedIn_le_cons
    rw [allowance, leading_of_not_isConnective hmember] at hle
    simp only [Phrase.tests, Phrase.testsOfAll, connectiveTests_append, allowance] at hles ⊢
    omega
  | @alternative t t' ts mid mid' rest p ps qs _ hmember hp hps _ ih ihs ihs' =>
    have hts' : ∀ u ∈ t' :: ts, u.IsGenuine := fun u hu => hts u (List.mem_cons_of_mem _ hu)
    have hle := ih hts'
    have hles := ihs (hrest hp hts')
    have hles' := ihs' (hrest hps (hrest hp hts'))
    have hor : negatedIn (t' :: ts) ≤ negatedIn (t :: t' :: ts) := negatedIn_le_cons
    rw [allowance, leading_of_not_isConnective hmember] at hle
    simp only [Phrase.tests, Phrase.testsOfAll, connectiveTests_append, allowance] at hles hles' ⊢
    omega
  | @disjunction ts mid rest ps qs hps _ ih ih' =>
    have hle := ih hts
    have hle' := ih' (hrest hps hts)
    simp only [Phrase.tests, Phrase.testsOfAll, connectiveTests_append, allowance] at hle hle' ⊢
    omega

end Parser

/-! ### The tokens of a condition -/

/-- Behind anything but a `NOT`, so many connectives stand behind a `NOT` in the words, and the
words do not end with one. -/
def Counts (words : List (TokenKind × String)) (n : Nat) : Prop :=
  ∀ ⦃previous : Option TokenKind⦄, previous ≠ some (.clause .not_) →
    negatedConnectives previous words = n ∧ lastKind previous words ≠ some (.clause .not_)

namespace Counts

variable {words words' between : List (TokenKind × String)} {n n' : Nat}

lemma nil : Counts [] 0 := fun _ h => ⟨rfl, h⟩

lemma append (h : Counts words n) (h' : Counts words' n') : Counts (words ++ words') (n + n') := by
  intro previous hprevious
  obtain ⟨hcount, hlast⟩ := h hprevious
  obtain ⟨hcount', hlast'⟩ := h' hlast
  rw [negatedConnectives_append, hcount, hcount', lastKind_append]
  exact ⟨rfl, hlast'⟩

/-- Words without a `NOT` count nothing. -/
lemma of_forall (h : ∀ word ∈ words, word.1 ≠ .clause .not_) : Counts words 0 := by
  induction words with
  | nil => exact nil
  | cons word words ih =>
    have hword : Counts [word] 0 := fun previous hprevious =>
      ⟨by simp [negatedConnectives, hprevious], by simpa using h word (by simp)⟩
    exact hword.append (ih fun w hw => h w (by simp [hw]))

variable {α : Type} {spelling : α → List (TokenKind × String)} {count : α → Nat} {items : List α}

/-- Items with a separator in front of each of them. -/
lemma flatMap (hbetween : Counts between 0) (h : ∀ a ∈ items, Counts (spelling a) (count a)) :
    Counts ((items.map spelling).flatMap (between ++ ·)) (items.map count).sum := by
  induction items with
  | nil => exact nil
  | cons a items ih =>
    have ha : Counts (between ++ spelling a) (count a) := by
      simpa using hbetween.append (h a (by simp))
    exact ha.append (ih fun b hb => h b (by simp [hb]))

/-- Items with a separator between them. -/
lemma intercalate (hbetween : Counts between 0) (h : ∀ a ∈ items, Counts (spelling a) (count a)) :
    Counts (between.intercalate (items.map spelling)) (items.map count).sum := by
  cases items with
  | nil => exact nil
  | cons a items =>
    rw [List.map_cons, Parser.intercalate_cons]
    exact (h a (by simp)).append (hbetween.flatMap fun b hb => h b (by simp [hb]))

end Counts

/-- No value is spelled with a negated connective. -/
lemma Value.Written.counts {v : Value} (h : v.Written) : Counts v.spelling 0 := by
  refine .of_forall ?_
  cases h <;> simp [Value.spelling]

lemma Value.counts_list {items : List Value} (h : ∀ v ∈ items, v.Written) :
    Counts (Value.list items).spelling 0 := by
  have hopen : Counts [(.symbol .lParen, "(")] 0 := .of_forall (by simp)
  have hclose : Counts [(.symbol .rParen, ")")] 0 := .of_forall (by simp)
  have hcomma : Counts [(.symbol .comma, ",")] 0 := .of_forall (by simp)
  have hrow := (hopen.append (hcomma.intercalate fun v hv => (h v hv).counts)).append hclose
  rw [spelling]
  simpa using hrow

/-- The tokens of a comparison and of its value count nothing. -/
lemma Comparison.Takes.counts {comparison : Comparison} {v : Value} (h : comparison.Takes v) :
    Counts (comparison.spelling ++ v.spelling) 0 := by
  have hsign : Counts comparison.spelling 0 := by
    cases comparison with
    | notIn => exact fun _ _ => ⟨by simp [spelling, negatedConnectives, TokenKind.isConnective],
        by simp [spelling]⟩
    | _ => exact .of_forall (by simp [spelling])
  have hvalue : Counts v.spelling 0 := by
    cases comparison with
    | isIn | notIn =>
      obtain ⟨items, rfl, -, hitems⟩ := h
      exact Value.counts_list hitems
    | _ => exact Value.Written.counts h
  exact hsign.append hvalue

namespace Condition

lemma connectiveTests_allTestsWith (negated : Bool) (cs : List Condition) :
    connectiveTests (allTestsWith negated cs) =
      (cs.map fun c => connectiveTests (c.testsWith negated)).sum := by
  rw [allTestsWith_eq_flatMap, connectiveTests, List.countP_flatMap]
  rfl

/-- The tokens of a condition have a connective behind a `NOT` for each comparison that is negated
itself and has a field that names a connective. The induction is on the condition. -/
lemma Written.counts {c : Condition} (h : c.Written) :
    Counts c.spelling (connectiveTests (c.testsWith true)) := by
  induction h with
  | @compare field comparison value negated _ hnot hvalue =>
    have hfield : Counts (spellingOfNegation negated ++ [(wordKind field.toList, field)])
        (connectiveTests ((Condition.compare field comparison value negated).testsWith true)) := by
      cases negated with
      | false => exact .of_forall (by simpa [spellingOfNegation] using hnot)
      | true =>
        intro previous hprevious
        simp [spellingOfNegation, negatedConnectives, testsWith, connectiveTests, hnot]
    have hrow := hfield.append (Comparison.Takes.counts hvalue)
    rw [spelling]
    simpa using hrow
  | @group logic members negated _ _ ih =>
    have hopen : Counts (spellingOfNegation negated ++ [(.symbol .lParen, "(")]) 0 := by
      cases negated with
      | false => exact .of_forall (by simp [spellingOfNegation])
      | true =>
        intro previous hprevious
        simp [spellingOfNegation, negatedConnectives, TokenKind.isConnective]
    have hclose : Counts [(.symbol .rParen, ")")] 0 := .of_forall (by simp)
    have hword : Counts [logic.word] 0 := .of_forall (by cases logic <;> simp [Connective.word])
    have hrow := (hopen.append (hword.intercalate ih)).append hclose
    rw [spelling, testsWith, connectiveTests_allTestsWith]
    simpa using hrow

mutual

/-- A comparison is either negated itself or not. -/
lemma connectiveTests_tests (c : Condition) : connectiveTests c.tests =
    connectiveTests (c.testsWith true) + connectiveTests (c.testsWith false) := by
  cases c with
  | compare field comparison value negated =>
    cases negated <;> simp [tests, testsWith, connectiveTests]
  | group logic members negated =>
    rw [tests, testsWith, testsWith]
    exact connectiveTests_allTests members

lemma connectiveTests_allTests (cs : List Condition) : connectiveTests (allTests cs) =
    connectiveTests (allTestsWith true cs) + connectiveTests (allTestsWith false cs) := by
  cases cs with
  | nil => rfl
  | cons c cs =>
    rw [allTests, allTestsWith, allTestsWith, connectiveTests_append, connectiveTests_append,
      connectiveTests_append, connectiveTests_tests c, connectiveTests_allTests cs]
    omega

end

end Condition

end LogQuery
