import LogQuery.Proofs.Parser.Grammar

namespace LogQuery.Parser

variable {s : Setting} {ts rest : List Token} {n : Nat} {nested : ConditionAt}

/-! ### What is derived stands for something -/

/-- What a derived phrase stands for. The alternatives that are left to be read are not joined. -/
def StandsAt : PhraseLevel → Phrase → Prop
  | .alternatives, p => ∃ ps, p = .any ps ∧ Phrase.StandForAll ps (Phrase.meanings ps)
  | _, p => p.StandsFor p.meaning

/-- One more member stands in front of the others. -/
lemma standsFor_all_cons {p : Phrase} {ps : List Phrase} (hp : p.StandsFor p.meaning)
    (hps : (Phrase.all ps).StandsFor (Phrase.all ps).meaning) :
    (Phrase.all (p :: ps)).StandsFor (Phrase.all (p :: ps)).meaning :=
  (Phrase.StandForAll.cons hp hps.standForAll).standsFor_all

/-- The rules of the tree are about every phrase that is derived. The induction is on the
derivation. -/
lemma Derives.standsAt {level : PhraseLevel} {p : Phrase} (h : Derives s level ts rest p) :
    StandsAt level p := by
  induction h with
  | term => exact .term _
  | not _ _ hp =>
    have hnot := hp.negation
    rwa [hnot.eq_meaning] at hnot
  | parens _ _ _ ih => exact .parens ih
  | done => exact Phrase.StandForAll.nil.standsFor_all
  | member _ _ _ ih ihs => exact standsFor_all_cons ih ihs
  | andMember _ _ _ _ ih ihs => exact standsFor_all_cons ih ihs
  | noMore => exact ⟨[], rfl, .nil⟩
  | alternative _ _ _ _ _ ih ihs ihs' =>
    obtain ⟨qs, heq, hqs⟩ := ihs'
    cases heq
    exact ⟨_, rfl, .cons (standsFor_all_cons ih ihs) hqs⟩
  | disjunction _ _ ih ih' =>
    obtain ⟨qs, heq, hqs⟩ := ih'
    cases heq
    exact (Phrase.StandForAll.cons ih hqs).standsFor_any

/-! ### What is read is derived -/

/-- What a reader takes from a token on is derived, and nests no deeper than a number of levels. -/
def TakesDerived (s : Setting) (n : Nat) (nested : ConditionAt) : Prop :=
  ∀ ⦃t : Token⦄ ⦃ts rest : List Token⦄ ⦃c : Option Condition⦄, (nested t).Reads s ts c rest →
    ∃ p, Derives s .unary (t :: ts) rest p ∧ p.nesting ≤ n ∧ c = p.meaning

/-- The induction is on the number of tokens: every member takes one. -/
lemma derives_of_reads_members (h : TakesDerived s n nested) {cs : List Condition}
    (hr : (many (memberTurn nested)).Reads s ts cs rest) :
    ∃ ps, Derives s .members ts rest (.all ps) ∧ Phrase.nestingOfAll ps ≤ n ∧
      cs = Phrase.meanings ps := by
  induction hlen : ts.length using Nat.strongRecOn generalizing ts cs with
  | ind k ih =>
    rcases reads_members.1 hr with ⟨rfl, rfl, -⟩ |
      ⟨t, ts', c, mid, more, hts, ⟨hmember, -⟩, hc, hmore, rfl⟩
    · exact ⟨[], .done, Nat.zero_le n, rfl⟩
    · have hmid : mid.length < k := by
        have := hc.isSuffix.length_le
        rcases hts with rfl | ⟨a, -, rfl⟩ <;> simp only [List.length_cons] at hlen <;> omega
      obtain ⟨p, hp, hdepth, rfl⟩ := h hc
      obtain ⟨ps, hps, hdepths, rfl⟩ := ih _ hmid hmore rfl
      refine ⟨p :: ps, ?_, Nat.max_le.2 ⟨hdepth, hdepths⟩, rfl⟩
      rcases hts with rfl | ⟨a, hand, rfl⟩
      · exact .member hmember hp hps
      · exact .andMember hand hmember hp hps

/-- Each turn reads one alternative behind its `OR`. The induction is on the tokens. -/
lemma derives_of_reads_alternatives (h : TakesDerived s n nested) {cs : List Condition}
    (hr : (many (alternativeTurn nested)).Reads s ts cs rest) :
    ∃ ps, Derives s .alternatives ts rest (.any ps) ∧ Phrase.nestingOfAll ps ≤ n ∧
      cs = Phrase.meanings ps := by
  induction hlen : ts.length using Nat.strongRecOn generalizing ts cs with
  | ind k ih =>
    rcases reads_alternatives.1 hr with ⟨rfl, rfl, -⟩ |
      ⟨o, t, ts', c, mid, ms, mid', more, rfl, hor, ⟨hmember, -⟩, hc, hms, hmore, rfl⟩
    · exact ⟨[], .noMore, Nat.zero_le n, rfl⟩
    · have hmid : mid'.length < k := by
        have := (hms.isSuffix.trans hc.isSuffix).length_le
        simp only [List.length_cons] at hlen
        omega
      obtain ⟨p, hp, hdepth, rfl⟩ := h hc
      obtain ⟨ps, hps, hdepths, rfl⟩ := derives_of_reads_members h hms
      obtain ⟨qs, hqs, hdepths', rfl⟩ := ih _ hmid hmore rfl
      exact ⟨.all (p :: ps) :: qs, .alternative hor hmember hp hps hqs,
        Nat.max_le.2 ⟨Nat.max_le.2 ⟨hdepth, hdepths⟩, hdepths'⟩, rfl⟩

/-- A disjunction is read as its first alternative and those that follow. -/
lemma derives_of_reads_disjunction (h : TakesDerived s n nested) {c : Option Condition}
    (hr : (disjunction nested).Reads s ts c rest) :
    ∃ p, Derives s .disjunction ts rest p ∧ p.nesting ≤ n ∧ c = p.meaning := by
  obtain ⟨first, mid, more, hfirst, hmore, rfl⟩ := reads_disjunction.1 hr
  obtain ⟨cs, hcs, rfl⟩ := reads_conjunction.1 hfirst
  obtain ⟨ps, hps, hdepth, rfl⟩ := derives_of_reads_members h hcs
  obtain ⟨qs, hqs, hdepth', rfl⟩ := derives_of_reads_alternatives h hmore
  exact ⟨.any (.all ps :: qs), .disjunction hps hqs, Nat.max_le.2 ⟨hdepth, hdepth'⟩, rfl⟩

/-- The induction is on how deep a phrase may nest. -/
lemma takesDerived_unary (s : Setting) (n : Nat) : TakesDerived s n (unary n) := by
  induction n with
  | zero =>
    intro t ts rest c hr
    by_cases hnot : t.kind = .clause .not_
    · obtain ⟨m, t', ts', c', hm, -⟩ := (reads_unary_not hnot).1 hr
      cases hm
    · by_cases hopen : t.kind = .symbol .lParen
      · obtain ⟨m, t', hm, -⟩ := (reads_unary_parens hopen).1 hr
        cases hm
      · rw [unary_of_term hnot hopen] at hr
        exact ⟨.term c, .term hnot hopen hr, Nat.le_refl 0, rfl⟩
  | succ n ih =>
    intro t ts rest c hr
    by_cases hnot : t.kind = .clause .not_
    · obtain ⟨m, t', ts', c', hm, rfl, hc, rfl⟩ := (reads_unary_not hnot).1 hr
      cases hm
      obtain ⟨p, hp, hdepth, hmeaning⟩ := ih hc
      have hstands : p.StandsFor p.meaning := hp.standsAt
      rw [← hmeaning] at hstands
      refine ⟨.not p, .not hnot hp hstands, Nat.succ_le_succ hdepth, ?_⟩
      rw [Phrase.meaning, ← hmeaning, Option.map_some]
    · by_cases hopen : t.kind = .symbol .lParen
      · obtain ⟨m, t', hm, hc, hclose⟩ := (reads_unary_parens hopen).1 hr
        cases hm
        obtain ⟨p, hp, hdepth, rfl⟩ := derives_of_reads_disjunction ih hc
        exact ⟨.parens p, .parens hopen hp hclose, Nat.succ_le_succ hdepth, rfl⟩
      · rw [unary_of_term hnot hopen] at hr
        exact ⟨.term c, .term hnot hopen hr, Nat.zero_le _, rfl⟩

/-! ### What is derived is read -/

/-- The first token of a derived member is one with which the reader goes on. -/
lemma Derives.canBegin {t : Token} {p : Phrase} (h : Derives s .unary (t :: ts) rest p)
    (hmember : ¬ IsConnective t) : CanBegin t := by
  refine ⟨hmember, ?_⟩
  cases h with
  | term _ _ hterm => exact ne_of_reads_termAt hterm
  | not hnot _ _ => simp [hnot]
  | parens hopen _ _ => simp [hopen]

/-- In front of alternatives an `and` may end. -/
lemma Derives.endsConjunction {p : Phrase} (h : Derives s .alternatives ts rest p)
    (hends : EndsDisjunction rest) : EndsConjunction ts := by
  cases h with
  | noMore => exact hends.endsConjunction
  | alternative hor _ _ _ _ =>
    rintro t ⟨⟩
    exact .inr (.inr hor)

/-- The reader of a level takes the tokens of a phrase if it may nest as deep as the phrase does and
what follows ends the level. -/
def IsRead (s : Setting) : PhraseLevel → List Token → List Token → Phrase → Prop
  | .unary, ts, rest, p => ∃ t ts', ts = t :: ts' ∧
      ∀ n, p.nesting ≤ n → (unary n t).Reads s ts' p.meaning rest
  | .members, ts, rest, p => EndsConjunction rest → ∃ ps, p = .all ps ∧
      ∀ n, p.nesting ≤ n → (many (memberTurn (unary n))).Reads s ts (Phrase.meanings ps) rest
  | .alternatives, ts, rest, p => EndsDisjunction rest → ∃ ps, p = .any ps ∧
      ∀ n, p.nesting ≤ n → (many (alternativeTurn (unary n))).Reads s ts (Phrase.meanings ps) rest
  | .disjunction, ts, rest, p => EndsDisjunction rest →
      ∀ n, p.nesting ≤ n → (disjunction (unary n)).Reads s ts p.meaning rest

/-- What nests one level deeper is read only where there is a level left. -/
lemma exists_succ_of_nesting {p : Phrase} (h : p.nesting + 1 ≤ n) :
    ∃ m, n = m + 1 ∧ p.nesting ≤ m := by
  cases n with
  | zero => cases h
  | succ m => exact ⟨m, rfl, Nat.le_of_succ_le_succ h⟩

/-- One more member is read in front of the others. -/
lemma isRead_member {t : Token} {ts' mid : List Token} {p : Phrase} {ps : List Phrase}
    (hts : ts' = t :: ts ∨ ∃ a, a.kind = .clause .and_ ∧ ts' = a :: t :: ts) (hbegin : CanBegin t)
    (hp : IsRead s .unary (t :: ts) mid p) (hps : IsRead s .members mid rest (.all ps)) :
    IsRead s .members ts' rest (.all (p :: ps)) := by
  intro hends
  obtain ⟨u, us, heq, hread⟩ := hp
  cases heq
  obtain ⟨ps', heq, hreads⟩ := hps hends
  cases heq
  refine ⟨p :: ps, rfl, fun n hn => ?_⟩
  obtain ⟨hdepth, hdepths⟩ := Nat.max_le.1 hn
  exact reads_members.2 (.inr ⟨t, ts, _, mid, _, hts, hbegin, hread n hdepth, hreads n hdepths,
    rfl⟩)

/-- One more alternative is read in front of the others. -/
lemma isRead_alternative {o t : Token} {mid mid' : List Token} {p : Phrase} {ps qs : List Phrase}
    (hor : o.kind = .clause .or_) (hbegin : CanBegin t) (hp : IsRead s .unary (t :: ts) mid p)
    (hmid : EndsDisjunction rest → EndsConjunction mid')
    (hps : IsRead s .members mid mid' (.all ps))
    (hqs : IsRead s .alternatives mid' rest (.any qs)) :
    IsRead s .alternatives (o :: t :: ts) rest (.any (.all (p :: ps) :: qs)) := by
  intro hends
  obtain ⟨u, us, heq, hread⟩ := hp
  cases heq
  obtain ⟨ps', heq, hreads⟩ := hps (hmid hends)
  cases heq
  obtain ⟨qs', heq, hreads'⟩ := hqs hends
  cases heq
  refine ⟨.all (p :: ps) :: qs, rfl, fun n hn => ?_⟩
  obtain ⟨hdepth, hdepths'⟩ := Nat.max_le.1 hn
  obtain ⟨hdepth, hdepths⟩ := Nat.max_le.1 hdepth
  exact reads_alternatives.2 (.inr ⟨o, t, ts, _, mid, _, mid', _, rfl, hor, hbegin, hread n hdepth,
    hreads n hdepths, hreads' n hdepths', rfl⟩)

/-- Whatever is derived is read. The induction is on the derivation. -/
lemma Derives.isRead {level : PhraseLevel} {p : Phrase} (h : Derives s level ts rest p) :
    IsRead s level ts rest p := by
  induction h with
  | @term t ts rest c hnot hopen hterm =>
    refine ⟨t, ts, rfl, fun n _ => ?_⟩
    rw [unary_of_term hnot hopen]
    exact hterm
  | @not t ts rest p c hnot _ hstands ih =>
    obtain ⟨t', ts', rfl, hread⟩ := ih
    have hc := hstands.eq_meaning.symm
    refine ⟨t, t' :: ts', rfl, fun n hn => (reads_unary_not hnot).2 ?_⟩
    obtain ⟨m, rfl, hm⟩ := exists_succ_of_nesting hn
    exact ⟨m, t', ts', c, rfl, rfl, hc ▸ hread m hm, by simp [Phrase.meaning, hc]⟩
  | @parens t t' ts rest p hopen _ hclose ih =>
    refine ⟨t, ts, rfl, fun n hn => (reads_unary_parens hopen).2 ?_⟩
    obtain ⟨m, rfl, hm⟩ := exists_succ_of_nesting hn
    refine ⟨m, t', rfl, ih ?_ m hm, hclose⟩
    rintro u ⟨⟩
    exact .inr hclose
  | done => exact fun hends => ⟨[], rfl, fun n _ => reads_members.2 (.inl ⟨rfl, rfl, hends⟩)⟩
  | member hmember hp _ ih ihs => exact isRead_member (.inl rfl) (hp.canBegin hmember) ih ihs
  | @andMember a _ _ _ _ _ _ hand hmember hp _ ih ihs =>
    exact isRead_member (.inr ⟨a, hand, rfl⟩) (hp.canBegin hmember) ih ihs
  | noMore =>
    intro hends
    refine ⟨[], rfl, fun n _ => reads_alternatives.2 (.inl ⟨rfl, rfl, fun t ht => ?_⟩)⟩
    rcases hends t ht with h | h <;> simp [h]
  | alternative hor hmember hp _ hqs ih ihs ihs' =>
    exact isRead_alternative hor (hp.canBegin hmember) ih hqs.endsConjunction ihs ihs'
  | @disjunction ts mid rest ps qs _ hqs ih ih' =>
    intro hends n hn
    obtain ⟨ps', heq, hread⟩ := ih (hqs.endsConjunction hends)
    cases heq
    obtain ⟨qs', heq, hread'⟩ := ih' hends
    cases heq
    obtain ⟨hdepth, hdepth'⟩ := Nat.max_le.1 hn
    exact reads_disjunction.2 ⟨_, mid, _, reads_conjunction.2 ⟨_, hread n hdepth, rfl⟩,
      hread' n hdepth', rfl⟩

/-! ### Both directions -/

/-- Where a disjunction may end, what is read is what is derived within the budget. -/
lemma reads_disjunction_iff {c : Option Condition} (hends : EndsDisjunction rest) :
    (disjunction (unary n)).Reads s ts c rest ↔
      ∃ p, Derives s .disjunction ts rest p ∧ p.nesting ≤ n ∧ c = p.meaning := by
  constructor
  · exact derives_of_reads_disjunction (takesDerived_unary s n)
  · rintro ⟨p, hp, hdepth, rfl⟩
    exact hp.isRead hends n hdepth

/-- What is derived up to the end of a stage is read as its conditions. -/
lemma Derives.reads_conditions {p : Phrase} (h : Derives s .disjunction ts rest p)
    (hdepth : p.nesting ≤ s.maxDepth) (hends : EndsStage rest) :
    conditions.Reads s ts p.conditions rest := by
  have hc := h.isRead hends.endsDisjunction s.maxDepth hdepth
  exact Parser.reads_conditions.2 ⟨p.meaning, hc, hends, rfl⟩

/-- The conditions of a stage are read exactly where the grammar derives a phrase that nests no
deeper than it may and ends with the stage; and they are what a stage lists with the condition that
the phrase stands for. -/
theorem conditions_reads_iff {cs : List Condition} :
    conditions.Reads s ts cs rest ↔
      ∃ p c, Derives s .disjunction ts rest p ∧ p.nesting ≤ s.maxDepth ∧ EndsStage rest ∧
        p.StandsFor c ∧ Condition.Lists c cs := by
  rw [reads_conditions]
  constructor
  · rintro ⟨c, hc, hends, rfl⟩
    obtain ⟨p, hp, hdepth, rfl⟩ := (reads_disjunction_iff hends.endsDisjunction).1 hc
    exact ⟨p, p.meaning, hp, hdepth, hends, hp.standsAt, Condition.lists_iff.2 rfl⟩
  · rintro ⟨p, c, hp, hdepth, hends, hstands, hlists⟩
    have hc := (reads_disjunction_iff hends.endsDisjunction).2
      ⟨p, hp, hdepth, hstands.eq_meaning⟩
    exact ⟨c, hc, hends, Condition.lists_iff.1 hlists⟩

/-! ### A negation, a star and a group -/

/-- The tokens of `NOT (a) * (b OR c) d`. -/
def negatedTokens : List Token :=
  [⟨.clause .not_, "NOT", ⟨1, 1⟩⟩, ⟨.symbol .lParen, "(", ⟨1, 5⟩⟩, ⟨.identifier, "a", ⟨1, 6⟩⟩,
    ⟨.symbol .rParen, ")", ⟨1, 7⟩⟩, ⟨.symbol .star, "*", ⟨1, 9⟩⟩, ⟨.symbol .lParen, "(", ⟨1, 11⟩⟩,
    ⟨.identifier, "b", ⟨1, 12⟩⟩, ⟨.clause .or_, "OR", ⟨1, 14⟩⟩, ⟨.identifier, "c", ⟨1, 17⟩⟩,
    ⟨.symbol .rParen, ")", ⟨1, 18⟩⟩, ⟨.identifier, "d", ⟨1, 20⟩⟩]

def wordPhrase (word : String) : Phrase := .term (some (.inRaw (.string word)))

/-- The phrase of `NOT (a) * (b OR c) d`. -/
def negatedPhrase : Phrase :=
  .any [.all [.not (.parens (.any [.all [wordPhrase "a"]])), .term none,
    .parens (.any [.all [wordPhrase "b"], .all [wordPhrase "c"]]), wordPhrase "d"]]

lemma derives_negatedPhrase (s : Setting) :
    Derives s .disjunction negatedTokens [] negatedPhrase := by
  have hword : ∀ {w : String} {place : Position} {ts : List Token},
      (termAt ⟨.identifier, w, place⟩).Reads s ts (some (.inRaw (.string w))) ts →
        Derives s .unary (⟨.identifier, w, place⟩ :: ts) ts (wordPhrase w) :=
    fun h => .term (by simp) (by simp) h
  have ha : Derives s .disjunction (negatedTokens.drop 2) (negatedTokens.drop 3)
      (.any [.all [wordPhrase "a"]]) :=
    .disjunction (.member (by simp [IsConnective]) (hword ⟨List.suffix_rfl, rfl⟩) .done) .noMore
  have hbc : Derives s .disjunction (negatedTokens.drop 6) (negatedTokens.drop 9)
      (.any [.all [wordPhrase "b"], .all [wordPhrase "c"]]) :=
    .disjunction (.member (by simp [IsConnective]) (hword ⟨List.suffix_rfl, rfl⟩) .done)
      (.alternative rfl (by simp [IsConnective]) (hword ⟨List.suffix_rfl, rfl⟩) .done .noMore)
  have hnot : Derives s .unary negatedTokens (negatedTokens.drop 4)
      (.not (.parens (.any [.all [wordPhrase "a"]]))) :=
    .not rfl (.parens rfl ha rfl)
      (.parens (.any (.member (.all (.member (.term _) .nil) (.single _)) .nil) (.single _)))
  have hstar : Derives s .unary (negatedTokens.drop 4) (negatedTokens.drop 5) (.term none) :=
    .term (by simp) (by simp) ⟨List.suffix_rfl, rfl⟩
  have hgroup : Derives s .unary (negatedTokens.drop 5) (negatedTokens.drop 10)
      (.parens (.any [.all [wordPhrase "b"], .all [wordPhrase "c"]])) := .parens rfl hbc rfl
  have hd : Derives s .unary (negatedTokens.drop 10) [] (wordPhrase "d") :=
    hword ⟨List.suffix_rfl, rfl⟩
  refine .disjunction (.member (by simp [IsConnective]) hnot ?_) .noMore
  refine .member (by simp [IsConnective]) hstar (.member (by simp [IsConnective]) hgroup ?_)
  exact .member (by simp [IsConnective]) hd .done

/-- Of `NOT (a) * (b OR c) d` a stage lists the opposite of the first word, the group of the two
alternatives and the last word. The star and the parentheses around one word leave no trace. -/
theorem conditions_reads_iff_negated :
    conditions.Reads ⟨⟨.eof, "", ⟨1, 21⟩⟩, 2⟩ negatedTokens
      [.compare rawField .contains (.string "a") true,
        .group .or [.inRaw (.string "b"), .inRaw (.string "c")] false,
        .inRaw (.string "d")] [] := by
  have hword : ∀ w, (wordPhrase w).StandsFor (some (.inRaw (.string w))) := fun w => .term _
  have hgroup : ∀ w, (Phrase.all [wordPhrase w]).StandsFor (some (.inRaw (.string w))) :=
    fun w => .all (.member (hword w) .nil) (.single _)
  refine conditions_reads_iff.2
    ⟨negatedPhrase, _, derives_negatedPhrase _, Nat.le_refl 2, nofun, ?_, .members _⟩
  refine .any (.member (.all ?_ (.group _ _ _)) .nil) (.single _)
  refine .member (.not (.parens (.any (.member (hgroup "a") .nil) (.single _))) (.compare ..)) ?_
  refine .dropped (.term none) (.member (.parens ?_) (.member (hword "d") .nil))
  exact .any (.member (hgroup "b") (.member (hgroup "c") .nil)) (.group _ _ _)

end LogQuery.Parser
