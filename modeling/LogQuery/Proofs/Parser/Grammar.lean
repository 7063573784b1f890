import LogQuery.Proofs.Parser.Reading
import LogQuery.Proofs.Syntax.Phrase
import Mathlib.Tactic.ByContra

/-!
# The grammar of conditions

```
or    := and ( OR and1 )*
and   := ( AND? unary )*
and1  := unary ( AND? unary )*
unary := NOT unary | '(' or ')' | term
```

A member never begins with `AND` or `OR`, which are connectives there; behind a `NOT` they are words
like any other. The operand of a `NOT` has to stand for a condition. The reader of conditions takes
exactly what this grammar derives and nests no deeper than it may, and it returns what the derived
phrase stands for (`conditions_reads_iff`).
-/

namespace LogQuery.Parser

/-- A connective, where a member is expected. -/
def IsConnective (t : Token) : Prop := t.kind = .clause .and_ ∨ t.kind = .clause .or_

/-- What is derived from tokens: a phrase of some level. -/
inductive PhraseLevel where
  | unary
  /-- Members of an `and`, or what is left of them. -/
  | members
  /-- What follows the first `and` of an `or`. -/
  | alternatives
  | disjunction

/-- The tokens `ts` without those in `rest` behind them derive a phrase. The phrases of the levels
between `unary` and `disjunction` hold the members that are left to be read. -/
inductive Derives (s : Setting) : PhraseLevel → List Token → List Token → Phrase → Prop where
  | term {t : Token} {ts rest : List Token} {c : Option Condition} :
      t.kind ≠ .clause .not_ → t.kind ≠ .symbol .lParen → (termAt t).Reads s ts c rest →
        Derives s .unary (t :: ts) rest (.term c)
  | not {t : Token} {ts rest : List Token} {p : Phrase} {c : Condition} :
      t.kind = .clause .not_ → Derives s .unary ts rest p → p.StandsFor (some c) →
        Derives s .unary (t :: ts) rest (.not p)
  | parens {t t' : Token} {ts rest : List Token} {p : Phrase} :
      t.kind = .symbol .lParen → Derives s .disjunction ts (t' :: rest) p →
        t'.kind = .symbol .rParen → Derives s .unary (t :: ts) rest (.parens p)
  | done {ts : List Token} : Derives s .members ts ts (.all [])
  | member {t : Token} {ts mid rest : List Token} {p : Phrase} {ps : List Phrase} :
      ¬ IsConnective t → Derives s .unary (t :: ts) mid p → Derives s .members mid rest (.all ps) →
        Derives s .members (t :: ts) rest (.all (p :: ps))
  | andMember {t t' : Token} {ts mid rest : List Token} {p : Phrase} {ps : List Phrase} :
      t.kind = .clause .and_ → ¬ IsConnective t' → Derives s .unary (t' :: ts) mid p →
        Derives s .members mid rest (.all ps) →
          Derives s .members (t :: t' :: ts) rest (.all (p :: ps))
  | noMore {ts : List Token} : Derives s .alternatives ts ts (.any [])
  | alternative {t t' : Token} {ts mid mid' rest : List Token} {p : Phrase} {ps qs : List Phrase} :
      t.kind = .clause .or_ → ¬ IsConnective t' → Derives s .unary (t' :: ts) mid p →
        Derives s .members mid mid' (.all ps) → Derives s .alternatives mid' rest (.any qs) →
          Derives s .alternatives (t :: t' :: ts) rest (.any (.all (p :: ps) :: qs))
  | disjunction {ts mid rest : List Token} {ps qs : List Phrase} :
      Derives s .members ts mid (.all ps) → Derives s .alternatives mid rest (.any qs) →
        Derives s .disjunction ts rest (.any (.all ps :: qs))

/-- Where a stage ends: at a pipe or at the end of the query. -/
def EndsStage (ts : List Token) : Prop := ∀ t ∈ ts.head?, t.kind = .symbol .pipe

/-- Where an `or` may end: where a stage ends, or at a closing parenthesis. -/
def EndsDisjunction (ts : List Token) : Prop :=
  ∀ t ∈ ts.head?, t.kind = .symbol .pipe ∨ t.kind = .symbol .rParen

/-- Where an `and` may end: where an `or` may, or at an `OR`. -/
def EndsConjunction (ts : List Token) : Prop :=
  ∀ t ∈ ts.head?, t.kind = .symbol .pipe ∨ t.kind = .symbol .rParen ∨ t.kind = .clause .or_

/-- Where a disjunction ends, its last conjunction does. -/
lemma EndsDisjunction.endsConjunction {ts : List Token} (h : EndsDisjunction ts) :
    EndsConjunction ts := fun t ht => (h t ht).imp_right .inl

/-- Where a stage ends, its disjunction does. -/
lemma EndsStage.endsDisjunction {ts : List Token} (h : EndsStage ts) : EndsDisjunction ts :=
  fun t ht => .inl (h t ht)

/-! ### The loops of the reader -/

/-- How the reader goes on among the members of an `and`. -/
def memberTurn (nested : ConditionAt) : Turn (Option Condition) := fun t _ =>
  match t.kind with
  | .symbol .pipe | .symbol .rParen | .clause .or_ => none
  | .clause .and_ => some do
    requireCondition .conditionAfterAnd
    return none
  | _ => some (nested t)

/-- How the reader goes on behind the first `and` of an `or`. -/
def alternativeTurn (nested : ConditionAt) : Turn (Option Condition) := fun t _ =>
  if t.kind = .clause .or_ then
    some do
      requireCondition .conditionAfterOr
      conjunction nested
  else none

variable {s : Setting} {ts rest : List Token} {c : Option Condition} {nested : ConditionAt}

/-- The members are those the turns read, joined by `AND`. -/
lemma reads_conjunction :
    (conjunction nested).Reads s ts c rest ↔
      ∃ cs, (many (memberTurn nested)).Reads s ts cs rest ∧ c = Condition.join? .and cs := by
  change (many (memberTurn nested) >>= fun cs => pure (Condition.join? .and cs)).Reads s ts c rest
    ↔ _
  simp only [reads_bind, reads_pure]
  constructor
  · rintro ⟨cs, mid, h, rfl, rfl⟩
    exact ⟨cs, h, rfl⟩
  · rintro ⟨cs, h, rfl⟩
    exact ⟨cs, rest, h, rfl, rfl⟩

/-- A first conjunction and those the turns read, joined by `OR`. -/
lemma reads_disjunction :
    (disjunction nested).Reads s ts c rest ↔
      ∃ first mid more, (conjunction nested).Reads s ts first mid ∧
        (many (alternativeTurn nested)).Reads s mid more rest ∧
        c = Condition.join? .or (first.toList ++ more) := by
  change (conjunction nested >>= fun first => many (alternativeTurn nested) >>= fun more =>
    pure (Condition.join? .or (first.toList ++ more))).Reads s ts c rest ↔ _
  simp only [reads_bind, reads_pure]
  constructor
  · rintro ⟨first, mid, hfirst, more, mid', hmore, rfl, rfl⟩
    exact ⟨first, mid, more, hfirst, hmore, rfl⟩
  · rintro ⟨first, mid, more, hfirst, hmore, rfl⟩
    exact ⟨first, mid, hfirst, more, rest, hmore, rfl, rfl⟩

/-- A token with which a member of an `and` can begin, as far as the reader looks. -/
def CanBegin (t : Token) : Prop :=
  ¬ IsConnective t ∧ t.kind ≠ .symbol .rParen ∧ t.kind ≠ .symbol .pipe

/-- Only the next token is looked at, and nothing is taken. -/
lemma reads_requireCondition {what : Expectation} {u : Unit} :
    (requireCondition what).Reads s ts u rest ↔
      rest = ts ∧ ∃ t ts', ts = t :: ts' ∧ CanBegin t := by
  rw [requireCondition]
  simp only [reads_bind, reads_nextKind?]
  cases ts with
  | nil => simp
  | cons t ts' =>
    simp only [List.head?_cons, Option.map_some, CanBegin, IsConnective]
    constructor
    · rintro ⟨k, mid, ⟨rfl, rfl⟩, h⟩
      split at h
      · exact (not_reads_fail h).elim
      · exact (not_reads_fail h).elim
      · exact (not_reads_fail h).elim
      · exact (not_reads_fail h).elim
      · exact (not_reads_fail h).elim
      · next hand hor hclose hpipe _ =>
        refine ⟨(reads_pure.1 h).2, t, ts', rfl, ?_⟩
        simp_all
    · rintro ⟨rfl, t', ts'', heq, ⟨hconnective, hclose, hpipe⟩⟩
      cases heq
      refine ⟨_, _, ⟨rfl, rfl⟩, ?_⟩
      split <;> simp_all

lemma memberTurn_eq_some {t : Token} {p : Parser (Option Condition)} :
    memberTurn nested t ts = some p ↔
      (t.kind = .clause .and_ ∧ p = (do
        requireCondition .conditionAfterAnd
        return none)) ∨ (CanBegin t ∧ p = nested t) := by
  rw [memberTurn, CanBegin, IsConnective]
  split <;> simp_all [eq_comm]

lemma memberTurn_eq_none {t : Token} :
    memberTurn nested t ts = none ↔ EndsConjunction (t :: ts) := by
  rw [memberTurn, EndsConjunction]
  split <;> simp_all

/-- A member that begins with the next token, and the members behind it. -/
lemma reads_members_of_canBegin {t : Token} (h : CanBegin t) {cs : List Condition} :
    (many (memberTurn nested)).Reads s (t :: ts) cs rest ↔
      ∃ c mid more, (nested t).Reads s ts c mid ∧
        (many (memberTurn nested)).Reads s mid more rest ∧ cs = c.toList ++ more := by
  have hturn : memberTurn nested t ts = some (nested t) := memberTurn_eq_some.2 (.inr ⟨h, rfl⟩)
  rw [reads_many]
  constructor
  · rintro (⟨-, -, hstop⟩ | ⟨t', ts', p, c, mid, more, heq, hturn', hp, hmore, rfl⟩)
    · rw [stops_cons, hturn] at hstop
      cases hstop
    · cases heq
      rw [hturn] at hturn'
      cases hturn'
      exact ⟨c, mid, more, hp, hmore, rfl⟩
  · rintro ⟨c, mid, more, hc, hmore, rfl⟩
    exact .inr ⟨t, ts, _, c, mid, more, rfl, hturn, hc, hmore, rfl⟩

/-- One member after the other, each with an `AND` in front or without. -/
lemma reads_members {cs : List Condition} :
    (many (memberTurn nested)).Reads s ts cs rest ↔
      (cs = [] ∧ rest = ts ∧ EndsConjunction ts) ∨
        ∃ t ts' c mid more, (ts = t :: ts' ∨ ∃ a, a.kind = .clause .and_ ∧ ts = a :: t :: ts') ∧
          CanBegin t ∧ (nested t).Reads s ts' c mid ∧
          (many (memberTurn nested)).Reads s mid more rest ∧ cs = c.toList ++ more := by
  constructor
  · intro h
    rcases reads_many.1 h with ⟨rfl, rfl, hstop⟩ |
      ⟨a, ts', p, one, mid, more, rfl, hturn, hp, hm, rfl⟩
    · refine .inl ⟨rfl, rfl, fun t ht => ?_⟩
      cases rest with
      | nil => cases ht
      | cons t' ts' => exact memberTurn_eq_none.1 (stops_cons.1 hstop) t ht
    · rcases memberTurn_eq_some.1 hturn with ⟨hand, rfl⟩ | ⟨hbegin, rfl⟩
      -- A round that takes an `AND` yields nothing; the member behind it comes in the next round.
      · obtain ⟨u, mid', hrequire, hnone⟩ := reads_bind.1 hp
        obtain ⟨rfl, t, ts'', rfl, hbegin⟩ := reads_requireCondition.1 hrequire
        obtain ⟨rfl, rfl⟩ := reads_pure.1 hnone
        obtain ⟨c, mid, more, hc, hmore, rfl⟩ := (reads_members_of_canBegin hbegin).1 hm
        exact .inr ⟨t, ts'', c, mid, more, .inr ⟨a, hand, rfl⟩, hbegin, hc, hmore, rfl⟩
      · exact .inr ⟨a, ts', one, mid, more, .inl rfl, hbegin, hp, hm, rfl⟩
  · rintro (⟨rfl, rfl, hends⟩ | ⟨t, ts', c, mid, more, hts, hbegin, hc, hmore, rfl⟩)
    · refine reads_many.2 (.inl ⟨rfl, rfl, fun t ts' heq => ?_⟩)
      rw [memberTurn_eq_none, ← heq]
      exact hends
    · have hmember := (reads_members_of_canBegin hbegin).2 ⟨c, mid, more, hc, hmore, rfl⟩
      rcases hts with rfl | ⟨a, hand, rfl⟩
      · exact hmember
      · refine reads_many.2 (.inr ⟨a, t :: ts', _, none, t :: ts', _, rfl,
          memberTurn_eq_some.2 (.inl ⟨hand, rfl⟩), ?_, hmember, rfl⟩)
        exact reads_bind.2 ⟨(), t :: ts', reads_requireCondition.2 ⟨rfl, t, ts', rfl, hbegin⟩,
          reads_pure.2 ⟨rfl, rfl⟩⟩

/-- One `and` after the other behind the first, each with an `OR` in front. -/
lemma reads_alternatives {cs : List Condition} :
    (many (alternativeTurn nested)).Reads s ts cs rest ↔
      (cs = [] ∧ rest = ts ∧ ∀ t ∈ ts.head?, t.kind ≠ .clause .or_) ∨
        ∃ o t ts' c mid ms mid' more, ts = o :: t :: ts' ∧ o.kind = .clause .or_ ∧ CanBegin t ∧
          (nested t).Reads s ts' c mid ∧ (many (memberTurn nested)).Reads s mid ms mid' ∧
          (many (alternativeTurn nested)).Reads s mid' more rest ∧
          cs = (Condition.join? .and (c.toList ++ ms)).toList ++ more := by
  have hturn : ∀ o ts' p, alternativeTurn nested o ts' = some p ↔ o.kind = .clause .or_ ∧ p = (do
      requireCondition .conditionAfterOr
      conjunction nested) := by
    intro o ts' p
    rw [alternativeTurn]
    split <;> simp_all [eq_comm]
  rw [reads_many]
  constructor
  · rintro (⟨rfl, rfl, hstop⟩ | ⟨o, ts', p, one, mid, more, rfl, hsome, hp, hmore, rfl⟩)
    · refine .inl ⟨rfl, rfl, ?_⟩
      cases rest with
      | nil => simp
      | cons t ts' =>
        have hnone := stops_cons.1 hstop
        rintro t' ⟨⟩ hor
        rw [(hturn t ts' _).2 ⟨hor, rfl⟩] at hnone
        cases hnone
    · obtain ⟨hor, rfl⟩ := (hturn _ _ _).1 hsome
      obtain ⟨u, mid', hrequire, hconjunction⟩ := reads_bind.1 hp
      obtain ⟨rfl, t, ts'', rfl, hbegin⟩ := reads_requireCondition.1 hrequire
      obtain ⟨cs, hcs, rfl⟩ := reads_conjunction.1 hconjunction
      obtain ⟨c, mid', ms, hc, hms, rfl⟩ := (reads_members_of_canBegin hbegin).1 hcs
      exact .inr ⟨o, t, ts'', c, mid', ms, mid, more, rfl, hor, hbegin, hc, hms, hmore, rfl⟩
  · rintro (⟨rfl, rfl, hends⟩ | ⟨o, t, ts', c, mid, ms, mid', more, rfl, hor, hbegin, hc, hms,
      hmore, rfl⟩)
    · refine .inl ⟨rfl, rfl, fun t ts' heq => ?_⟩
      subst heq
      by_contra hne
      obtain ⟨p, hp⟩ := Option.ne_none_iff_exists'.1 hne
      exact hends t rfl ((hturn _ _ _).1 hp).1
    · refine .inr ⟨o, t :: ts', _, _, mid', more, rfl, (hturn _ _ _).2 ⟨hor, rfl⟩, ?_, hmore, rfl⟩
      refine reads_bind.2 ⟨(), t :: ts', reads_requireCondition.2 ⟨rfl, t, ts', rfl, hbegin⟩, ?_⟩
      exact reads_conjunction.2 ⟨_, (reads_members_of_canBegin hbegin).2 ⟨c, mid, ms, hc, hms, rfl⟩,
        rfl⟩

/-! ### What nests -/

/-- A term is read alike however deep it may nest. -/
lemma unary_of_term {t : Token} (hnot : t.kind ≠ .clause .not_)
    (hopen : t.kind ≠ .symbol .lParen) (n : Nat) : unary n t = termAt t := by
  cases n <;> exact unaryBy_of_term hnot hopen

/-- The operand of a `NOT` nests one level less deep, and says something. -/
lemma reads_unary_not {n : Nat} {t : Token} (h : t.kind = .clause .not_) :
    (unary n t).Reads s ts c rest ↔
      ∃ m t' ts' c', n = m + 1 ∧ ts = t' :: ts' ∧ (unary m t').Reads s ts' (some c') rest ∧
        c = some c'.negate := by
  cases n with
  | zero =>
    have hdeep : unary 0 t = tooDeep := by simp [unaryUpTo, unaryBy, h]
    simp [hdeep]
  | succ m =>
    change (unaryBy (nextCondition (unary m)) (closedDisjunction (unary m)) termAt t).Reads
      s ts c rest ↔ _
    simp only [unaryBy, nextCondition, lift_eq, h, reads_bind, reads_take]
    constructor
    · rintro ⟨o, mid, ⟨t', ts', rfl, ho⟩, hc⟩
      cases o with
      | none => exact (not_reads_fail hc).elim
      | some c' =>
        obtain ⟨rfl, rfl⟩ := reads_pure.1 hc
        exact ⟨m, t', ts', c', rfl, rfl, ho, rfl⟩
    · rintro ⟨m', t', ts', c', heq, rfl, hc, rfl⟩
      cases heq
      exact ⟨some c', rest, ⟨t', ts', rfl, hc⟩, reads_pure.2 ⟨rfl, rfl⟩⟩

/-- What stands in parentheses nests one level less deep. -/
lemma reads_unary_parens {n : Nat} {t : Token} (h : t.kind = .symbol .lParen) :
    (unary n t).Reads s ts c rest ↔
      ∃ m t', n = m + 1 ∧ (disjunction (unary m)).Reads s ts c (t' :: rest) ∧
        t'.kind = .symbol .rParen := by
  cases n with
  | zero =>
    have hdeep : unary 0 t = tooDeep := by simp [unaryUpTo, unaryBy, h]
    simp [hdeep]
  | succ m =>
    change (unaryBy (nextCondition (unary m)) (closedDisjunction (unary m)) termAt t).Reads
      s ts c rest ↔ _
    simp only [unaryBy, closedDisjunction, lift_eq, h, reads_bind, reads_expect, reads_pure]
    constructor
    · rintro ⟨c', mid, hc, t', mid', ⟨rfl, hclose⟩, rfl, rfl⟩
      exact ⟨m, t', rfl, hc, hclose⟩
    · rintro ⟨m', t', heq, hc, hclose⟩
      cases heq
      exact ⟨c, t' :: rest, hc, t', rest, ⟨rfl, hclose⟩, rfl, rfl⟩

/-- No term begins with a closing parenthesis or a pipe. -/
lemma ne_of_reads_termAt {t : Token} (h : (termAt t).Reads s ts c rest) :
    t.kind ≠ .symbol .rParen ∧ t.kind ≠ .symbol .pipe := by
  constructor
  all_goals
    intro hkind
    have hfail : termAt t = failAt t (.expected .condition) := by
      simp [termBy, hkind, TokenKind.isWord, TokenKind.isKeyword]
    rw [hfail] at h
    exact not_reads_failAt h

/-! ### Stages -/

lemma reads_conditions {cs : List Condition} :
    conditions.Reads s ts cs rest ↔
      ∃ c, (disjunction (unary s.maxDepth)).Reads s ts c rest ∧ EndsStage rest ∧
        cs = Condition.topLevel c := by
  change (disjunction (unary s.maxDepth) >>= fun whole => nextKind? >>= fun k => _).Reads s ts cs
    rest ↔ _
  simp only [reads_bind, reads_nextKind?]
  constructor
  · rintro ⟨c, mid, hc, k, mid', ⟨rfl, rfl⟩, hend⟩
    split at hend
    · next hnone =>
      obtain ⟨rfl, rfl⟩ := reads_pure.1 hend
      refine ⟨c, hc, fun t ht => ?_, rfl⟩
      simp_all
    · next hpipe =>
      obtain ⟨rfl, rfl⟩ := reads_pure.1 hend
      refine ⟨c, hc, fun t ht => ?_, rfl⟩
      simp_all
    · exact (not_reads_fail hend).elim
  · rintro ⟨c, hc, hends, rfl⟩
    refine ⟨c, rest, hc, _, rest, ⟨rfl, rfl⟩, ?_⟩
    cases rest with
    | nil => exact reads_pure.2 ⟨rfl, rfl⟩
    | cons t rest =>
      rw [List.head?_cons, Option.map_some, hends t rfl]
      exact reads_pure.2 ⟨rfl, rfl⟩

end LogQuery.Parser
