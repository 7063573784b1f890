import LogQuery.Proofs.Parser.Reading

namespace LogQuery

variable {α β σ : Type}

namespace Parser

variable {s : Setting} {t : Token} {ts rest : List Token}

/-- The value that a reader takes from tokens and the tokens that it leaves. -/
def outcome (p : Parser α) (s : Setting) (ts : List Token) : Except ParseError (α × List Token) :=
  (p s ts).map fun r => (r.value, r.rest)

/-- What is left is a suffix of what was there. -/
lemma suffix_of_outcome {p : Parser α} {a : α} (h : p.outcome s ts = .ok (a, rest)) :
    rest <:+ ts := by
  rw [outcome] at h
  cases hp : p s ts with
  | error e =>
    rw [hp] at h
    cases h
  | ok r =>
    rw [hp] at h
    cases h
    exact r.isSuffix

@[simp] lemma outcome_tooDeep :
    (tooDeep : Parser α).outcome s ts =
      .error ⟨.tooDeep s.maxDepth, ts.head?.getD s.stop⟩ := rfl

/-- Outcomes are chained as results are. -/
lemma outcome_bind (p : Parser α) (f : α → Parser β) :
    (p >>= f).outcome s ts = (p.outcome s ts).bind fun x => (f x.1).outcome s x.2 := by
  rw [outcome, bind_apply, outcome]
  cases p s ts with
  | error e => rfl
  | ok r =>
    change _ = (f r.value).outcome s r.rest
    rw [outcome]
    dsimp only
    cases f r.value s r.rest with
    | error e => rfl
    | ok r' => rfl

lemma outcome_nextKind?_bind (f : Option TokenKind → Parser α) :
    (nextKind? >>= f).outcome s ts = (f (ts.head?.map Token.kind)).outcome s ts :=
  outcome_bind _ f

@[simp] lemma outcome_nextKind?_bind_nil (f : Option TokenKind → Parser α) :
    (nextKind? >>= f).outcome s [] = (f none).outcome s [] := outcome_bind _ f

@[simp] lemma outcome_nextKind?_bind_cons (f : Option TokenKind → Parser α) :
    (nextKind? >>= f).outcome s (t :: ts) = (f (some t.kind)).outcome s (t :: ts) :=
  outcome_bind _ f

@[simp] lemma outcome_take_bind_nil (what : Expectation) (f : Token → Parser α) :
    (take what >>= f).outcome s [] = .error ⟨.expected what, s.stop⟩ := outcome_bind _ f

@[simp] lemma outcome_take_bind_cons (what : Expectation) (f : Token → Parser α) :
    (take what >>= f).outcome s (t :: ts) = (f t).outcome s ts := outcome_bind _ f

/-- A reader that takes a token first leaves fewer. -/
lemma length_lt_of_take {what : Expectation} {f : Token → Parser α} {a : α}
    (h : (take what >>= f).outcome s ts = .ok (a, rest)) : rest.length < ts.length := by
  cases ts with
  | nil => cases h
  | cons t ts =>
    rw [outcome_take_bind_cons] at h
    exact Nat.lt_succ_of_le (suffix_of_outcome h).length_le

/-! ### What loops and options leave -/

lemma outcome_optional_stop {turn : Turn α} (h : turn t ts = none) :
    (optional turn).outcome s (t :: ts) = .ok (none, t :: ts) := by
  rw [outcome, optional]
  simp only [h]
  rfl

lemma outcome_optional_turn {turn : Turn α} {p : Parser α} (h : turn t ts = some p) :
    (optional turn).outcome s (t :: ts) = (some <$> p).outcome s ts := by
  change _ = (p >>= fun a => pure (some a)).outcome s ts
  rw [outcome_bind, outcome, outcome, optional]
  simp only [h]
  cases p s ts with
  | error e => rfl
  | ok r => rfl

lemma outcome_optional_bind_nil {turn : Turn α} (f : Option α → Parser β) :
    (optional turn >>= f).outcome s [] = (f none).outcome s [] := outcome_bind _ f

lemma outcome_optional_bind_stop {turn : Turn α} (f : Option α → Parser β)
    (h : turn t ts = none) :
    (optional turn >>= f).outcome s (t :: ts) = (f none).outcome s (t :: ts) := by
  rw [outcome_bind, outcome_optional_stop h]
  rfl

lemma outcome_optional_bind_turn {turn : Turn α} (f : Option α → Parser β) {p : Parser α}
    (h : turn t ts = some p) :
    (optional turn >>= f).outcome s (t :: ts) = (p >>= fun a => f (some a)).outcome s ts := by
  rw [outcome_bind, outcome_optional_turn h, ← outcome_bind, bind_map_left]

lemma outcome_expect_bind {kind : TokenKind} {what : Expectation} (f : Token → Parser β)
    (h : t.kind = kind) :
    (expect kind what >>= f).outcome s (t :: ts) = (f t).outcome s ts := by
  rw [expect, bind_assoc, outcome_take_bind_cons, if_pos h, pure_bind]

lemma sign_of_startsParameter {name : String} (h : startsParameter name t ts = true) :
    ∃ sign rest, ts = sign :: rest ∧ sign.kind = .symbol .eq := by
  rw [startsParameter, Bool.and_eq_true] at h
  cases ts with
  | nil => cases h.2
  | cons sign rest => exact ⟨sign, rest, rfl, beq_iff_eq.1 h.2⟩

lemma outcome_parameter_stop {name : String} {p : Parser α}
    (h : startsParameter name t ts = false) :
    (parameter name p).outcome s (t :: ts) = .ok (none, t :: ts) :=
  outcome_optional_stop (if_neg (Bool.eq_false_iff.1 h))

lemma outcome_parameter_turn {name : String} {p : Parser α} {sign : Token}
    (h : startsParameter name t (sign :: ts) = true) (hsign : sign.kind = .symbol .eq) :
    (parameter name p).outcome s (t :: sign :: ts) = (some <$> p).outcome s ts := by
  rw [parameter, outcome_optional_turn (if_pos h)]
  change (expect (.symbol .eq) .equalsSign >>= (fun _ => p) >>= fun a => pure (some a)).outcome s
    (sign :: ts) = _
  rw [bind_assoc, outcome_expect_bind _ hsign]
  rfl

lemma outcome_accept_bind_nil (kind : TokenKind) (f : Bool → Parser α) :
    (accept kind >>= f).outcome s [] = (f false).outcome s [] := outcome_bind _ f

lemma outcome_accept_bind_cons (kind : TokenKind) (f : Bool → Parser α) :
    (accept kind >>= f).outcome s (t :: ts) =
      if t.kind = kind then (f true).outcome s ts else (f false).outcome s (t :: ts) := by
  rw [accept, bind_assoc]
  by_cases h : t.kind = kind
  · rw [if_pos h, outcome_optional_bind_turn _ (if_pos h), pure_bind, pure_bind]
    rfl
  · rw [if_neg h, outcome_optional_bind_stop _ (if_neg h), pure_bind]
    rfl

lemma outcome_many_bind_nil {turn : Turn (Option α)} (f : List α → Parser β) :
    (many turn >>= f).outcome s [] = (f []).outcome s [] := by
  rw [outcome_bind, outcome, many.eq_def]
  rfl

lemma outcome_many_bind_stop {turn : Turn (Option α)} (f : List α → Parser β)
    (h : turn t ts = none) :
    (many turn >>= f).outcome s (t :: ts) = (f []).outcome s (t :: ts) := by
  rw [outcome_bind, outcome, many.eq_def]
  simp only [h]
  rfl

/-- One more turn of a loop. -/
lemma outcome_many_bind_turn {turn : Turn (Option α)} (f : List α → Parser β)
    {p : Parser (Option α)} (h : turn t ts = some p) :
    (many turn >>= f).outcome s (t :: ts) =
      (p >>= fun one => many turn >>= fun more => f (one.toList ++ more)).outcome s ts := by
  rw [outcome_bind, outcome_bind, outcome, outcome, many.eq_def]
  simp only [h]
  cases p s ts with
  | error e => rfl
  | ok r =>
    change _ = (many turn >>= fun more => f (r.value.toList ++ more)).outcome s r.rest
    rw [outcome_bind, outcome]
    dsimp only
    cases many turn s r.rest with
    | error e => rfl
    | ok r' => rfl

lemma outcome_iterate_nil {turn : σ → Turn σ} (state : σ) :
    (iterate turn state).outcome s [] = .ok (state, []) := by
  rw [outcome, iterate.eq_def]
  rfl

lemma outcome_iterate_stop {turn : σ → Turn σ} {state : σ} (h : turn state t ts = none) :
    (iterate turn state).outcome s (t :: ts) = .ok (state, t :: ts) := by
  rw [outcome, iterate.eq_def]
  simp only [h]
  rfl

/-- One more turn of a loop with a state. -/
lemma outcome_iterate_turn {turn : σ → Turn σ} {state : σ} {p : Parser σ}
    (h : turn state t ts = some p) :
    (iterate turn state).outcome s (t :: ts) = (p >>= iterate turn).outcome s ts := by
  rw [outcome_bind, outcome, outcome, iterate.eq_def]
  simp only [h]
  cases p s ts with
  | error e => rfl
  | ok r =>
    change _ = (iterate turn r.value).outcome s r.rest
    rw [outcome]
    dsimp only
    cases iterate turn r.value s r.rest with
    | error e => rfl
    | ok r' => rfl

end Parser

end LogQuery
