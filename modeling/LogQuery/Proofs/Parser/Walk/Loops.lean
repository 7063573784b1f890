import LogQuery.Proofs.Parser.Walk.Following
import Mathlib.Data.List.Basic

namespace LogQuery

variable {α β σ : Type}

namespace Passage

open Walk

variable {q : Passage} {t : Token} {ts ts' rest : List Token} {d : Nat}

/-- A round of a loop ends the loop as the reader ends, or it goes on, with fewer than so many
tokens left, from a state for which the reader has the same still to do. -/
inductive RoundTells (q : Passage) (d : Nat) (P : σ → Parser α) (n : Nat) (ts : List Token) :
    Except ParseError (α × List Token) → WalkEnd (Round σ α) → Prop where
  | ended {a : α} {rest : List Token} (h : rest <:+ ts) :
      RoundTells q d P n ts (.ok (a, rest)) (.done (.ended a) (q.cursor rest d))
  | again (state : σ) {rest : List Token} (h : rest <:+ ts) (hlt : rest.length < n) :
      RoundTells q d P n ts ((P state).outcome q.setting rest)
        (.done (.again state) (q.cursor rest d))
  | refused {e : ParseError} {rest : List Token} {d' : Nat} (h : rest <:+ ts) :
      RoundTells q d P n ts (.error e) (.refused e (q.cursor rest d'))

namespace RoundTells

variable {P : σ → Parser α} {n : Nat} {p : Parser β} {g : β → Parser α} {w : Walk β}
  {f : β → Walk (Round σ α)} {r : Except ParseError (α × List Token)} {x : WalkEnd (Round σ α)}

lemma mono (h : RoundTells q d P n rest r x) (hrest : rest <:+ ts) :
    RoundTells q d P n ts r x := by
  cases h with
  | ended h => exact .ended (h.trans hrest)
  | again _ h hlt => exact .again _ (h.trans hrest) hlt
  | refused h => exact .refused (h.trans hrest)

lemma bind_of_ok (h : Tells q d ts (p.outcome q.setting rest) (q.run w ts' d))
    (hf : ∀ b left, p.outcome q.setting rest = .ok (b, left) → left <:+ ts →
      RoundTells q d P n left ((g b).outcome q.setting left) (q.run (f b) left d)) :
    RoundTells q d P n ts ((p >>= g).outcome q.setting rest) (q.run (w >>= f) ts' d) := by
  rw [Parser.outcome_bind, run_bind_apply]
  generalize q.run w ts' d = x at h ⊢
  cases hp : p.outcome q.setting rest with
  | error e =>
    rw [hp] at h
    cases h with
    | refused h => exact .refused h
  | ok b =>
    rw [hp] at h
    cases h with
    | done h => exact (hf _ _ hp h).mono h

lemma bind (h : Tells q d ts (p.outcome q.setting rest) (q.run w ts' d))
    (hf : ∀ b left, left <:+ ts → left.length ≤ rest.length →
      RoundTells q d P n left ((g b).outcome q.setting left) (q.run (f b) left d)) :
    RoundTells q d P n ts ((p >>= g).outcome q.setting rest) (q.run (w >>= f) ts' d) :=
  .bind_of_ok h fun b left hleft hsuffix =>
    hf b left hsuffix (Parser.suffix_of_outcome hleft).length_le

end RoundTells

/-- The induction is on the number of tokens: a round that goes on takes one. -/
lemma Tells.loop {P : σ → Parser α} {round : σ → Walk (Round σ α)}
    (h : ∀ state ⦃ts⦄, ts <:+ q.front →
      RoundTells q d P ts.length ts ((P state).outcome q.setting ts) (q.run (round state) ts d))
    (state : σ) (hts : ts <:+ q.front) :
    Tells q d ts ((P state).outcome q.setting ts) (q.run (loop round state) ts d) := by
  induction hn : ts.length using Nat.strongRecOn generalizing ts state with
  | ind n ih =>
    have hround := h state hts
    rw [run] at hround ⊢
    rw [Walk.loop.eq_def]
    generalize (P state).outcome q.setting ts = r at hround ⊢
    generalize round state q.tape (q.cursor ts d) = x at hround ⊢
    cases hround with
    | ended h => exact .done h
    | refused h => exact .refused h
    | @again state' rest hrest hlt =>
      have hfront := hts.length_le
      have hmoves : (q.cursor ts d).position < (q.cursor rest d).position ∧
          (q.cursor rest d).position < q.tape.tokens.length := by
        simp only [cursor, tape, List.length_append, List.length_cons]
        omega
      dsimp only
      rw [if_pos hmoves]
      exact (ih rest.length (hn ▸ hlt) state' (hrest.trans hts) rfl).mono hrest

/-! ### Loops that collect -/

/-- Changes a state by each value that a loop of a reader collects. -/
def foldMany (step : σ → β → σ) (turn : Parser.Turn (Option β)) (state : σ) : Parser σ := do
  return (← Parser.many turn).foldl step state

/-- A round at a token ends the loop if the reader takes no turn there; otherwise it walks as the
reader of the turn reads, and changes the state by the value if there is one. -/
inductive TurnTells (q : Passage) (d : Nat) (step : σ → β → σ) (state : σ) (t : Token)
    (ts : List Token) : Option (Parser (Option β)) → WalkEnd (Round σ σ) → Prop where
  | stop : TurnTells q d step state t ts none (.done (.ended state) (q.cursor (t :: ts) d))
  | turn {p : Parser (Option β)} {x : WalkEnd (Round σ σ)}
      (h : Tells q d (t :: ts)
        ((p >>= fun one => pure (Round.again (one.toList.foldl step state)) : Parser _).outcome
          q.setting ts) x) :
      TurnTells q d step state t ts (some p) x

namespace TurnTells

variable {step : σ → β → σ} {state : σ}

/-- A turn without a value. -/
lemma skip : TurnTells q d step state t ts (some (pure none))
    (.done (.again state) (q.cursor ts d)) := .turn (.done (List.suffix_cons t ts))

/-- A turn of one value, walked from the token on or behind it. -/
lemma one {p : Parser β} {w : Walk β}
    (h : Tells q d (t :: ts) (p.outcome q.setting ts) (q.run w ts' d)) :
    TurnTells q d step state t ts (some (some <$> p))
      (q.run (w >>= fun value => pure (.again (step state value))) ts' d) := by
  refine .turn ?_
  rw [bind_map_left]
  exact h.bind fun _ _ _ => .done List.suffix_rfl

/-- What the round leaves to the next one is what the reader has still to collect. -/
lemma roundTells {turn : Parser.Turn (Option β)} {x : WalkEnd (Round σ σ)}
    (h : TurnTells q d step state t ts (turn t ts) x) :
    RoundTells q d (foldMany step turn) (t :: ts).length (t :: ts)
      ((foldMany step turn state).outcome q.setting (t :: ts)) x := by
  rw [foldMany]
  cases ht : turn t ts with
  | none =>
    rw [ht] at h
    cases h with
    | stop =>
      rw [Parser.outcome_many_bind_stop _ ht]
      exact .ended List.suffix_rfl
  | some p =>
    rw [ht] at h
    cases h with
    | turn h =>
      rw [Parser.outcome_many_bind_turn _ ht, Parser.outcome_bind]
      rw [Parser.outcome_bind] at h
      simp only [List.foldl_append]
      cases hp : p.outcome q.setting ts with
      | error e =>
        rw [hp] at h
        cases h with
        | refused h => exact .refused h
      | ok one =>
        rw [hp] at h
        have hlt := Nat.lt_succ_of_le (Parser.suffix_of_outcome hp).length_le
        cases h with
        | done h => exact .again (one.1.toList.foldl step state) h hlt

lemma foldl_toList (all : List β) (one : Option β) :
    one.toList.foldl (fun all one => all ++ [one]) all = all ++ one.toList := by
  cases one with
  | none => exact (List.append_nil all).symm
  | some one => rfl

/-- A turn of at most one value. -/
lemma atMostOne {p : Parser (Option β)} {w : Walk (Option β)} {all : List β}
    (h : Tells q d (t :: ts) (p.outcome q.setting ts) (q.run w ts' d)) :
    TurnTells q d (fun all one => all ++ [one]) all t ts (some p)
      (q.run (w >>= fun one => pure (.again (all ++ one.toList))) ts' d) := by
  refine .turn (h.bind fun one left _ => ?_)
  rw [foldl_toList]
  exact .done List.suffix_rfl

end TurnTells

namespace Follows

variable {step : σ → β → σ} {turn : Parser.Turn (Option β)} {round : σ → Walk (Round σ σ)}

/-- A loop that changes a state by the values that a reader collects. -/
lemma many (hend : ∀ state, q.run (round state) [] d = .done (.ended state) (q.cursor [] d))
    (hturn : ∀ state ⦃t ts⦄, t :: ts <:+ q.front →
      TurnTells q d step state t ts (turn t ts) (q.run (round state) (t :: ts) d)) (state : σ) :
    Follows q d (loop round state) (foldMany step turn state) := by
  refine fun ts hts => Tells.loop (fun state ts hts => ?_) state hts
  cases ts with
  | nil =>
    rw [hend, foldMany, Parser.outcome_many_bind_nil]
    exact .ended List.suffix_rfl
  | cons t ts => exact (hturn state hts).roundTells

/-- A loop that appends the values that a reader collects. -/
lemma collect {round : List β → Walk (Round (List β) (List β))}
    (hend : ∀ all, q.run (round all) [] d = .done (.ended all) (q.cursor [] d))
    (hturn : ∀ all ⦃t ts⦄, t :: ts <:+ q.front →
      TurnTells q d (fun all one => all ++ [one]) all t ts (turn t ts)
        (q.run (round all) (t :: ts) d)) (all : List β) :
    Follows q d (loop round all) (Parser.many turn >>= fun more => Pure.pure (all ++ more)) := by
  have happend (more : List β) : more.foldl (fun all one => all ++ [one]) all = all ++ more := by
    induction more generalizing all with
    | nil => exact (List.append_nil all).symm
    | cons one more ih => rw [List.foldl_cons, ih, List.append_assoc, List.singleton_append]
  have h := many hend hturn all
  rw [foldMany] at h
  simp only [happend] at h
  exact h

/-- At least one item, with commas between them. -/
lemma separated {w : Walk β} {p : Parser β} (h : Follows q d w p) :
    Follows q d (separated w) (p >>= fun first =>
      (Parser.many fun t _ => if t.kind = .symbol .comma then some (some <$> p) else none) >>=
        fun more => Pure.pure (first :: more)) := by
  intro ts hts
  refine Tells.loop (P := fun all => p >>= fun first =>
    (Parser.many fun t _ => if t.kind = .symbol .comma then some (some <$> p) else none) >>=
      fun more => Pure.pure (all ++ first :: more)) (fun all ts hts => ?_) [] hts
  refine .bind (h hts) fun one left hleft hlength => ?_
  cases left with
  | nil =>
    rw [run_bind (run_check_nil (by nofun)), if_neg Bool.false_ne_true,
      Parser.outcome_many_bind_nil]
    exact .ended List.suffix_rfl
  | cons t left =>
    rw [run_bind (run_check_cons (hleft.trans hts) _)]
    by_cases ht : t.kind = .symbol .comma
    · rw [if_pos (beq_iff_eq.2 ht), run_bind (run_advance_cons (hleft.trans hts)), run_pure,
        Parser.outcome_many_bind_turn _ (if_pos ht), bind_map_left]
      have hall (first : β) (more : List β) :
          all ++ one :: ((some first).toList ++ more) = all ++ [one] ++ first :: more := by
        rw [List.append_assoc]
        rfl
      simp only [hall]
      exact .again _ (List.suffix_cons t left) hlength
    · rw [if_neg (mt beq_iff_eq.1 ht), Parser.outcome_many_bind_stop _ (if_neg ht)]
      exact .ended List.suffix_rfl

lemma separated_bind {w : Walk β} {p : Parser β} {f : List β → Walk α} {g : List β → Parser α}
    (h : Follows q d w p) (hf : ∀ all, Follows q d (f all) (g all)) :
    Follows q d (Walk.separated w >>= f) (p >>= fun first =>
      (Parser.many fun t _ => if t.kind = .symbol .comma then some (some <$> p) else none) >>=
        fun more => g (first :: more)) := by
  have hbind := h.separated.bind hf
  simp only [bind_assoc, pure_bind] at hbind
  exact hbind

end Follows

end Passage

end LogQuery
