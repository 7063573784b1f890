import LogQuery.Proofs.Parser.Outcome
import LogQuery.Proofs.Parser.Walk.Grammar

/-!
# Walks that follow readers

A walk follows a reader if, wherever it starts among the tokens in front of the end of the query, it
ends as the reader does on the tokens that are left there: with the same value and the cursor in
front of what the reader leaves, or with the same error. Then it never asks for a token that is not
there, and none of its loops goes round without taking a token.

There is one rule for each way of building walks. The depth of the cursor is the same before and
after; in between, what nests is walked one level deeper.
-/

namespace LogQuery

variable {α β : Type}

/-! ### The tokens of a walk -/

/-- The tokens in front of the first end of the query, this end, and what is behind it. -/
structure Passage where
  front : List Token
  stop : Token
  behind : List Token
  limits : ParserLimits
  stop_kind : stop.kind = .eof
  front_kind : ∀ t ∈ front, t.kind ≠ .eof

namespace Passage

open Walk

variable {q : Passage} {t : Token} {ts ts' rest : List Token} {d d' : Nat}

/-- What a walk is over. -/
def tape (q : Passage) : Tape := ⟨q.front ++ q.stop :: q.behind, q.limits⟩

/-- What readers know. -/
def setting (q : Passage) : Parser.Setting := ⟨q.stop, q.limits.maxDepth⟩

/-- The cursor in front of what is left of the tokens, all others having been taken. -/
def cursor (q : Passage) (ts : List Token) (d : Nat) : Cursor :=
  ⟨q.front.length - ts.length, d, List.range (q.front.length - ts.length)⟩

/-- Walks from what is left of the tokens on. -/
def run (q : Passage) (w : Walk α) (ts : List Token) (d : Nat) : WalkEnd α :=
  w q.tape (q.cursor ts d)

/-! ### Single steps -/

lemma run_pure (a : α) : q.run (pure a) ts d = .done a (q.cursor ts d) := rfl

lemma run_bind_apply (w : Walk α) (f : α → Walk β) :
    q.run (w >>= f) ts d =
      (match q.run w ts d with
      | .done a c => f a q.tape c
      | .refused e c => .refused e c
      | .outOfRange => .outOfRange
      | .stuck => .stuck : WalkEnd β) := rfl

lemma run_bind {w : Walk α} {a : α} (h : q.run w ts d = .done a (q.cursor ts' d'))
    (f : α → Walk β) : q.run (w >>= f) ts d = q.run (f a) ts' d' := by
  rw [run_bind_apply, h]
  rfl

lemma run_bind_refused {w : Walk α} {e : ParseError} {c : Cursor}
    (h : q.run w ts d = .refused e c) (f : α → Walk β) : q.run (w >>= f) ts d = .refused e c := by
  rw [run_bind_apply, h]

lemma run_refuse (fault : ParseFault) :
    q.run (refuse t fault : Walk α) ts d = .refused ⟨fault, t⟩ (q.cursor ts d) := rfl

/-- Looking ahead as far as to the end of the query. -/
lemma run_peek {k : Nat} (hts : ts <:+ q.front) (hk : k ≤ ts.length) :
    q.run (peek k) ts d = .done (ts[k]?.getD q.stop) (q.cursor ts d) := by
  obtain ⟨before, hbefore⟩ := hts
  have hposition : q.front.length - ts.length = before.length := by
    rw [← hbefore, List.length_append, Nat.add_sub_cancel]
  have hindex : min (before.length + k) (q.tape.tokens.length - 1) = before.length + k := by
    rw [tape, List.length_append, List.length_cons, ← hbefore, List.length_append]
    omega
  have htoken : q.tape.tokens[before.length + k]? = some (ts[k]?.getD q.stop) := by
    rw [tape, ← hbefore, List.append_assoc, List.getElem?_append_right (Nat.le_add_right _ _),
      Nat.add_sub_cancel_left]
    rcases Nat.lt_or_eq_of_le hk with hlt | rfl
    · rw [List.getElem?_append_left hlt, List.getElem?_eq_getElem hlt]
      rfl
    · rw [List.getElem?_append_right (Nat.le_refl _), Nat.sub_self,
        List.getElem?_eq_none (Nat.le_refl _)]
      rfl
  rw [run, peek, cursor, hposition, hindex, tokenAt, htoken]

lemma run_current_nil : q.run current [] d = .done q.stop (q.cursor [] d) :=
  run_peek (List.nil_suffix) (Nat.zero_le _)

lemma run_current_cons (hts : t :: ts <:+ q.front) :
    q.run current (t :: ts) d = .done t (q.cursor (t :: ts) d) :=
  run_peek hts (Nat.zero_le _)

lemma kind_ne_eof (hts : t :: ts <:+ q.front) : t.kind ≠ .eof :=
  q.front_kind t (hts.subset List.mem_cons_self)

lemma suffix_of_cons (hts : t :: ts <:+ q.front) : ts <:+ q.front :=
  (List.suffix_cons t ts).trans hts

lemma run_move (hts : t :: ts <:+ q.front) : q.run move (t :: ts) d = .done () (q.cursor ts d) := by
  have hlength := hts.length_le
  have hnext : q.front.length - (t :: ts).length + 1 = q.front.length - ts.length := by
    rw [List.length_cons] at hlength ⊢
    omega
  rw [run, move, cursor, cursor, ← hnext, List.range_succ]

lemma run_advance_cons (hts : t :: ts <:+ q.front) :
    q.run advance (t :: ts) d = .done t (q.cursor ts d) := by
  have hkind : (t.kind == .eof) = false := beq_false_of_ne (kind_ne_eof hts)
  rw [advance, run_bind (run_current_cons hts), hkind, if_neg Bool.false_ne_true,
    run_bind (run_move hts), run_pure]

lemma run_check_nil {kind : TokenKind} (hkind : kind ≠ .eof) :
    q.run (check kind) [] d = .done false (q.cursor [] d) := by
  rw [check, run_bind run_current_nil, run_pure, q.stop_kind, beq_false_of_ne hkind.symm]

lemma run_check_eof_nil : q.run (check .eof) [] d = .done true (q.cursor [] d) := by
  rw [check, run_bind run_current_nil, run_pure, q.stop_kind, beq_self_eq_true]

lemma run_check_cons (hts : t :: ts <:+ q.front) (kind : TokenKind) :
    q.run (check kind) (t :: ts) d = .done (t.kind == kind) (q.cursor (t :: ts) d) := by
  rw [check, run_bind (run_current_cons hts), run_pure]

lemma run_current_refuse (hts : ts <:+ q.front) (fault : ParseFault) :
    q.run (do refuse (← current) fault : Walk α) ts d =
      .refused ⟨fault, ts.head?.getD q.stop⟩ (q.cursor ts d) := by
  cases ts with
  | nil =>
    rw [run_bind run_current_nil, run_refuse]
    rfl
  | cons t ts =>
    rw [run_bind (run_current_cons hts), run_refuse]
    rfl

lemma run_unexpected (hts : ts <:+ q.front) (what : Expectation) :
    q.run (unexpected what : Walk α) ts d =
      .refused ⟨.expected what, ts.head?.getD q.stop⟩ (q.cursor ts d) :=
  run_current_refuse hts _

lemma run_atStageEnd_nil : q.run atStageEnd [] d = .done true (q.cursor [] d) := by
  rw [atStageEnd, run_bind run_current_nil, run_pure, q.stop_kind]
  rfl

lemma run_atStageEnd_cons (hts : t :: ts <:+ q.front) :
    q.run atStageEnd (t :: ts) d =
      .done (t.kind == .symbol .pipe) (q.cursor (t :: ts) d) := by
  have hkind : (t.kind == .eof) = false := beq_false_of_ne (kind_ne_eof hts)
  rw [atStageEnd, run_bind (run_current_cons hts), run_pure, hkind, Bool.or_false]

lemma run_atParameter_nil (name : String) :
    q.run (atParameter name) [] d = .done false (q.cursor [] d) := by
  rw [atParameter, run_bind run_current_nil, q.stop_kind]
  rfl

lemma run_atParameter_cons (hts : t :: ts <:+ q.front) (name : String) :
    q.run (atParameter name) (t :: ts) d =
      .done (Parser.startsParameter name t ts) (q.cursor (t :: ts) d) := by
  rw [atParameter, run_bind (run_current_cons hts), Parser.startsParameter]
  by_cases h : (t.kind.isWord && Text.equalIgnoringCase t.text name) = true
  · rw [if_pos h, run_bind (run_peek hts (Nat.le_add_left 1 _)), run_pure, h, Bool.true_and]
    cases ts with
    | nil =>
      rw [List.getElem?_cons_succ, List.getElem?_nil, Option.getD_none, q.stop_kind]
      rfl
    | cons u ts => rfl
  · rw [if_neg h, run_pure, Bool.eq_false_iff.2 h, Bool.false_and]

/-! ### Levels -/

lemma run_limits : q.run Walk.limits ts d = .done q.limits (q.cursor ts d) := rfl

lemma run_enter_of_lt (h : d < q.limits.maxDepth) :
    q.run enter ts d = .done () (q.cursor ts (d + 1)) := by
  rw [run, enter, if_neg (by exact Nat.not_lt.2 h)]
  rfl

lemma run_enter_of_le (hts : ts <:+ q.front) (h : q.limits.maxDepth ≤ d) :
    q.run enter ts d =
      .refused ⟨.tooDeep q.limits.maxDepth, ts.head?.getD q.stop⟩ (q.cursor ts (d + 1)) := by
  rw [run, enter, if_pos (by exact Nat.lt_succ_of_le h)]
  exact run_current_refuse hts _

/-! ### Walks and readers -/

/-- A walk ends as a reader does: with the same value, and the cursor in front of what the reader
leaves; or with the same error, wherever the cursor stands then. -/
inductive Tells (q : Passage) (d : Nat) (ts : List Token) :
    Except ParseError (α × List Token) → WalkEnd α → Prop where
  | done {a : α} {rest : List Token} (h : rest <:+ ts) :
      Tells q d ts (.ok (a, rest)) (.done a (q.cursor rest d))
  | refused {e : ParseError} {rest : List Token} {d' : Nat} (h : rest <:+ ts) :
      Tells q d ts (.error e) (.refused e (q.cursor rest d'))

/-- Wherever it starts at a depth, the walk ends as the reader does. -/
def Follows (q : Passage) (d : Nat) (w : Walk α) (p : Parser α) : Prop :=
  ∀ ⦃ts⦄, ts <:+ q.front → Tells q d ts (p.outcome q.setting ts) (q.run w ts d)

/-- Wherever a token is next, the walk ends as the reader does that has taken the token. -/
def FollowsAt (q : Passage) (d : Nat) (w : Walk α) (p : Token → Parser α) : Prop :=
  ∀ ⦃t ts⦄, t :: ts <:+ q.front →
    Tells q d (t :: ts) ((p t).outcome q.setting ts) (q.run w (t :: ts) d)

namespace Tells

variable {p : Parser α} {g : α → Parser β} {w : Walk α} {f : α → Walk β}
  {r : Except ParseError (α × List Token)} {x : WalkEnd α}

lemma mono (h : Tells q d rest r x) (hrest : rest <:+ ts) : Tells q d ts r x := by
  cases h with
  | done h => exact .done (h.trans hrest)
  | refused h => exact .refused (h.trans hrest)

lemma refuse (t : Token) (fault : ParseFault) :
    Tells q d' ts ((Parser.failAt t fault : Parser α).outcome q.setting rest)
      (q.run (refuse t fault) ts d) := .refused List.suffix_rfl

lemma unexpected (hts : ts <:+ q.front) (what : Expectation) :
    Tells q d' ts ((Parser.fail (.expected what) : Parser α).outcome q.setting ts)
      (q.run (unexpected what) ts d) := by
  rw [run_unexpected hts]
  exact .refused List.suffix_rfl

/-- What has been read and what has been walked goes on alike. The depth at which the first walk
ends need not be the one at which the whole does. -/
lemma bind_of_ok (h : Tells q d' ts (p.outcome q.setting rest) (q.run w ts' d'))
    (hf : ∀ a left, p.outcome q.setting rest = .ok (a, left) → left <:+ ts →
      Tells q d left ((g a).outcome q.setting left) (q.run (f a) left d')) :
    Tells q d ts ((p >>= g).outcome q.setting rest) (q.run (w >>= f) ts' d') := by
  rw [Parser.outcome_bind, run_bind_apply]
  generalize q.run w ts' d' = x at h ⊢
  cases hp : p.outcome q.setting rest with
  | error e =>
    rw [hp] at h
    cases h with
    | refused h => exact .refused h
  | ok r =>
    rw [hp] at h
    cases h with
    | done h => exact (hf _ _ hp h).mono h

lemma bind (h : Tells q d' ts (p.outcome q.setting rest) (q.run w ts' d'))
    (hf : ∀ a left, left <:+ ts →
      Tells q d left ((g a).outcome q.setting left) (q.run (f a) left d')) :
    Tells q d ts ((p >>= g).outcome q.setting rest) (q.run (w >>= f) ts' d') :=
  h.bind_of_ok fun a left _ => hf a left

lemma ite {c : Prop} [Decidable c] {p' : Parser α} {w' : Walk α}
    (h : c → Tells q d ts (p.outcome q.setting rest) (q.run w ts' d'))
    (h' : ¬ c → Tells q d ts (p'.outcome q.setting rest) (q.run w' ts' d')) :
    Tells q d ts ((if c then p else p').outcome q.setting rest)
      (q.run (if c then w else w') ts' d') := by
  by_cases hc : c
  · rw [if_pos hc, if_pos hc]
    exact h hc
  · rw [if_neg hc, if_neg hc]
    exact h' hc

/-- What follows the next token, if the walk takes it. -/
lemma advance {f : Token → Walk α} (hts : t :: ts <:+ q.front) (h : Follows q d (f t) p) :
    Tells q d (t :: ts) (p.outcome q.setting ts) (q.run (Walk.advance >>= f) (t :: ts) d) := by
  rw [run_bind (run_advance_cons hts)]
  exact (h (suffix_of_cons hts)).mono (List.suffix_cons t ts)

lemma map (h : Tells q d ts (p.outcome q.setting rest) (q.run w ts' d)) (f : α → β) :
    Tells q d ts ((f <$> p).outcome q.setting rest) (q.run (f <$> w) ts' d) := by
  change Tells q d ts ((p >>= fun a => pure (f a)).outcome q.setting rest)
    (q.run (w >>= fun a => pure (f a)) ts' d)
  exact h.bind fun _ _ _ => .done List.suffix_rfl

end Tells

namespace Follows

variable {p : Parser α} {g : α → Parser β} {w : Walk α} {f : α → Walk β}

lemma pure (a : α) : Follows q d (pure a) (pure a) := fun _ _ => .done List.suffix_rfl

lemma refuse (t : Token) (fault : ParseFault) :
    Follows q d (refuse t fault : Walk α) (Parser.failAt t fault) := fun _ _ => .refuse t fault

lemma current_refuse (fault : ParseFault) :
    Follows q d (do Walk.refuse (← current) fault : Walk α) (Parser.fail fault) := by
  intro ts hts
  rw [run_current_refuse hts]
  exact .refused List.suffix_rfl

lemma unexpected (what : Expectation) :
    Follows q d (unexpected what : Walk α) (Parser.fail (.expected what)) :=
  fun _ hts => .unexpected hts what

lemma bind (h : Follows q d w p) (hf : ∀ a, Follows q d (f a) (g a)) :
    Follows q d (w >>= f) (p >>= g) :=
  fun _ hts => (h hts).bind fun a _ hrest => hf a (hrest.trans hts)

lemma map (h : Follows q d w p) (f : α → β) : Follows q d (f <$> w) (f <$> p) :=
  fun _ hts => (h hts).map f

/-- The walk may give an image of what the reader gives, if both go on alike from there. -/
lemma bind_image {γ : Type} {φ : α → β} {w : Walk β} {f : β → Walk γ} {g : α → Parser γ}
    (h : Follows q d w (p >>= fun a => Pure.pure (φ a)))
    (hf : ∀ a, Follows q d (f (φ a)) (g a)) : Follows q d (w >>= f) (p >>= g) := by
  intro ts hts
  have hw := h hts
  rw [Parser.outcome_bind] at hw ⊢
  rw [run_bind_apply]
  generalize p.outcome q.setting ts = r at hw ⊢
  generalize q.run w ts d = x at hw ⊢
  cases r with
  | error e =>
    cases hw with
    | refused h => exact .refused h
  | ok r =>
    cases hw with
    | done h => exact (hf r.1 (h.trans hts)).mono h

lemma take {what : Expectation} {p : Token → Parser α} (h : FollowsAt q d w p)
    (hend : Tells q d [] (.error ⟨.expected what, q.stop⟩) (q.run w [] d)) :
    Follows q d w (Parser.take what >>= p) := by
  intro ts hts
  cases ts with
  | nil => exact hend
  | cons t ts =>
    rw [Parser.outcome_take_bind_cons]
    exact h hts

lemma ite {c : Prop} [Decidable c] {p' : Parser α} {w' : Walk α} (h : c → Follows q d w p)
    (h' : ¬ c → Follows q d w' p') :
    Follows q d (if c then w else w') (if c then p else p') :=
  fun _ hts => .ite (fun hc => h hc hts) fun hc => h' hc hts

/-- A walk that looks for a token of some kind and takes it. -/
lemma check {kind : TokenKind} (hkind : kind ≠ .eof) {g : Bool → Parser β} {w w' : Walk β}
    (h : Follows q d w (g true)) (h' : Follows q d w' (g false)) :
    Follows q d (Walk.check kind >>= fun found => if found then advance >>= fun _ => w else w')
      (Parser.accept kind >>= g) := by
  intro ts hts
  cases ts with
  | nil =>
    rw [run_bind (run_check_nil hkind), if_neg Bool.false_ne_true,
      Parser.outcome_accept_bind_nil]
    exact h' hts
  | cons t ts =>
    rw [run_bind (run_check_cons hts kind), Parser.outcome_accept_bind_cons]
    by_cases ht : t.kind = kind
    · rw [if_pos (beq_iff_eq.2 ht), if_pos ht, run_bind (run_advance_cons hts)]
      exact (h (suffix_of_cons hts)).mono (List.suffix_cons t ts)
    · rw [if_neg (mt beq_iff_eq.1 ht), if_neg ht]
      exact h' hts

/-- A walk that looks whether a token of some kind is next. -/
lemma checkNext {kind : TokenKind} (hkind : kind ≠ .eof) {p p' : Parser α} {w w' : Walk α}
    (h : Follows q d w p) (h' : Follows q d w' p') :
    Follows q d (Walk.check kind >>= fun found => if found then w else w')
      (Parser.nextKind? >>= fun next => if next = some kind then p else p') := by
  intro ts hts
  cases ts with
  | nil =>
    rw [run_bind (run_check_nil hkind), if_neg Bool.false_ne_true,
      Parser.outcome_nextKind?_bind_nil, if_neg nofun]
    exact h' hts
  | cons t ts =>
    rw [run_bind (run_check_cons hts kind), Parser.outcome_nextKind?_bind_cons]
    by_cases ht : t.kind = kind
    · rw [if_pos (beq_iff_eq.2 ht), if_pos (congrArg some ht)]
      exact h hts
    · rw [if_neg (mt beq_iff_eq.1 ht), if_neg fun h => ht (Option.some.inj h)]
      exact h' hts

/-- A walk that looks whether the query ends. -/
lemma checkEnd {p p' : Parser α} {w w' : Walk α} (h : Follows q d w p) (h' : Follows q d w' p') :
    Follows q d (Walk.check .eof >>= fun found => if found then w else w')
      (Parser.nextKind? >>= fun next => if next.isNone then p else p') := by
  intro ts hts
  cases ts with
  | nil =>
    rw [run_bind run_check_eof_nil, if_pos rfl,
      Parser.outcome_nextKind?_bind_nil, if_pos Option.isNone_none]
    exact h hts
  | cons t ts =>
    rw [run_bind (run_check_cons hts _), if_neg (mt beq_iff_eq.1 (kind_ne_eof hts)),
      Parser.outcome_nextKind?_bind_cons, if_neg (by rw [Option.isNone_some]; exact nofun)]
    exact h' hts

lemma consume {kind : TokenKind} (hkind : kind ≠ .eof) (what : Expectation) :
    Follows q d (consume kind what) (Parser.expect kind what) := by
  intro ts hts
  cases ts with
  | nil =>
    rw [Walk.consume, run_bind (run_check_nil hkind), if_neg Bool.false_ne_true,
      Parser.expect, Parser.outcome_take_bind_nil]
    exact .unexpected hts what
  | cons t ts =>
    rw [Walk.consume, run_bind (run_check_cons hts kind), Parser.expect,
      Parser.outcome_take_bind_cons]
    by_cases ht : t.kind = kind
    · rw [if_pos (beq_iff_eq.2 ht), if_pos ht, run_advance_cons hts]
      exact .done (List.suffix_cons t ts)
    · rw [if_neg (mt beq_iff_eq.1 ht), if_neg ht]
      exact .unexpected hts what

/-- A parameter is taken with its equals sign. -/
lemma parameter {w : Walk α} {p : Parser α} (name : String) (h : Follows q d w p) :
    Follows q d (parameter name w) (Parser.parameter name p) := by
  intro ts hts
  cases ts with
  | nil =>
    rw [Walk.parameter, run_bind (run_atParameter_nil name)]
    exact .done List.suffix_rfl
  | cons t ts =>
    rw [Walk.parameter, run_bind (run_atParameter_cons hts name)]
    by_cases hname : Parser.startsParameter name t ts = true
    · obtain ⟨sign, rest, rfl, hsign⟩ := Parser.sign_of_startsParameter hname
      have hrest := suffix_of_cons hts
      rw [if_pos hname, run_bind (run_advance_cons hts), run_bind (run_advance_cons hrest)]
      rw [Parser.outcome_parameter_turn hname hsign]
      exact ((h (suffix_of_cons hrest)).map some).mono
        ((List.suffix_cons sign rest).trans (List.suffix_cons t _))
    · rw [if_neg hname, Parser.outcome_parameter_stop (Bool.eq_false_iff.2 hname)]
      exact .done List.suffix_rfl

end Follows

/-! ### What nests -/

/-- A walk and a reader of what nests: one level deeper the walk follows the reader, unless that is
too deep, which the reader finds at once. -/
inductive Nests (q : Passage) (d : Nat) (w : Walk α) (p : Parser α) : Prop where
  | deeper (hd : d < q.limits.maxDepth) (h : Follows q (d + 1) w p)
  | tooDeep (hd : q.limits.maxDepth ≤ d)
      (h : ∀ ts, p.outcome q.setting ts = (Parser.tooDeep : Parser α).outcome q.setting ts)

namespace Nests

variable {p : Parser α} {g : α → Parser β} {w : Walk α} {f : α → Walk β}

/-- The level may be closed anywhere behind what nests. -/
lemma enter (h : Nests q d w p)
    (hf : ∀ a ⦃ts⦄, ts <:+ q.front →
      Tells q d ts ((g a).outcome q.setting ts) (q.run (f a) ts (d + 1))) :
    Follows q d (do Walk.enter; let a ← w; f a) (p >>= g) := by
  intro ts hts
  cases h with
  | deeper hd h =>
    rw [run_bind (run_enter_of_lt hd)]
    exact (h hts).bind fun a left hleft => hf a (hleft.trans hts)
  | tooDeep hd h =>
    rw [run_bind_refused (run_enter_of_le hts hd), Parser.outcome_bind, h, Parser.outcome_tooDeep]
    exact .refused List.suffix_rfl

lemma enter_leave (h : Nests q d w p) (hf : ∀ a, Follows q d (f a) (g a)) :
    Follows q d (do Walk.enter; let a ← w; Walk.leave; f a) (p >>= g) :=
  h.enter fun a _ hts => hf a hts

end Nests

end Passage

end LogQuery
