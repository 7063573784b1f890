import LogQuery.CommandLine.Libraries
import LogQuery.Proofs.Parser.Condition
import LogQuery.Proofs.Parser.WellFormed
import LogQuery.Proofs.Syntax.Height

/-!
# The limits bound the height of what is read

Every group of a condition but the outermost two, and every level of an expression but its chains,
costs a level of nesting; a chain costs tokens. So the height of a condition is bounded by the limit
on the nesting alone, and the height of an expression by this limit together with its longest chain,
which the limit on the number of tokens bounds (`height_le_of_parseTokens`).
-/

namespace LogQuery

namespace ExprLevel

/-- How much higher than what nests in it an expression of a level is at most, if no more than `k`
operators of one level stand one left of the other. -/
def growth (k : Nat) : ExprLevel → Nat
  | .unary | .primary => 1
  | .product => k + 1
  | .sum => 2 * k + 1
  | .comparison => 2 * k + 2
  | .conjunction => 3 * k + 2
  | .disjunction => 4 * k + 2

variable {level : ExprLevel} {k : Nat}

/-- A level with weaker operators may grow higher. -/
lemma growth_next_le : level.next.growth k ≤ level.growth k := by
  cases level <;> simp only [next, growth] <;> omega

/-- A chain of `k` operators adds `k` to the height of its operands. -/
lemma growth_of_chains (h : level.chains = true) : level.growth k = level.next.growth k + k := by
  cases level with
  | comparison | unary | primary => cases h
  | disjunction | conjunction | sum | product =>
    simp only [next, growth]
    omega

end ExprLevel

namespace Parser

variable {s : Setting} {ts rest : List Token}

/-! ### Expressions -/

section Expressions

variable {level : ExprLevel} {n k growth : Nat} {e : EvalExpr}

/-- An expression that nests at most `n` deep is at most so much higher than what nests in it. -/
def HeightWithin (k n growth : Nat) (e : EvalExpr) : Prop :=
  e.height + ExprLevel.growth k .disjunction ≤ ExprLevel.growth k .disjunction * n + growth

namespace HeightWithin

lemma mono {growth' : Nat} (h : HeightWithin k n growth e) (hle : growth ≤ growth') :
    HeightWithin k n growth' e := Nat.le_trans h (Nat.add_le_add_left hle _)

lemma height_le (h : HeightWithin k n (ExprLevel.growth k .disjunction) e) :
    e.height ≤ ExprLevel.growth k .disjunction * n := Nat.le_of_add_le_add_right h

/-- What has a level of nesting for itself. -/
lemma succ (h : e.height ≤ ExprLevel.growth k .disjunction * n + growth) :
    HeightWithin k (n + 1) growth e := by
  rw [HeightWithin, Nat.mul_succ, Nat.add_right_comm]
  exact Nat.add_le_add_right h _

lemma binary {op : BinaryOperator} {left right : EvalExpr} (hleft : HeightWithin k n growth left)
    (hright : HeightWithin k n growth right) :
    HeightWithin k n (growth + 1) (.binary op left right) := by
  simp only [HeightWithin, EvalExpr.height] at hleft hright ⊢
  omega

end HeightWithin

/-- The induction is on the derivation. Along a chain the left operand grows with every operator,
so what is known of it counts the operators so far. -/
lemma DerivesExpr.heightWithin (h : DerivesExpr level n ts e) (hrun : e.longestRun ≤ k) :
    HeightWithin k n (level.growth k) e ∧
      (level.chains = true → HeightWithin k n (level.next.growth k + e.run level) e) := by
  induction h with
  | single _ ih =>
    have hnext := (ih hrun).1
    exact ⟨hnext.mono ExprLevel.growth_next_le, fun _ => hnext.mono (Nat.le_add_right _ _)⟩
  | @chain level op n t ts ts' left right hchain hlevel _ _ _ ihleft ihright =>
    obtain ⟨hcount, hrunLeft, hrunRight⟩ := EvalExpr.longestRun_binary_le.1 hrun
    have hleft := (ihleft hrunLeft).2 hchain
    have hright := (ihright hrunRight).1.mono (Nat.le_add_right _ (left.run level))
    have hwhole : HeightWithin k n (level.next.growth k + (left.run level + 1))
        (.binary op left right) := hleft.binary hright
    rw [EvalExpr.run_binary left right hlevel]
    refine ⟨hwhole.mono ?_, fun _ => hwhole⟩
    rw [ExprLevel.growth_of_chains hchain]
    rw [hlevel] at hcount
    exact Nat.add_le_add_left hcount _
  | compare _ _ _ _ ihleft ihright =>
    obtain ⟨-, hrunLeft, hrunRight⟩ := EvalExpr.longestRun_binary_le.1 hrun
    exact ⟨(ihleft hrunLeft).1.binary (ihright hrunRight).1, nofun⟩
  | @minus n t ts e _ hoperand ih =>
    obtain ⟨-, -, hrunRight⟩ := EvalExpr.longestRun_binary_le.1 hrun
    have hheight := (ih hrunRight).1
    refine ⟨.succ ?_, nofun⟩
    have hpos := hoperand.pos
    have hone := e.height_pos
    simp only [HeightWithin, ExprLevel.growth] at hheight ⊢
    simp only [EvalExpr.height, Nat.max_eq_right hone]
    omega
  | number | string | regex | null | field => exact ⟨.succ (Nat.le_add_left _ _), nofun⟩
  | callEmpty => exact ⟨.succ (Nat.le_add_left _ _), nofun⟩
  | @call _ _ _ _ _ e more _ _ _ _ _ _ ih ihmore =>
    have hargs : EvalExpr.longestRunOfAll (e :: more.map fun x => x.2.2) ≤ k := hrun
    rw [EvalExpr.longestRunOfAll_le_iff, List.forall_mem_cons, List.forall_mem_map] at hargs
    refine ⟨.succ (Nat.succ_le_succ (EvalExpr.heightOfAll_le_iff.2 ?_)), nofun⟩
    rw [List.forall_mem_cons, List.forall_mem_map]
    exact ⟨(ih hargs.1).1.height_le, fun x hx => (ihmore x hx (hargs.2 x hx)).1.height_le⟩
  | parens _ _ _ ih =>
    exact ⟨.succ (Nat.le_succ_of_le (ih hrun).1.height_le), nofun⟩

/-- Every node of the tree takes a token. -/
lemma DerivesExpr.height_le_length (h : DerivesExpr level n ts e) : e.height ≤ ts.length := by
  induction h with
  | single _ ih => exact ih
  | chain _ _ _ _ _ ih ih' | compare _ _ _ _ ih ih' =>
    simp only [EvalExpr.height, List.length_append, List.length_cons]
    omega
  | @minus _ _ _ e _ _ ih =>
    simp only [EvalExpr.height, Nat.max_eq_right e.height_pos, List.length_cons]
    exact Nat.succ_le_succ ih
  | number | string | regex | null | field => exact Nat.le_refl 1
  | callEmpty => exact Nat.le_add_left 1 2
  | @call _ t opening closing ts e more _ _ _ _ _ _ ih ihmore =>
    have hargs : ∀ e' ∈ e :: more.map fun x => x.2.2,
        e'.height ≤ ts.length + (more.flatMap fun x => x.1 :: x.2.1).length := by
      rw [List.forall_mem_cons, List.forall_mem_map]
      refine ⟨Nat.le_trans ih (Nat.le_add_right _ _), fun x hx => ?_⟩
      have hpart : x.2.1.Sublist (more.flatMap fun x => x.1 :: x.2.1) := by
        rw [List.flatMap_def]
        refine (List.sublist_cons_self x.1 x.2.1).trans (List.sublist_flatten_of_mem ?_)
        exact List.mem_map_of_mem hx
      exact Nat.le_trans (ihmore x hx) (Nat.le_trans hpart.length_le (Nat.le_add_left _ _))
    have hheight := EvalExpr.heightOfAll_le_iff.2 hargs
    simp only [EvalExpr.height, List.length_cons, List.length_append, List.length_nil]
    omega
  | parens _ _ _ ih =>
    simp only [List.length_cons, List.length_append, List.length_nil]
    omega

/-- An expression that is read is no higher than the setting and its tokens allow. -/
lemma height_le_of_reads_expression (h : expression.Reads s ts e rest) :
    e.height ≤ (4 * e.longestRun + 2) * s.maxDepth ∧ e.height ≤ ts.length := by
  obtain ⟨front, rfl, hfront⟩ := derives_of_reads_expression h
  refine ⟨(hfront.heightWithin (Nat.le_refl _)).1.height_le, ?_⟩
  exact Nat.le_trans hfront.height_le_length (by simp)

end Expressions

/-! ### Conditions -/

/-- A group is one higher than its members. -/
lemma height_le_join {logic : Connective} {cs : List Condition} {n : Nat}
    (h : ∀ c ∈ cs, c.height ≤ n) : ∀ c ∈ Condition.join? logic cs, c.height ≤ n + 1 := by
  refine Condition.forall_mem_join (fun _ => ?_) fun c hc => Nat.le_succ_of_le (h c hc)
  exact Nat.succ_le_succ (Condition.heightOfAll_le_iff.2 h)

/-- A disjunction may be two higher than what is nested in it: one for each connective. -/
lemma disjunction_yields_height {good : Token → Prop} {nested : ConditionAt} {n : Nat}
    (h : ∀ t, Yields good (nested t) fun o => ∀ c ∈ o, c.height ≤ n) :
    Yields good (disjunction nested) fun o => ∀ c ∈ o, c.height ≤ n + 2 :=
  disjunction_yields h (fun _ => height_le_join) fun _ => height_le_join

/-- The induction is on how deep a condition may nest: parentheses are paid for by a level, and what
stands in them joins members and then alternatives. -/
lemma unary_yields_height {good : Token → Prop} (depth : Nat) (t : Token) :
    Yields good (unary depth t) fun o => ∀ c ∈ o, c.height ≤ 2 * depth + 1 := by
  induction depth generalizing t with
  | zero => exact unaryBy_yields (fun _ _ _ => Nat.le_refl 1) .tooDeep .tooDeep t
  | succ depth ih =>
    refine unaryBy_yields (fun _ _ _ => Nat.le_add_left _ _) ?_ ?_ t
    · refine .bind_of_forall fun t' => (ih t').mono fun o ho c hc => ?_
      rw [Condition.height_negate]
      exact Nat.le_trans (ho c hc) (by omega)
    · exact .bind (disjunction_yields_height ih) fun o ho => .bind_of_forall fun _ => .pure ho

/-- A condition that is read is no higher than the setting allows. -/
lemma height_le_of_reads_conditions {cs : List Condition} (h : conditions.Reads s ts cs rest) :
    ∀ c ∈ cs, c.height ≤ 2 * (s.maxDepth + 1) + 1 := by
  obtain ⟨o, ho, -, rfl⟩ := reads_conditions.1 h
  have hgood : ∀ t ∈ ts, True := fun _ _ => trivial
  have hwhole := disjunction_yields_height (unary_yields_height s.maxDepth) hgood ho
  intro c hc
  rw [Condition.topLevel.eq_def] at hc
  split at hc
  · cases hc
  · next members =>
    have hmembers := Nat.le_of_succ_le (hwhole _ rfl)
    exact Condition.heightOfAll_le_iff.1 hmembers c hc
  · cases List.mem_singleton.1 hc
    exact hwhole _ rfl

end Parser

/-! ### Queries -/

/-- Whatever the tokens are, a condition that is read is no higher than the limit on the nesting
allows, and neither is an expression in which no two operators of one level stand one left of the
other. In other expressions the longest such row counts as well, and no expression is higher than
the query has tokens. -/
theorem height_le_of_parseTokens [Libraries] {limits : ParserLimits} {ts : List Token}
    {p : Pipeline} (h : parseTokens limits ts = .ok p) :
    ∀ stage ∈ p.stages, stage.Meets
      (fun cs => ∀ c ∈ cs, c.height ≤ 2 * (limits.maxDepth + 1) + 1)
      (fun e => (e.longestRun ≤ 1 → e.height ≤ 6 * limits.maxDepth) ∧
        e.height ≤ (4 * e.longestRun + 2) * limits.maxDepth ∧ e.height ≤ limits.maxTokens) := by
  obtain ⟨stop, body, rest, -, hlength, hstages⟩ := parseTokens_eq_ok h
  refine Parser.meets_of_reads_stages (fun _ _ _ _ hr => ?_) (fun ts' e _ hts hr => ?_) hstages
  · exact Parser.height_le_of_reads_conditions hr
  · obtain ⟨hdepth, htokens⟩ := Parser.height_le_of_reads_expression hr
    refine ⟨fun hrun => ?_, hdepth, htokens.trans (hts.length_le.trans hlength)⟩
    have hgrowth : 4 * e.longestRun + 2 ≤ 6 := by omega
    exact hdepth.trans (Nat.mul_le_mul_right _ hgrowth)

/-- The tokens of `eval x = a + a + a + a + a + a + a + a`. -/
def longSumTokens : List Token :=
  let word (name : String) : Token := ⟨.identifier, name, .start⟩
  ⟨.command .eval, "eval", .start⟩ :: word "x" :: ⟨.symbol .eq, "=", .start⟩ :: word "a" ::
    (List.replicate 7 [⟨.symbol .plus, "+", .start⟩, word "a"]).flatten

/-- What they write: every operator takes all that stands left of it. -/
def longSum : EvalExpr :=
  (List.replicate 7 (.field "a")).foldl (.binary .add) (.field "a")

lemma parseTokens_longSum [Libraries] :
    parseTokens ⟨18, 1⟩ longSumTokens = .ok ⟨[.eval [⟨"x", longSum⟩]]⟩ := by
  with_unfolding_all rfl

theorem height_le_of_parseTokens_longSum :
    parseTokens ⟨18, 1⟩ longSumTokens = .ok ⟨[.eval [⟨"x", longSum⟩]]⟩ ∧
      ∀ stage ∈ [Stage.eval [⟨"x", longSum⟩]], stage.Meets
        (fun cs => ∀ c ∈ cs, c.height ≤ 2 * (1 + 1) + 1)
        (fun e => (e.longestRun ≤ 1 → e.height ≤ 6 * 1) ∧
          e.height ≤ (4 * e.longestRun + 2) * 1 ∧ e.height ≤ 18) :=
  ⟨parseTokens_longSum, height_le_of_parseTokens parseTokens_longSum⟩

/-- The limit on the nesting alone bounds no height of expressions: a long sum nests one level
deep. -/
theorem not_height_le_of_maxDepth :
    ¬ ∀ (limits : ParserLimits) (ts : List Token) (p : Pipeline),
      parseTokens limits ts = .ok p → ∀ stage ∈ p.stages, stage.Meets
        (fun cs => ∀ c ∈ cs, c.height ≤ 2 * (limits.maxDepth + 1) + 1)
        (fun e => e.height ≤ 7 * limits.maxDepth) := by
  intro h
  have hstage := h _ _ _ parseTokens_longSum (.eval [⟨"x", longSum⟩]) (List.mem_singleton.2 rfl)
  have hbound : longSum.height ≤ 7 * 1 := hstage ⟨"x", longSum⟩ (List.mem_singleton.2 rfl)
  have hheight : longSum.height = 8 := by decide
  rw [hheight] at hbound
  exact absurd hbound (by decide)

end LogQuery
