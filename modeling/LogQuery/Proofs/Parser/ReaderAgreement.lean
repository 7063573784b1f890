import LogQuery.Parser.Pipeline
import LogQuery.Proofs.Parser.Agreement

namespace LogQuery.Parser

variable {W : Correspondence} {t t' : Token}

/-! ### Values and terms -/

/-- Values are read alike from twin tokens. -/
lemma agree_valueAt (what : Expectation) (ht : W.Twin t t') :
    Agree W Eq (valueAt what t) (valueAt what t') := by
  have hglue : t.kind.isWord = true ∨ t.kind = .symbol .star ∨ t.kind = .symbol .minus →
      isGluable t.kind = true := by
    rintro (h | h | h) <;> simp [isGluable, h]
  unfold valueAt valueBy
  rw [← W.kind_eq ht, ← W.text_eq ht]
  split_ifs with hstring hregex hnumber hword
  · exact .pure rfl
  · exact .pure rfl
  · have hkind : t.kind = .number := by simpa using hnumber
    refine .bind_eq (.glue ht (by simp [isGluable, hkind])) fun text => ?_
    split <;> exact .pure rfl
  · simp only [Bool.or_eq_true, beq_iff_eq, or_assoc] at hword
    exact .bind_eq (.glue ht (hglue hword)) fun text => .pure rfl
  · exact .failAt ht rfl

lemma agree_valueList : Agree W Eq valueList valueList := by
  refine .bind (.expect _ _) fun opening opening' hopening => ?_
  rw [← W.text_eq hopening]
  refine .bind_eq (.many fun t t' rest rest' ht _ => ?_) fun values => ?_
  · rw [← W.kind_eq ht]
    split_ifs
    · exact .none
    · exact .some (.pure rfl)
    · exact .some (.map_eq _ (agree_valueAt _ ht))
  · refine .bind (.take _) fun closing closing' hclosing => ?_
    split_ifs
    · exact .failAt hclosing rfl
    · exact .pure rfl

/-- A comparison is read with the token that writes it. -/
lemma agree_comparison :
    Agree W (Option.Rel fun x y => x.1 = y.1 ∧ W.Twin x.2 y.2) comparison comparison := by
  refine .optional fun t t' rest rest' ht hrest => ?_
  rw [← W.kind_eq ht, ← W.any_head?_kind (· == .clause .in_) hrest]
  split
  · exact .some (.pure ⟨rfl, ht⟩)
  · split_ifs
    · exact .some (.bind (.take _) fun sign sign' hsign => .pure ⟨rfl, hsign⟩)
    · exact .none

/-- Terms are read alike from twin tokens. -/
lemma agree_termAt (ht : W.Twin t t') : Agree W Eq (termAt t) (termAt t') := by
  unfold termAt termBy
  rw [← W.kind_eq ht, ← W.text_eq ht]
  split_ifs with hstar hstring hregex hword
  · have hglue : isGluable t.kind = true := by
      simp only [Bool.or_eq_true, beq_iff_eq] at hstar
      rcases hstar with h | h <;> simp [isGluable, h]
    exact .bind_eq (.glue ht hglue) fun text => .pure rfl
  · exact .pure rfl
  · exact .pure rfl
  · have hglue : isGluable t.kind = true := by simp [isGluable, hword]
    refine .bind agree_comparison fun found found' hfound => ?_
    cases hfound with
    | none => exact .bind_eq (.glue ht hglue) fun text => .pure rfl
    | @some x y hxy =>
      obtain ⟨comparison, sign⟩ := x
      obtain ⟨comparison', sign'⟩ := y
      obtain ⟨rfl, hsign⟩ := hxy
      change W.Twin sign sign' at hsign
      dsimp only
      rw [← W.text_eq hsign]
      split
      · exact .bind_eq agree_valueList fun value => .pure rfl
      · exact .bind_eq agree_valueList fun value => .pure rfl
      · refine .bind (.take _) fun first first' hfirst => ?_
        exact .bind_eq (agree_valueAt _ hfirst) fun value => .pure rfl
  · exact .failAt ht rfl

/-! ### Conditions -/

/-- The readers of the conditions that begin with corresponding tokens agree. -/
def AgreeAt (W : Correspondence) (nested : ConditionAt) : Prop :=
  ∀ ⦃t t'⦄, W.Twin t t' → Agree W Eq (nested t) (nested t')

variable {nested : ConditionAt}

lemma agree_requireCondition (what : Expectation) :
    Agree W Eq (requireCondition what) (requireCondition what) := by
  refine .bind_eq .nextKind? fun kind => ?_
  split <;> first | exact .fail nofun | exact .pure rfl

lemma agree_conjunction (h : AgreeAt W nested) :
    Agree W Eq (conjunction nested) (conjunction nested) := by
  refine .bind_eq (.many fun t t' rest rest' ht _ => ?_) fun members => .pure rfl
  rw [← W.kind_eq ht]
  split
  · exact .none
  · exact .none
  · exact .none
  · exact .some (.bind_eq (agree_requireCondition _) fun _ => .pure rfl)
  · exact .some (h ht)

lemma agree_disjunction (h : AgreeAt W nested) :
    Agree W Eq (disjunction nested) (disjunction nested) := by
  refine .bind_eq (agree_conjunction h) fun first => ?_
  refine .bind_eq (.many fun t t' rest rest' ht _ => ?_) fun more => .pure rfl
  rw [← W.kind_eq ht]
  split_ifs
  · exact .some (.bind_eq (agree_requireCondition _) fun _ => agree_conjunction h)
  · exact .none

lemma agree_nextCondition (h : AgreeAt W nested) :
    Agree W Eq (nextCondition nested) (nextCondition nested) :=
  .bind (.take _) fun _ _ hfirst => h hfirst

lemma agree_closedDisjunction (h : AgreeAt W nested) :
    Agree W Eq (closedDisjunction nested) (closedDisjunction nested) :=
  .bind_eq (agree_disjunction h) fun _ => .bind (.expect _ _) fun _ _ _ => .pure rfl

lemma agree_unaryBy {operand inner : Parser (Option Condition)}
    (hoperand : Agree W Eq operand operand) (hinner : Agree W Eq inner inner) :
    AgreeAt W (unaryBy operand inner termAt) := by
  intro t t' ht
  rw [unaryBy, unaryBy, ← W.kind_eq ht]
  split
  · refine .bind_eq hoperand fun negated => ?_
    split
    · exact .pure rfl
    · exact .fail fun h => by cases h
  · exact hinner
  · exact agree_termAt ht

/-- A budget of levels is used up alike. The induction is on the budget. -/
lemma agree_unary (hW : W.SameLimit) (depth : Nat) : AgreeAt W (unary depth) := by
  induction depth with
  | zero => exact agree_unaryBy (.tooDeep hW) (.tooDeep hW)
  | succ depth ih => exact agree_unaryBy (agree_nextCondition ih) (agree_closedDisjunction ih)

lemma agree_conditions (hW : W.SameLimit) : Agree W Eq conditions conditions := by
  intro s s' ts ts' hstop hlimit hts
  unfold conditions conditionsOf
  rw [← hW hlimit]
  refine Agree.bind_eq (agree_disjunction (agree_unary hW s.maxDepth)) (fun whole => ?_)
    hstop hlimit hts
  refine .bind_eq .nextKind? fun kind => ?_
  split
  · exact .pure rfl
  · exact .pure rfl
  · exact .fail nofun

/-! ### Expressions -/

section Expressions

variable {operand : Parser EvalExpr} (h : Agree W Eq operand operand)
include h

lemma agree_leftChain (operator? : TokenKind → Option BinaryOperator) :
    Agree W Eq (leftChain operator? operand) (leftChain operator? operand) := by
  refine .bind_eq h fun first => ?_
  refine .bind_eq (.many fun t t' rest rest' ht _ => ?_) fun more => .pure rfl
  rw [← W.kind_eq ht]
  cases operator? t.kind with
  | none => exact .none
  | some op => exact .some (.bind_eq h fun right => .pure rfl)

lemma agree_sum : Agree W Eq (sum operand) (sum operand) := agree_leftChain (agree_leftChain h _) _

lemma agree_comparisonOfSums :
    Agree W Eq (comparisonOfSums operand) (comparisonOfSums operand) := by
  refine .bind_eq (agree_sum h) fun left => ?_
  refine .bind_eq (.optional_eq fun t t' rest rest' ht _ => ?_) fun right => .pure rfl
  rw [← W.kind_eq ht]
  cases comparisonOperator? t.kind with
  | none => exact .none
  | some op => exact .some (.bind_eq (agree_sum h) fun right => .pure rfl)

lemma agree_allLevels : Agree W Eq (allLevels operand) (allLevels operand) :=
  agree_leftChain (agree_leftChain (agree_comparisonOfSums h) _) _

lemma agree_arguments : Agree W Eq (arguments operand) (arguments operand) := by
  refine .bind_eq (.accept _) fun closed => ?_
  split_ifs
  · exact .pure rfl
  · refine .bind_eq h fun first => .bind_eq (.many fun t t' rest rest' ht _ => ?_) fun more => ?_
    · rw [← W.kind_eq ht]
      split_ifs
      · exact .some (.map_eq _ h)
      · exact .none
    · exact .bind (.expect _ _) fun _ _ _ => .pure rfl

lemma agree_wordOperand (ht : W.Twin t t') :
    Agree W Eq (wordOperand operand t) (wordOperand operand t') := by
  unfold wordOperand
  rw [← W.text_eq ht]
  refine .bind_eq (.accept _) fun called => ?_
  split_ifs
  · exact .bind_eq (agree_arguments h) fun args => .pure rfl
  · exact .pure rfl
  · exact .pure rfl

lemma agree_operandWith : Agree W Eq (operandWith operand) (operandWith operand) := by
  refine .bind (.take _) fun t t' ht => ?_
  rw [← W.kind_eq ht, ← W.text_eq ht]
  split
  · exact .bind_eq h fun inner => .pure rfl
  · refine .bind_eq (agree_allLevels h) fun inner => ?_
    exact .bind (.expect _ _) fun _ _ _ => .pure rfl
  · exact .pure rfl
  · exact .pure rfl
  · exact .pure rfl
  · split
    · exact agree_wordOperand (agree_allLevels h) ht
    · exact .failAt ht rfl

end Expressions

/-- Expressions use up their budget alike. The induction is on the budget. -/
lemma agree_operand (hW : W.SameLimit) (depth : Nat) :
    Agree W Eq (operand depth) (operand depth) := by
  induction depth with
  | zero => exact agree_operandWith (.tooDeep hW)
  | succ depth ih => exact agree_operandWith ih

lemma agree_expression (hW : W.SameLimit) : Agree W Eq expression expression := by
  intro s s' ts ts' hstop hlimit hts
  rw [expression, expression, ← hW hlimit]
  cases s.maxDepth with
  | zero => exact Agree.tooDeep hW hstop hlimit hts
  | succ depth => exact agree_allLevels (agree_operand hW depth) hstop hlimit hts

/-! ### Fields, counts and spans -/

lemma agree_fieldList : Agree W Eq fieldList fieldList := by
  refine .bind_eq .fieldName fun first => ?_
  refine .bind_eq (.many fun t t' rest rest' ht hrest => ?_) fun more => .pure rfl
  rw [← W.kind_eq ht, ← Agree.startsParameter "limit" ht hrest, ← W.text_eq ht]
  split_ifs
  · exact .some (.map_eq _ .fieldName)
  · exact .some (.pure rfl)
  · exact .none

lemma agree_count : Agree W Eq count count := by
  refine .bind (.expect _ _) fun t t' ht => ?_
  rw [← W.text_eq ht]
  split
  · exact .pure rfl
  · exact .failAt ht rfl

lemma agree_spanText (ht : W.Twin t t') :
    Agree W Eq (spanTextBy glue t) (spanTextBy glue t') := by
  unfold spanTextBy
  rw [← W.kind_eq ht, ← W.text_eq ht]
  split
  · exact .pure rfl
  · next hkind => exact .glue ht (by simp [isGluable, hkind])
  · next hkind => exact .glue ht (by simp [isGluable, TokenKind.isWord, hkind])
  · exact .failAt ht rfl

lemma agree_spanValue : Agree W Eq spanValue spanValue := by
  refine .bind (.take _) fun t t' ht => .bind_eq (agree_spanText ht) fun text => ?_
  split
  · exact .pure rfl
  · exact .failAt ht rfl

/-! ### Aggregations -/

lemma agree_aggregatedField : Agree W Eq aggregatedField aggregatedField := by
  have hclose : ∀ field : Option String, Agree W Eq
      (expect (.symbol .rParen) .closeParen >>= fun _ => pure field)
      (expect (.symbol .rParen) .closeParen >>= fun _ => pure field) :=
    fun field => .bind (.expect _ _) fun _ _ _ => .pure rfl
  refine .bind_eq (.accept _) fun opened => ?_
  split_ifs
  · refine .bind_eq (.accept _) fun star => .bind_eq .nextKind? fun kind => ?_
    split_ifs
    · exact .bind_eq (.pure rfl) hclose
    · exact .bind_eq (.pure rfl) hclose
    · exact .bind_eq (.map_eq _ .fieldName) hclose
  · exact .pure rfl

lemma agree_asOutput : Agree W Eq asOutput asOutput := by
  refine .bind_eq (.accept _) fun found => ?_
  split_ifs
  · exact .map_eq _ .outputName
  · exact .pure rfl

lemma agree_aggregationAt (ht : W.Twin t t') :
    Agree W Eq (aggregationAt t) (aggregationAt t') := by
  rw [aggregationAt, aggregationAt, ← W.kind_eq ht, ← W.text_eq ht]
  split_ifs
  · exact .failAt ht rfl
  · split
    · exact .failAt ht rfl
    · refine .bind_eq agree_aggregatedField fun field => ?_
      split_ifs
      · exact .failAt ht rfl
      · exact .bind_eq agree_asOutput fun output => .pure rfl

lemma agree_aggregations : Agree W Eq aggregations aggregations := by
  refine .bind_eq (.many fun t t' rest rest' ht hrest => ?_) fun all => ?_
  · rw [← W.kind_eq ht, ← Agree.startsParameter "span" ht hrest]
    split
    · exact .some (.pure rfl)
    · exact .none
    · exact .none
    · split_ifs
      · exact .none
      · exact .some (.map_eq _ (agree_aggregationAt ht))
  · split_ifs
    · exact .fail nofun
    · exact .pure rfl

/-! ### Stages -/

lemma agree_stats : Agree W Eq stats stats := by
  refine .bind_eq agree_aggregations fun all => .bind_eq (.accept _) fun grouped => ?_
  split_ifs
  · exact .bind_eq agree_fieldList fun groupBy => .pure rfl
  · exact .bind_eq (.pure rfl) fun groupBy => .pure rfl

lemma agree_sortKeyAt (ht : W.Twin t t') : Agree W Eq (sortKeyAt t) (sortKeyAt t') := by
  have horder : ∀ (field : String) (signed : SortOrder), Agree W Eq
      (accept (.clause .asc) >>= fun ascending => if ascending = true then pure ⟨field, .ascending⟩
        else accept (.clause .desc) >>= fun descending =>
          if descending = true then pure ⟨field, .descending⟩ else pure ⟨field, signed⟩)
      (accept (.clause .asc) >>= fun ascending => if ascending = true then pure ⟨field, .ascending⟩
        else accept (.clause .desc) >>= fun descending =>
          if descending = true then pure ⟨field, .descending⟩
          else pure (⟨field, signed⟩ : SortKey)) := by
    intro field signed
    refine .bind_eq (.accept _) fun ascending => ?_
    split_ifs
    · exact .pure rfl
    · refine .bind_eq (.accept _) fun descending => ?_
      split_ifs <;> exact .pure rfl
  rw [sortKeyAt, sortKeyAt, ← W.kind_eq ht]
  split
  · refine .bind_eq .fieldName fun _ => .bind_eq (.pure rfl) ?_
    rintro ⟨field, signed⟩
    exact horder field signed
  · refine .bind_eq .fieldName fun _ => .bind_eq (.pure rfl) ?_
    rintro ⟨field, signed⟩
    exact horder field signed
  · refine .bind_eq (.fieldNameAt ht) fun _ => .bind_eq (.pure rfl) ?_
    rintro ⟨field, signed⟩
    exact horder field signed

lemma agree_sort : Agree W Eq sort sort := by
  refine .bind_eq (.many fun t t' rest rest' ht _ => ?_) fun keys => ?_
  · rw [← W.kind_eq ht]
    split
    · exact .none
    · exact .some (.pure rfl)
    · exact .some (.map_eq _ (agree_sortKeyAt ht))
  · split_ifs
    · exact .fail nofun
    · exact .pure rfl

lemma agree_limit (command : LimitCommand) : Agree W Eq (limit command) (limit command) := by
  refine .bind_eq .nextKind? fun kind => ?_
  split_ifs
  · exact .bind_eq agree_count fun most => .pure rfl
  · exact .pure rfl

lemma agree_fields : Agree W Eq fields fields := by
  refine .bind_eq (.accept _) fun minus => ?_
  split_ifs
  · exact .bind_eq agree_fieldList fun names => .pure rfl
  · refine .bind_eq (.accept _) fun _ => ?_
    exact .bind_eq agree_fieldList fun names => .pure rfl

lemma agree_renamingAt (ht : W.Twin t t') : Agree W Eq (renamingAt t) (renamingAt t') := by
  refine .bind_eq (.fieldNameAt ht) fun source => .bind (.expect _ _) fun _ _ _ => ?_
  exact .bind_eq .outputName fun output => .pure rfl

lemma agree_rename : Agree W Eq rename rename := by
  refine .bind (.take _) fun t t' ht => .bind_eq (agree_renamingAt ht) fun first => ?_
  refine .bind_eq (.many fun t t' rest rest' ht _ => ?_) fun more => .pure rfl
  rw [← W.kind_eq ht]
  split
  · exact .none
  · refine .some (.bind (.take _) fun u u' hu => ?_)
    exact .bind_eq (agree_renamingAt hu) fun _ => .pure rfl
  · exact .some (.map_eq _ (agree_renamingAt ht))

lemma agree_assignment (hW : W.SameLimit) : Agree W Eq assignment assignment := by
  refine .bind_eq .fieldName fun field => .bind (.expect _ _) fun _ _ _ => ?_
  exact .bind_eq (agree_expression hW) fun expr => .pure rfl

lemma agree_eval (hW : W.SameLimit) : Agree W Eq eval eval := by
  refine .bind_eq (agree_assignment hW) fun first => ?_
  refine .bind_eq (.many fun t t' rest rest' ht _ => ?_) fun more => .pure rfl
  rw [← W.kind_eq ht]
  split_ifs
  · exact .some (.map_eq _ (agree_assignment hW))
  · exact .none

lemma agree_frequent (which : Frequency) : Agree W Eq (frequent which) (frequent which) := by
  have hnames : ∀ before : Option Nat, Agree W Eq
      (fieldList >>= fun names => parameter "limit" count >>= fun behind =>
        pure (Stage.frequent which names ((behind <|> before).getD defaultCount)))
      (fieldList >>= fun names => parameter "limit" count >>= fun behind =>
        pure (Stage.frequent which names ((behind <|> before).getD defaultCount))) := by
    intro before
    refine .bind_eq agree_fieldList fun names => ?_
    exact .bind_eq (.parameter _ agree_count) fun behind => .pure rfl
  refine .bind_eq .nextKind? fun kind => ?_
  split_ifs
  · exact .bind_eq (.map_eq _ agree_count) hnames
  · exact .bind_eq (.parameter _ agree_count) hnames

lemma agree_bin (ht : W.Twin t t') : Agree W Eq (bin t) (bin t') := by
  refine .bind_eq (.iterate (fun parts u u' rest rest' hu hrest => ?_) _) fun parts => ?_
  · rw [← W.kind_eq hu, ← Agree.startsParameter "span" hu hrest]
    split_ifs
    · exact .none
    · refine .some (.bind (.expect _ _) fun _ _ _ => ?_)
      exact .bind_eq agree_spanValue fun span => .pure rfl
    · exact .some (.bind_eq .outputName fun output => .pure rfl)
    · exact .some (.bind_eq (.fieldNameAt hu) fun field => .pure rfl)
    · exact .some (.failAt hu rfl)
  · split
    · exact .fail nofun
    · exact .failAt ht rfl
    · exact .pure rfl

lemma agree_timechart : Agree W Eq timechart timechart := by
  have hspan : Agree W Eq (parameter "span" spanValue) (parameter "span" spanValue) :=
    .parameter _ agree_spanValue
  refine .bind_eq hspan fun first => .bind_eq agree_aggregations fun all => ?_
  refine .bind_eq hspan fun second => .bind_eq (.accept _) fun isSplit => ?_
  split_ifs
  · refine .bind_eq (.map_eq _ .fieldName) fun splitBy => ?_
    exact .bind_eq hspan fun third => .pure rfl
  · exact .bind_eq (.pure rfl) fun splitBy => .bind_eq hspan fun third => .pure rfl

lemma agree_rex [Libraries] : Agree W Eq rex rex := by
  refine .bind_eq (.parameter _ .fieldName) fun field => .bind (.take _) fun t t' ht => ?_
  rw [← W.kind_eq ht, ← W.text_eq ht]
  split_ifs
  · exact .pure rfl
  · exact .failAt ht rfl
  · exact .failAt ht rfl

/-! ### Queries -/

lemma agree_stageOf [Libraries] (hW : W.SameLimit) (ht : W.Twin t t') (command : Command) :
    Agree W Eq (stageOf t command) (stageOf t' command) := by
  cases command with
  | search => exact .map_eq _ (agree_conditions hW)
  | filter => exact .map_eq _ (agree_conditions hW)
  | where_ => exact .map_eq _ (agree_conditions hW)
  | stats => exact agree_stats
  | sort => exact agree_sort
  | limit => exact agree_limit _
  | head => exact agree_limit _
  | tail => exact agree_limit _
  | dedup => exact .map_eq _ agree_fieldList
  | table => exact .map_eq _ agree_fieldList
  | fields => exact agree_fields
  | rename => exact agree_rename
  | eval => exact agree_eval hW
  | top => exact agree_frequent _
  | rare => exact agree_frequent _
  | bin => exact agree_bin ht
  | timechart => exact agree_timechart
  | rex => exact agree_rex

/-- The first token decides which reader goes on, and twins have one kind and one text. -/
lemma agree_stage [Libraries] (hW : W.SameLimit) : Agree W Eq stage stage := by
  refine .bind (.take _) fun t t' ht => ?_
  rw [← W.kind_eq ht]
  split
  · exact agree_stageOf hW ht _
  · exact .failAt ht rfl
  · exact .failAt ht rfl

lemma agree_firstStage [Libraries] (hW : W.SameLimit) : Agree W Eq firstStage firstStage := by
  refine .bind_eq .nextKind? fun kind => ?_
  split_ifs
  · exact .map_eq _ (agree_conditions hW)
  · exact agree_stage hW

/-- What is read of a query, and where reading ends, depends on the kinds and the texts of its
tokens and on which of them touch. -/
theorem agree_stages [Libraries] (hW : W.SameLimit) : Agree W Eq stages stages := by
  refine .bind_eq .nextKind? fun kind => ?_
  split_ifs
  · exact .pure rfl
  · refine .bind_eq (agree_firstStage hW) fun first => ?_
    refine .bind_eq (.many fun t t' rest rest' ht _ => ?_) fun more => ?_
    · rw [← W.kind_eq ht]
      split_ifs
      · exact .some (.map_eq _ (agree_stage hW))
      · exact .none
    · refine .bind_eq .nextKind? fun kind => ?_
      split_ifs
      · exact .pure rfl
      · exact .fail nofun

end LogQuery.Parser
