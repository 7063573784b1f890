import LogQuery.Proofs.Number.Width
import LogQuery.Proofs.Parser.Covering
import LogQuery.Proofs.Parser.Grammar
import LogQuery.Proofs.Parser.Stages
import LogQuery.Proofs.Parser.WellFormed
import LogQuery.Proofs.Text.Lowercase
import LogQuery.Proofs.Token.Tiling
import Mathlib.Algebra.Order.BigOperators.Group.List

namespace LogQuery

/-! ### Numbers of rows and names of functions -/

lemma Numeral.lt_of_natBelow? {bound n : Nat} {text : String} (h : natBelow? bound text = some n) :
    n < bound := by
  rw [natBelow?] at h
  dsimp only at h
  split_ifs at h with _ hbound
  cases h
  exact hbound

/-- The names of aggregates are short. -/
lemma AggregateFunction.length_name_le {text : String} {function : AggregateFunction}
    (h : ofName? text = some function) : function.name.length ≤ 8 := by
  cases function with
  | percentile percent =>
    have hpercent := (percentile_bounds h).2
    have hdigits : (toString percent).length ≤ 2 :=
      (length_toString_le_iff (by decide)).2 (Nat.lt_succ_of_le hpercent)
    have hp : "p".length = 1 := rfl
    rw [name, String.length_append]
    omega
  | _ => decide

/-! ### Conditions -/

namespace Condition

/-- A group of two members or more weighs what they do. -/
lemma massOf_join (logic : Connective) (members : List Condition) :
    (join? logic members).elim 0 mass ≤ massOf members := by
  match members with
  | [] => exact Nat.le_refl _
  | [c] => exact Nat.le_add_right _ _
  | c :: c' :: rest =>
    have hlength : ¬ (c :: c' :: rest).length < 2 := by simp
    change (group logic (c :: c' :: rest) false).mass ≤ _
    rw [mass, if_neg hlength]
    exact Nat.le_refl _

/-- Negation adds no mass. -/
lemma mass_negate (c : Condition) : c.negate.mass = c.mass := by
  cases c with
  | compare => rw [negate, mass, mass]
  | group => rw [negate, mass, mass]

/-- Taking the outermost group apart adds no mass. -/
lemma massOf_topLevel (o : Option Condition) : massOf (topLevel o) ≤ o.elim 0 mass := by
  rw [topLevel.eq_def]
  split
  · exact Nat.le_refl _
  · rw [Option.elim_some, mass]
    exact Nat.le_add_right _ _
  · exact Nat.le_refl _

lemma mass_inRaw (value : Value) : (inRaw value).mass = value.mass := by
  rw [inRaw, mass, fieldMass, Nat.sub_self, Nat.zero_add]

end Condition

namespace Parser.Covers

variable {credit : Nat}

/-- The mass of what may be no condition at all. -/
abbrev massIfAny (o : Option Condition) : Nat := o.elim 0 Condition.mass

lemma valueAt (what : Expectation) (t : Token) : (valueAt what t).Covers t.mass Value.mass := by
  have hstring : ∀ text, (Value.string text).mass ≤ textMass text := fun text => by
    rw [Value.mass]
  rw [Parser.valueAt, Parser.valueBy]
  split_ifs
  · exact .pure (hstring _)
  · exact .pure (by rw [Value.mass]; exact Nat.le_refl _)
  · refine .bind (glue t) fun text => ?_
    split
    · split_ifs
      · exact .pure (by rw [Value.mass]; exact textMass_pos text)
      · exact .pure (hstring text)
    · exact .pure (hstring text)
  · refine .bind (glue t) fun text => ?_
    split_ifs
    · exact .pure (by rw [Value.mass]; exact textMass_pos text)
    · exact .pure (hstring text)
  · exact .failAt

/-- The items of a list are paid for one by one. -/
lemma valueList : valueList.Covers credit fun v => credit + v.mass := by
  refine .bind expect fun opening => ?_
  refine .bind (.many Value.mass fun t _ p hturn => ?_) fun values => ?_
  · split_ifs at hturn
    · cases hturn
      exact .pure (Nat.zero_le _)
    · cases hturn
      exact .map (valueAt _ t) fun _ => Nat.le_refl _
  · refine .bind take fun closing => ?_
    split_ifs
    · exact .failAt
    · refine .pure ?_
      have := closing.mass_pos
      rw [Value.mass]
      omega

/-- A term is paid for by its tokens. -/
lemma termAt (t : Token) : (termAt t).Covers t.mass massIfAny := by
  have hraw : ∀ value : Value, massIfAny (some (.inRaw value)) ≤ value.mass :=
    fun value => (Condition.mass_inRaw value).le
  have hstring : ∀ text, (Value.string text).mass ≤ textMass text := fun text => by
    rw [Value.mass]
  rw [Parser.termAt, Parser.termBy]
  split_ifs
  · refine .bind (glue t) fun text => ?_
    split_ifs
    · exact .pure (Nat.zero_le _)
    · exact .pure ((hraw _).trans (hstring text))
  · exact .pure ((hraw _).trans (hstring t.text))
  · exact .pure ((hraw _).trans (by rw [Value.mass]; exact Nat.le_refl _))
  · refine .bind_unread fun o => ?_
    split
    · exact .bind (glue t) fun text => .pure ((hraw _).trans (hstring text))
    · next comparison sign =>
      have hcompare : ∀ value : Value,
          massIfAny (some (.compare t.text comparison value false)) ≤ t.mass + value.mass := by
        intro value
        have := t.length_le_mass
        change (Condition.compare t.text comparison value false).mass ≤ _
        rw [Condition.mass, fieldMass]
        omega
      split
      · exact .bind valueList fun value => .pure (hcompare value)
      · exact .bind valueList fun value => .pure (hcompare value)
      · exact .bind take fun first => .bind ((valueAt _ first).saving _) fun value =>
          .pure (hcompare value)
  · exact .failAt

variable {nested : ConditionAt}

lemma conjunction (h : ∀ t, (nested t).Covers t.mass massIfAny) :
    (conjunction nested).Covers credit fun o => credit + massIfAny o := by
  refine .bind (.many Condition.mass fun t _ p hturn => ?_) fun members => .pure ?_
  · split at hturn
    · cases hturn
    · cases hturn
    · cases hturn
    · cases hturn
      exact .bind_unread fun _ => .pure (Nat.zero_le _)
    · cases hturn
      exact h t
  · exact Nat.add_le_add_left (Condition.massOf_join .and members) credit

lemma disjunction (h : ∀ t, (nested t).Covers t.mass massIfAny) :
    (disjunction nested).Covers credit fun o => credit + massIfAny o := by
  refine .bind (conjunction h) fun first => ?_
  refine .bind (.many Condition.mass fun t _ p hturn => ?_) fun more => .pure ?_
  · split_ifs at hturn
    cases hturn
    exact .bind_unread fun _ => (conjunction h).mono (Nat.zero_le _) fun _ => (Nat.zero_add _).ge
  · have hjoin : massIfAny (Condition.join? .or (first.toList ++ more)) ≤
        Condition.massOf (first.toList ++ more) := Condition.massOf_join .or _
    have hsum : Condition.massOf (first.toList ++ more) =
        massIfAny first + (more.map Condition.mass).sum := by
      cases first with
      | none => exact (Nat.zero_add _).symm
      | some c => exact List.sum_cons
    omega

/-- `NOT` and parentheses add no mass to what they hold. -/
lemma unaryBy {operand inner : Parser (Option Condition)} (hoperand : operand.Covers 0 massIfAny)
    (hinner : inner.Covers 0 massIfAny) (t : Token) :
    (unaryBy operand inner Parser.termAt t).Covers t.mass massIfAny := by
  rw [Parser.unaryBy]
  split
  · refine .bind (hoperand.mono (Nat.zero_le _) fun _ => Nat.le_refl _) fun o => ?_
    cases o with
    | none => exact .fail
    | some c => exact .pure (Condition.mass_negate c).le
  · exact hinner.mono (Nat.zero_le _) fun _ => Nat.le_refl _
  · exact termAt t

/-- The induction is on how deep a condition may nest. -/
lemma unary (depth : Nat) (t : Token) : (unary depth t).Covers t.mass massIfAny := by
  induction depth generalizing t with
  | zero => exact unaryBy .tooDeep .tooDeep t
  | succ depth ih =>
    refine unaryBy (.bind take fun operand => ?_) (.bind (disjunction ih) fun o => ?_) t
    · exact (ih operand).mono (Nat.le_add_left _ _) fun _ => Nat.le_refl _
    · exact .bind_unread fun _ => .pure (Nat.le_add_left _ _)

lemma conditions : conditions.Covers credit fun cs => credit + Condition.massOf cs := by
  intro s ts cs rest hr
  obtain ⟨whole, hwhole, -, rfl⟩ := reads_conditions.1 hr
  have htopLevel := Nat.add_le_add_left (Condition.massOf_topLevel whole) credit
  exact (Nat.add_le_add_right htopLevel _).trans (disjunction (unary s.maxDepth) hwhole)

/-! ### Expressions -/

variable {p : Parser EvalExpr}

/-- A chain weighs as much as its operands. -/
lemma mass_foldl (first : EvalExpr) (more : List (BinaryOperator × EvalExpr)) :
    (more.foldl (fun left (op, right) => .binary op left right) first).mass =
      first.mass + (more.map (·.2.mass)).sum := by
  induction more generalizing first with
  | nil => rfl
  | cons x more ih => rw [List.foldl_cons, ih, EvalExpr.mass, List.map_cons, List.sum_cons,
      Nat.add_assoc]

lemma leftChain {operator? : TokenKind → Option BinaryOperator}
    (h : p.Covers 0 EvalExpr.mass) : (leftChain operator? p).Covers 0 EvalExpr.mass := by
  refine .bind h fun first => ?_
  refine .bind (.many (fun x => x.2.mass) fun t _ q hturn => ?_) fun more =>
    .pure (mass_foldl first more).le
  obtain ⟨op, -, rfl⟩ := Option.map_eq_some_iff.1 hturn
  exact .bind (h.mono (Nat.zero_le _) fun _ => Nat.le_refl _) fun e => .pure (Nat.le_refl _)

lemma comparisonOfSums (h : p.Covers 0 EvalExpr.mass) :
    (comparisonOfSums p).Covers 0 EvalExpr.mass := by
  have hsum : (sum p).Covers 0 EvalExpr.mass := leftChain (leftChain h)
  refine .bind hsum fun left => ?_
  refine .bind (.optional (fun o => left.mass + o.elim 0 (·.2.mass)) (Nat.le_refl _)
    fun t _ q hturn => ?_) fun right => .pure ?_
  · obtain ⟨op, -, rfl⟩ := Option.map_eq_some_iff.1 hturn
    exact .bind ((hsum.saving left.mass).mono (Nat.le_add_right _ _) fun _ => Nat.le_refl _)
      fun e => .pure (Nat.le_refl _)
  · cases right with
    | none => exact Nat.le_refl _
    | some x =>
      dsimp only
      rw [EvalExpr.mass]
      exact Nat.le_refl _

lemma allLevels (h : p.Covers 0 EvalExpr.mass) : (allLevels p).Covers 0 EvalExpr.mass :=
  leftChain (leftChain (comparisonOfSums h))

lemma arguments (h : p.Covers 0 EvalExpr.mass) :
    (arguments p).Covers credit fun args => credit + EvalExpr.massOf args := by
  refine .bind_unread fun closed => ?_
  split_ifs
  · exact .pure (Nat.le_refl _)
  · refine .bind (h.saving credit) fun first => .bind (many_behind h) fun more => ?_
    refine .bind_unread fun _ => .pure ?_
    rw [EvalExpr.massOf, List.map_cons, List.sum_cons, Nat.add_assoc]

lemma mass_numberLiteral (text : String) : (numberLiteral text).mass ≤ textMass text := by
  rw [numberLiteral]
  split
  · split_ifs
    · rw [Value.mass]
      exact textMass_pos text
    · rw [Value.mass]
  · rw [Value.mass]

/-- A call is paid for by its name and its arguments. -/
lemma wordOperand (h : p.Covers 0 EvalExpr.mass) (t : Token) :
    (wordOperand p t).Covers t.mass EvalExpr.mass := by
  refine .bind accept fun opened => ?_
  split_ifs with hopened
  · refine .bind (arguments h) fun args => .pure ?_
    have hlower := Text.length_lowercase_le t.text
    have htext := t.length_le_mass
    rw [hopened, Bool.toNat_true, EvalExpr.mass, EvalExpr.massOf]
    omega
  · refine .pure ?_
    have := t.mass_pos
    rw [EvalExpr.mass, Value.mass]
    omega
  · refine .pure ?_
    rw [EvalExpr.mass]
    exact Nat.le_add_right _ _

lemma operandWith (h : p.Covers 0 EvalExpr.mass) : (operandWith p).Covers 0 EvalExpr.mass := by
  refine .bind take fun t => ?_
  rw [Nat.zero_add]
  split
  · refine .bind (h.saving t.mass) fun e => .pure ?_
    have := t.mass_pos
    rw [EvalExpr.mass, EvalExpr.mass, Value.mass]
    omega
  · refine .bind ((allLevels h).saving t.mass) fun e => .bind_unread fun _ => .pure ?_
    exact Nat.le_add_left _ _
  · refine .pure ?_
    rw [EvalExpr.mass]
    exact mass_numberLiteral t.text
  · refine .pure ?_
    rw [EvalExpr.mass, Value.mass]
    exact Nat.le_refl _
  · refine .pure ?_
    rw [EvalExpr.mass, Value.mass]
    exact Nat.le_refl _
  · split_ifs
    · exact wordOperand (allLevels h) t
    · exact .failAt

/-- The induction is on how deep an operand may nest. -/
lemma operand (depth : Nat) : (operand depth).Covers 0 EvalExpr.mass := by
  induction depth with
  | zero => exact operandWith .tooDeep
  | succ depth ih => exact operandWith ih

lemma expression : expression.Covers 0 EvalExpr.mass := by
  rintro ⟨stop, maxDepth⟩ ts e rest hr
  cases maxDepth with
  | zero => exact (not_reads_tooDeep hr).elim
  | succ depth => exact allLevels (operand depth) hr

/-! ### Stages -/

lemma fieldList : fieldList.Covers credit fun names => credit + (names.map textMass).sum := by
  refine .bind fieldName fun first => ?_
  refine .bind (.many textMass fun t _ p hturn => ?_) fun more => .pure ?_
  · split_ifs at hturn
    · cases hturn
      exact .map (fieldName.mono (Nat.zero_le _) fun _ => (Nat.zero_add _).ge)
        fun _ => Nat.le_refl _
    · cases hturn
      exact .pure (Nat.le_refl _)
  · rw [List.map_cons, List.sum_cons, Nat.add_assoc]

/-- A span is one character at least. -/
lemma spanValue : spanValue.Covers credit fun _ => credit + 1 := by
  refine .bind take fun t => ?_
  have hcredit : credit + 1 ≤ credit + t.mass := Nat.add_le_add_left t.mass_pos credit
  refine .bind_unread fun text => ?_
  split
  · exact .pure hcredit
  · exact .failAt

/-- The field of an aggregation pays for itself and for the parentheses around it. -/
lemma aggregatedField :
    aggregatedField.Covers credit fun o => credit + o.elim 0 (textMass · + 2) := by
  have hclose : ∀ field : Option String,
      (Parser.expect (.symbol .rParen) .closeParen >>= fun _ => Pure.pure field).Covers
        (credit + 1 + field.elim 0 textMass)
        fun o : Option String => credit + o.elim 0 (textMass · + 2) := by
    refine fun field => .bind expect fun _ => .pure ?_
    cases field with
    | none => exact (Nat.le_add_right _ 1).trans (Nat.le_add_right _ 1)
    | some name =>
      dsimp only [Option.elim_some]
      omega
  refine .bind accept fun opened => ?_
  split_ifs with hopened
  · rw [hopened, Bool.toNat_true]
    refine .bind_unread fun star => .bind_unread fun kind => ?_
    split_ifs
    · exact .bind (.pure (Nat.le_refl _)) hclose
    · exact .bind (.pure (Nat.le_refl _)) hclose
    · exact .bind (.map fieldName fun _ => Nat.le_refl _) hclose
  · exact .pure (Nat.le_add_right _ _)

lemma asOutput : asOutput.Covers credit fun o => credit + outputMass o := by
  refine .bind_unread fun given => ?_
  split_ifs
  · exact .map outputName fun _ => Nat.le_refl _
  · exact .pure (Nat.le_refl _)

/-- An aggregation is paid for by its name, its field and its output. -/
lemma aggregationAt (t : Token) : (aggregationAt t).Covers t.mass Aggregation.mass := by
  rw [Parser.aggregationAt]
  split_ifs
  · exact .failAt
  · split
    · exact .failAt
    · next function hfunction =>
      refine .bind aggregatedField fun field => ?_
      split_ifs
      · exact .failAt
      · refine .bind asOutput fun output => .pure ?_
        have := t.mass_pos
        have hname := Nat.sub_eq_zero_of_le (AggregateFunction.length_name_le hfunction)
        rw [Aggregation.mass, hname, Nat.zero_add]
        cases field with
        | none => exact Nat.add_le_add_right this _
        | some name =>
          dsimp only [Option.elim_some]
          omega

lemma aggregations :
    aggregations.Covers credit fun as => credit + (as.map Aggregation.mass).sum := by
  refine .bind (.many Aggregation.mass fun t rest p hturn => ?_) fun as => ?_
  · split at hturn
    · cases hturn
      exact .pure (Nat.zero_le _)
    · cases hturn
    · cases hturn
    · split_ifs at hturn
      cases hturn
      exact .map (aggregationAt t) fun _ => Nat.le_refl _
  · split_ifs
    · exact .fail
    · exact .pure (Nat.le_refl _)

lemma stats : stats.Covers 1 Stage.mass := by
  refine .bind aggregations fun as => .bind_unread fun given => ?_
  split_ifs
  · refine .bind fieldList fun groupBy => .pure ?_
    rw [Stage.mass]
  · have hnone : (Pure.pure [] : Parser (List String)).Covers (1 + (as.map Aggregation.mass).sum)
        fun names => 1 + (as.map Aggregation.mass).sum + (names.map textMass).sum :=
      .pure (Nat.le_refl _)
    refine .bind hnone fun groupBy => .pure ?_
    rw [Stage.mass]

lemma sortKeyAt (t : Token) : (sortKeyAt t).Covers t.mass (textMass ·.field) := by
  have horder : ∀ (field : String) (signed : SortOrder),
      (Parser.accept (.clause .asc) >>= fun ascending =>
        if ascending = true then Pure.pure ⟨field, .ascending⟩
        else Parser.accept (.clause .desc) >>= fun descending =>
          if descending = true then Pure.pure ⟨field, .descending⟩
          else Pure.pure (⟨field, signed⟩ : SortKey)).Covers (textMass field)
        (textMass ·.field) := by
    intro field signed
    refine .bind_unread fun ascending => ?_
    split_ifs
    · exact .pure (Nat.le_refl _)
    · refine .bind_unread fun descending => ?_
      split_ifs <;> exact .pure (Nat.le_refl _)
  have hkey : ∀ (field : String) (signed : SortOrder),
      (Pure.pure (field, signed) : Parser (String × SortOrder)).Covers (textMass field)
        (textMass ·.1) := fun field signed => .pure (Nat.le_refl _)
  have hname : Parser.fieldName.Covers t.mass textMass :=
    fieldName.mono (Nat.le_refl _) fun _ => Nat.le_add_left _ _
  rw [Parser.sortKeyAt]
  split
  · exact .bind hname fun field => .bind (hkey field _) fun key => horder key.1 key.2
  · exact .bind hname fun field => .bind (hkey field _) fun key => horder key.1 key.2
  · exact .bind (fieldNameAt t) fun field => .bind (hkey field _) fun key => horder key.1 key.2

lemma sort : sort.Covers 1 Stage.mass := by
  refine .bind (.many (textMass ·.field) fun t _ p hturn => ?_) fun keys => ?_
  · split at hturn
    · cases hturn
    · cases hturn
      exact .pure (Nat.zero_le _)
    · cases hturn
      exact .map (sortKeyAt t) fun _ => Nat.le_refl _
  · split_ifs
    · exact .fail
    · exact .pure (by rw [Stage.mass])

/-- A number of rows has at most twenty digits. -/
lemma count : count.Covers credit fun n => credit + rowsMass n := by
  refine .bind_unread fun t => ?_
  split
  · next n hn =>
    have hlength : (toString n).length ≤ 20 := (length_toString_le_iff (by decide)).2
      ((Numeral.lt_of_natBelow? hn).trans (by decide))
    refine .pure ?_
    rw [rowsMass]
    omega
  · exact .failAt

lemma limit (command : LimitCommand) : (limit command).Covers 1 Stage.mass := by
  refine .bind_unread fun kind => ?_
  split_ifs
  · exact .bind count fun most => .pure (by rw [Stage.mass])
  · exact .pure (Nat.le_refl _)

/-- A stage that consists of fields. -/
lemma fieldStage {stage : List String → Stage}
    (h : ∀ names, (stage names).mass = 1 + (names.map textMass).sum) :
    (stage <$> Parser.fieldList).Covers 1 Stage.mass := .map fieldList fun names => (h names).le

lemma fields : fields.Covers 1 Stage.mass := by
  refine .bind_unread fun minus => ?_
  split_ifs
  · exact .bind fieldList fun names => .pure (by rw [Stage.mass])
  · exact .bind_unread fun _ => .bind fieldList fun names => .pure (by rw [Stage.mass])

lemma renamingAt (t : Token) :
    (renamingAt t).Covers t.mass fun r => textMass r.source + textMass r.target := by
  refine .bind (fieldNameAt t) fun source => .bind_unread fun _ => ?_
  exact .bind outputName fun target => .pure (Nat.le_refl _)

lemma rename : rename.Covers 1 Stage.mass := by
  refine .bind take fun t => .bind ((renamingAt t).saving 1) fun first => ?_
  refine .bind (.many (fun r => textMass r.source + textMass r.target)
    fun t _ p hturn => ?_) fun more => .pure ?_
  · split at hturn
    · cases hturn
    · cases hturn
      refine .bind take fun u => ?_
      refine .bind ((renamingAt u).mono (Nat.le_add_left _ _) fun _ => Nat.le_refl _) fun r => ?_
      exact .pure (Nat.le_refl _)
    · cases hturn
      exact .map (renamingAt t) fun _ => Nat.le_refl _
  · rw [Stage.mass, List.map_cons, List.sum_cons]
    exact (Nat.add_assoc _ _ _).ge

lemma assignment : assignment.Covers 0 fun a => textMass a.field + a.expr.mass := by
  refine .bind fieldName fun field => .bind_unread fun _ => ?_
  rw [Nat.zero_add]
  exact .bind (expression.saving _) fun e => .pure (Nat.le_refl _)

lemma eval : eval.Covers 1 Stage.mass := by
  refine .bind (assignment.saving 1) fun first => .bind (many_behind assignment) fun more =>
    .pure ?_
  rw [Stage.mass, List.map_cons, List.sum_cons]
  exact (Nat.add_assoc _ _ _).ge

lemma frequent (which : Frequency) : (frequent which).Covers 1 Stage.mass := by
  have hcount : Parser.count.Covers 0 rowsMass := count.mono (Nat.le_refl _) fun _ => by simp
  have hnames : ∀ before : Option Nat,
      (Parser.fieldList >>= fun names => Parser.parameter "limit" Parser.count >>= fun behind =>
        Pure.pure (Stage.frequent which names ((behind <|> before).getD defaultCount))).Covers
        (1 + before.elim 0 rowsMass) Stage.mass := by
    intro before
    refine .bind fieldList fun names => .bind (parameter hcount) fun behind => .pure ?_
    have hdefault : rowsMass defaultCount = 0 := rfl
    rw [Stage.mass]
    cases behind with
    | none =>
      cases before with
      | none => simp [hdefault]
      | some n =>
        simp
        omega
    | some n => simp
  refine .bind_unread fun kind => ?_
  split_ifs
  · exact .bind (.map count fun _ => Nat.le_refl _) hnames
  · exact .bind (parameter hcount) hnames

/-- The parts of a `bin` stage that were read so far: the name of its span has four characters, and
an equals sign and the span stand behind it. -/
def binMass (parts : BinParts) : Nat :=
  parts.field.elim 0 textMass + parts.span.elim 0 (fun _ => 6) + outputMass parts.output

lemma length_of_equalIgnoringCase {s t : String} (h : Text.equalIgnoringCase s t = true) :
    s.length = t.length := by
  have := congrArg List.length (eq_of_beq h)
  simpa only [List.length_map, String.length_toList] using this

lemma bin (command : Token) : (bin command).Covers 1 Stage.mass := by
  have hparts : ∀ parts, (Parser.iterate (fun parts t rest =>
      if t.kind = .symbol .pipe then none
      else if startsParameter "span" t rest then
        some do
          let _ ← Parser.expect (.symbol .eq) .equalsSign
          return { parts with span := some (← Parser.spanValue) }
      else if t.kind = .clause .as_ then
        some do return { parts with output := some (← Parser.outputName) }
      else if parts.field.isNone then
        some do return { parts with field := some (← Parser.fieldNameAt t) }
      else some (Parser.failAt t (.expected .spanOrAs))) parts).Covers (binMass parts) binMass := by
    refine iterate fun parts t rest p hturn => ?_
    split_ifs at hturn with _ hspan _ hfield
    · cases hturn
      simp only [startsParameter, Bool.and_eq_true] at hspan
      have hlength := length_of_equalIgnoringCase hspan.1.2
      have hmass := t.length_le_mass
      have hname : "span".length = 4 := rfl
      refine .bind expect fun _ => .bind spanValue fun span => .pure ?_
      simp only [binMass, Option.elim_some]
      omega
    · cases hturn
      refine .bind outputName fun output => .pure ?_
      simp only [binMass, outputMass, Option.elim_some]
      omega
    · cases hturn
      refine .bind ((fieldNameAt t).saving (binMass parts)) fun field => .pure ?_
      rw [Option.isNone_iff_eq_none] at hfield
      simp only [binMass, hfield, Option.elim_some, Option.elim_none]
      omega
    · cases hturn
      exact .failAt
  refine .bind ((hparts ⟨none, none, none⟩).saving 1) fun parts => ?_
  split
  · exact .fail
  · exact .failAt
  · next field span hfield hspan =>
    refine .pure ?_
    simp only [Stage.mass, binMass, hfield, hspan, Option.elim_some]
    omega

lemma timechart : timechart.Covers 1 Stage.mass := by
  have hrest : ∀ (first : Option Span) (as : List Aggregation) (second : Option Span)
      (splitBy : Option String),
      (Parser.parameter "span" Parser.spanValue >>= fun third => Pure.pure (Stage.timechart
        ((third <|> second <|> first).getD (.time 1 .hour)) as splitBy)).Covers
        (1 + (as.map Aggregation.mass).sum + outputMass splitBy) Stage.mass :=
    fun first as second splitBy => .bind_unread fun third => .pure (by rw [Stage.mass])
  refine .bind_unread fun first => .bind aggregations fun as => .bind_unread fun second =>
    .bind_unread fun byClause => ?_
  split_ifs
  · exact .bind (.map fieldName fun _ => Nat.le_refl _) (hrest first as second)
  · exact .bind (.pure (Nat.le_refl _)) (hrest first as second)

lemma rex [Libraries] : rex.Covers 1 Stage.mass := by
  refine .bind (parameter (fieldName.mono (Nat.le_refl _) fun _ => (Nat.zero_add _).ge))
    fun field => .bind take fun t => ?_
  have hfield : fieldMass (field.getD rawField) ≤ field.elim 0 textMass := by
    cases field with
    | none => exact (Nat.sub_self _).le
    | some name => exact (Nat.sub_le _ _).trans (length_le_textMass name)
  split_ifs
  · refine .pure ?_
    rw [Stage.mass, ← Token.mass]
    omega
  · exact .failAt
  · exact .failAt

lemma filter (command : FilterCommand) :
    (.filter command <$> Parser.conditions).Covers credit Stage.mass :=
  .map conditions fun _ => Nat.le_add_left _ _

lemma stageOf [Libraries] (token : Token) (command : Command) :
    (stageOf token command).Covers 1 Stage.mass := by
  cases command with
  | search => exact filter _
  | filter => exact filter _
  | where_ => exact filter _
  | stats => exact stats
  | sort => exact sort
  | limit => exact limit _
  | head => exact limit _
  | tail => exact limit _
  | dedup => exact fieldStage fun _ => by rw [Stage.mass]
  | table => exact fieldStage fun _ => by rw [Stage.mass]
  | fields => exact fields
  | rename => exact rename
  | eval => exact eval
  | top => exact frequent _
  | rare => exact frequent _
  | bin => exact bin _
  | timechart => exact timechart
  | rex => exact rex

lemma stage [Libraries] : stage.Covers 0 Stage.mass := by
  refine .bind take fun t => ?_
  split
  · exact (stageOf _ _).mono (by have := t.mass_pos; omega) fun _ => Nat.le_refl _
  · exact .failAt
  · exact .failAt

lemma firstStage [Libraries] : firstStage.Covers 0 Stage.mass := by
  refine .bind_unread fun kind => ?_
  split_ifs
  · exact filter _
  · exact stage

/-- Each stage pays for itself with its command. -/
lemma stages [Libraries] : stages.Covers 0 fun all => (all.map Stage.mass).sum := by
  refine .bind_unread fun kind => ?_
  split_ifs
  · exact .pure (Nat.le_refl _)
  · refine .bind firstStage fun first => .bind (many_behind stage) fun more =>
      .bind_unread fun kind => ?_
    split_ifs
    · exact .pure (by rw [List.map_cons, List.sum_cons])
    · exact .fail

end Parser.Covers

/-! ### Queries -/

/-- Escapes become shorter when they are read. -/
lemma Lexer.Unescapes.length_le {quote : Char} {body text : List Char}
    (h : Unescapes quote body text) : text.length ≤ body.length := by
  induction h with
  | nil => exact Nat.le_refl _
  | escaped _ ih =>
    rw [List.length_cons, List.length_cons, List.length_cons]
    omega
  | plain _ _ _ ih =>
    rw [List.length_cons, List.length_cons]
    omega

lemma Writes.length_le {kind : TokenKind} {source text : List Char} (h : Writes kind source text) :
    text.length ≤ source.length := by
  cases h with
  | string _ h =>
    have := h.length_le
    rw [List.length_cons, List.length_append]
    omega
  | regex =>
    rw [List.length_cons, List.length_append]
    omega
  | verbatim => exact Nat.le_refl _

/-- The tokens of a text, but for its end, are paid for by the text. -/
lemma Lexer.Lexing.massOf_le {previous : Option TokenKind} {position : Position} {cs : List Char}
    {ts : List Token} (h : Lexing previous position cs ts) :
    Token.massOf (ts.filter (·.kind != .eof)) ≤ cs.length := by
  induction h with
  | stop => exact Nat.zero_le _
  | @lexeme previous position gap cs l ts hgap hl h ih =>
    obtain ⟨c, more, hsource, -⟩ := hl.head
    have hlength := congrArg List.length hl.source_append
    have htext := hl.writes.length_le
    rw [List.length_append] at hlength
    rw [List.filter_cons_of_pos (by simpa using hl.kind_ne_eof), Token.massOf_cons, Token.mass,
      textMass, String.length_ofList, List.length_append]
    rw [hsource, List.length_cons] at hlength htext
    omega

/-- Fewer tokens weigh less. -/
lemma Token.massOf_sublist {ts ts' : List Token} (h : ts.Sublist ts') :
    massOf ts ≤ massOf ts' := (h.map mass).sum_le_sum fun _ _ => Nat.zero_le _

/-- The mass of a pipeline is at most the length of the query that writes it. -/
theorem mass_le_of_parseQuery [Libraries] {limits : ParserLimits} {query : String} {p : Pipeline}
    (h : parseQuery limits query = .ok p) : p.mass ≤ query.length := by
  obtain ⟨tokens, htokens, hp⟩ := parseQuery_eq_ok.1 h
  obtain ⟨stop, body, rest, hbody, -, hstages⟩ := parseTokens_eq_ok hp
  have hlexing := (Lexer.tokensFrom_eq_ok.1 htokens).massOf_le
  have hpaid := Parser.Covers.stages hstages
  have hsublist := Token.massOf_sublist hbody
  rw [String.length_toList] at hlexing
  dsimp only at hpaid
  rw [Pipeline.mass]
  omega

end LogQuery
