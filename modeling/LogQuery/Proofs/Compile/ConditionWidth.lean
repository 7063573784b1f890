import LogQuery.Compile.Condition
import LogQuery.Proofs.Sql.Width
import LogQuery.Proofs.Syntax.Mass

namespace LogQuery

open Sql

variable {d : Dialect}

/-! ### Columns and literals -/

/-- The column of a field is as long as the field, or as one of the default columns. -/
lemma Column.length_ofField_le (field : String) : (ofField field).length ≤ max field.length 10 := by
  have haliases : ∀ entry ∈ aliases, entry.2.length ≤ 10 := by decide
  have hfound : ∀ found : Option (String × String), (∀ entry ∈ found, entry.2.length ≤ 10) →
      ((found.map (·.2)).getD field).length ≤ max field.length 10 := by
    intro found h
    cases found with
    | none => exact Nat.le_max_left _ _
    | some entry => exact (h entry rfl).trans (Nat.le_max_right _ _)
  exact hfound _ fun entry hentry => haliases entry (List.mem_of_find?_eq_some hentry)

lemma width_column_ofField_le (field : String) :
    (Expr.column (Column.ofField field)).width d ≤ 2 * field.length + 22 := by
  have := Expr.width_column_le (d := d) (Column.ofField field)
  have := Column.length_ofField_le field
  omega

lemma length_le_fieldMass (field : String) : field.length ≤ fieldMass field + 4 := by
  have : rawField.length = 4 := rfl
  rw [fieldMass]
  omega

namespace Sql.Expr

lemma ofValues_eq_map (vs : List Value) : ofValues vs = vs.map ofValue := by
  induction vs with
  | nil => rfl
  | cons v vs ih => rw [ofValues, ih, List.map_cons]

/-- The literal of a value is paid for by its mass. -/
lemma width_ofValue_le (v : Value) : (ofValue v).width d + 10 ≤ 450 * v.mass := by
  induction v using Value.induction with
  | string s | regex s =>
    have := width_text_le (d := d) s
    have := length_le_textMass s
    have := textMass_pos s
    rw [ofValue, Value.mass]
    omega
  | number x =>
    have := width_number_le (d := d) x
    rw [ofValue, Value.mass]
    omega
  | null =>
    rw [ofValue, Value.mass, width_null]
    omega
  | list items ih =>
    have hitems := widths_map_le ih
    have := widths_mono (d := d) (show 2 ≤ 10 by decide) (items.map ofValue)
    have := width_tuple_le (d := d) (items.map ofValue)
    rw [ofValue, ofValues_eq_map, Value.mass]
    omega

end Sql.Expr

namespace Value

lemma length_quote_le (s : String) : (quote s).toList.length ≤ 2 * s.length + 2 := by
  have hescape : ∀ c, (if c = '"' then ['\\', '"'] else [c]).length ≤ 2 := fun c => by
    split_ifs <;> simp
  have := length_flatMap_le s.toList hescape
  rw [String.length_toList] at this
  rw [quote]
  simp at this ⊢
  omega

lemma length_display_le (v : Value) : v.display.toList.length + 10 ≤ 450 * v.mass := by
  induction v using Value.induction with
  | string s =>
    have := length_quote_le s
    have := length_le_textMass s
    have := textMass_pos s
    rw [display, mass]
    omega
  | number x =>
    have := x.length_plain_le
    rw [display, mass, String.length_toList]
    omega
  | regex p =>
    have := textMass_pos p
    have := length_le_textMass p
    rw [← String.length_toList] at this
    rw [display, mass]
    simp at this ⊢
    omega
  | null =>
    rw [display, mass]
    decide
  | list items ih =>
    have hrow := length_intercalate_le (items.map display) ", "
    have hitems : (items.map fun v => v.display.toList.length + 2).sum ≤
        450 * (items.map mass).sum := by
      rw [← List.sum_map_mul_left]
      exact List.sum_le_sum fun v hv => by
        have := ih v hv
        omega
    rw [List.map_map] at hrow
    rw [display, displayAll_eq_map, mass]
    simp [Function.comp_def] at hrow hitems ⊢
    omega

end Value

/-! ### Tests of text -/

variable {e : Sql.Expr}

/-- The pattern of a match is at most doubled by its escapes. -/
lemma Dialect.width_regexMatch_le (pattern : String) :
    (d.regexMatch e pattern).width d ≤ e.width d + 2 * pattern.length + 13 := by
  have htext := Expr.width_text_le (d := d) pattern
  cases d with
  | clickHouse =>
    have hcall := Expr.width_callTwo_le (d := .clickHouse) "match" e (.text pattern) (k := 5)
      (by decide)
    rw [Dialect.regexMatch]
    omega
  | sqlite =>
    have hop : Operator.regexp.text.toList.length = 6 := rfl
    rw [Dialect.regexMatch, Expr.width_binary]
    omega

/-- Each character of a text is at most escaped in its pattern. -/
lemma length_likePattern_le (s : String) : (likePattern s).length ≤ 2 * s.length := by
  have hescape : ∀ c, (likeChar c).length ≤ 2 := fun c => by
    rw [likeChar]
    split_ifs <;> simp
  have := length_flatMap_le s.toList hescape
  rwa [String.length_toList, ← String.length_ofList] at this

lemma Dialect.width_like_le (s : String) (ignoreCase negated : Bool) :
    (d.like e (likePattern s) ignoreCase negated).width d ≤ e.width d + 4 * s.length + 25 := by
  have htext := Expr.width_text_le (d := d) (likePattern s)
  have hpattern := length_likePattern_le s
  have hop := Expr.length_operator_le (d.likeOperator ignoreCase negated)
  cases d with
  | clickHouse =>
    rw [Dialect.like, Expr.width_binary]
    omega
  | sqlite =>
    have hescape : Operator.escape.text.toList.length = 6 := rfl
    have hbackslash := Expr.width_text_le (d := .sqlite) "\\"
    have hone : "\\".length = 1 := rfl
    rw [Dialect.like, Expr.width_binary, Expr.width_binary]
    omega

lemma Dialect.width_contains_le (needle : String) :
    (d.contains e needle).width d ≤ e.width d + 2 * needle.length + 80 := by
  have htext := Expr.width_text_le (d := d) needle
  have hzero := Expr.width_nat_le (d := d) (n := 0) (by decide)
  have hop := Expr.length_operator_le .gt
  cases d with
  | clickHouse =>
    have hcall := Expr.width_callTwo_le (d := .clickHouse) "positionCaseInsensitive" e
      (.text needle) (k := 23) (by decide)
    rw [Dialect.contains, Expr.width_binary]
    omega
  | sqlite =>
    have hlower : ∀ e : Sql.Expr,
        (Expr.call "lower" [e]).width .sqlite ≤ e.width .sqlite + 9 :=
      fun e => Expr.width_callOne_le _ e (by decide)
    have hcolumn := hlower e
    have hneedle := hlower (.text needle)
    have hcall := Expr.width_callTwo_le (d := .sqlite) "instr" (.call "lower" [e])
      (.call "lower" [.text needle]) (k := 5) (by decide)
    rw [Dialect.contains, Expr.width_binary]
    omega

/-! ### Comparisons -/

namespace Comparison

/-- Parentheses are all that a list of values adds. -/
lemma width_listToSql_le (v : Value) : (listToSql v).width d ≤ (Expr.ofValue v).width d + 2 := by
  rw [listToSql.eq_def]
  split
  · rw [Expr.ofValue]
    exact Nat.le_add_right _ _
  · rw [Expr.width_paren]

/-- A level of severity is at most as wide as any number, and no wider than a value may be. -/
lemma width_orderedValue_le (column : String) (v : Value) :
    (Expr.ofValue (orderedValue column v)).width d + 10 ≤ 450 * v.mass := by
  have hvalue := Expr.width_ofValue_le (d := d) v
  have hpos := v.mass_pos
  rw [orderedValue.eq_def]
  split
  · next s =>
    split_ifs
    · have := Expr.width_number_le (d := d) (.ofInt (Column.severityLevel s))
      rw [Expr.ofValue]
      omega
    · exact hvalue
  · exact hvalue

/-- A comparison has the column in it once, and the value once. -/
lemma width_toSql_le (column : String) (comparison : Comparison) (v : Value) :
    (comparison.toSql d column v).width d ≤ (Expr.column column).width d + 900 * v.mass + 60 := by
  have hvalue := Expr.width_ofValue_le (d := d) v
  have hordered := width_orderedValue_le (d := d) column v
  have hlist := width_listToSql_le (d := d) v
  have hdisplay := v.length_display_le
  rw [String.length_toList] at hdisplay
  have hpos := v.mass_pos
  have hbinary : ∀ (op : Operator) (e : Sql.Expr), e.width d ≤ 450 * v.mass →
      (Expr.binary op (.column column) e).width d ≤
        (Expr.column column).width d + 900 * v.mass + 60 := by
    intro op e he
    have := Expr.length_operator_le op
    rw [Expr.width_binary]
    omega
  have hstring : ∀ s, v = .string s ∨ v = .regex s → s.length ≤ v.mass := by
    rintro s (rfl | rfl) <;> rw [Value.mass] <;> exact length_le_textMass s
  simp only [toSql]
  split
  case h_1 | h_2 | h_3 =>
    have := Expr.width_nullTest_le (d := d) (.column column)
    exact (this _).trans (by omega)
  case h_4 | h_5 =>
    have := d.width_regexMatch_le (e := .column column)
    exact (this _).trans (by have := hstring _ (.inr rfl); omega)
  case h_6 =>
    rw [Expr.width_not]
    have := d.width_regexMatch_le (e := .column column)
    exact (Nat.add_le_add_right (this _) 4).trans (by have := hstring _ (.inr rfl); omega)
  case h_7 | h_8 =>
    split_ifs
    · have := d.width_like_le (e := .column column)
      exact (this _ _ _).trans (by have := hstring _ (.inl rfl); omega)
    · exact hbinary _ _ (by omega)
  case h_9 =>
    split_ifs
    · have := d.width_like_le (e := .column column)
      exact (this _ _ _).trans (by have := hstring _ (.inl rfl); omega)
    · have := d.width_contains_le (e := .column column)
      exact (this _).trans (by have := hstring _ (.inl rfl); omega)
  case h_10 =>
    have := d.width_contains_le (e := .column column)
    exact (this _).trans (by omega)
  case h_11 | h_12 => exact hbinary _ _ (by omega)
  all_goals split_ifs <;> exact hbinary _ _ (by omega)

end Comparison

/-! ### Conditions -/

namespace Condition

lemma allToSql_eq_map (cs : List Condition) : allToSql d cs = cs.map (toSql d) := by
  induction cs with
  | nil => rfl
  | cons c cs ih => rw [allToSql, ih, List.map_cons]

lemma width_not_or_le (e : Sql.Expr) (negated : Bool) :
    (if negated then Expr.not e else e).width d ≤ e.width d + 4 := by
  split_ifs
  · rw [Expr.width_not]
  · exact Nat.le_add_right _ _

/-- Of forty characters for each member, those that no connective needs are left. -/
lemma width_joined_le (logic : Connective) (es : List Sql.Expr) :
    (Expr.paren (.chain (.ofConnective logic) es)).width d + 35 * es.length ≤
      Expr.widths d 40 es + 2 := by
  have hchain := Expr.width_chain_le (d := d) (.ofConnective logic) es
  have hop : (Operator.ofConnective logic).text.toList.length + 2 ≤ 5 := by cases logic <;> decide
  have hgap := Expr.widths_mono (d := d) hop es
  have hspare : Expr.widths d 40 es = Expr.widths d 5 es + 35 * es.length := Expr.widths_add 5 35 es
  rw [Expr.width_paren]
  omega

/-- Every condition is paid for with forty characters to spare, which serve for the parentheses and
the connectives of the groups in which it stands. The induction is on the condition. -/
theorem width_toSql_le (c : Condition) : (c.toSql d).width d + 40 ≤ 1200 * c.mass := by
  induction c using Condition.induction with
  | compare field comparison value negated =>
    have htest := comparison.width_toSql_le (d := d) (Column.ofField field) value
    have hcolumn := width_column_ofField_le (d := d) field
    have hfield := length_le_fieldMass field
    have hpos := value.mass_pos
    rw [mass, toSql]
    split_ifs
    · rw [Expr.width_not, Expr.width_paren]
      omega
    · omega
  | group logic members negated ih =>
    have hmembers := Expr.widths_map_le (d := d) ih
    have hjoined := width_joined_le (d := d) logic (members.map (toSql d))
    have hnot := width_not_or_le (d := d)
      (.paren (.chain (.ofConnective logic) (members.map (toSql d)))) negated
    rw [List.length_map] at hjoined
    rw [mass, toSql, allToSql_eq_map]
    split_ifs at hnot ⊢ <;> omega

/-- The fragment of a stage, with a connective behind it. -/
lemma widths_fragment_le (cs : List Condition) :
    Expr.widths d 5 (fragment? d cs).toList ≤ 1200 * massOf cs := by
  have hall : Expr.widths d 40 (cs.map (toSql d)) ≤ 1200 * massOf cs :=
    Expr.widths_map_le fun c _ => c.width_toSql_le
  rw [fragment?, allToSql_eq_map]
  match hes : cs.map (toSql d) with
  | [] => exact Nat.zero_le _
  | [e] =>
    rw [hes] at hall
    exact (Expr.widths_mono (by decide) _).trans hall
  | e :: e' :: rest =>
    have hjoined := width_joined_le (d := d) .and (e :: e' :: rest)
    rw [hes] at hall
    rw [List.length_cons, List.length_cons] at hjoined
    change (Expr.paren (.chain .and (e :: e' :: rest))).width d + 5 ≤ _
    rw [Operator.ofConnective] at hjoined
    omega

end Condition

end LogQuery
