import LogQuery.Proofs.Number.Width
import LogQuery.Proofs.Sql.Printer
import Mathlib.Algebra.BigOperators.Ring.List
import Mathlib.Algebra.Order.BigOperators.Group.List

namespace LogQuery.Sql

variable {d : Dialect}

/-! ### Quoted texts -/

/-- If every character becomes at most `k`, a text grows to `k` times its length. -/
lemma length_flatMap_le (cs : List Char) {f : Char → List Char} {k : Nat}
    (h : ∀ c, (f c).length ≤ k) : (cs.flatMap f).length ≤ k * cs.length := by
  induction cs with
  | nil => exact Nat.zero_le _
  | cons c cs ih =>
    have := h c
    rw [List.flatMap_cons, List.length_append, List.length_cons, Nat.mul_succ]
    omega

/-- Each character is escaped to two at most, between two quotes. -/
lemma length_quoteText_le (d : Dialect) (s : String) :
    (quoteText d s).toList.length ≤ 2 * s.length + 2 := by
  have hescape : ∀ c, (escapeInText d c).length ≤ 2 := fun c => by
    rw [escapeInText]
    split_ifs <;> simp
  have := length_flatMap_le s.toList hescape
  rw [String.length_toList] at this
  simp only [quoteText, String.toList_ofList, List.length_append, List.length_cons, List.length_nil]
  omega

/-- A name is quoted or stands as it is. -/
lemma length_identifier_le (d : Dialect) (name : String) :
    (identifier d name).toList.length ≤ 2 * name.length + 2 := by
  have hescape : ∀ c, (escapeInName d c).length ≤ 2 := fun c => by
    cases d <;> rw [escapeInName] <;> split_ifs <;> simp
  have := length_flatMap_le name.toList hescape
  rw [String.length_toList] at this
  rw [identifier]
  split_ifs
  · rw [String.length_toList]
    omega
  · simp only [quoteName, String.toList_ofList, List.length_append, List.length_cons,
      List.length_nil]
    omega

/-! ### Rows of texts -/

/-- One separator is left out, so counting one for each item is enough. -/
lemma length_intercalate_le (items : List String) (sep : String) :
    (String.intercalate sep items).toList.length ≤
      (items.map fun s => s.toList.length + sep.toList.length).sum := by
  induction items with
  | nil => simp
  | cons s rest ih =>
    cases rest with
    | nil => simp
    | cons t rest =>
      rw [String.intercalate_cons_cons, String.toList_append, String.toList_append,
        List.length_append, List.length_append, List.map_cons, List.sum_cons]
      omega

lemma sum_length_le_intercalate (items : List String) (sep : String) :
    (items.map (·.toList.length)).sum ≤ (String.intercalate sep items).toList.length := by
  induction items with
  | nil => simp
  | cons s rest ih =>
    cases rest with
    | nil => simp
    | cons t rest =>
      rw [String.intercalate_cons_cons, String.toList_append, String.toList_append,
        List.length_append, List.length_append, List.map_cons, List.sum_cons]
      omega

namespace Expr

def width (d : Dialect) (e : Expr) : Nat := (e.render d).toList.length

/-- The number of characters of expressions that are written with a gap behind each. -/
def widths (d : Dialect) (gap : Nat) (es : List Expr) : Nat := (es.map fun e => e.width d + gap).sum

@[simp] lemma widths_nil (gap : Nat) : widths d gap [] = 0 := rfl

@[simp] lemma widths_cons (gap : Nat) (e : Expr) (es : List Expr) :
    widths d gap (e :: es) = e.width d + gap + widths d gap es := List.sum_cons

@[simp] lemma widths_append (gap : Nat) (es es' : List Expr) :
    widths d gap (es ++ es') = widths d gap es + widths d gap es' := by
  rw [widths, List.map_append, List.sum_append]
  rfl

lemma widths_mono {gap gap' : Nat} (h : gap ≤ gap') (es : List Expr) :
    widths d gap es ≤ widths d gap' es :=
  List.sum_le_sum fun _ _ => Nat.add_le_add_left h _

/-- Widths with a wider gap count the difference once for each expression. -/
lemma widths_add (gap more : Nat) (es : List Expr) :
    widths d (gap + more) es = widths d gap es + more * es.length := by
  induction es with
  | nil => rfl
  | cons e es ih =>
    rw [widths_cons, widths_cons, ih, List.length_cons, Nat.mul_succ]
    omega

/-- Parts that are each paid for, together with a gap, are paid for together. -/
lemma widths_map_le {α : Type} {as : List α} {f : α → Expr} {gap rate : Nat} {mass : α → Nat}
    (h : ∀ a ∈ as, (f a).width d + gap ≤ rate * mass a) :
    widths d gap (as.map f) ≤ rate * (as.map mass).sum := by
  rw [widths, List.map_map, ← List.sum_map_mul_left]
  exact List.sum_le_sum h

lemma length_renderAll_le (es : List Expr) (sep : String) :
    (String.intercalate sep (renderAll d es)).toList.length ≤ widths d sep.toList.length es := by
  have h := length_intercalate_le (renderAll d es) sep
  rw [renderAll_eq_map, List.map_map] at h
  rwa [renderAll_eq_map]

lemma widths_le_renderAll (es : List Expr) (sep : String) :
    widths d 0 es ≤ (String.intercalate sep (renderAll d es)).toList.length := by
  have h := sum_length_le_intercalate (renderAll d es) sep
  rw [renderAll_eq_map, List.map_map] at h
  rwa [renderAll_eq_map]

/-! ### Atoms -/

lemma width_column_le (name : String) : (column name).width d ≤ 2 * name.length + 2 :=
  length_identifier_le d name

lemma width_text_le (s : String) : (text s).width d ≤ 2 * s.length + 2 := length_quoteText_le d s

/-- The plain text of a number has at most four hundred characters. -/
lemma width_number_le (x : Binary64) : (number x).width d ≤ 400 := by
  change x.plain.toList.length ≤ 400
  rw [String.length_toList]
  exact x.length_plain_le

/-- A number of rows, of seconds or of an address has at most twenty digits. -/
lemma width_nat_le {n : Nat} (h : n < tenTo 20) : (nat n).width d ≤ 20 := by
  change (toString n).toList.length ≤ 20
  rw [String.length_toList]
  exact (length_toString_le_iff (by decide)).2 h

@[simp] lemma width_null : null.width d = 4 := by
  change "NULL".toList.length = 4
  simp

@[simp] lemma width_star : star.width d = 1 := by
  change "*".toList.length = 1
  simp

/-! ### Parts -/

lemma length_operator_le (op : Operator) : op.text.toList.length ≤ 9 := by
  cases op <;> decide

@[simp] lemma width_paren (e : Expr) : (paren e).width d = e.width d + 2 := by
  change ("(" ++ e.render d ++ ")").toList.length = _
  simp [width]

@[simp] lemma width_not (e : Expr) : (not e).width d = e.width d + 4 := by
  change ("NOT " ++ e.render d).toList.length = _
  simp [width]

lemma width_nullTest_le (e : Expr) (negated : Bool) :
    (nullTest e negated).width d ≤ e.width d + 12 := by
  change (e.render d ++ if negated then " IS NOT NULL" else " IS NULL").toList.length ≤ _
  cases negated <;> simp [width]

@[simp] lemma width_between (e first last : Expr) : (between e first last).width d =
    e.width d + first.width d + last.width d + 14 := by
  change (e.render d ++ " BETWEEN " ++ first.render d ++ " AND " ++ last.render d).toList.length = _
  simp [width]
  omega

@[simp] lemma width_distinct (e : Expr) : (distinct e).width d = e.width d + 9 := by
  change ("DISTINCT " ++ e.render d).toList.length = _
  simp [width]

lemma width_cast_le (e : Expr) (type : CastType) : (cast e type).width d ≤ e.width d + 17 := by
  change ("CAST(" ++ e.render d ++ " AS " ++ type.name ++ ")").toList.length ≤ _
  cases type <;> simp [width, CastType.name]

lemma width_le_width_cast (e : Expr) (type : CastType) : e.width d ≤ (cast e type).width d := by
  change _ ≤ ("CAST(" ++ e.render d ++ " AS " ++ type.name ++ ")").toList.length
  simp [width]
  omega

@[simp] lemma width_binary (op : Operator) (left right : Expr) : (binary op left right).width d =
    left.width d + right.width d + op.text.toList.length + 2 := by
  change (String.intercalate (" " ++ op.text ++ " ") [left.render d, right.render d]).toList.length
    = _
  simp [width]
  omega

lemma width_tuple_le (items : List Expr) : (tuple items).width d ≤ widths d 2 items + 2 := by
  have h := length_renderAll_le (d := d) items ", "
  have hsep : ", ".toList.length = 2 := rfl
  change ("(" ++ String.intercalate ", " (renderAll d items) ++ ")").toList.length ≤ _
  simp only [String.toList_append, List.length_append] at h ⊢
  have hopen : "(".toList.length = 1 := rfl
  have hclose : ")".toList.length = 1 := rfl
  rw [hsep] at h
  omega

lemma width_chain_le (op : Operator) (operands : List Expr) :
    (chain op operands).width d ≤ widths d (op.text.toList.length + 2) operands := by
  have h := length_renderAll_le (d := d) operands (" " ++ op.text ++ " ")
  have hsep : (" " ++ op.text ++ " ").toList.length = op.text.toList.length + 2 := by simp
  rwa [hsep] at h

lemma widths_le_width_chain (op : Operator) (operands : List Expr) :
    widths d 0 operands ≤ (chain op operands).width d := widths_le_renderAll operands _

lemma width_call_le (function : String) (args : List Expr) :
    (call function args).width d ≤ function.length + 2 + widths d 2 args := by
  have h := length_renderAll_le (d := d) args ", "
  change (function ++ "(" ++ String.intercalate ", " (renderAll d args) ++ ")").toList.length ≤ _
  rw [← function.length_toList]
  simp at h ⊢
  omega

/-- A call with one argument. -/
lemma width_callOne_le (function : String) (e : Expr) {k : Nat} (h : function.length ≤ k) :
    (call function [e]).width d ≤ e.width d + k + 4 := by
  have hcall := width_call_le (d := d) function [e]
  rw [widths_cons, widths_nil] at hcall
  omega

/-- A call with two arguments. -/
lemma width_callTwo_le (function : String) (e e' : Expr) {k : Nat} (h : function.length ≤ k) :
    (call function [e, e']).width d ≤ e.width d + e'.width d + k + 6 := by
  have hcall := width_call_le (d := d) function [e, e']
  rw [widths_cons, widths_cons, widths_nil] at hcall
  omega

lemma widths_le_width_call (function : String) (args : List Expr) :
    widths d 0 args ≤ (call function args).width d := by
  have h := widths_le_renderAll (d := d) args ", "
  change _ ≤ (function ++ "(" ++ String.intercalate ", " (renderAll d args) ++ ")").toList.length
  rw [String.toList_append, String.toList_append, List.length_append, List.length_append]
  omega

lemma width_applied_le (function : String) (params args : List Expr) :
    (applied function params args).width d ≤
      function.length + 4 + widths d 2 params + widths d 2 args := by
  have hparams := length_renderAll_le (d := d) params ", "
  have hargs := length_renderAll_le (d := d) args ", "
  change (function ++ "(" ++ String.intercalate ", " (renderAll d params) ++ ")(" ++
    String.intercalate ", " (renderAll d args) ++ ")").toList.length ≤ _
  rw [← function.length_toList]
  simp at hparams hargs ⊢
  omega

/-- The brackets and an index of twenty digits. -/
lemma width_element_le (e : Expr) {index : Nat} (h : index < tenTo 20) :
    (element e index).width d ≤ e.width d + 22 := by
  have hindex := (length_toString_le_iff (k := 20) (by decide)).2 h
  rw [← String.length_toList] at hindex
  change (e.render d ++ "[" ++ toString index ++ "]").toList.length ≤ _
  simp [width] at hindex ⊢
  omega

/-- The longest unit and an amount of twenty digits. -/
lemma width_interval_le {amount : Nat} (unit : TimeUnit) (h : amount < tenTo 20) :
    (interval amount unit).width d ≤ 36 := by
  have hamount := (length_toString_le_iff (k := 20) (by decide)).2 h
  rw [← String.length_toList] at hamount
  have hunit : (intervalUnit unit).toList.length ≤ 6 := by
    rw [intervalUnit, String.toUpper, String.toList_map, List.length_map]
    cases unit <;> decide
  change ("INTERVAL " ++ toString amount ++ " " ++ intervalUnit unit).toList.length ≤ _
  simp at hamount ⊢
  omega

/-- The conditions and values of a conditional, in turn. -/
def branchParts (branches : List (Expr × Expr)) : List Expr :=
  branches.flatMap fun (condition, value) => [condition, value]

/-- `WHEN` and `THEN` with their blanks take twelve characters, six for each part. -/
lemma length_renderBranches (branches : List (Expr × Expr)) :
    (renderBranches d branches).toList.length = widths d 6 (branchParts branches) := by
  induction branches with
  | nil => rfl
  | cons b rest ih =>
    change (" WHEN " ++ b.1.render d ++ " THEN " ++ b.2.render d ++
      renderBranches d rest).toList.length = widths d 6 (b.1 :: b.2 :: branchParts rest)
    rw [widths_cons, widths_cons, ← ih]
    simp [width]
    omega

lemma width_caseWhen (branches : List (Expr × Expr)) (otherwise : Expr) :
    (caseWhen branches otherwise).width d =
      widths d 6 (branchParts branches) + otherwise.width d + 14 := by
  change ("CASE" ++ renderBranches d branches ++ " ELSE " ++ otherwise.render d ++
    " END").toList.length = _
  rw [← length_renderBranches]
  simp [width]
  omega

/-! ### Subqueries -/

lemma length_subqueryFilter_le (e : Expr) (filter : List Expr) :
    (subqueryFilter (e.render d) (renderAll d filter)).toList.length ≤
      e.width d + widths d 5 filter + 23 := by
  have h := length_intercalate_le (renderAll d filter ++ [e.render d ++ " IS NOT NULL"]) " AND "
  have hfilter : ((renderAll d filter).map fun s => s.toList.length + 5).sum =
      widths d 5 filter := by
    rw [renderAll_eq_map, List.map_map]
    rfl
  rw [subqueryFilter]
  simp [hfilter, width] at h ⊢
  omega

/-- A subquery for the value at a fraction of the way through the rows has the column in it five
times and the filter twice. -/
lemma width_sortedAt_le (e : Expr) (fraction : Binary64) (table : String) (filter : List Expr) :
    (sortedAt e fraction table filter).width d ≤
      5 * e.width d + 2 * widths d 5 filter + 2 * table.length + 540 := by
  have hfilter := length_subqueryFilter_le (d := d) e filter
  have hfraction := fraction.length_plain_le
  rw [← String.length_toList] at hfraction
  rw [← table.length_toList]
  change ("(SELECT " ++ e.render d ++ " "
    ++ ("FROM " ++ table ++ " " ++ subqueryFilter (e.render d) (renderAll d filter))
    ++ " ORDER BY " ++ e.render d ++ " LIMIT 1 OFFSET (SELECT CAST(COUNT(" ++ e.render d ++ ") * "
    ++ fraction.plain ++ " AS INTEGER) "
    ++ ("FROM " ++ table ++ " " ++ subqueryFilter (e.render d) (renderAll d filter))
    ++ "))").toList.length ≤ _
  simp only [String.toList_append, List.length_append, width] at hfilter ⊢
  simp
  omega

/-- The subquery writes its operand three times: to select, to filter and to group by it. -/
lemma width_mostFrequent_le (e : Expr) (table : String) (filter : List Expr) :
    (mostFrequent e table filter).width d ≤
      3 * e.width d + widths d 5 filter + table.length + 90 := by
  have hfilter := length_subqueryFilter_le (d := d) e filter
  rw [← table.length_toList]
  change ("(SELECT " ++ e.render d ++ " FROM " ++ table ++ " "
    ++ subqueryFilter (e.render d) (renderAll d filter) ++ " GROUP BY " ++ e.render d
    ++ " ORDER BY COUNT(*) DESC LIMIT 1)").toList.length ≤ _
  simp only [String.toList_append, List.length_append, width] at hfilter ⊢
  simp
  omega

/-- The subquery of the first or last row names its table twice at most. -/
lemma width_edgeRow_le (e : Expr) (table : String) (last : Bool) :
    (edgeRow e table last).width d ≤ e.width d + 2 * table.length + 60 := by
  rw [← table.length_toList]
  change ("(SELECT " ++ e.render d ++ " FROM " ++ table ++ " AS _sub WHERE _sub.rowid = "
    ++ (if last then "MAX(" else "MIN(") ++ table ++ ".rowid))").toList.length ≤ _
  simp only [String.toList_append, List.length_append, width]
  cases last <;> simp <;> omega

end Expr

end LogQuery.Sql
