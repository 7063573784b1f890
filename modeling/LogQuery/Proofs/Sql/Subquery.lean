import LogQuery.Compile.Expression
import LogQuery.Proofs.Sql.Printer
import LogQuery.Sql.Aggregate
import LogQuery.Sql.Bucket
import Mathlib.Tactic.ByContra
import Mathlib.Tactic.Lemma
import Mathlib.Tactic.SplitIfs

namespace LogQuery

open Sql

/-- A subquery: the expression whose values it looks at, and what the rows have to satisfy besides
having one. -/
structure Sql.Subquery where
  column : Expr
  filter : List Expr

namespace Sql.Subquery

/-- The clause by which a subquery selects its rows. -/
def clause (d : Dialect) (q : Subquery) : String :=
  Expr.subqueryFilter (q.column.render d) (Expr.renderAll d q.filter)

/-- More items in front of the last one make a longer text. -/
lemma length_intercalate_lt {sep : String} (hsep : 0 < sep.length) (front : List String)
    {more : List String} (hmore : more ≠ []) (last : String) :
    (String.intercalate sep (front ++ [last])).length <
      (String.intercalate sep (front ++ more ++ [last])).length := by
  have hlast : [last] ≠ [] := List.cons_ne_nil _ _
  have hlater : String.intercalate sep (more ++ [last]) =
      String.intercalate sep more ++ sep ++ last := by
    rw [String.intercalate_append_of_ne_nil hmore hlast, String.intercalate_singleton]
  rw [List.append_assoc]
  by_cases hfront : front = []
  · rw [hfront, List.nil_append, List.nil_append, hlater, String.intercalate_singleton,
      String.length_append, String.length_append]
    omega
  · rw [String.intercalate_append_of_ne_nil hfront hlast,
      String.intercalate_append_of_ne_nil hfront (by simp), hlater, String.intercalate_singleton]
    simp only [String.length_append]
    omega

/-- A clause that selects by more conditions is another one. -/
lemma clause_eq_iff {d : Dialect} (q : Subquery) (more : List Expr) :
    q.clause d =
        Expr.subqueryFilter (q.column.render d) ((q.filter ++ more).map (Expr.render d)) ↔
      more = [] := by
  rw [clause, Expr.renderAll_eq_map, List.map_append, Expr.subqueryFilter, Expr.subqueryFilter]
  constructor
  · intro h
    by_contra hmore
    have hsep : 0 < " AND ".length := by decide
    have hne : more.map (Expr.render d) ≠ [] := fun hnil => hmore (List.map_eq_nil_iff.1 hnil)
    have hlt := length_intercalate_lt hsep (q.filter.map (Expr.render d)) hne
      (q.column.render d ++ " IS NOT NULL")
    have hlength := congrArg String.length h
    rw [String.length_append, String.length_append] at hlength
    omega
  · rintro rfl
    rw [List.map_nil, List.append_nil]

end Sql.Subquery

namespace Sql.Expr

mutual

/-- The subqueries with a filter that stand in an expression. -/
def subqueries : Expr → List Subquery
  | .paren e | .not e | .nullTest e _ | .element e _ | .distinct e | .cast e _ | .edgeRow e _ _ =>
    subqueries e
  | .tuple es | .chain _ es | .call _ es => allSubqueries es
  | .applied _ params args => allSubqueries params ++ allSubqueries args
  | .between e first last => subqueries e ++ subqueries first ++ subqueries last
  | .caseWhen branches otherwise => branchSubqueries branches ++ subqueries otherwise
  | .sortedAt e _ _ filter | .mostFrequent e _ filter =>
    ⟨e, filter⟩ :: (subqueries e ++ allSubqueries filter)
  | _ => []

def allSubqueries : List Expr → List Subquery
  | [] => []
  | e :: rest => subqueries e ++ allSubqueries rest

def branchSubqueries : List (Expr × Expr) → List Subquery
  | [] => []
  | (condition, value) :: rest =>
    subqueries condition ++ subqueries value ++ branchSubqueries rest

end

variable {e e' : Expr} {es : List Expr}

@[simp] lemma subqueries_column (name : String) : (column name).subqueries = [] := rfl
@[simp] lemma subqueries_text (s : String) : (text s).subqueries = [] := rfl
@[simp] lemma subqueries_number (x : Binary64) : (number x).subqueries = [] := rfl
@[simp] lemma subqueries_nat (n : Nat) : (nat n).subqueries = [] := rfl
@[simp] lemma subqueries_null : null.subqueries = [] := rfl
@[simp] lemma subqueries_star : star.subqueries = [] := rfl
@[simp] lemma subqueries_interval (n : Nat) (unit : TimeUnit) :
    (interval n unit).subqueries = [] := rfl
@[simp] lemma subqueries_paren (e : Expr) : (paren e).subqueries = e.subqueries := rfl
@[simp] lemma subqueries_not (e : Expr) : (not e).subqueries = e.subqueries := rfl
@[simp] lemma subqueries_nullTest (e : Expr) (negated : Bool) :
    (nullTest e negated).subqueries = e.subqueries := rfl
@[simp] lemma subqueries_distinct (e : Expr) : (distinct e).subqueries = e.subqueries := rfl
@[simp] lemma subqueries_cast (e : Expr) (type : CastType) :
    (cast e type).subqueries = e.subqueries := rfl
@[simp] lemma subqueries_edgeRow (e : Expr) (table : String) (last : Bool) :
    (edgeRow e table last).subqueries = e.subqueries := rfl
@[simp] lemma subqueries_tuple (es : List Expr) : (tuple es).subqueries = allSubqueries es := rfl
@[simp] lemma subqueries_chain (op : Operator) (es : List Expr) :
    (chain op es).subqueries = allSubqueries es := rfl
@[simp] lemma subqueries_call (function : String) (es : List Expr) :
    (call function es).subqueries = allSubqueries es := rfl
@[simp] lemma subqueries_between (e first last : Expr) :
    (between e first last).subqueries = e.subqueries ++ first.subqueries ++ last.subqueries := rfl
@[simp] lemma subqueries_caseWhen (branches : List (Expr × Expr)) (otherwise : Expr) :
    (caseWhen branches otherwise).subqueries =
      branchSubqueries branches ++ otherwise.subqueries := rfl
@[simp] lemma subqueries_sortedAt (e : Expr) (fraction : Binary64) (table : String)
    (filter : List Expr) : (sortedAt e fraction table filter).subqueries =
      ⟨e, filter⟩ :: (e.subqueries ++ allSubqueries filter) := rfl
@[simp] lemma subqueries_mostFrequent (e : Expr) (table : String) (filter : List Expr) :
    (mostFrequent e table filter).subqueries =
      ⟨e, filter⟩ :: (e.subqueries ++ allSubqueries filter) := rfl

@[simp] lemma allSubqueries_nil : allSubqueries [] = [] := rfl

@[simp] lemma allSubqueries_cons (e : Expr) (es : List Expr) :
    allSubqueries (e :: es) = e.subqueries ++ allSubqueries es := rfl

@[simp] lemma allSubqueries_append (es es' : List Expr) :
    allSubqueries (es ++ es') = allSubqueries es ++ allSubqueries es' := by
  induction es with
  | nil => rfl
  | cons e es ih => simp [ih]

@[simp] lemma subqueries_binary (op : Operator) (e e' : Expr) :
    (binary op e e').subqueries = e.subqueries ++ e'.subqueries := by
  simp [binary]

lemma allSubqueries_eq_nil : allSubqueries es = [] ↔ ∀ e ∈ es, e.subqueries = [] := by
  induction es with
  | nil => simp
  | cons e es ih => simp [ih]

lemma branchSubqueries_eq_nil {branches : List (Expr × Expr)} :
    branchSubqueries branches = [] ↔
      ∀ b ∈ branches, b.1.subqueries = [] ∧ b.2.subqueries = [] := by
  induction branches with
  | nil => exact iff_of_true rfl nofun
  | cons b branches ih =>
    have hcons : branchSubqueries (b :: branches) =
        b.1.subqueries ++ b.2.subqueries ++ branchSubqueries branches := rfl
    simp [hcons, ih, and_assoc]

mutual

@[simp] lemma subqueries_ofValue : ∀ v : Value, (ofValue v).subqueries = []
  | .string _ | .regex _ | .number _ | .null => rfl
  | .list items => subqueries_ofValues items

@[simp] lemma subqueries_ofValues : ∀ vs : List Value, allSubqueries (ofValues vs) = []
  | [] => rfl
  | v :: rest => by
    rw [ofValues, allSubqueries_cons, subqueries_ofValue v, subqueries_ofValues rest]
    rfl

end

end Sql.Expr

/-! ### What the dialect builds -/

namespace Dialect

variable {d : Dialect} {e : Expr} {es : List Expr}

lemma subqueries_contains (h : e.subqueries = []) (needle : String) :
    (d.contains e needle).subqueries = [] := by
  cases d <;> simp [contains, h]

lemma subqueries_like (h : e.subqueries = []) (pattern : String) (ignoreCase negated : Bool) :
    (d.like e pattern ignoreCase negated).subqueries = [] := by
  cases d <;> simp [like, h]

lemma subqueries_regexMatch (h : e.subqueries = []) (pattern : String) :
    (d.regexMatch e pattern).subqueries = [] := by
  cases d <;> simp [regexMatch, h]

lemma subqueries_extractGroup (h : e.subqueries = []) (pattern group : String) :
    ((d.extractGroup e pattern group).getD .null).subqueries = [] := by
  cases d <;> simp [extractGroup, h]

lemma subqueries_concat (h : Expr.allSubqueries es = []) : (d.concat es).subqueries = [] := by
  cases d with
  | clickHouse => exact h
  | sqlite =>
    rw [concat]
    split_ifs
    · rfl
    · exact h

/-- A case split has no subquery but those of its parts. -/
lemma subqueries_conditional {branches : List (Expr × Expr)}
    (h : ∀ b ∈ branches, b.1.subqueries = [] ∧ b.2.subqueries = []) (he : e.subqueries = []) :
    (d.conditional branches e).subqueries = [] := by
  cases d with
  | clickHouse =>
    rw [conditional, Expr.subqueries_call, Expr.allSubqueries_eq_nil]
    intro x hx
    rw [List.mem_append, List.mem_flatMap, List.mem_singleton] at hx
    rcases hx with ⟨b, hb, hx⟩ | rfl
    · rcases List.mem_cons.1 hx with rfl | hx
      · exact (h b hb).1
      · exact List.mem_singleton.1 hx ▸ (h b hb).2
    · exact he
  | sqlite => simp [conditional, Expr.branchSubqueries_eq_nil.2 h, he]

lemma subqueries_timeBucket (h : e.subqueries = []) (seconds : Nat) :
    (d.timeBucket e seconds).subqueries = [] := by
  cases d with
  | clickHouse =>
    rw [timeBucket]
    split <;> simp [h]
  | sqlite =>
    rw [timeBucket]
    split <;> simp [h]

lemma subqueries_numericBin (h : e.subqueries = []) (width : Binary64) :
    (d.numericBin e width).subqueries = [] := by
  cases d <;> simp [numericBin, h]

@[simp] lemma subqueries_now : d.now.subqueries = [] := by
  cases d <;> rfl

@[simp] lemma subqueries_countAll : d.countAll.subqueries = [] := by
  cases d <;> rfl

/-- A range test copies its operand, but it adds no subquery. -/
lemma subqueries_inRange (h : e.subqueries = []) (r : AddressRange) :
    (d.inRange e r).subqueries = [] := by
  cases d with
  | clickHouse => simp [inRange, h]
  | sqlite => simp [inRange, addressNumber, beforePoint, behindPoint, h]

lemma subqueries_inSomeRange (h : e.subqueries = []) (ranges : List AddressRange) :
    (d.inSomeRange e ranges).subqueries = [] := by
  rw [inSomeRange, Expr.subqueries_paren, Expr.subqueries_chain, Expr.allSubqueries_eq_nil]
  intro x hx
  obtain ⟨r, -, rfl⟩ := List.mem_map.1 hx
  exact subqueries_inRange h r

lemma subqueries_ofAnswer (answer : AddressAnswer) : (ofAnswer answer).subqueries = [] := by
  cases answer <;> rfl

/-- An address question adds no subquery. -/
lemma subqueries_ask (h : e.subqueries = []) (q : AddressQuestion) :
    (d.ask q e).subqueries = [] := by
  cases q with
  | classify =>
    refine subqueries_conditional (fun b hb => ?_) rfl
    obtain ⟨r, -, rfl⟩ := List.mem_map.1 hb
    exact ⟨subqueries_inRange h r.1, rfl⟩
  | isPublic => exact subqueries_inSomeRange h _
  | _ => exact subqueries_inSomeRange h _

end Dialect

/-! ### Expressions of a query -/

namespace EvalFunction

variable {d : Dialect} {es : List Expr}

lemma subqueries_branches (h : ∀ e ∈ es, e.subqueries = []) :
    (∀ b ∈ (branches es).1, b.1.subqueries = [] ∧ b.2.subqueries = []) ∧
      ∀ e ∈ (branches es).2, e.subqueries = [] := by
  fun_induction branches es with
  | case1 => simp
  | case2 otherwise => simpa using h
  | case3 condition value rest later otherwise hrest ih =>
    rw [hrest] at ih
    obtain ⟨hlater, hotherwise⟩ := ih fun e he => h e (by simp [he])
    exact ⟨List.forall_mem_cons.2 ⟨⟨h _ (by simp), h _ (by simp)⟩, hlater⟩, hotherwise⟩

/-- A function of the table adds no subquery to those of its arguments. -/
lemma subqueries_toSql {function : EvalFunction} {args : List EvalExpr} {e : Expr}
    (hes : ∀ e ∈ es, e.subqueries = []) (h : function.toSql? d args es = some e) :
    e.subqueries = [] := by
  simp only [toSql?] at h
  -- One case for each row of the table of functions; the last is for those with a name in SQL.
  split at h
  · cases h
    exact Dialect.subqueries_conditional (by simpa using ⟨hes _ (by simp), hes _ (by simp)⟩)
      (hes _ (by simp))
  · cases h
    obtain ⟨htaken, hotherwise⟩ := subqueries_branches hes
    refine Dialect.subqueries_conditional htaken ?_
    cases hlast : (branches es).2 with
    | none => rfl
    | some last => exact hotherwise last hlast
  · cases h
    exact Dialect.subqueries_concat (Expr.allSubqueries_eq_nil.2 hes)
  · cases h
    cases d <;> exact Expr.allSubqueries_eq_nil.2 hes
  · cases h
    cases d <;> simp [Dialect.toText, hes]
  · cases h
    cases d <;> simp [Dialect.toNumber, hes]
  · cases h
    cases d <;> simp [Dialect.naturalLog, hes]
  · cases h
    exact Dialect.subqueries_now
  · cases h
    simp [hes]
  · cases h
    simp [hes]
  · obtain ⟨pattern, -, rfl⟩ := Option.map_eq_some_iff.1 h
    exact Dialect.subqueries_regexMatch (hes _ (by simp)) pattern
  · cases h
    simp [hes]
  · obtain ⟨range, -, rfl⟩ := Option.map_eq_some_iff.1 h
    exact Dialect.subqueries_inRange (hes _ (by simp)) range
  · next q arg e =>
    cases h
    cases hanswer : answerOf? q arg with
    | none => exact Dialect.subqueries_ask (hes _ (by simp)) q
    | some answer =>
      obtain ⟨text, -, haddress⟩ := Option.bind_eq_some_iff.1 hanswer
      obtain ⟨address, -, hreturn⟩ := Option.bind_eq_some_iff.1 haddress
      cases hreturn
      exact Dialect.subqueries_ofAnswer _
  · obtain ⟨name, -, rfl⟩ := Option.map_eq_some_iff.1 h
    exact Expr.allSubqueries_eq_nil.2 hes

end EvalFunction

namespace EvalExpr

variable {d : Dialect}

/-- Neither does a call that is passed on. -/
lemma subqueries_callToSql (name : String) (args : List EvalExpr) {es : List Expr}
    (hes : ∀ e ∈ es, e.subqueries = []) : (callToSql d name args es).subqueries = [] := by
  rw [callToSql]
  cases hknown : (EvalFunction.ofCall? name args.length).bind fun f => f.toSql? d args es with
  | none => exact Expr.allSubqueries_eq_nil.2 hes
  | some e =>
    obtain ⟨function, -, h⟩ := Option.bind_eq_some_iff.1 hknown
    exact EvalFunction.subqueries_toSql hes h

mutual

lemma subqueries_toSql : ∀ e : EvalExpr, (e.toSql d).subqueries = []
  | .literal value => Expr.subqueries_ofValue value
  | .field name => rfl
  | .binary op left right => by
    rw [toSql, Expr.subqueries_paren, Expr.subqueries_binary, subqueries_toSql left,
      subqueries_toSql right]
    rfl
  | .call function args => by
    rw [toSql]
    exact subqueries_callToSql function args (subqueries_allToSql args)

lemma subqueries_allToSql : ∀ args : List EvalExpr, ∀ e ∈ allToSql d args, e.subqueries = []
  | [], _, he => by cases he
  | a :: args, e, he => by
    rcases List.mem_cons.1 he with rfl | he
    · exact subqueries_toSql a
    · exact subqueries_allToSql args e he

end

end EvalExpr

end LogQuery
