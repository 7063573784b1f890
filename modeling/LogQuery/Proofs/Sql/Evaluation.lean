import LogQuery.Address.Basic
import LogQuery.Sql.Value
import Mathlib.Tactic.Lemma
import Mathlib.Tactic.SplitIfs

namespace LogQuery.Sql

inductive Datum where
  | int (n : Int)
  | text (s : String)
  deriving DecidableEq, Repr

namespace Datum

def ofBool (b : Bool) : Datum := .int b.toInt

/-- Every number but zero counts as true. -/
def isTrue : Datum → Bool
  | .int n => n != 0
  | .text _ => false

/-- A text as a whole number: that of the digits in front. -/
def toInteger : Datum → Datum
  | .int n => .int n
  | .text s => .int (Numeral.digitsValue (s.toList.takeWhile Char.isDigit))

/-- A number lies between two others. -/
def isBetween? : Datum → Datum → Datum → Option Datum
  | .int n, .int first, .int last => some (ofBool (first ≤ n && n ≤ last))
  | _, _, _ => none

@[simp] lemma isTrue_ofBool (b : Bool) : (ofBool b).isTrue = b := by cases b <;> rfl

end Datum

/-! ### Operators and functions -/

/-- The value of an operator between two values. -/
def Operator.combine? : Operator → Datum → Datum → Option Datum
  | .or, v, w => some (.ofBool (v.isTrue || w.isTrue))
  | .add, .int m, .int n => some (.int (m + n))
  | .subtract, .int m, .int n => some (.int (m - n))
  | .multiply, .int m, .int n => some (.int (m * n))
  | _, _, _ => none

/-- The value of operands with an operator between any two: they are taken together from the
left. -/
def Operator.chain? (op : Operator) : List Datum → Option Datum
  | [] => none
  | v :: vs => vs.foldlM op.combine? v

/-- Where a text first occurs in another one, counted from one; zero if it does not. -/
def position (part : List Char) : List Char → Nat
  | [] => if part.isEmpty then 1 else 0
  | c :: cs =>
    if part.isPrefixOf (c :: cs) then 1
    else if position part cs = 0 then 0
    else position part cs + 1

/-- The first value whose condition is true; the conditions and the values take turns, and the last
value has no condition. -/
def firstTrue? : List Datum → Option Datum
  | [] => none
  | [otherwise] => some otherwise
  | condition :: value :: rest => if condition.isTrue then some value else firstTrue? rest

/-- The value of a function. Positions in a text count from one. -/
def function? : Dialect → String → List Datum → Option Datum
  | .clickHouse, "toIPv4", [.text s] => (Address.ofText? s).map fun x => .int x.value
  | .clickHouse, "toIPv4OrNull", [.text s] => (Address.ofText? s).map fun x => .int x.value
  | .clickHouse, "if", vs => firstTrue? vs
  | .clickHouse, "multiIf", vs => firstTrue? vs
  | .sqlite, "instr", [.text s, .text part] => some (.int (position part.toList s.toList))
  | .sqlite, "substr", [.text s, .int (.ofNat (start + 1))] =>
    some (.text (String.ofList (s.toList.drop start)))
  | .sqlite, "substr", [.text s, .int (.ofNat (start + 1)), .int (.ofNat length)] =>
    some (.text (String.ofList ((s.toList.drop start).take length)))
  | _, _, _ => none

lemma function?_toIPv4 (s : String) :
    function? .clickHouse "toIPv4" [.text s] =
      (Address.ofText? s).map fun x => .int x.value := rfl

lemma function?_toIPv4OrNull (s : String) :
    function? .clickHouse "toIPv4OrNull" [.text s] =
      (Address.ofText? s).map fun x => .int x.value := rfl

lemma function?_instr (s part : String) :
    function? .sqlite "instr" [.text s, .text part] =
      some (.int (position part.toList s.toList)) := rfl

lemma function?_substr (s : String) (start : Nat) :
    function? .sqlite "substr" [.text s, .int (.ofNat (start + 1))] =
      some (.text (String.ofList (s.toList.drop start))) := rfl

lemma function?_substr_take (s : String) (start length : Nat) :
    function? .sqlite "substr" [.text s, .int (.ofNat (start + 1)), .int (.ofNat length)] =
      some (.text (String.ofList ((s.toList.drop start).take length))) := rfl

/-! ### Expressions -/

namespace Expr

mutual

/-- The value of an expression, given the values of the columns. What is not described here has no
value. The term says which operands belong to which operator, so nothing is said of precedence. -/
def value? (d : Dialect) (row : String → Option Datum) : Expr → Option Datum
  | .column name => row name
  | .text s => some (.text s)
  | .nat n => some (.int n)
  | .paren e => value? d row e
  | .chain op operands => (values? d row operands).bind op.chain?
  | .not e => (value? d row e).map fun v => .ofBool !v.isTrue
  | .between e first last => do
    Datum.isBetween? (← value? d row e) (← value? d row first) (← value? d row last)
  | .call function args => (values? d row args).bind (function? d function)
  | .cast e .integer => (value? d row e).map Datum.toInteger
  | .caseWhen branches otherwise => branchValue? d row (value? d row otherwise) branches
  | _ => none

def values? (d : Dialect) (row : String → Option Datum) : List Expr → Option (List Datum)
  | [] => some []
  | e :: rest => do return (← value? d row e) :: (← values? d row rest)

/-- The value of the first branch whose condition is true, or else another value. -/
def branchValue? (d : Dialect) (row : String → Option Datum) (otherwise : Option Datum) :
    List (Expr × Expr) → Option Datum
  | [] => otherwise
  | (condition, value) :: rest => do
    if (← value? d row condition).isTrue then value? d row value
    else branchValue? d row otherwise rest

end

variable {d : Dialect} {row : String → Option Datum} {e : Expr}

@[simp] lemma value?_column (name : String) : value? d row (.column name) = row name := rfl

@[simp] lemma value?_text (s : String) : value? d row (.text s) = some (.text s) := rfl

@[simp] lemma value?_nat (n : Nat) : value? d row (.nat n) = some (.int n) := rfl

@[simp] lemma value?_paren (e : Expr) : value? d row (.paren e) = value? d row e := rfl

lemma value?_chain (op : Operator) (operands : List Expr) :
    value? d row (.chain op operands) = (values? d row operands).bind op.chain? := rfl

lemma value?_call (function : String) (args : List Expr) :
    value? d row (.call function args) = (values? d row args).bind (function? d function) := rfl

lemma value?_integer (e : Expr) :
    value? d row (.cast e .integer) = (value? d row e).map Datum.toInteger := rfl

lemma value?_caseWhen (branches : List (Expr × Expr)) (otherwise : Expr) :
    value? d row (.caseWhen branches otherwise) =
      branchValue? d row (value? d row otherwise) branches := rfl

@[simp] lemma values?_nil : values? d row [] = some [] := rfl

@[simp] lemma branchValue?_nil (otherwise : Option Datum) :
    branchValue? d row otherwise [] = otherwise := rfl

lemma branchValue?_cons {condition value : Expr} {branches : List (Expr × Expr)}
    {otherwise : Option Datum} {b : Bool} (h : value? d row condition = some (.ofBool b)) :
    branchValue? d row otherwise ((condition, value) :: branches) =
      if b then value? d row value else branchValue? d row otherwise branches := by
  have hunfold : branchValue? d row otherwise ((condition, value) :: branches) =
      (value? d row condition).bind fun v => if v.isTrue then value? d row value
        else branchValue? d row otherwise branches := rfl
  rw [hunfold, h, Option.bind_some, Datum.isTrue_ofBool]

lemma values?_cons {v : Datum} {vs : List Datum} {es : List Expr} (h : value? d row e = some v)
    (hs : values? d row es = some vs) : values? d row (e :: es) = some (v :: vs) := by
  have hunfold : values? d row (e :: es) =
      (value? d row e).bind fun v => (values? d row es).bind fun vs => some (v :: vs) := rfl
  rw [hunfold, h, hs]
  rfl

lemma values?_map {α : Type} {expr : α → Expr} {value : α → Datum}
    (h : ∀ a, value? d row (expr a) = some (value a)) (as : List α) :
    values? d row (as.map expr) = some (as.map value) := by
  induction as with
  | nil => simp
  | cons a as ih => exact values?_cons (h a) ih

/-- Negation of a truth value. -/
lemma value?_not {b : Bool} (h : value? d row e = some (.ofBool b)) :
    value? d row (.not e) = some (.ofBool !b) := by
  have hunfold : value? d row (.not e) = (value? d row e).map fun v => .ofBool !v.isTrue := rfl
  simp [hunfold, h]

/-- `BETWEEN` compares with both ends. -/
lemma value?_between {first last : Expr} {n m k : Int} (h : value? d row e = some (.int n))
    (hfirst : value? d row first = some (.int m)) (hlast : value? d row last = some (.int k)) :
    value? d row (.between e first last) = some (.ofBool (m ≤ n && n ≤ k)) := by
  have hunfold : value? d row (.between e first last) =
      (value? d row e).bind fun v => (value? d row first).bind fun v' =>
        (value? d row last).bind (Datum.isBetween? v v') := rfl
  rw [hunfold, h, hfirst, hlast]
  rfl

lemma value?_binary {op : Operator} {left right : Expr} {v w : Datum}
    (h : value? d row left = some v) (h' : value? d row right = some w) :
    value? d row (.binary op left right) = op.combine? v w := by
  have hvalues := values?_cons h (values?_cons h' values?_nil)
  rw [binary, value?_chain, hvalues]
  simp [Operator.chain?]

end Expr

/-! ### Alternatives -/

/-- A disjunction of truth values holds if one of them does. -/
lemma foldlM_or (b : Bool) (bs : List Bool) :
    (bs.map Datum.ofBool).foldlM Operator.or.combine? (.ofBool b) =
      some (.ofBool (b || bs.any id)) := by
  induction bs generalizing b with
  | nil => simp
  | cons b' bs ih =>
    have hstep : Operator.or.combine? (.ofBool b) (.ofBool b') = some (.ofBool (b || b')) := by
      simp [Operator.combine?]
    rw [List.map_cons, List.foldlM_cons, hstep]
    simp [ih, Bool.or_assoc]

/-- Alternatives are true if one of them is. -/
lemma value?_alternatives {d : Dialect} {row : String → Option Datum} {α : Type} {expr : α → Expr}
    {test : α → Bool} (h : ∀ a, (expr a).value? d row = some (.ofBool (test a))) {as : List α}
    (hne : as ≠ []) :
    (Expr.chain .or (as.map expr)).value? d row = some (.ofBool (as.any test)) := by
  obtain ⟨a, as, rfl⟩ := List.exists_cons_of_ne_nil hne
  have hfold := foldlM_or (test a) (as.map test)
  rw [Expr.value?_chain, Expr.values?_map h]
  simpa [Operator.chain?, Function.comp_def] using hfold

/-! ### Conditionals -/

lemma firstTrue?_cons_cons (condition value : Datum) {rest : List Datum} (h : rest ≠ []) :
    firstTrue? (condition :: value :: rest) =
      if condition.isTrue then some value else firstTrue? rest := by
  cases rest with
  | nil => exact absurd rfl h
  | cons v rest => rfl

/-- A case split over tests and results takes the result of the first test that holds. -/
lemma firstTrue?_flatMap {α : Type} (test : α → Bool) (result : α → Datum) (last : Datum)
    (as : List α) :
    firstTrue? ((as.flatMap fun a => [.ofBool (test a), result a]) ++ [last]) =
      some (((as.find? test).map result).getD last) := by
  induction as with
  | nil => rfl
  | cons a as ih =>
    rw [List.flatMap_cons, List.append_assoc, List.cons_append, List.cons_append, List.nil_append,
      firstTrue?_cons_cons _ _ (by simp), ih, Datum.isTrue_ofBool]
    cases htest : test a <;> simp [htest]

section

variable {d : Dialect} {row : String → Option Datum} {α : Type} {condition value : α → Expr}
  {test : α → Bool} {result : α → Datum} {otherwise : Expr} {last : Datum}

/-- A conditional has the value of its first branch whose condition holds. -/
lemma value?_conditional
    (hcondition : ∀ a, (condition a).value? d row = some (.ofBool (test a)))
    (hvalue : ∀ a, (value a).value? d row = some (result a))
    (hlast : otherwise.value? d row = some last) (as : List α) :
    (d.conditional (as.map fun a => (condition a, value a)) otherwise).value? d row =
      some (((as.find? test).map result).getD last) := by
  cases d with
  | clickHouse =>
    have hvalues : Expr.values? .clickHouse row
        ((as.flatMap fun a => [condition a, value a]) ++ [otherwise]) =
          some ((as.flatMap fun a => [Datum.ofBool (test a), result a]) ++ [last]) := by
      induction as with
      | nil => exact Expr.values?_cons hlast Expr.values?_nil
      | cons a as ih => exact Expr.values?_cons (hcondition a) (Expr.values?_cons (hvalue a) ih)
    have hfunction : ∀ vs, function? .clickHouse
        (if (as.map fun a => (condition a, value a)).length = 1 then "if" else "multiIf") vs =
          firstTrue? vs := by
      intro vs
      split_ifs <;> rfl
    rw [Dialect.conditional, Expr.value?_call, List.flatMap_map, hvalues, Option.bind_some,
      hfunction, firstTrue?_flatMap]
  | sqlite =>
    have hbranches : Expr.branchValue? .sqlite row (some last)
        (as.map fun a => (condition a, value a)) =
          some (((as.find? test).map result).getD last) := by
      induction as with
      | nil => simp
      | cons a as ih =>
        rw [List.map_cons, Expr.branchValue?_cons (hcondition a), ih, hvalue]
        cases htest : test a <;> simp [htest]
    rw [Dialect.conditional, Expr.value?_caseWhen, hlast, hbranches]

end

end LogQuery.Sql
