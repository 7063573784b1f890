import LogQuery.Compile.Expression
import LogQuery.Proofs.Compile.Tame
import LogQuery.Proofs.Syntax.Part

namespace LogQuery

open Sql

variable {d : Dialect} {name : String} {function : EvalFunction} {args : List EvalExpr}
  {sql : List Expr} {n : Nat}

namespace EvalFunction

/-! ### The table of functions -/

/-- The least and the largest number of arguments. -/
def bounds : EvalFunction → Nat × Option Nat
  | .now => (0, some 0)
  | .abs | .ceil | .floor | .sqrt | .exp | .ln | .log10 | .len | .lower | .upper | .trim | .ltrim
  | .rtrim | .toText | .toNumber | .isNull | .isNotNull | .address _ => (1, some 1)
  | .pow | .match_ | .like | .cidrMatch => (2, some 2)
  | .if_ | .replace => (3, some 3)
  | .round => (1, some 2)
  | .substr => (2, some 3)
  | .coalesce | .concat => (1, none)
  | .case_ => (2, none)

/-- The numbers of arguments in the table are those that the functions accept. -/
lemma bounds_table : ∀ row ∈ table, row.2.1.bounds = row.2.2 := by decide

/-- The functions whose own names are passed on for some arguments. -/
lemma name_table : ∀ row ∈ table, (row.2.1 = .match_ → row.1 = "match") ∧
    (row.2.1 = .cidrMatch → row.1 = "cidrmatch") := by decide

lemma ofCall?_eq_some (h : ofCall? name n = some function) :
    (name, function, function.bounds) ∈ table ∧ function.bounds.1 ≤ n ∧
      function.bounds.2.all (n ≤ ·) = true := by
  rw [ofCall?] at h
  split at h
  · next f least most hrow =>
    obtain ⟨before, behind, htable, -⟩ := List.lookup_eq_some_iff.1 hrow
    have hmem : (name, f, least, most) ∈ table := by simp [htable]
    have hbounds : f.bounds = (least, most) := bounds_table _ hmem
    split at h
    · next hn =>
      cases h
      rw [Bool.and_eq_true, decide_eq_true_eq] at hn
      rw [hbounds]
      exact ⟨hmem, hn⟩
    · cases h
  · cases h

/-- A function that is known by its name has as many arguments as it takes, if it takes only so
many. -/
lemma eq_of_ofCall? {k : Nat} (h : ofCall? name n = some function)
    (hk : function.bounds = (k, some k)) : n = k := by
  obtain ⟨-, hleast, hmost⟩ := ofCall?_eq_some h
  rw [hk] at hleast hmost
  exact Nat.le_antisymm (of_decide_eq_true hmost) hleast

/-! ### The branches of a conditional -/

/-- The condition with an index and the value behind it. -/
def branchAt? {α : Type} (row : List α) (i : Nat) : Option (α × α) := do
  return (← row[2 * i]?, ← row[2 * i + 1]?)

/-- The branches in full are the arguments by twos. -/
lemma mapM_branchAt? {α : Type} (row : List α) :
    (List.range (row.length / 2)).mapM (branchAt? row) = some (branches row).1 := by
  fun_induction branches row with
  | case1 => simp
  | case2 => simp
  | case3 condition value rest later otherwise hlater ih =>
    rw [hlater] at ih
    have hhalf : (condition :: value :: rest).length / 2 = rest.length / 2 + 1 :=
      Nat.add_div_right _ Nat.two_pos
    have hsucc : branchAt? (condition :: value :: rest) ∘ Nat.succ = branchAt? rest := rfl
    have hzero : branchAt? (condition :: value :: rest) 0 = some (condition, value) := rfl
    rw [hhalf, List.range_succ_eq_map, List.mapM_cons, List.mapM_map, hsucc, hzero, ih]
    rfl

/-- The last argument, which is left behind the branches, if their number is odd. -/
def otherwiseAt? (row : List Expr) : Option Expr :=
  if row.length % 2 = 1 then row[row.length - 1]? else some .null

lemma otherwiseAt?_eq (row : List Expr) :
    otherwiseAt? row = some ((branches row).2.getD .null) := by
  fun_induction branches row with
  | case1 => rfl
  | case2 => rfl
  | case3 condition value rest later otherwise hlater ih =>
    rw [hlater] at ih
    have hparity : (condition :: value :: rest).length % 2 = rest.length % 2 :=
      Nat.add_mod_right _ 2
    rw [otherwiseAt?] at ih ⊢
    rw [hparity, ← ih]
    by_cases hodd : rest.length % 2 = 1
    · have hlast : (condition :: value :: rest).length - 1 = rest.length - 1 + 2 := by
        simp only [List.length_cons]
        omega
      rw [if_pos hodd, if_pos hodd, hlast]
      rfl
    · rw [if_neg hodd, if_neg hodd]

/-- Every argument is a condition, a value or what is left, in their order. -/
lemma flatMap_branches {α : Type} (row : List α) :
    (branches row).1.flatMap (fun branch => [branch.1, branch.2]) ++ (branches row).2.toList =
      row := by
  fun_induction branches row with
  | case1 => rfl
  | case2 => rfl
  | case3 condition value rest later otherwise hlater ih =>
    rw [hlater] at ih
    simpa using ih

/-! ### Calls -/

/-- The call of a function that is known by its name. Each argument is taken by its index, and where
there is no argument at an index there is no translation. -/
def toSqlAt? (d : Dialect) (function : EvalFunction) (args : List EvalExpr) (sql : List Expr) :
    Option Expr :=
  match function with
  | .if_ => do return d.conditional [(← sql[0]?, ← sql[1]?)] (← sql[2]?)
  | .case_ => do
    let taken ← (List.range (sql.length / 2)).mapM (branchAt? sql)
    return d.conditional taken (← otherwiseAt? sql)
  | .coalesce => some (.call "coalesce" sql)
  | .concat => some (d.concat sql)
  | .round => some (.call "round" sql)
  | .substr => some (d.substring sql)
  | .abs | .ceil | .floor | .sqrt | .exp | .log10 | .len | .lower | .upper | .trim | .ltrim
  | .rtrim => do return .call (← function.sqlName?) [← sql[0]?]
  | .pow => do return .call "pow" [← sql[0]?, ← sql[1]?]
  | .replace => do return .call "replace" [← sql[0]?, ← sql[1]?, ← sql[2]?]
  | .ln => do return d.naturalLog (← sql[0]?)
  | .toText => do return d.toText (← sql[0]?)
  | .toNumber => do return d.toNumber (← sql[0]?)
  | .now => some d.now
  | .isNull => do return .paren (.nullTest (← sql[0]?) false)
  | .isNotNull => do return .paren (.nullTest (← sql[0]?) true)
  | .match_ => do
    match patternOf? (← args[1]?) with
    | some pattern => return d.regexMatch (← sql[0]?) pattern
    | none => return .call "match" [← sql[0]?, ← sql[1]?]
  | .like => do return .paren (.binary .like (← sql[0]?) (← sql[1]?))
  | .cidrMatch => do
    match (textOf? (← args[0]?)).bind AddressRange.ofText? with
    | some range => return d.inRange (← sql[1]?) range
    | none => return .call "cidrmatch" [← sql[0]?, ← sql[1]?]
  | .address q => do return (answerOf? q (← args[0]?)).getD (d.ask q (← sql[0]?))

/-- No index is out of range where the function accepts the number of arguments. One case for each
way in which a function takes its arguments. -/
lemma toSqlAt?_of_ofCall? (d : Dialect) (h : ofCall? name args.length = some function)
    (hlength : sql.length = args.length) :
    function.toSqlAt? d args sql = some (EvalExpr.callToSql d name args sql) := by
  rw [EvalExpr.callToSql, h, Option.bind_some]
  cases function with
  | coalesce | concat | round | substr | now => rfl
  | if_ | replace =>
    obtain ⟨e, e', e'', rfl⟩ := List.length_eq_three.1 (hlength.trans (eq_of_ofCall? h rfl))
    rfl
  | pow | like =>
    obtain ⟨e, e', rfl⟩ := List.length_eq_two.1 (hlength.trans (eq_of_ofCall? h rfl))
    rfl
  | abs | ceil | floor | sqrt | exp | ln | log10 | len | lower | upper | trim | ltrim | rtrim
  | toText | toNumber | isNull | isNotNull =>
    obtain ⟨e, rfl⟩ := List.length_eq_one_iff.1 (hlength.trans (eq_of_ofCall? h rfl))
    rfl
  | address q =>
    obtain ⟨arg, rfl⟩ := List.length_eq_one_iff.1 (eq_of_ofCall? h rfl)
    obtain ⟨e, rfl⟩ := List.length_eq_one_iff.1 hlength
    rfl
  | case_ =>
    rw [toSqlAt?, mapM_branchAt?, otherwiseAt?_eq]
    rfl
  | match_ =>
    obtain ⟨a, pattern, rfl⟩ := List.length_eq_two.1 (eq_of_ofCall? h rfl)
    obtain ⟨e, e', rfl⟩ := List.length_eq_two.1 hlength
    obtain rfl : name = "match" := (name_table _ (ofCall?_eq_some h).1).1 rfl
    cases hpattern : patternOf? pattern with
    | none => simp [toSqlAt?, toSql?, hpattern]
    | some text => simp [toSqlAt?, toSql?, hpattern]
  | cidrMatch =>
    obtain ⟨block, a, rfl⟩ := List.length_eq_two.1 (eq_of_ofCall? h rfl)
    obtain ⟨e, e', rfl⟩ := List.length_eq_two.1 hlength
    obtain rfl : name = "cidrmatch" := (name_table _ (ofCall?_eq_some h).1).2 rfl
    cases hrange : (textOf? block).bind AddressRange.ofText? with
    | none => simp [toSqlAt?, toSql?, hrange]
    | some range => simp [toSqlAt?, toSql?, hrange]

lemma ofCall?_case (h : 2 ≤ n) : ofCall? "case" n = some .case_ := by
  have hrow : table.lookup "case" = some (.case_, 2, none) := by decide
  rw [ofCall?, hrow]
  simp [h]

end EvalFunction

namespace EvalExpr

/-- The call of a function, known or not, with a look at every index. -/
def callToSqlAt? (d : Dialect) (name : String) (args : List EvalExpr) (sql : List Expr) :
    Option Expr :=
  match EvalFunction.ofCall? name args.length with
  | none => some (.call name sql)
  | some function => function.toSqlAt? d args sql

mutual

/-- The expression in SQL, with a look at every index of an argument. -/
def toSqlAt? (d : Dialect) : EvalExpr → Option Expr
  | .literal value => some (.ofValue value)
  | .field name => some (.column (Column.ofField name))
  | .binary op left right => do
    return .paren (.binary (.ofBinary op) (← toSqlAt? d left) (← toSqlAt? d right))
  | .call function args => do callToSqlAt? d function args (← allToSqlAt? d args)

/-- The expressions in SQL, with a look at every index of an argument. -/
def allToSqlAt? (d : Dialect) : List EvalExpr → Option (List Expr)
  | [] => some []
  | e :: rest => do return (← toSqlAt? d e) :: (← allToSqlAt? d rest)

end

/-- A call finds each argument that it looks for. -/
lemma callToSqlAt?_eq (d : Dialect) (hlength : sql.length = args.length) :
    callToSqlAt? d name args sql = some (callToSql d name args sql) := by
  cases hknown : EvalFunction.ofCall? name args.length with
  | none => simp only [callToSqlAt?, callToSql, hknown, Option.bind_none, Option.getD_none]
  | some function =>
    rw [callToSqlAt?, hknown]
    exact EvalFunction.toSqlAt?_of_ofCall? d hknown hlength

lemma allToSqlAt?_eq (h : ∀ e ∈ args, e.toSqlAt? d = some (e.toSql d)) :
    allToSqlAt? d args = some (allToSql d args) := by
  induction args with
  | nil => rfl
  | cons e args ih =>
    obtain ⟨he, hargs⟩ := List.forall_mem_cons.1 h
    rw [allToSqlAt?, he, ih hargs]
    rfl

/-- The induction is on the expression. -/
lemma toSqlAt?_eq_some (d : Dialect) (e : EvalExpr) : e.toSqlAt? d = some (e.toSql d) := by
  induction e using EvalExpr.induction with
  | literal value => rfl
  | field name => rfl
  | binary op left right ihleft ihright =>
    rw [toSqlAt?, ihleft, ihright]
    rfl
  | call function args ih =>
    have hlength : (allToSql d args).length = args.length := by
      rw [allToSql_eq_map, List.length_map]
    rw [toSqlAt?, allToSqlAt?_eq ih]
    exact callToSqlAt?_eq d hlength

/-- A call that no function accepts is printed as it stands. -/
lemma render_call_of_ofCall?_none (d : Dialect)
    (h : EvalFunction.ofCall? name args.length = none) :
    ((EvalExpr.call name args).toSql d).render d =
      name ++ "(" ++ String.intercalate ", " (args.map fun a => (a.toSql d).render d) ++ ")" := by
  have hcall : (EvalExpr.call name args).toSql d = .call name (allToSql d args) := by
    rw [toSql, callToSql, h]
    rfl
  have hrender : (Expr.call name (allToSql d args)).render d =
      name ++ "(" ++ Expr.commas (Expr.renderAll d (allToSql d args)) ++ ")" := rfl
  rw [hcall, hrender, Expr.renderAll_eq_map, allToSql_eq_map, List.map_map]
  rfl

/-- The translation of an expression never takes an argument that is not there. This holds of the
call of every known function, whatever its arguments are in SQL; and of these a conditional uses
each one once, in their order. What is not known is printed with all its arguments. -/
theorem toSqlAt?_eq (d : Dialect) :
    (∀ e : EvalExpr, e.toSqlAt? d = some (e.toSql d)) ∧
    (∀ (name : String) (args : List EvalExpr) (function : EvalFunction),
      EvalFunction.ofCall? name args.length = some function →
        ∀ sql : List Expr, sql.length = args.length →
          function.toSqlAt? d args sql = some (callToSql d name args sql)) ∧
    (∀ (args : List EvalExpr) (sql : List Expr), 2 ≤ args.length → sql.length = args.length →
      EvalFunction.ofCall? "case" args.length = some .case_ ∧
        ∃ (taken : List (Expr × Expr)) (otherwise : Option Expr),
          taken.flatMap (fun branch => [branch.1, branch.2]) ++ otherwise.toList = sql ∧
            callToSql d "case" args sql = d.conditional taken (otherwise.getD .null)) ∧
    ∀ (name : String) (args : List EvalExpr), EvalFunction.ofCall? name args.length = none →
      ((EvalExpr.call name args).toSql d).render d =
        name ++ "(" ++ String.intercalate ", " (args.map fun a => (a.toSql d).render d) ++ ")" := by
  refine ⟨toSqlAt?_eq_some d, fun name args function h sql hlength => ?_,
    fun args sql hargs hlength => ?_, fun name args h => render_call_of_ofCall?_none d h⟩
  · exact EvalFunction.toSqlAt?_of_ofCall? d h hlength
  · have hcase := EvalFunction.ofCall?_case hargs
    refine ⟨hcase, (EvalFunction.branches sql).1, (EvalFunction.branches sql).2,
      EvalFunction.flatMap_branches sql, ?_⟩
    rw [callToSql, hcase]
    rfl

/-- A conditional with three arguments in both dialects, and a function that is not known. -/
theorem toSqlAt?_eq_case :
    let args : List EvalExpr := [.field "a", .field "b", .field "c"]
    let sql : List Expr := [.column "a", .column "b", .column "c"]
    (EvalExpr.call "case" args).toSqlAt? .sqlite =
        some (.caseWhen [(.column "a", .column "b")] (.column "c")) ∧
      (EvalExpr.call "case" args).toSqlAt? .clickHouse =
        some (.call "if" sql) ∧
      EvalFunction.case_.toSqlAt? .sqlite args sql = some (callToSql .sqlite "case" args sql) ∧
      (∃ (taken : List (Expr × Expr)) (otherwise : Option Expr),
        taken.flatMap (fun branch => [branch.1, branch.2]) ++ otherwise.toList = sql ∧
          callToSql .sqlite "case" args sql =
            Dialect.conditional .sqlite taken (otherwise.getD .null)) ∧
      ((EvalExpr.call "case" [.field "a"]).toSql .sqlite).render .sqlite = "case(a)" := by
  intro args sql
  obtain ⟨htree, hcall, hcase, hunknown⟩ := toSqlAt?_eq .sqlite
  have hrow : EvalFunction.ofCall? "case" args.length = some .case_ := by decide
  refine ⟨(htree (.call "case" args)).trans ?_,
    ((toSqlAt?_eq .clickHouse).1 (.call "case" args)).trans ?_,
    hcall "case" args .case_ hrow sql rfl, (hcase args sql (by decide) rfl).2,
    (hunknown "case" [.field "a"] (by decide)).trans ?_⟩
  · with_unfolding_all rfl
  · with_unfolding_all rfl
  · with_unfolding_all rfl

end EvalExpr

end LogQuery
