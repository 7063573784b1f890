import LogQuery.Compile.Stage
import LogQuery.Config
import LogQuery.Time.Bound

namespace LogQuery

namespace Pipeline

def draft (p : Pipeline) (target : Target) (filter : List Sql.Expr) : Draft :=
  p.stages.foldl (Stage.apply target) (.start filter)

/-- The statement of a pipeline, with conditions in front of its own. -/
def statement (p : Pipeline) (target : Target) (defaultLimit : Nat) (filter : List Sql.Expr) :
    Statement :=
  (p.draft target filter).finish target.table defaultLimit

end Pipeline

/-- The rows from one time on and up to another, as conditions. -/
def TimeBound.conditions (d : Dialect) (earliest latest : Option TimeBound) : List Sql.Expr :=
  (earliest.map fun b => .binary .gtEq (.column Column.timestamp) (b.toSql d)).toList
    ++ (latest.map fun b => .binary .ltEq (.column Column.timestamp) (b.toSql d)).toList

/-- The bound that a text writes, if there is a text. -/
def TimeBound.ofText? [Libraries] (text : Option String) :
    Except TimeBoundError (Option TimeBound) :=
  match text with
  | none => .ok none
  | some text => (ofText text).map some

/-- The text of the statement of a pipeline between two bounds of time. -/
def Pipeline.compile [Libraries] (p : Pipeline) (target : Target) (defaultLimit : Nat)
    (earliest latest : Option String) : Except TimeBoundError String := do
  let earliest ← TimeBound.ofText? earliest
  let latest ← TimeBound.ofText? latest
  let filter := TimeBound.conditions target.dialect earliest latest
  return (p.statement target defaultLimit filter).render target.dialect

inductive CompileError where
  | query (error : QueryError)
  | timeBound (error : TimeBoundError)
  deriving DecidableEq, Repr

def CompileError.message : CompileError → String
  | .query e => e.message
  | .timeBound e => e.message

/-- How the making of a statement ends. -/
inductive Outcome where
  | statement (sql : String)
  | refused (error : CompileError)
  /-- A pattern has to be taken apart and cannot be: there is neither a statement nor an error. -/
  | brokenDown
  deriving DecidableEq, Repr

namespace Pipeline

/-- The dialect takes patterns apart to extract their groups, and some stage has one that cannot be
taken apart. -/
def breaksDown (p : Pipeline) (d : Dialect) : Bool :=
  d = .clickHouse && p.stages.any Stage.isEntangled

/-- How the making of a pipeline's statement ends. The bounds of time are read first. -/
def outcome [Libraries] (p : Pipeline) (target : Target) (defaultLimit : Nat)
    (earliest latest : Option String) : Outcome :=
  match p.compile target defaultLimit earliest latest with
  | .error e => .refused (.timeBound e)
  | .ok sql => if p.breaksDown target.dialect then .brokenDown else .statement sql

end Pipeline

namespace Config

/-- Where the statements of a dialect run. -/
def target (c : Config) (d : Dialect) : Target := ⟨d, c.table d⟩

/-- The text of the statement of a query between two bounds of time. -/
def compile [Libraries] (c : Config) (query : String) (d : Dialect)
    (earliest latest : Option String) :
    Except CompileError String :=
  match parseQuery c.parserLimits query with
  | .error e => .error (.query e)
  | .ok p =>
    match p.compile (c.target d) c.defaultLimit earliest latest with
    | .error e => .error (.timeBound e)
    | .ok sql => .ok sql

/-- How the making of a query's statement ends. -/
def outcome [Libraries] (c : Config) (query : String) (d : Dialect)
    (earliest latest : Option String) :
    Outcome :=
  match parseQuery c.parserLimits query with
  | .error e => .refused (.query e)
  | .ok p => p.outcome (c.target d) c.defaultLimit earliest latest

/-- Checks that a query has a statement in a dialect, or says why not. -/
def checkQuery [Libraries] (c : Config) (query : String) (d : Dialect) : Except String Unit :=
  match c.compile query d none none with
  | .error e => .error e.message
  | .ok _ => .ok ()

end Config

end LogQuery
