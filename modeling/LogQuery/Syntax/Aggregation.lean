import LogQuery.Text.Lowercase

namespace LogQuery

/-- A function that summarises the values of a field. -/
inductive AggregateFunction where
  | count | sum | avg | min | max | distinctCount | values | list | earliest | latest | first
  | last | median | mode | stddev | variance | range
  | percentile (percent : Nat)
  deriving DecidableEq, Repr

namespace AggregateFunction

/-- The functions without a parameter: the code in JSON, the name in results, and the names in
queries. -/
def named : List (AggregateFunction × String × String × List String) :=
  [(.count, "count", "count", ["count"]), (.sum, "sum", "sum", ["sum"]),
    (.avg, "avg", "avg", ["avg", "mean"]), (.min, "min", "min", ["min"]),
    (.max, "max", "max", ["max"]),
    (.distinctCount, "distinct_count", "dc", ["dc", "distinct_count"]),
    (.values, "values", "values", ["values"]), (.list, "list", "list", ["list"]),
    (.earliest, "earliest", "earliest", ["earliest"]), (.latest, "latest", "latest", ["latest"]),
    (.first, "first", "first", ["first"]), (.last, "last", "last", ["last"]),
    (.median, "median", "median", ["median"]), (.mode, "mode", "mode", ["mode"]),
    (.stddev, "stddev", "stddev", ["stddev", "stdev"]),
    (.variance, "variance", "variance", ["variance", "var"]), (.range, "range", "range", ["range"])]

/-- The percentage of a percentile's name: `p` and one or two digits, not zero. -/
def percentOf? (name : List Char) : Option Nat :=
  let value (ds : List Char) : Nat := ds.foldl (fun n d => 10 * n + (d.toNat - '0'.toNat)) 0
  match name with
  | 'p' :: digits =>
    if 0 < digits.length && digits.length ≤ 2 && digits.all Char.isDigit && value digits != 0
    then some (value digits) else none
  | _ => none

/-- The function of a name in a query, in any case of letters. -/
def ofName? (name : String) : Option AggregateFunction :=
  let lower := Text.lowercase name
  match named.find? fun (_, _, _, names) => names.contains lower with
  | some (f, _) => some f
  | none => (percentOf? lower.toList).map .percentile

def name : AggregateFunction → String
  | .percentile p => "p" ++ toString p
  | f => ((named.lookup f).map (·.2.1)).getD ""

/-- The code of a function without a parameter. -/
def code (f : AggregateFunction) : String := ((named.lookup f).map (·.1)).getD ""

/-- The function without a parameter that has a code. -/
def ofCode? (code : String) : Option AggregateFunction :=
  (named.find? fun (_, c, _) => c == code).map (·.1)

end AggregateFunction

/-- One aggregation: the function, the field it summarises, of which only a count may have none,
and the name asked for its result. -/
structure Aggregation where
  function : AggregateFunction
  field : Option String
  output : Option String
  deriving DecidableEq, Repr

namespace Aggregation

/-- A field's name as part of another name: every character but ASCII letters and digits becomes
an underscore, and none is left in front. -/
def nameStem (field : String) : String :=
  String.ofList ((field.toList.map fun c => if c.isAlphanum then c else '_').dropWhile (· = '_'))

/-- The name of the result: the one asked for, or one made of the function and the field. -/
def outputName (a : Aggregation) : String :=
  match a.output, a.field with
  | some name, _ => name
  | none, none => a.function.name
  | none, some field => a.function.name ++ "_" ++ nameStem field

end Aggregation

end LogQuery
