import LogQuery.Address.Class

namespace LogQuery

inductive EvalFunction where
  | if_ | case_ | coalesce | concat
  | round | abs | ceil | floor | sqrt | pow | exp | ln | log10
  | len | lower | upper | substr | trim | ltrim | rtrim | replace
  | toText | toNumber | now
  | isNull | isNotNull | match_ | like
  | cidrMatch
  | address (question : AddressQuestion)
  deriving DecidableEq, Repr

namespace EvalFunction

/-- The names of functions with the least and the largest number of arguments. -/
def table : List (String × EvalFunction × Nat × Option Nat) :=
  [("if", .if_, 3, some 3), ("case", .case_, 2, none), ("coalesce", .coalesce, 1, none),
    ("concat", .concat, 1, none), ("round", .round, 1, some 2), ("abs", .abs, 1, some 1),
    ("ceil", .ceil, 1, some 1), ("ceiling", .ceil, 1, some 1), ("floor", .floor, 1, some 1),
    ("sqrt", .sqrt, 1, some 1), ("pow", .pow, 2, some 2), ("exp", .exp, 1, some 1),
    ("ln", .ln, 1, some 1), ("log10", .log10, 1, some 1), ("len", .len, 1, some 1),
    ("lower", .lower, 1, some 1), ("upper", .upper, 1, some 1), ("substr", .substr, 2, some 3),
    ("trim", .trim, 1, some 1), ("ltrim", .ltrim, 1, some 1), ("rtrim", .rtrim, 1, some 1),
    ("replace", .replace, 3, some 3), ("tostring", .toText, 1, some 1),
    ("tonumber", .toNumber, 1, some 1), ("now", .now, 0, some 0), ("isnull", .isNull, 1, some 1),
    ("isnotnull", .isNotNull, 1, some 1), ("match", .match_, 2, some 2),
    ("like", .like, 2, some 2), ("cidrmatch", .cidrMatch, 2, some 2)]
    ++ AddressQuestion.all.map fun q => (q.name, .address q, 1, some 1)

/-- The function of a name in lower case that accepts a number of arguments. -/
def ofCall? (name : String) (arity : Nat) : Option EvalFunction :=
  match table.lookup name with
  | some (function, least, most) =>
    if least ≤ arity && most.all (arity ≤ ·) then some function else none
  | none => none

/-- The function of SQL that does the same, where both dialects have it. -/
def sqlName? : EvalFunction → Option String
  | .coalesce => some "coalesce"
  | .round => some "round"
  | .abs => some "abs"
  | .ceil => some "ceil"
  | .floor => some "floor"
  | .sqrt => some "sqrt"
  | .pow => some "pow"
  | .exp => some "exp"
  | .log10 => some "log10"
  | .len => some "length"
  | .lower => some "lower"
  | .upper => some "upper"
  | .trim => some "trim"
  | .ltrim => some "ltrim"
  | .rtrim => some "rtrim"
  | .replace => some "replace"
  | _ => none

end EvalFunction

end LogQuery
