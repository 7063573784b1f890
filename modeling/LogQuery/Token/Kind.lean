import LogQuery.Text.Lowercase

namespace LogQuery

/-- The words that begin a stage. -/
inductive Command where
  | search | filter | where_ | stats | sort | limit | head | tail | dedup | table | fields
  | rename | eval | top | rare | bin | timechart | rex
  deriving DecidableEq, Repr, Inhabited

/-- The words that join the parts of a stage. -/
inductive Clause where
  | by_ | as_ | and_ | or_ | not_ | asc | desc | in_
  deriving DecidableEq, Repr

/-- The aggregations that have a word of their own. -/
inductive AggregateWord where
  | count | sum | avg | min | max | dc | values | earliest | latest
  deriving DecidableEq, Repr

inductive Symbol where
  | eq | notEq | lt | ltEq | gt | gtEq | tilde
  | plus | minus | star | slash
  | pipe | comma | lParen | rParen
  deriving DecidableEq, Repr

/-- The kind of a token. -/
inductive TokenKind where
  | command (word : Command)
  | clause (word : Clause)
  | aggregate (word : AggregateWord)
  | symbol (sign : Symbol)
  | identifier
  | string
  | number
  | regex
  | eof
  deriving DecidableEq, Repr, Inhabited

namespace TokenKind

/-- The words with a meaning of their own, in lower case. One command has two words. -/
def keywords : List (String × TokenKind) :=
  [("search", .command .search), ("filter", .command .filter), ("where", .command .where_),
    ("stats", .command .stats), ("sort", .command .sort), ("limit", .command .limit),
    ("head", .command .head), ("tail", .command .tail), ("dedup", .command .dedup),
    ("table", .command .table), ("fields", .command .fields), ("rename", .command .rename),
    ("eval", .command .eval), ("top", .command .top), ("rare", .command .rare),
    ("bin", .command .bin), ("bucket", .command .bin), ("timechart", .command .timechart),
    ("rex", .command .rex), ("by", .clause .by_), ("as", .clause .as_), ("and", .clause .and_),
    ("or", .clause .or_), ("not", .clause .not_), ("asc", .clause .asc),
    ("desc", .clause .desc), ("in", .clause .in_), ("count", .aggregate .count),
    ("sum", .aggregate .sum), ("avg", .aggregate .avg), ("min", .aggregate .min),
    ("max", .aggregate .max), ("dc", .aggregate .dc), ("values", .aggregate .values),
    ("earliest", .aggregate .earliest), ("latest", .aggregate .latest)]

/-- The kind of a word that has a meaning of its own, in any case of letters. -/
def ofKeyword? (word : String) : Option TokenKind :=
  (keywords.find? (·.1 == Text.lowercase word)).map (·.2)

def isCommand : TokenKind → Bool
  | .command _ => true
  | _ => false

def isAggregate : TokenKind → Bool
  | .aggregate _ => true
  | _ => false

def isKeyword : TokenKind → Bool
  | .command _ | .clause _ | .aggregate _ => true
  | _ => false

/-- Any word: wherever a field is expected, a word with a meaning of its own names one too. -/
def isWord (k : TokenKind) : Bool := k == .identifier || k.isKeyword

/-- After a token of this kind a slash divides and a minus subtracts; otherwise the slash opens
a regular expression, and the minus may belong to a number. -/
def endsOperand : TokenKind → Bool
  | .identifier | .number | .symbol .rParen | .aggregate _ => true
  | _ => false

/-- The kinds other than the words with a meaning, with their names in token listings and their
descriptions in messages. -/
def plainKinds : List (TokenKind × String × String) :=
  [(.symbol .eq, "Eq", "'='"), (.symbol .notEq, "NotEq", "'!='"), (.symbol .lt, "Lt", "'<'"),
    (.symbol .ltEq, "LtEq", "'<='"), (.symbol .gt, "Gt", "'>'"), (.symbol .gtEq, "GtEq", "'>='"),
    (.symbol .tilde, "Tilde", "'~'"), (.symbol .plus, "Plus", "'+'"),
    (.symbol .minus, "Minus", "'-'"), (.symbol .star, "Star", "'*'"),
    (.symbol .slash, "Slash", "'/'"), (.symbol .pipe, "Pipe", "'|'"),
    (.symbol .comma, "Comma", "','"), (.symbol .lParen, "LParen", "'('"),
    (.symbol .rParen, "RParen", "')'"), (.identifier, "Identifier", "identifier"),
    (.string, "String", "string"), (.number, "Number", "number"),
    (.regex, "Regex", "regular expression"), (.eof, "Eof", "end of query")]

/-- The word that a keyword kind is named after. -/
def keyword? (k : TokenKind) : Option String := (keywords.find? (·.2 == k)).map (·.1)

/-- The name of the kind in token listings. -/
def label (k : TokenKind) : String :=
  match plainKinds.lookup k with
  | some (name, _) => name
  | none => (k.keyword?.getD "").capitalize

def description (k : TokenKind) : String :=
  match plainKinds.lookup k with
  | some (_, text) => text
  | none => "'" ++ (k.keyword?.getD "").toUpper ++ "'"

/-- The name of the kind in JSON: its label in capitals, its words joined by underscores. -/
def code (k : TokenKind) : String :=
  match k.label.toList with
  | [] => ""
  | c :: rest =>
    String.ofList (c.toUpper ::
      rest.flatMap fun c => if c.isUpper then ['_', c] else [c.toUpper])

def all : List TokenKind := keywords.map (·.2) ++ plainKinds.map (·.1)

def ofCode? (name : String) : Option TokenKind := all.find? (·.code == name)

end TokenKind

end LogQuery
