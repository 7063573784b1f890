import LogQuery.Sql.Dialect

/-!
# Arguments of the command line

The first argument that is no option names a command, and the rest belongs to the command: options
and one query, in any order. An option is a flag, or takes a value, which is attached to it by an
equals sign, or directly to its letter, or is the next argument. An option stands at most once.
Behind `--` no argument is an option.
-/

namespace LogQuery.CommandLine

/-- What the program can be asked to do with a query. -/
inductive Command where
  | compile | ast | validate | tokens
  deriving DecidableEq, Repr

inductive Flag where
  /-- Prints the compiled query as JSON. -/
  | json
  /-- Writes messages about the run as JSON. -/
  | jsonLogs
  deriving DecidableEq, Repr

inductive Parameter where
  | dialect | earliest | latest
  deriving DecidableEq, Repr

inductive OptionKind where
  | flag (flag : Flag)
  | parameter (parameter : Parameter)
  | help
  | version
  deriving DecidableEq, Repr

namespace Command

def names : List (String × Command) :=
  [("compile", .compile), ("ast", .ast), ("validate", .validate), ("tokens", .tokens)]

def ofName? (name : String) : Option Command := names.lookup name

/-- The command writes SQL in a dialect. -/
def takesDialect : Command → Bool
  | .compile | .validate => true
  | .ast | .tokens => false

/-- The options of a command, by the ways to write them. -/
def options (c : Command) : List (String × OptionKind) :=
  [("--json-logs", .flag .jsonLogs), ("--help", .help), ("-h", .help)]
    ++ (if c.takesDialect then
          [("--dialect", .parameter .dialect), ("-d", .parameter .dialect)] else [])
    ++ (if c = .compile then
          [("--earliest", .parameter .earliest), ("--latest", .parameter .latest),
            ("--json", .flag .json)] else [])

end Command

def generalOptions : List (String × OptionKind) :=
  [("--json-logs", .flag .jsonLogs), ("--help", .help), ("-h", .help), ("--version", .version),
    ("-V", .version)]

/-- A value of the parameter may begin with a hyphen. -/
def Parameter.allowsHyphen : Parameter → Bool
  | .dialect => false
  | .earliest | .latest => true

/-- Why reading arguments ends early. -/
inductive Stop where
  /-- The arguments ask for nothing that the program does. -/
  | usage
  | help
  | version
  deriving DecidableEq, Repr

/-- The arguments of a command read so far. -/
structure Arguments where
  flags : List Flag
  values : List (Parameter × String)
  query : Option String
  deriving DecidableEq, Repr

namespace Arguments

def empty : Arguments := ⟨[], [], none⟩

def addFlag (a : Arguments) (f : Flag) : Except Stop Arguments :=
  if a.flags.contains f then .error .usage else .ok { a with flags := f :: a.flags }

/-- Adds the value of a parameter that has none yet. -/
def addValue (a : Arguments) (p : Parameter) (value : String) : Except Stop Arguments :=
  if (a.values.lookup p).isSome then .error .usage
  else .ok { a with values := (p, value) :: a.values }

def addQuery (a : Arguments) (text : String) : Except Stop Arguments :=
  if a.query.isSome then .error .usage else .ok { a with query := some text }

end Arguments

/-- The argument is written like an option. A hyphen alone is not. -/
def looksLikeOption (arg : String) : Bool := arg.startsWith "-" && arg ≠ "-"

/-- An option as it is written: its name with its hyphens, and the value attached to it. -/
def splitOption (arg : String) : String × Option String :=
  match arg.toList with
  | '-' :: '-' :: rest =>
    let name := String.ofList ('-' :: '-' :: rest.takeWhile (· != '='))
    match rest.dropWhile (· != '=') with
    | [] => (name, none)
    | _ :: value => (name, some (String.ofList value))
  | '-' :: letter :: rest =>
    let value :=
      match rest with
      | [] => none
      | '=' :: value => some (String.ofList value)
      | value => some (String.ofList value)
    (String.ofList ['-', letter], value)
  | _ => (arg, none)

/-- What an option without a value leads to: behind a name of two hyphens no value may be
attached. -/
def withoutValue {α : Type} (name : String) (attached : Option String) (result : Except Stop α) :
    Except Stop α :=
  if name.startsWith "--" && attached.isSome then .error .usage else result

def readArguments (options : List (String × OptionKind)) (got : Arguments) :
    List String → Except Stop Arguments
  | [] => .ok got
  | arg :: rest =>
    if arg = "--" then rest.foldlM Arguments.addQuery got
    else if looksLikeOption arg then
      let (name, attached) := splitOption arg
      match options.lookup name with
      | none => .error .usage
      | some .help => withoutValue name attached (.error .help)
      | some .version => withoutValue name attached (.error .version)
      | some (.flag f) =>
        if attached.isSome then .error .usage
        else do readArguments options (← got.addFlag f) rest
      | some (.parameter p) =>
        match attached, rest with
        | some value, rest => do readArguments options (← got.addValue p value) rest
        | none, value :: rest =>
          if looksLikeOption value && !p.allowsHyphen then .error .usage
          else do readArguments options (← got.addValue p value) rest
        | none, [] => .error .usage
    else do readArguments options (← got.addQuery arg) rest

def readCommand (jsonLogs : Bool) : List String → Except Stop (Command × Arguments)
  | [] => .error .usage
  | arg :: rest =>
    if looksLikeOption arg then
      let (name, attached) := splitOption arg
      match generalOptions.lookup name with
      | some (.flag .jsonLogs) =>
        if attached.isSome || jsonLogs then .error .usage else readCommand true rest
      | some .help => withoutValue name attached (.error .help)
      | some .version => withoutValue name attached (.error .version)
      | _ => .error .usage
    else
      match Command.ofName? arg with
      | some command => do
        return (command, ← readArguments command.options .empty rest)
      | none => if arg = "help" then .error .help else .error .usage

end LogQuery.CommandLine
