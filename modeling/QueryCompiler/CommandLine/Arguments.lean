import QueryCompiler.Dialect
import QueryCompiler.Terminal.Message

/-! # `QueryCompiler.CommandLine.Arguments` — the arguments of the command

Arguments are judged in order.  An option's value that stands in an argument of its own is looked at
when the next known argument comes, so an unknown argument right behind it is reported instead.
-/

namespace QueryCompiler.CommandLine

inductive ArgumentError where
  | unexpected (argument : String)
  | valueRequired (option : String)
  | invalidDialect (value : String)
  | repeated (option : String)
  | unexpectedValue (value option : String)
deriving DecidableEq, Repr

/-- How the dialect's option is written. -/
def dialectOption : String := "--dialect <DIALECT>"

def ArgumentError.message : ArgumentError → Terminal.Message
  | .unexpected argument =>
    [.plain "unexpected argument '", .marked .fault argument, .plain "' found"]
  | .valueRequired option =>
    [.plain "a value is required for '", .marked .fault option, .plain "' but none was supplied"]
  | .invalidDialect value =>
    [.plain "invalid value '", .marked .fault value, .plain "' for '",
      .marked .literal dialectOption, .plain ("': " ++ Dialect.unknownMessage value)]
  | .repeated option =>
    [.plain "the argument '", .marked .fault option, .plain "' cannot be used multiple times"]
  | .unexpectedValue value option =>
    [.plain "unexpected value '", .marked .fault value, .plain "' for '", .marked .literal option,
      .plain "' found; no more were expected"]

/-- The report of an error, with a line on where to find help. -/
def ArgumentError.report (e : ArgumentError) : Terminal.Message :=
  [.marked .alarm "error:", .plain " "] ++ e.message ++
    [.plain "\n\nFor more information, try '", .marked .literal "--help", .plain "'.\n"]

/-- Why the arguments lead to no compilation. -/
inductive Stop where
  | error (error : ArgumentError)
  | version
  | help

/-- An argument whose value has not been looked at. -/
inductive Pending where
  /-- The dialect's option, and its value once it has come. -/
  | dialect (value : Option String)
  | plan (path : String)

/-- What the arguments so far say. -/
structure Arguments where
  dialect : Option Dialect := none
  json : Bool := false
  verbose : Bool := false
  plan : Option String := none
  /-- There has been a path, looked at or not. -/
  hasPath : Bool := false
  pending : Option Pending := none

namespace Arguments

/-- Takes the dialect, which may be given once. -/
def setDialect (args : Arguments) (value : String) : Except Stop Arguments :=
  if args.dialect.isSome then
    .error (.error (.repeated dialectOption))
  else
    match Dialect.ofName? value with
    | some d => .ok { args with dialect := some d }
    | none => .error (.error (.invalidDialect value))

/-- Looks at the pending value. -/
def settle (args : Arguments) : Except Stop Arguments :=
  let settled := { args with pending := none }
  match args.pending with
  | none => .ok settled
  | some (.dialect none) => .error (.error (.valueRequired dialectOption))
  | some (.dialect (some value)) => settled.setDialect value
  | some (.plan path) =>
    if path.isEmpty then .error (.error (.valueRequired "[PLAN]"))
    else .ok { settled with plan := some path }

/-- The options without a value. -/
inductive Flag where
  | json
  | verbose
  | help
  | version
deriving DecidableEq, Repr

def Flag.name : Flag → String
  | .json => "--json"
  | .verbose => "--verbose"
  | .help => "--help"
  | .version => "--version"

/-- Takes a flag, which may be given once. -/
def setFlag (args : Arguments) (flag : Flag) : Except Stop Arguments := do
  let args ← args.settle
  match flag with
  | .json =>
    if args.json then .error (.error (.repeated flag.name))
    else .ok { args with json := true }
  | .verbose =>
    if args.verbose then .error (.error (.repeated flag.name))
    else .ok { args with verbose := true }
  | .help => .error .help
  | .version => .error .version

/-- Takes the dialect's option, with its value in the same argument or not. -/
def dialectArgument (args : Arguments) (value : Option String) : Except Stop Arguments := do
  let args ← args.settle
  match value with
  | some value => args.setDialect value
  | none => .ok { args with pending := some (.dialect none) }

/-- Takes a path, of which there is at most one. -/
def pathArgument (args : Arguments) (path : String) : Except Stop Arguments :=
  if args.hasPath then
    .error (.error (.unexpected path))
  else do
    let args ← args.settle
    .ok { args with hasPath := true, pending := some (.plan path) }

def longFlag? : String → Option Flag
  | "json" => some .json
  | "verbose" => some .verbose
  | "help" => some .help
  | "version" => some .version
  | _ => none

/-- An argument that starts with two dashes, by its name and its value if it has one. -/
def longArgument (args : Arguments) (name : String) (value : Option String) :
    Except Stop Arguments :=
  if name = "dialect" then
    args.dialectArgument value
  else
    match longFlag? name, value with
    | none, _ => .error (.error (.unexpected ("--" ++ name)))
    | some flag, some value => .error (.error (.unexpectedValue value flag.name))
    | some flag, none => args.setFlag flag

def shortFlag? : Char → Option Flag
  | 'v' => some .verbose
  | 'h' => some .help
  | 'V' => some .version
  | _ => none

/-- The value behind the letter of an option: an equals sign in between is dropped. -/
def attachedValue : List Char → Option String
  | [] => none
  | '=' :: cs => some (String.ofList cs)
  | cs => some (String.ofList cs)

/-- The letters of an argument that starts with one dash. -/
def shortArgument (args : Arguments) : List Char → Except Stop Arguments
  | [] => .ok args
  | c :: cs =>
    if c = 'd' then
      args.dialectArgument (attachedValue cs)
    else
      match shortFlag? c with
      | none => .error (.error (.unexpected ("-" ++ c.toString)))
      | some flag => do
        let args ← args.setFlag flag
        args.shortArgument cs

/-- The parts of an argument before and behind its first equals sign. -/
def splitAtEquals (cs : List Char) : String × Option String :=
  match cs.span (· ≠ '=') with
  | (name, []) => (String.ofList name, none)
  | (name, _ :: value) => (String.ofList name, some (String.ofList value))

/-- An argument that is no option: the value that an option waits for, or a path. -/
def plainArgument (args : Arguments) (argument : String) : Except Stop Arguments :=
  match args.pending with
  | some (.dialect none) => .ok { args with pending := some (.dialect (some argument)) }
  | _ => args.pathArgument argument

def argument (args : Arguments) (arg : String) : Except Stop Arguments :=
  match arg.toList with
  | '-' :: '-' :: cs =>
    let (name, value) := splitAtEquals cs
    args.longArgument name value
  | '-' :: c :: cs => args.shortArgument (c :: cs)
  | _ => args.plainArgument arg

/-- All arguments; behind two dashes that stand alone there are only paths. -/
def read (args : Arguments) : List String → Except Stop Arguments
  | [] => .ok args
  | "--" :: paths => paths.foldlM pathArgument args
  | arg :: rest => do
    let args ← args.argument arg
    args.read rest

end Arguments

/-- What to do. -/
structure Options where
  dialect : Dialect
  json : Bool
  plan : Option String

/-- The options that arguments and environment amount to: an argument wins over the environment. -/
def options (args : List String) (environment : Option String) : Except Stop Options := do
  let args ← Arguments.read {} args
  let args ← args.settle
  let args ← match args.dialect, environment with
    | none, some name => args.setDialect name
    | _, _ => .ok args
  return ⟨args.dialect.getD .generic, args.json, args.plan⟩

end QueryCompiler.CommandLine
