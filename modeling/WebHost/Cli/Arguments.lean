import WebHost.Text.Cut

/-!
# Command lines

A command line names a directory and sets options. A value follows its option as the next argument,
after an equals sign, or right after a one-letter option. Arguments are read from left to right, and
the first fault or the first request for help or for the version decides.
-/

set_option autoImplicit false

namespace WebHost

/-- The access logs that can be chosen. -/
inductive AccessLogChoice where
  | generic
  | common
  | none
  deriving DecidableEq, Repr

/-- The access log that a value chooses. -/
def AccessLogChoice.ofText? : String → Option AccessLogChoice
  | "generic" => some .generic
  | "clf" => some .common
  | "none" => some .none
  | _ => Option.none

/-- The options that take a value. -/
inductive Flag where
  | port
  | config
  | name
  | certificate
  | key
  | roots
  | accessLog
  deriving DecidableEq, Repr

namespace Flag

/-- All options that take a value. -/
def all : List Flag := [.port, .config, .name, .certificate, .key, .roots, .accessLog]

/-- The long name of an option. -/
def long : Flag → String
  | .port => "port"
  | .config => "config"
  | .name => "name"
  | .certificate => "tls-cert"
  | .key => "tls-key"
  | .roots => "tls-ca"
  | .accessLog => "access-log"

/-- The letter of an option that has one. -/
def letter? : Flag → Option Char
  | .port => some 'p'
  | _ => none

/-- The option with a long name. -/
def ofLong? (name : List Char) : Option Flag := all.find? (·.long.toList = name)

/-- The option with a letter. -/
def ofLetter? (c : Char) : Option Flag := all.find? (·.letter? = some c)

/-- Whether an option takes a value. Paths are never empty, and access logs have names. -/
def accepts (f : Flag) (value : String) : Bool :=
  match f with
  | .port | .name => true
  | .config | .certificate | .key | .roots => !value.isEmpty
  | .accessLog => (AccessLogChoice.ofText? value).isSome

end Flag

/-- What is wrong with a command line. -/
inductive UsageError where
  | unexpectedArgument (argument : String)
  | missingValue (flag : Flag)
  | invalidValue (value : String)
  | repeated (flag : Flag)
  /-- An option was given without another one that it needs. -/
  | missingPartner (needed : Flag)
  deriving DecidableEq, Repr

/-- A fault of a command line in words. -/
def UsageError.message : UsageError → String
  | .unexpectedArgument argument => "unexpected argument " ++ argument ++ " found"
  | .missingValue flag => "a value is required for --" ++ flag.long ++ " but none was supplied"
  | .invalidValue value => "invalid value " ++ value
  | .repeated flag => "the argument --" ++ flag.long ++ " cannot be used multiple times"
  | .missingPartner needed =>
    "the following required arguments were not provided: --" ++ needed.long

/-- What a command line sets. -/
structure CommandLine where
  values : List (Flag × String) := []
  directory : Option String := none
  deriving DecidableEq, Repr

/-- What a command line asks for. -/
inductive Invocation where
  | help
  | version
  | faulty (error : UsageError)
  | run (line : CommandLine)
  deriving DecidableEq, Repr

namespace CommandLine

/-- The value of an option. -/
def value? (c : CommandLine) (f : Flag) : Option String :=
  (c.values.find? (·.1 = f)).map (·.2)

/-- The directory to serve, which is the current one if none is named. -/
def directoryOrHere (c : CommandLine) : String := c.directory.getD "./"

/-- The access log that is chosen. -/
def accessLog (c : CommandLine) : AccessLogChoice :=
  ((c.value? .accessLog).bind AccessLogChoice.ofText?).getD .generic

/-- Sets an option, which may be done once. -/
def set (c : CommandLine) (f : Flag) (value : String) : Except Invocation CommandLine :=
  if (c.value? f).isSome then .error (.faulty (.repeated f))
  else if f.accepts value then .ok { c with values := c.values ++ [(f, value)] }
  else .error (.faulty (.invalidValue value))

/-- Names the directory, which may be done once. -/
def place (c : CommandLine) (path : String) : Except Invocation CommandLine :=
  if c.directory.isSome then .error (.faulty (.unexpectedArgument path))
  else if path.isEmpty then .error (.faulty (.invalidValue path))
  else .ok { c with directory := some path }

/-- One argument as it is read. -/
inductive Word where
  /-- Two dashes; only paths follow. -/
  | escape
  /-- A request for help or for the version. -/
  | request (invocation : Invocation)
  /-- An option without its value. -/
  | option (flag : Flag)
  /-- An option with its value. -/
  | setting (flag : Flag) (value : String)
  | path (text : String)
  | unknown

/-- Reads a long option. -/
def readLong (text : List Char) : Word :=
  let (name, value) :=
    match Text.cutFirst '=' text with
    | some (name, value) => (name, some (String.ofList value))
    | none => (text, none)
  match Flag.ofLong? name, value with
  | some flag, some value => .setting flag value
  | some flag, none => .option flag
  | none, some _ => .unknown
  | none, none =>
    if name = "help".toList then .request .help
    else if name = "version".toList then .request .version
    else .unknown

/-- Reads a one-letter option with what follows it in the argument. -/
def readShort (letter : Char) (rest : List Char) : Word :=
  match Flag.ofLetter? letter, rest with
  | some flag, [] => .option flag
  | some flag, '=' :: value => .setting flag (String.ofList value)
  | some flag, value => .setting flag (String.ofList value)
  | none, _ =>
    if letter = 'h' then .request .help
    else if letter = 'V' then .request .version
    else .unknown

/-- Reads an argument. A dash alone is a path. -/
def readWord (text : String) : Word :=
  match text.toList with
  | ['-', '-'] => .escape
  | '-' :: '-' :: rest => readLong rest
  | '-' :: letter :: rest => readShort letter rest
  | _ => .path text

/-- Whether an argument can be the value of the option before it. -/
def isValue (text : String) : Bool :=
  match readWord text with
  | .path _ => true
  | _ => false

/-- Reads arguments that are all paths. -/
def readPaths (c : CommandLine) (arguments : List String) : Except Invocation CommandLine :=
  arguments.foldlM place c

/-- Reads arguments from left to right. -/
def read (c : CommandLine) : List String → Except Invocation CommandLine
  | [] => .ok c
  | text :: rest =>
    match readWord text with
    | .escape => c.readPaths rest
    | .request invocation => .error invocation
    | .setting flag value => do read (← c.set flag value) rest
    | .path path => do read (← c.place path) rest
    | .unknown => .error (.faulty (.unexpectedArgument text))
    | .option flag =>
      match rest with
      | [] => .error (.faulty (.missingValue flag))
      | value :: rest =>
        if isValue value then do read (← c.set flag value) rest
        else .error (.faulty (.missingValue flag))

/-- A certificate needs its key and a key its certificate. -/
def missingPartner? (c : CommandLine) : Option Flag :=
  match c.value? .certificate, c.value? .key with
  | some _, none => some .key
  | none, some _ => some .certificate
  | _, _ => none

end CommandLine

/-- What the arguments of a command line ask for. -/
def Invocation.of (arguments : List String) : Invocation :=
  match ({} : CommandLine).read arguments with
  | .error invocation => invocation
  | .ok line =>
    match line.missingPartner? with
    | some needed => .faulty (.missingPartner needed)
    | none => .run line

end WebHost
