import StackDebugger.Files
import StackDebugger.Text.Basic

/-!
# Command line options

Arguments are read from left to right.  A value that follows its option, and
the program itself, are checked only when the next argument is understood or
the arguments end; an argument that is not understood is therefore reported
before a value that is wrong.
-/

namespace StackDebugger

/-- How much is logged. -/
inductive LogLevel where
  | error
  | warn
  | info
  | debug
  | trace
  deriving DecidableEq, Repr

namespace LogLevel

/-- Every level, from the least to the most. -/
def all : List LogLevel :=
  [.error, .warn, .info, .debug, .trace]

/-- The name of a level. -/
def name : LogLevel → String
  | .error => "error"
  | .warn => "warn"
  | .info => "info"
  | .debug => "debug"
  | .trace => "trace"

/-- The level that a word gives, by its number from one on or by its name in
letters of either case. -/
def ofWord? (word : String) : Option LogLevel :=
  let numbered := match Decimal.size? word.toList with
    | some (position + 1) => all[position]?
    | _ => none
  match numbered with
  | some level => some level
  | none => all.find? fun level => level.name == String.ofList (word.toList.map Char.toLower)

end LogLevel

/-- What the command line asks for. -/
structure Options where
  program : Option String := none
  debug : Bool := false
  /-- Serve a debug client instead of running a program. -/
  adapter : Bool := false
  source : Option String := none
  level : LogLevel := .warn
  deriving DecidableEq, Repr

/-- Why the arguments ask for nothing that can be done. -/
inductive UsageError where
  | unknownArgument
  /-- Two arguments exclude each other, or one is given twice. -/
  | conflict
  /-- A value is missing or empty. -/
  | missingValue
  | badValue
  /-- A value for an option that takes none. -/
  | unexpectedValue
  | missingProgram
  /-- The help was asked for. -/
  | help
  /-- The version was asked for. -/
  | version
  deriving DecidableEq, Repr

/-- What is said about arguments that cannot be used. -/
def UsageError.message : UsageError → String
  | .unknownArgument => "unexpected argument found"
  | .conflict => "an argument cannot be used with another one or more than once"
  | .missingValue => "a value is required but none was supplied"
  | .badValue => "invalid value for an argument"
  | .unexpectedValue => "unexpected value for an argument that takes none"
  | .missingProgram => "the following required arguments were not provided: <PROGRAM>"
  | .help | .version => ""

/-- An argument that takes a value. -/
inductive ValueSlot where
  | program
  | source
  | level
  deriving DecidableEq, Repr

/-- What the arguments read so far have said. -/
structure ArgumentState where
  program : Option String := none
  debug : Bool := false
  adapter : Bool := false
  source : Option String := none
  level : Option LogLevel := none
  /-- The argument whose value is still to be checked or even to come. -/
  pending : Option (ValueSlot × Option String) := none
  /-- Whether the program has been given. -/
  named : Bool := false

namespace ArgumentState

/-- A path may not be empty. -/
def checkPath (value : String) : Except UsageError String :=
  if value.isEmpty then .error .missingValue else .ok value

/-- Sets an argument to its value, which may happen only once. -/
def fill (state : ArgumentState) (slot : ValueSlot) (value : String) :
    Except UsageError ArgumentState :=
  match slot with
  | .program =>
      if state.program.isSome then .error .conflict
      else (checkPath value).map fun path => { state with program := some path }
  | .source =>
      if state.source.isSome then .error .conflict
      else (checkPath value).map fun path => { state with source := some path }
  | .level =>
      if state.level.isSome then .error .conflict
      else
        match LogLevel.ofWord? value with
        | none => .error .badValue
        | some level => .ok { state with level := some level }

/-- Checks the pending argument. -/
def settle (state : ArgumentState) : Except UsageError ArgumentState :=
  match state.pending with
  | none => .ok state
  | some (_, none) => .error .missingValue
  | some (slot, some value) => { state with pending := none }.fill slot value

/-- Takes an argument that is not an option: the value of the option before
it, or else the program. -/
def takeProgram (state : ArgumentState) (argument : String) :
    Except UsageError ArgumentState :=
  if state.named then .error .unknownArgument
  else state.settle.map fun settled =>
    { settled with pending := some (.program, some argument), named := true }

/-- Takes the mark for debugging. -/
def takeDebug (state : ArgumentState) : Except UsageError ArgumentState := do
  let settled ← state.settle
  if settled.debug then throw .conflict
  return { settled with debug := true }

/-- Takes the mark for serving a debug client. -/
def takeAdapter (state : ArgumentState) : Except UsageError ArgumentState := do
  let settled ← state.settle
  if settled.adapter then throw .conflict
  return { settled with adapter := true }

/-- Takes a question instead of options. -/
def takeQuestion (state : ArgumentState) (question : UsageError) :
    Except UsageError ArgumentState := do
  discard state.settle
  throw question

/-- Takes an option with a value, which may be attached to it or follow. -/
def takeOption (state : ArgumentState) (slot : ValueSlot) (attached : Option String) :
    Except UsageError ArgumentState := do
  let settled ← state.settle
  match attached with
  | some value => settled.fill slot value
  | none => return { settled with pending := some (slot, none) }

/-- Takes a long option by its name, with the value attached to it. -/
def takeLong (state : ArgumentState) (name : String) (attached : Option String) :
    Except UsageError ArgumentState :=
  let unattached (take : Except UsageError ArgumentState) :=
    if attached.isSome then .error .unexpectedValue else take
  match name with
  | "debug" => unattached state.takeDebug
  | "dap" => unattached state.takeAdapter
  | "help" => unattached (state.takeQuestion .help)
  | "version" => unattached (state.takeQuestion .version)
  | "source" => state.takeOption .source attached
  | "log-level" => state.takeOption .level attached
  | _ => .error .unknownArgument

/-- Takes short options one letter after another. -/
def takeShort (state : ArgumentState) : List Char → Except UsageError ArgumentState
  | [] => .ok state
  | letter :: rest => do
      let next ← match letter with
        | 'd' => state.takeDebug
        | 'h' => state.takeQuestion .help
        | 'V' => state.takeQuestion .version
        | _ => .error .unknownArgument
      next.takeShort rest

/-- The name of a long option and the value behind an equals sign. -/
def splitLong (option : List Char) : String × Option String :=
  let name := String.ofList (option.takeWhile (· != '='))
  match option.dropWhile (· != '=') with
  | [] => (name, none)
  | _ :: value => (name, some (String.ofList value))

/-- Takes an argument before any double dash. -/
def take (state : ArgumentState) (argument : String) : Except UsageError ArgumentState :=
  match argument.toList with
  | '-' :: '-' :: option =>
      let (name, attached) := splitLong option
      state.takeLong name attached
  | '-' :: letter :: letters => state.takeShort (letter :: letters)
  | _ =>
      match state.pending with
      | some (slot, none) => .ok { state with pending := some (slot, some argument) }
      | _ => state.takeProgram argument

/-- Takes all arguments.  Behind a double dash there are no options. -/
def takeAll (state : ArgumentState) : List String → Except UsageError ArgumentState
  | [] => state.settle
  | argument :: rest =>
      if argument = "--" then do
        (← rest.foldlM takeProgram state).settle
      else do
        (← state.take argument).takeAll rest

end ArgumentState

namespace Options

/-- Reads the arguments.  A debug client cannot be served while debugging
here, and without one a program is needed. -/
def parse (arguments : List String) : Except UsageError Options := do
  let state ← ({} : ArgumentState).takeAll arguments
  if state.adapter && state.debug then throw .conflict
  if state.program.isNone && !state.adapter then throw .missingProgram
  return {
    program := state.program
    debug := state.debug
    adapter := state.adapter
    source := state.source
    level := state.level.getD .warn }

/-- The listing to show: the one asked for, or the one that belongs to the
program. -/
def sourcePath (options : Options) : Option String :=
  match options.source with
  | some path => some path
  | none => options.program.map Path.listing

end Options

end StackDebugger
