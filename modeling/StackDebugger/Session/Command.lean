import StackDebugger.Text.Basic
import StackDebugger.Text.ShellWords

/-!
# Commands

What a user can ask of a debugging session, and how it is typed.
-/

namespace StackDebugger

/-- A command of a debugging session. -/
inductive Command where
  | help
  | resume
  | setBreakpoints (lines : List Nat)
  | clearBreakpoints (lines : List Nat)
  | listBreakpoints
  | listSource
  | showFunction
  | showActivations
  | showVariables
  | stepOut
  | stepOver
  | stepInto
  | showCalls
  | trace
  | quit
  deriving DecidableEq, Repr

/-- Why a line is not a command. -/
inductive CommandError where
  | empty
  | unbalanced
  | unknown (word : String)
  | badLine (word : String)
  | missingLines (word : String)
  deriving DecidableEq, Repr

/-- What an error says. -/
def CommandError.message : CommandError → String
  | .empty => "no command entered"
  | .unbalanced => "unbalanced quotes in command"
  | .unknown word => "could not interpret command " ++ word ++ ", please enter a new command"
  | .badLine word => "'" ++ word ++ "' is not a line number"
  | .missingLines word => word ++ " needs at least one line number"

namespace Command

/-- The commands as they are typed, each with what it does. -/
def usages : List (String × String) :=
  [("c", "Continue execution of program until next break point."),
    ("sot", "Step out: continue execution until the current function returns."),
    ("sov", "Step over current line."),
    ("sin", "Step into the current line."),
    ("sb <lines>", "Set break points on the given lines."),
    ("cb <lines>", "Clear break points on the given lines."),
    ("b", "Print current break points."),
    ("p", "Print annotated source code."),
    ("dfn", "Display the current function indicating current point of execution."),
    ("stk", "Print the function call stack."),
    ("fest", "Print the function environment record stack."),
    ("tr", "Turn on function call tracing."),
    ("v", "Print all the current variables and their values."),
    ("help/?", "Print this help menu."),
    ("quit", "Halt execution of the current program.")]

/-- Reads words as line numbers; the first that is none is reported. -/
def readLines : List String → Except CommandError (List Nat)
  | [] => .ok []
  | word :: rest =>
      match Decimal.size? word.toList with
      | none => .error (.badLine word)
      | some line => (readLines rest).map (line :: ·)

/-- The line numbers behind a command that needs some. -/
def lineNumbers (command : String) (words : List String) : Except CommandError (List Nat) :=
  if words.isEmpty then .error (.missingLines command) else readLines words

/-- The command that words make.  Words behind a command that takes none are
ignored. -/
def ofWords : List String → Except CommandError Command
  | [] => .error .empty
  | command :: words =>
      match command with
      | "?" | "help" => .ok .help
      | "c" => .ok .resume
      | "sb" => (lineNumbers command words).map .setBreakpoints
      | "cb" => (lineNumbers command words).map .clearBreakpoints
      | "b" | "breaks" => .ok .listBreakpoints
      | "p" => .ok .listSource
      | "dfn" => .ok .showFunction
      | "fest" => .ok .showActivations
      | "v" => .ok .showVariables
      | "sot" => .ok .stepOut
      | "sov" => .ok .stepOver
      | "sin" => .ok .stepInto
      | "stk" => .ok .showCalls
      | "tr" => .ok .trace
      | "quit" | "q" => .ok .quit
      | unknown => .error (.unknown unknown)

/-- Reads a line as a command. -/
def parse (line : List Char) : Except CommandError Command :=
  match Text.shellWords? line with
  | none => .error .unbalanced
  | some words => ofWords (words.map String.ofList)

end Command

end StackDebugger
