import StackDebugger.Adapter.Service
import StackDebugger.CommandLine.Options
import StackDebugger.Session.Basic

/-!
# The command line

What a whole run of the program does: it reads its arguments, its files and
its input, and ends with an exit code, its output, and a report of the error
that ended it.
-/

namespace StackDebugger

/-- How a run of the program ends. -/
structure Ending where
  exitCode : Nat := 0
  output : String := ""
  /-- What is written about an error. -/
  report : String := ""
  deriving DecidableEq, Repr

namespace CommandLine

/-- The causes of an error, numbered where there are several. -/
def renderCauses : List String → String
  | [] => ""
  | [cause] => "\nCaused by:\n    " ++ cause ++ "\n"
  | causes =>
      "\nCaused by:\n" ++ String.join (causes.zipIdx.map fun (cause, position) =>
        "    " ++ toString position ++ ": " ++ cause ++ "\n")

/-- The report of an error with its causes, the immediate one first. -/
def renderReport (error : String) (causes : List String) : String :=
  "Error: " ++ error ++ "\n" ++ renderCauses causes

/-- The texts of a fault: its own, and that of the stream's failure behind
it. -/
def faultCauses (fault : Fault) : List String :=
  match fault with
  | .malformedInput => [fault.message, Utf8.malformedMessage]
  | _ => [fault.message]

/-- The report of a program that failed. -/
def faultReport (fault : Fault) : String :=
  renderReport "program aborted" (faultCauses fault)

/-- The report of a program that could not be loaded. -/
def loadReport (error : LoadError) : String :=
  match error with
  | .unreadable _ reason => renderReport error.message [reason.message]
  | .unresolved _ => renderReport error.message []

/-- The report of a debug client's stream that broke. -/
def frameReport (failure : FrameError) : String :=
  renderReport "DAP session failed" [failure.message]

/-- What the program says about its version. -/
def versionText : String :=
  "bytecode-debugger 0.1.0\n"

/-- What the program says about its use. -/
def helpText : String :=
  "Run compiled bytecode, optionally under the source-level debugger\n\n" ++
    "Usage: bytecode-debugger [OPTIONS] [PROGRAM]\n\n" ++
    "Arguments:\n" ++
    "  [PROGRAM]  Bytecode file, e.g. `fib.x.cod`\n\n" ++
    "Options:\n" ++
    "  -d, --debug                  Run under the interactive console debugger\n" ++
    "      --dap                    Serve the Debug Adapter Protocol on stdin/stdout\n" ++
    "      --source <PATH>          Source listing shown by the debugger. " ++
    "Defaults to PROGRAM without its `.cod` extension\n" ++
    "      --log-level <LOG_LEVEL>  Log level for diagnostics on stderr [default: warn]\n" ++
    "  -h, --help                   Print help\n" ++
    "  -V, --version                Print version\n"

/-- How a run ends whose arguments ask for nothing that can be done. -/
def usageEnding : UsageError → Ending
  | .help => { output := helpText }
  | .version => { output := versionText }
  | _ => { exitCode := 2 }

/-- How a run ends that may have failed. -/
def faultEnding (output : String) : Except Fault Unit → Ending
  | .ok _ => { output }
  | .error fault => { exitCode := 1, output, report := faultReport fault }

/-- Runs a program from its beginning. -/
def runProgram (fuel : Nat) (program : Program) (input : List UInt8) : Option Ending :=
  match (Machine.create program (Terminal.ofBytes input)).run fuel with
  | none => none
  | some (outcome, machine) =>
      let output := machine.state.terminal.output
      match outcome with
      | .ok _ => some { output := output ++ Session.farewell }
      | .error fault => some (faultEnding output (.error fault))

/-- Debugs a program, whose input and output the commands and answers
share. -/
def debugProgram (fuel : Nat) (program : Program) (listing : List String)
    (input : List UInt8) : Option Ending :=
  let session : Session := { debugger := .create program listing (Terminal.ofBytes input) }
  (session.run fuel).map fun (outcome, ended) =>
    faultEnding ended.debugger.state.terminal.output outcome

/-- Serves a debug client. -/
def serveClient (fuel : Nat) (read : FileReader) (input : List UInt8) : Option Ending :=
  (Adapter.serve fuel read {} input).map fun served =>
    let output := String.ofList (served.messages.flatMap Frame.encode)
    match served.failure with
    | none => { output }
    | some failure => { exitCode := 1, output, report := frameReport failure }

/-- The listing of the program that is debugged. -/
def readListing (read : FileReader) (options : Options) : List String :=
  match options.sourcePath with
  | none => []
  | some path => read.readListing path

/-- Loads the program that the options name, or gives the report of why there
is none. -/
def loadFor (read : FileReader) (options : Options) : Except String Program :=
  match options.program with
  | none => .error (renderReport "no bytecode program given" [])
  | some path =>
      match read.loadProgram (if options.debug then .debug else .base) path with
      | .error error => .error (loadReport error)
      | .ok loaded => .ok loaded.program

/-- Does what the options ask for. -/
def perform (fuel : Nat) (read : FileReader) (options : Options) (input : List UInt8) :
    Option Ending :=
  if options.adapter then serveClient fuel read input
  else
    match loadFor read options with
    | .error report => some { exitCode := 1, report }
    | .ok program =>
        if options.debug then debugProgram fuel program (readListing read options) input
        else runProgram fuel program input

/-- A whole run of the program. -/
def run (fuel : Nat) (read : FileReader) (arguments : List String) (input : List UInt8) :
    Option Ending :=
  match Options.parse arguments with
  | .error error => some (usageEnding error)
  | .ok options => perform fuel read options input

end CommandLine

end StackDebugger
