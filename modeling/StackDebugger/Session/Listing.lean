import StackDebugger.Debugger.Basic
import StackDebugger.Session.Command

/-!
# Listings

The texts that a session shows about a program under the debugger.
-/

namespace StackDebugger

namespace Listing

/-- Text moved to the right end of a column. -/
def alignRight (width : Nat) (text : String) : String :=
  String.ofList (List.replicate (width - text.length) ' ') ++ text

/-- Text filled up to the width of a column. -/
def alignLeft (width : Nat) (text : String) : String :=
  text ++ String.ofList (List.replicate (width - text.length) ' ')

/-- The line above and below a listing. -/
def rule : String :=
  " -------------------\n"

end Listing

open Listing

namespace Command

/-- The commands and what they do. -/
def helpText : String :=
  "The following are valid commands:\n" ++
    String.join (usages.map fun (usage, description) =>
      "\t" ++ alignLeft 10 usage ++ "\t" ++ description ++ "\n")

end Command

namespace Debugger

/-- The lines that carry a breakpoint. -/
def breakpointsText (debugger : Debugger) : String :=
  match debugger.breakpoints.armed with
  | [] => "There are no breakpoints set.\n"
  | lines =>
      "Breakpoints currently set at lines: " ++ " ".intercalate (lines.map toString) ++ "\n"

/-- One source line, with a mark for a breakpoint and an arrow at the current
line. -/
def sourceLineText (debugger : Debugger) (line : Nat) : String :=
  let mark := if debugger.breakpoints.isArmed line then "**" else " "
  let arrow := if debugger.currentLine = some line then "\t <================" else ""
  alignRight 2 mark ++ alignRight 2 (toString line) ++ ": " ++
    (debugger.sourceLine? line).getD "" ++ " " ++ arrow ++ "\n"

/-- The source lines from one line to another, as far as they exist. -/
def sourceTextBetween (debugger : Debugger) (first last : Nat) : String :=
  let start := max first 1
  let count := min last debugger.source.size + 1 - start
  String.join ((List.range' start count).map debugger.sourceLineText)

/-- All source lines. -/
def sourceText (debugger : Debugger) : String :=
  "Source Code:\n" ++ rule ++ debugger.sourceTextBetween 1 debugger.source.size ++ rule

/-- The source lines of the current function. -/
def functionText (debugger : Debugger) : String :=
  match debugger.current.function with
  | none => "Not currently in a function\n"
  | some name =>
      "--- Current Function:  " ++ name ++ "\n\n" ++
        match debugger.current.firstLine, debugger.current.lastLine with
        | some first, some last => debugger.sourceTextBetween first last ++ rule
        | _, _ => "(native function)\n"

/-- The pending calls, innermost first, each indented by its depth. -/
def callsText (debugger : Debugger) : String :=
  String.join (debugger.activations.toList.zipIdx.reverse.map fun (activation, position) =>
    String.ofList (List.replicate position ' ') ++ activation.displayName ++ "  line:" ++
      Activation.lineOrDash activation.firstLine ++ "\n")

/-- The activations, innermost first. -/
def activationsText (debugger : Debugger) : String :=
  String.join (debugger.activations.toList.reverse.map fun activation =>
    activation.render ++ "\n")

/-- What is shown for a variable whose slot has left the frame. -/
def unavailable : String :=
  "<unavailable>"

/-- A value, if there is one. -/
def valueText (value : Option Int32) : String :=
  (value.map Decimal.ofInt32).getD unavailable

/-- The variables of the current activation with their values. -/
def variablesText (debugger : Debugger) : String :=
  "Current Variables:\n" ++
    String.join (debugger.localVariables.map fun (name, value) =>
      alignRight 10 name ++ " : " ++ valueText value ++ "\n")

end Debugger

end StackDebugger
