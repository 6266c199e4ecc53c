import StackDebugger.Debugger.Activation
import StackDebugger.Machine.Basic

/-!
# The debugger's state

A debugger is a machine with what is needed to follow it in its source: the
activations of the pending calls, the breakpoints, and the step that is armed.
Only source lines that the program marks can carry a breakpoint.  A debugged
program runs until a breakpoint, or until a step that was armed is complete,
which is judged by the call depth and source line at which it was armed.
-/

namespace StackDebugger

/-- The lines that can carry a breakpoint and those that do. -/
structure Breakpoints where
  valid : LineSet := []
  armed : LineSet := []
  deriving DecidableEq, Repr

namespace Breakpoints

/-- No breakpoints yet, on the lines that a program marks. -/
def ofProgram (program : Program) : Breakpoints :=
  { valid := program.markedLines }

/-- Whether a line carries a breakpoint. -/
def isArmed (breakpoints : Breakpoints) (line : Nat) : Bool :=
  breakpoints.armed.contains line

/-- Whether a line can carry a breakpoint. -/
def isValid (breakpoints : Breakpoints) (line : Nat) : Bool :=
  breakpoints.valid.contains line

/-- Sets a breakpoint if the line can carry one. -/
def arm (breakpoints : Breakpoints) (line : Nat) : Breakpoints :=
  if breakpoints.isValid line then
    { breakpoints with armed := LineSet.insert line breakpoints.armed }
  else breakpoints

/-- Removes a breakpoint. -/
def disarm (breakpoints : Breakpoints) (line : Nat) : Breakpoints :=
  { breakpoints with armed := LineSet.erase line breakpoints.armed }

/-- Removes all breakpoints. -/
def clear (breakpoints : Breakpoints) : Breakpoints :=
  { breakpoints with armed := [] }

end Breakpoints

/-- Call depth and source line at the moment a step was armed. -/
structure Snapshot where
  depth : Nat
  line : Option Nat
  deriving DecidableEq, Repr

/-- When a resumed program stops, apart from breakpoints. -/
inductive RunMode where
  | untilBreakpoint
  | stepOver (start : Snapshot)
  | stepInto (start : Snapshot)
  | stepOut (start : Snapshot)
  deriving DecidableEq, Repr

/-- Whether a line comes after another one; no line comes before all. -/
def isLaterLine : Option Nat → Option Nat → Bool
  | none, _ => false
  | some _, none => true
  | some line, some earlier => earlier < line

namespace Snapshot

/-- Whether the call that was active returned, or reached a later line. -/
def isPassed (start : Snapshot) (depth : Nat) (line : Option Nat) : Bool :=
  depth < start.depth || (depth == start.depth && isLaterLine line start.line)

end Snapshot

namespace RunMode

/-- Whether the program stops at a call depth and source line. -/
def stopsAt (mode : RunMode) (depth : Nat) (line : Option Nat) : Bool :=
  match mode with
  | .untilBreakpoint => false
  | .stepOver start => start.isPassed depth line
  | .stepInto start => start.depth < depth || start.isPassed depth line
  | .stepOut start => depth < start.depth

/-- Whether a step is armed. -/
def isStepping : RunMode → Bool
  | .untilBreakpoint => false
  | _ => true

end RunMode

/-- A machine under observation. -/
structure Debugger where
  machine : Machine
  activations : ActivationStack := {}
  breakpoints : Breakpoints := {}
  /-- Whether calls and returns are written to the terminal. -/
  tracing : Bool := false
  /-- The breakpoint that was just reached. -/
  hit : Option Nat := none
  mode : RunMode := .untilBreakpoint
  source : Array String := #[]
  deriving DecidableEq, Repr

namespace Debugger

/-- A debugger before its first step. -/
def create (program : Program) (source : List String) (terminal : Terminal) : Debugger :=
  { machine := Machine.create program terminal
    breakpoints := Breakpoints.ofProgram program
    source := source.toArray }

/-- The state of the machine. -/
def state (debugger : Debugger) : State :=
  debugger.machine.state

/-- Replaces the state of the machine. -/
def withState (debugger : Debugger) (state : State) : Debugger :=
  { debugger with machine := { debugger.machine with state } }

/-- The debugger before its first step; breakpoints and tracing are kept. -/
def reset (debugger : Debugger) : Debugger :=
  { debugger with
    machine := debugger.machine.reset
    activations := {}
    hit := none
    mode := .untilBreakpoint }

/-- Delivers the program's pending output. -/
def deliver (debugger : Debugger) : String × Debugger :=
  let (text, state) := debugger.state.deliver
  (text, debugger.withState state)

/-- Whether the program is over. -/
def isDone (debugger : Debugger) : Bool :=
  debugger.state.halted

/-- Ends the program. -/
def turnOff (debugger : Debugger) : Debugger :=
  debugger.withState debugger.state.halt

/-- The innermost activation. -/
def current (debugger : Debugger) : Activation :=
  debugger.activations.current

/-- The number of activations. -/
def depth (debugger : Debugger) : Nat :=
  debugger.activations.depth

/-- The source line that was reached last in the innermost activation. -/
def currentLine (debugger : Debugger) : Option Nat :=
  debugger.current.currentLine

/-- Where a step would start. -/
def snapshot (debugger : Debugger) : Snapshot :=
  { depth := debugger.depth, line := debugger.currentLine }

/-- Arms a step over the current line. -/
def armStepOver (debugger : Debugger) : Debugger :=
  { debugger with mode := .stepOver debugger.snapshot }

/-- Arms a step into the next call. -/
def armStepInto (debugger : Debugger) : Debugger :=
  { debugger with mode := .stepInto debugger.snapshot }

/-- Arms a step out of the current call. -/
def armStepOut (debugger : Debugger) : Debugger :=
  { debugger with mode := .stepOut debugger.snapshot }

/-- Starts writing calls and returns to the terminal. -/
def startTracing (debugger : Debugger) : Debugger :=
  { debugger with tracing := true }

/-- Whether a line can carry a breakpoint. -/
def acceptsBreakpoint (debugger : Debugger) (line : Nat) : Bool :=
  debugger.breakpoints.isValid line

/-- Sets a breakpoint if the line can carry one. -/
def setBreakpoint (debugger : Debugger) (line : Nat) : Debugger :=
  { debugger with breakpoints := debugger.breakpoints.arm line }

/-- Removes a breakpoint. -/
def clearBreakpoint (debugger : Debugger) (line : Nat) : Debugger :=
  { debugger with breakpoints := debugger.breakpoints.disarm line }

/-- Removes all breakpoints. -/
def clearBreakpoints (debugger : Debugger) : Debugger :=
  { debugger with breakpoints := debugger.breakpoints.clear }

/-- A line of the source, counted from one. -/
def sourceLine? (debugger : Debugger) : Nat → Option String
  | 0 => none
  | line + 1 => debugger.source[line]?

/-- The value of a variable, unless its slot has left the frame. -/
def variableValue? (debugger : Debugger) (name : String) : Option Int32 :=
  match debugger.current.offsetOf? name with
  | none => none
  | some offset => (debugger.state.stack.load offset).toOption

/-- The variables of the innermost activation with their values, in ascending
order of their names. -/
def localVariables (debugger : Debugger) : List (String × Option Int32) :=
  debugger.current.variableNames.map fun name => (name, debugger.variableValue? name)

end Debugger

end StackDebugger
