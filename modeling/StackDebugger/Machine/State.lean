import StackDebugger.Instruction.Text
import StackDebugger.Machine.OperandStack

/-!
# Machine states and effects

A program reads whole lines from its terminal and writes text to it.  Text that
was written stays pending until a front end delivers it; delivered and pending
text together are all the program ever wrote.  An effect is carried out on the
state of a machine and may fail; what it did before it failed stays done.
-/

namespace StackDebugger

/-- Input not yet read, and output already written. -/
structure Terminal where
  input : List Text.RawLine := []
  delivered : String := ""
  pending : String := ""
  deriving DecidableEq, Repr

namespace Terminal

/-- A terminal with input to read. -/
def ofBytes (bytes : List UInt8) : Terminal :=
  { input := Text.rawLines bytes }

/-- Adds a line behind the input. -/
def feed (terminal : Terminal) (line : Text.RawLine) : Terminal :=
  { terminal with input := terminal.input ++ [line] }

/-- All that was written. -/
def output (terminal : Terminal) : String :=
  terminal.delivered ++ terminal.pending

/-- Writes text. -/
def write (terminal : Terminal) (text : String) : Terminal :=
  { terminal with pending := terminal.pending ++ text }

/-- Writes a line. -/
def writeLine (terminal : Terminal) (text : String) : Terminal :=
  terminal.write (text ++ "\n")

/-- Delivers the pending text. -/
def take (terminal : Terminal) : String × Terminal :=
  (terminal.pending,
    { terminal with delivered := terminal.delivered ++ terminal.pending, pending := "" })

/-- What is shown before an integer is read. -/
def readPrompt : String :=
  "Enter an integer: "

/-- What is said of a line that is not an integer. -/
def complaint (line : List Char) : String :=
  "'" ++ String.ofList line ++ "' is not an integer\n"

/-- Prompts and reads lines until one is an integer.  Lines that are not are
answered with a complaint. -/
def readIntegerFrom (terminal : Terminal) : List Text.RawLine → Except Fault Int32 × Terminal
  | [] => (.error .inputClosed, { terminal.write readPrompt with input := [] })
  | line :: rest =>
      let prompted := { terminal.write readPrompt with input := rest }
      match Utf8.decode? line with
      | none => (.error .malformedInput, prompted)
      | some text =>
          match Decimal.int32? (Text.trim text) with
          | some value => (.ok value, prompted)
          | none => readIntegerFrom (prompted.write (complaint (Text.trim text))) rest

/-- Reads an integer. -/
def readInteger (terminal : Terminal) : Except Fault Int32 × Terminal :=
  terminal.readIntegerFrom terminal.input

@[simp] theorem output_write (terminal : Terminal) (text : String) :
    (terminal.write text).output = terminal.output ++ text := by
  simp [output, write, String.append_assoc]

@[simp] theorem output_take (terminal : Terminal) :
    terminal.take.2.output = terminal.output := by
  simp [output, take]

end Terminal

/-- What instructions read and change. -/
structure State where
  pc : Nat := 0
  stack : OperandStack := {}
  /-- The addresses of the pending calls, innermost first. -/
  returns : List Nat := []
  running : Bool := false
  halted : Bool := false
  /-- Whether every instruction is shown with the stack after it. -/
  dumping : Bool := false
  terminal : Terminal := {}
  deriving DecidableEq, Repr

/-- A change of the state that may fail. -/
abbrev Effect := EStateM Fault State

namespace State

/-- The state before the first instruction, with the same terminal. -/
def reset (state : State) : State :=
  { terminal := state.terminal }

/-- The state of a program that is over. -/
def halt (state : State) : State :=
  { state with running := false, halted := true }

/-- Delivers the pending output. -/
def deliver (state : State) : String × State :=
  let (text, terminal) := state.terminal.take
  (text, { state with terminal })

/-- Adds a line behind the input. -/
def feed (state : State) (line : Text.RawLine) : State :=
  { state with terminal := state.terminal.feed line }

/-- Writes a line. -/
def writeLine (state : State) (text : String) : State :=
  { state with terminal := state.terminal.writeLine text }

end State

namespace Effect

/-- Puts a value on the stack. -/
def push (value : Int32) : Effect Unit :=
  modify fun state => { state with stack := state.stack.push value }

/-- Carries out an operation on the stack.  What it did before it failed stays done. -/
def onStack {α : Type} (operation : OperandStack → Except Fault α × OperandStack) : Effect α :=
  fun state =>
    match operation state.stack with
    | (.ok value, stack) => .ok value { state with stack }
    | (.error fault, stack) => .error fault { state with stack }

/-- Looks a value up on the stack. -/
def inspectStack (operation : OperandStack → Except Fault Int32) : Effect Int32 :=
  fun state =>
    match operation state.stack with
    | .ok value => .ok value state
    | .error fault => .error fault state

/-- Takes the topmost value. -/
def pop : Effect Int32 :=
  onStack OperandStack.pop

/-- Takes values from the top, one after another. -/
def popMany : Nat → Effect Unit
  | 0 => pure ()
  | count + 1 => do
      discard pop
      popMany count

/-- Reads an integer from the terminal. -/
def readInteger : Effect Int32 :=
  fun state =>
    match state.terminal.readInteger with
    | (.ok value, terminal) => .ok value { state with terminal }
    | (.error fault, terminal) => .error fault { state with terminal }

/-- Writes a line. -/
def writeLine (text : String) : Effect Unit :=
  modify (·.writeLine text)

/-- Writes the stack. -/
def showStack : Effect Unit := do
  writeLine (← get).stack.render

/-- Jumps to an address. -/
def jump (address : Nat) : Effect Unit :=
  modify fun state => { state with pc := address }

end Effect

end StackDebugger
