import StackDebugger.Debugger.Basic

/-!
# Running under the debugger

Each instruction has its effect on the machine and, beside it, on what the
debugger knows: calls and returns move the activations, annotated instructions
bind variables, and the source annotations name functions, lines and parameters.
A resumed program is carried out one instruction at a time until something stops
it: a failure, the end of the program, a breakpoint, or a complete step, in this
order.
-/

namespace StackDebugger

/-- A change of the debugger that may fail. -/
abbrev DebugEffect := EStateM Fault Debugger

namespace DebugEffect

/-- Carries out an effect on the machine. -/
def onMachine {α : Type} (effect : Effect α) : DebugEffect α :=
  fun debugger =>
    match effect.run debugger.state with
    | .ok value state => .ok value (debugger.withState state)
    | .error fault state => .error fault (debugger.withState state)

/-- Changes the innermost activation. -/
def onCurrent (change : Activation → Activation) : DebugEffect Unit :=
  modify fun debugger =>
    { debugger with activations := debugger.activations.modifyCurrent change }

/-- One dash for every call that is pending. -/
def indent : DebugEffect String := do
  return String.ofList (List.replicate ((← get).depth - 1) '-')

/-- Writes the call of a function with the values of its frame. -/
def traceEntry (name : String) : DebugEffect Unit := do
  let arguments := OperandStack.renderValues (← get).state.stack.frame
  onMachine (Effect.writeLine ((← indent) ++ name ++ "(" ++ arguments ++ ")"))

/-- Writes the return from the current function with its value. -/
def traceExit : DebugEffect Unit := do
  let value ← onMachine (Effect.inspectStack OperandStack.peek)
  let name := (← get).current.displayName
  onMachine (Effect.writeLine
    ((← indent) ++ "exit: " ++ name ++ ": " ++ Decimal.ofInt32 value))

end DebugEffect

namespace Instruction

open DebugEffect

/-- The effect of an instruction on the machine and on the debugger. -/
def observe (instruction : Instruction Jump) : DebugEffect Unit :=
  match instruction with
  | .call _ => do
      onMachine instruction.execute
      modify fun debugger => { debugger with activations := debugger.activations.push }
  | .ret _ => do
      if (← get).tracing then traceExit
      onMachine instruction.execute
      modify fun debugger => { debugger with activations := debugger.activations.pop }
  | .lit _ (some name) => do
      onMachine instruction.execute
      let offset := (← get).state.stack.topOffset
      onCurrent (·.bind name offset)
  | .load offset (some name) | .store offset (some name) => do
      onMachine instruction.execute
      onCurrent (·.bind name offset)
  | .pop _ => do
      onMachine instruction.execute
      let size := (← get).state.stack.frameSize
      onCurrent (·.forgetFrom size)
  | .line (some number) => do
      onCurrent (·.reachLine number)
      if (← get).breakpoints.isArmed number then
        modify fun debugger =>
          { debugger.withState { debugger.state with running := false } with hit := some number }
  | .function name first last => do
      onCurrent (·.enterFunction name first last)
      if (← get).tracing && 1 < (← get).depth then traceEntry name
  | .formal name offset =>
      onCurrent fun activation =>
        activation.bind name (offset.getD activation.bindings.length)
  | _ => onMachine instruction.execute

end Instruction

/-- Why a program that did not fail was stopped. -/
inductive Stop where
  | breakpoint (line : Nat)
  | step
  | halted
  deriving DecidableEq, Repr

/-- How a run under the debugger ends. -/
abbrev Outcome := Except Fault Stop

/-- What one instruction leads to. -/
inductive Progress where
  | going (debugger : Debugger)
  | stopped (outcome : Outcome) (debugger : Debugger)

namespace Debugger

/-- Carries out one instruction together with its display while dumping, and
moves on. -/
def carryOut (instruction : Instruction Jump) : DebugEffect Unit := do
  instruction.observe
  DebugEffect.onMachine instruction.showAfter
  DebugEffect.onMachine (modify State.advance)

/-- What the debugger does after an instruction that did not fail. -/
def judge (debugger : Debugger) : Progress :=
  if debugger.isDone then .stopped (.ok .halted) debugger
  else
    match debugger.hit with
    | some line =>
        .stopped (.ok (.breakpoint line))
          { debugger with hit := none, mode := .untilBreakpoint }
    | none =>
        if debugger.mode.stopsAt debugger.depth debugger.currentLine then
          .stopped (.ok .step)
            { debugger.withState { debugger.state with running := false } with
              mode := .untilBreakpoint }
        else .going debugger

/-- Carries out the next instruction. -/
def advance (debugger : Debugger) : Progress :=
  match debugger.machine.program.fetch? debugger.state.pc with
  | none => .stopped (.ok .halted) debugger.turnOff
  | some instruction =>
      match (carryOut instruction).run debugger with
      | .error fault failed => .stopped (.error fault) failed.turnOff
      | .ok _ next => next.judge

/-- Carries out instructions until one of them stops the program. -/
def proceed : Nat → Debugger → Option (Outcome × Debugger)
  | 0, _ => none
  | fuel + 1, debugger =>
      match debugger.advance with
      | .going next => proceed fuel next
      | .stopped outcome stopped => some (outcome, stopped)

/-- Runs from where the debugger stands, unless the program is over. -/
def resume (fuel : Nat) (debugger : Debugger) : Option (Outcome × Debugger) :=
  if debugger.isDone then some (.ok .halted, debugger)
  else proceed fuel (debugger.withState { debugger.state with running := true })

end Debugger

end StackDebugger
