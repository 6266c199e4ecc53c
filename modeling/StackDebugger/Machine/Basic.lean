import StackDebugger.Machine.State
import StackDebugger.Program

/-!
# The plain machine

A step fetches an instruction, carries out its effect and moves on.  A jump goes
to the label that it names, so that the step moves on past that label.  A machine
runs a program until it halts, runs off its end or fails.  Runs take a bound on
their number of steps and answer nothing when it is used up.
-/

namespace StackDebugger

namespace Instruction

/-- The effect of an instruction.  The source annotations have none. -/
def execute : Instruction Jump → Effect Unit
  | .lit value _ => Effect.push value
  | .load offset _ => do
      Effect.push (← Effect.inspectStack (·.load offset))
  | .store offset _ => do
      let value ← Effect.pop
      Effect.onStack (·.store offset value)
  | .args count => Effect.onStack (·.openFrame count)
  | .bop operator => do
      let right ← Effect.pop
      let left ← Effect.pop
      match operator.eval? left right with
      | some value => Effect.push value
      | none => throw .divisionByZero
  | .call destination =>
      modify fun state =>
        { state with returns := state.pc :: state.returns, pc := destination.target }
  | .ret _ => do
      match (← get).returns with
      | [] => throw .returnWithoutCall
      | address :: returns =>
          discard (Effect.onStack OperandStack.closeFrame)
          modify fun state => { state with returns, pc := address }
  | .goto destination => Effect.jump destination.target
  | .falseBranch destination => do
      if (← Effect.pop) = 0 then Effect.jump destination.target
  | .halt => modify State.halt
  | .pop count => Effect.popMany count
  | .read => do
      Effect.push (← Effect.readInteger)
  | .write => do
      Effect.writeLine (Decimal.ofInt32 (← Effect.pop))
  | .dump .now => Effect.showStack
  | .dump .on => modify fun state => { state with dumping := true }
  | .dump .off => modify fun state => { state with dumping := false }
  | .label _ | .line _ | .function _ _ _ | .formal _ _ => pure ()

/-- Whether the instruction is a `DUMP`. -/
def isDump : Instruction Jump → Bool
  | .dump _ => true
  | _ => false

/-- While dumping, shows an instruction that was carried out and the stack
after it. -/
def showAfter (instruction : Instruction Jump) : Effect Unit := do
  if (← get).dumping && !instruction.isDump then
    Effect.writeLine instruction.symbolic.render
    Effect.showStack

end Instruction

namespace State

/-- The state with the next instruction in turn. -/
def advance (state : State) : State :=
  { state with pc := state.pc + 1 }

/-- Carries out one instruction.  A program that has run off its end halts. -/
def step (program : Program) : Effect Unit := do
  match program.fetch? (← get).pc with
  | none => modify State.halt
  | some instruction =>
      instruction.execute
      instruction.showAfter
      modify State.advance

end State

/-- A program and the state of its run. -/
structure Machine where
  program : Program
  state : State
  deriving DecidableEq, Repr

namespace Machine

/-- The machine before its first step. -/
def create (program : Program) (terminal : Terminal) : Machine :=
  { program, state := { terminal } }

/-- The machine before its first step, with the same terminal. -/
def reset (machine : Machine) : Machine :=
  { machine with state := machine.state.reset }

/-- Carries out one instruction, whether or not the machine is running. -/
def step (machine : Machine) : Except Fault Unit × Machine :=
  match (State.step machine.program).run machine.state with
  | .ok _ state => (.ok (), { machine with state })
  | .error fault state => (.error fault, { machine with state })

/-- Steps for as long as the machine is running.  A failure halts it. -/
def proceed : Nat → Machine → Option (Except Fault Unit × Machine)
  | 0, _ => none
  | fuel + 1, machine =>
      if machine.state.running then
        match machine.step with
        | (.ok _, next) => proceed fuel next
        | (.error fault, failed) =>
            some (.error fault, { failed with state := failed.state.halt })
      else some (.ok (), machine)

/-- Sets the machine running, unless it has halted. -/
def start (machine : Machine) : Machine :=
  { machine with state := { machine.state with running := !machine.state.halted } }

/-- Runs from where the machine stands, unless it has halted. -/
def resume (fuel : Nat) (machine : Machine) : Option (Except Fault Unit × Machine) :=
  proceed fuel machine.start

/-- Runs from the beginning. -/
def run (fuel : Nat) (machine : Machine) : Option (Except Fault Unit × Machine) :=
  machine.reset.resume fuel

end Machine

end StackDebugger
