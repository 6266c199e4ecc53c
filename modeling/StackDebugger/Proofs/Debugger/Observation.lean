import StackDebugger.Debugger.Run
import StackDebugger.Proofs.Machine.Execution

/-!
# What the debugger adds to an instruction

Under the debugger an instruction has its effect on the machine, preceded by a
line about a traced return and followed by what the debugger notes: a change of
the activations, a breakpoint that was reached, a line about a traced call.
`run_observe` says so for every instruction at once; all that later proofs need
to know about single instructions is in `track` and `armedLine?`.
-/

namespace StackDebugger

namespace Debugger

@[simp] theorem state_withState (debugger : Debugger) (state : State) :
    (debugger.withState state).state = state := rfl

@[simp] theorem withState_withState (debugger : Debugger) (first second : State) :
    (debugger.withState first).withState second = debugger.withState second := rfl

def writeLine (debugger : Debugger) (text : String) : Debugger :=
  debugger.withState (debugger.state.writeLine text)

/-- One dash for every pending call. -/
def indentation (debugger : Debugger) : String :=
  String.ofList (List.replicate (debugger.depth - 1) '-')

/-- What is written about the call of a function. -/
def entryLine (debugger : Debugger) (name : String) : String :=
  debugger.indentation ++ name ++ "(" ++
    OperandStack.renderValues debugger.state.stack.frame ++ ")"

/-- What is written about the return from the current function. -/
def exitLine (debugger : Debugger) (value : Int32) : String :=
  debugger.indentation ++ "exit: " ++ debugger.current.displayName ++ ": " ++
    Decimal.ofInt32 value

end Debugger

@[simp] theorem DebugEffect.run_onMachine {α : Type} (effect : Effect α) (debugger : Debugger) :
    (onMachine effect).run debugger =
      match effect.run debugger.state with
      | .ok value state => .ok value (debugger.withState state)
      | .error fault state => .error fault (debugger.withState state) := rfl

theorem DebugEffect.run_traceEntry (name : String) (debugger : Debugger) :
    (traceEntry name).run debugger = .ok () (debugger.writeLine (debugger.entryLine name)) := rfl

theorem DebugEffect.run_traceExit (debugger : Debugger) :
    traceExit.run debugger =
      match debugger.state.stack.peek with
      | .ok value => .ok () (debugger.writeLine (debugger.exitLine value))
      | .error fault => .error fault debugger := by
  have inspected : (Effect.inspectStack OperandStack.peek).run debugger.state =
      match debugger.state.stack.peek with
      | .ok value => .ok value debugger.state
      | .error fault => .error fault debugger.state := rfl
  simp only [traceExit, EStateM.run_bind, run_onMachine, inspected]
  cases debugger.state.stack.peek with
  | ok value => rfl
  | error fault => rfl

/-- The switches where the run may have reached a line with a breakpoint. -/
def Switches.pausedAt (switches : Switches) (line : Option Nat) : Switches :=
  { switches with running := line.isNone && switches.running }

namespace Instruction

/-- What becomes of the activations when an instruction has left a stack behind. -/
def track (instruction : Instruction Jump) (stack : OperandStack)
    (activations : ActivationStack) : ActivationStack :=
  match instruction with
  | .call _ => activations.push
  | .ret _ => activations.pop
  | .lit _ (some name) => activations.modifyCurrent (·.bind name stack.topOffset)
  | .load offset (some name) | .store offset (some name) =>
      activations.modifyCurrent (·.bind name offset)
  | .pop _ => activations.modifyCurrent (·.forgetFrom stack.frameSize)
  | .line (some number) => activations.modifyCurrent (·.reachLine number)
  | .function name first last => activations.modifyCurrent (·.enterFunction name first last)
  | .formal name offset =>
      activations.modifyCurrent fun activation =>
        activation.bind name (offset.getD activation.bindings.length)
  | _ => activations

/-- The breakpoint that an instruction reaches. -/
def armedLine? (instruction : Instruction Jump) (breakpoints : Breakpoints) : Option Nat :=
  match instruction with
  | .line (some number) => if breakpoints.isArmed number then some number else none
  | _ => none

/-- A breakpoint that an instruction reaches keeps the machine from going on. -/
def interrupt (instruction : Instruction Jump) (breakpoints : Breakpoints) (state : State) :
    State :=
  if (instruction.armedLine? breakpoints).isSome then { state with running := false }
  else state

/-- What the debugger notes when the machine has carried out an instruction. -/
def note (instruction : Instruction Jump) (debugger : Debugger) : Debugger :=
  { debugger.withState (instruction.interrupt debugger.breakpoints debugger.state) with
    activations := instruction.track debugger.state.stack debugger.activations
    hit := (instruction.armedLine? debugger.breakpoints).or debugger.hit }

/-- Writes the line about a traced return, which needs a value to return. -/
def announceExit (instruction : Instruction Jump) (debugger : Debugger) :
    Except Fault Debugger :=
  match instruction with
  | .ret _ =>
      if debugger.tracing then
        debugger.state.stack.peek.map fun value => debugger.writeLine (debugger.exitLine value)
      else .ok debugger
  | _ => .ok debugger

def announceEntry (instruction : Instruction Jump) (debugger : Debugger) : Debugger :=
  match instruction with
  | .function name _ _ =>
      if debugger.tracing && 1 < debugger.depth then
        debugger.writeLine (debugger.entryLine name)
      else debugger
  | _ => debugger

/-- An instruction under the debugger is its effect on the machine between the
lines that are traced, with what the debugger notes. -/
theorem run_observe (instruction : Instruction Jump) (debugger : Debugger) :
    instruction.observe.run debugger =
      match instruction.announceExit debugger with
      | .error fault => .error fault debugger
      | .ok announced =>
          match instruction.execute.run announced.state with
          | .error fault state => .error fault (announced.withState state)
          | .ok _ state =>
              .ok ()
                (instruction.announceEntry (instruction.note (announced.withState state))) := by
  cases instruction with
  | args count | bop operator | goto destination | falseBranch destination | label name | halt
  | read | write | dump mode =>
      simp only [observe, DebugEffect.run_onMachine, announceExit]
      generalize EStateM.run (execute _) debugger.state = result
      cases result <;> rfl
  | pop count =>
      simp only [observe, EStateM.run_bind, DebugEffect.run_onMachine, announceExit]
      generalize EStateM.run (execute _) debugger.state = result
      cases result <;> rfl
  | lit value name => cases name <;> rfl
  | load offset name | store offset name =>
      cases name with
      | none | some name =>
          simp only [observe, EStateM.run_bind, DebugEffect.run_onMachine, announceExit]
          generalize EStateM.run (execute _) debugger.state = result
          cases result <;> rfl
  | call destination => rfl
  | ret owner =>
      cases traced : debugger.tracing with
      | false =>
          simp only [observe, EStateM.run_bind, EStateM.run_get, announceExit, traced,
            Bool.false_eq_true, if_false, DebugEffect.run_onMachine]
          generalize EStateM.run (execute _) debugger.state = result
          cases result <;> rfl
      | true =>
          simp only [observe, EStateM.run_bind, EStateM.run_get, announceExit, traced, if_true]
          rw [DebugEffect.run_traceExit]
          cases debugger.state.stack.peek with
          | error fault => rfl
          | ok value =>
              simp only [Except.map, DebugEffect.run_onMachine]
              generalize EStateM.run (execute _) _ = result
              cases result <;> rfl
  | line number =>
      cases number with
      | none => rfl
      | some number =>
          let reached := { debugger with
            activations := debugger.activations.modifyCurrent (·.reachLine number) }
          let stop : DebugEffect Unit := modify fun current =>
            { current.withState { current.state with running := false } with hit := some number }
          change EStateM.run
            (if debugger.breakpoints.isArmed number then stop else pure ()) reached =
            .ok () ((line (some number)).note debugger)
          simp only [note, interrupt, armedLine?]
          split
          · rfl
          · rfl
  | function name first last =>
      let entered := { debugger with
        activations := debugger.activations.modifyCurrent (·.enterFunction name first last) }
      change (if entered.tracing && 1 < entered.depth then DebugEffect.traceEntry name
          else pure ()).run entered =
        .ok () (if entered.tracing && 1 < entered.depth then
          entered.writeLine (entered.entryLine name) else entered)
      split
      · exact DebugEffect.run_traceEntry name entered
      · rfl
  | formal name offset => rfl

@[simp] theorem position_interrupt (instruction : Instruction Jump) (breakpoints : Breakpoints)
    (state : State) : (instruction.interrupt breakpoints state).position = state.position := by
  unfold interrupt
  split <;> rfl

theorem switches_interrupt (instruction : Instruction Jump) (breakpoints : Breakpoints)
    (state : State) :
    (instruction.interrupt breakpoints state).switches =
      state.switches.pausedAt (instruction.armedLine? breakpoints) := by
  unfold interrupt
  cases instruction.armedLine? breakpoints <;> rfl

theorem shown_interrupt (instruction : Instruction Jump) (breakpoints : Breakpoints)
    (state : State) :
    instruction.shown (instruction.interrupt breakpoints state) =
      instruction.interrupt breakpoints (instruction.shown state) := by
  unfold interrupt shown
  split <;> split <;> rfl

theorem advance_interrupt (instruction : Instruction Jump) (breakpoints : Breakpoints)
    (state : State) :
    (instruction.interrupt breakpoints state).advance =
      instruction.interrupt breakpoints state.advance := by
  unfold interrupt
  split <;> rfl

theorem eq_of_announceExit {instruction : Instruction Jump} {debugger announced : Debugger}
    (isAnnounced : instruction.announceExit debugger = .ok announced) :
    ∃ terminal, announced = debugger.withState { debugger.state with terminal } := by
  unfold announceExit at isAnnounced
  split at isAnnounced
  · split at isAnnounced
    · cases peeked : debugger.state.stack.peek with
      | error fault => simp [peeked, Except.map] at isAnnounced
      | ok value =>
          obtain rfl : debugger.writeLine (debugger.exitLine value) = announced := by
            simpa [peeked, Except.map] using isAnnounced
          exact ⟨_, rfl⟩
    · exact ⟨_, (Except.ok.inj isAnnounced).symm⟩
  · exact ⟨_, (Except.ok.inj isAnnounced).symm⟩

theorem peek_of_announceExit {instruction : Instruction Jump} {debugger : Debugger}
    {fault : Fault} (failed : instruction.announceExit debugger = .error fault) :
    debugger.state.stack.peek = .error fault := by
  unfold announceExit at failed
  split at failed
  · split at failed
    · cases peeked : debugger.state.stack.peek with
      | error raised => simpa [peeked, Except.map] using failed
      | ok value => simp [peeked, Except.map] at failed
    · contradiction
  · contradiction

theorem exists_announceEntry_eq (instruction : Instruction Jump) (debugger : Debugger) :
    ∃ terminal, instruction.announceEntry debugger =
      debugger.withState { debugger.state with terminal } := by
  unfold announceEntry
  split
  · split
    · exact ⟨_, rfl⟩
    · exact ⟨_, rfl⟩
  · exact ⟨_, rfl⟩

theorem announceExit_of_untraced (instruction : Instruction Jump) {debugger : Debugger}
    (untraced : debugger.tracing = false) : instruction.announceExit debugger = .ok debugger := by
  cases instruction <;> simp [announceExit, untraced]

theorem announceEntry_of_untraced (instruction : Instruction Jump) {debugger : Debugger}
    (untraced : debugger.tracing = false) : instruction.announceEntry debugger = debugger := by
  cases instruction <;> simp [announceEntry, untraced]

end Instruction

namespace Debugger

variable {instruction : Instruction Jump} {debugger next : Debugger}

theorem run_carryOut (instruction : Instruction Jump) (debugger : Debugger) :
    (carryOut instruction).run debugger =
      match instruction.observe.run debugger with
      | .ok _ observed =>
          .ok () (observed.withState (instruction.shown observed.state).advance)
      | .error fault failed => .error fault failed := by
  simp only [carryOut, EStateM.run_bind, DebugEffect.run_onMachine, Instruction.run_showAfter,
    EStateM.run_modify]
  cases instruction.observe.run debugger with
  | ok value observed => rfl
  | error fault failed => rfl

/-- What has become of a debugger when an instruction has been carried out. -/
structure CarriedOut (instruction : Instruction Jump) (debugger next : Debugger) : Prop where
  position : ∃ reached, debugger.state.position.Executes instruction reached ∧
    next.state.position = { reached with pc := reached.pc + 1 }
  program : next.machine.program = debugger.machine.program
  activations : next.activations = instruction.track next.state.stack debugger.activations
  breakpoints : next.breakpoints = debugger.breakpoints
  tracing : next.tracing = debugger.tracing
  mode : next.mode = debugger.mode
  hit : next.hit = (instruction.armedLine? debugger.breakpoints).or debugger.hit
  switches : next.state.switches =
    (instruction.setSwitches debugger.state.switches).pausedAt
      (instruction.armedLine? debugger.breakpoints)

/-- An instruction is carried out where its effect on the machine succeeds; apart from what the
debugger notes, only what is written depends on tracing and dumping. -/
theorem exists_execute_of_run_eq_ok {value : Unit}
    (carried : (carryOut instruction).run debugger = .ok value next) :
    ∃ terminal executed written,
      instruction.execute.run { debugger.state with terminal } = .ok () executed ∧
      next = (instruction.note (debugger.withState executed)).withState
        (instruction.shown { instruction.interrupt debugger.breakpoints executed with
          terminal := written }).advance := by
  rw [run_carryOut, Instruction.run_observe] at carried
  cases isAnnounced : instruction.announceExit debugger with
  | error fault => simp [isAnnounced] at carried
  | ok announced =>
      obtain ⟨terminal, rfl⟩ := Instruction.eq_of_announceExit isAnnounced
      simp only [isAnnounced, state_withState, withState_withState] at carried
      cases isExecuted : instruction.execute.run { debugger.state with terminal } with
      | error fault failed => simp [isExecuted] at carried
      | ok done executed =>
          obtain ⟨written, isWritten⟩ := instruction.exists_announceEntry_eq
            (instruction.note (debugger.withState executed))
          simp only [isExecuted, isWritten] at carried
          obtain ⟨-, rfl⟩ := EStateM.Result.ok.inj carried
          exact ⟨terminal, executed, written, isExecuted, rfl⟩

theorem carriedOut_of_run_eq_ok {value : Unit}
    (carried : (carryOut instruction).run debugger = .ok value next) :
    CarriedOut instruction debugger next := by
  obtain ⟨terminal, executed, written, isExecuted, rfl⟩ := exists_execute_of_run_eq_ok carried
  obtain ⟨executes, switched⟩ := Instruction.executes_of_execute_eq_ok isExecuted
  have position : (instruction.shown
      { instruction.interrupt debugger.breakpoints executed with
        terminal := written }).advance.position =
      { executed.position with pc := executed.position.pc + 1 } := by
    rw [State.position_advance, Instruction.position_shown,
      ← instruction.position_interrupt debugger.breakpoints executed]
    rfl
  refine ⟨⟨executed.position, executes, position⟩, rfl, ?_, rfl, rfl, rfl, rfl, ?_⟩
  · have stack := congrArg Position.stack position
    exact congrArg (instruction.track · debugger.activations) stack.symm
  · refine (instruction.switches_shown _).trans ?_
    refine (instruction.switches_interrupt debugger.breakpoints executed).trans ?_
    rw [switched]
    rfl

/-- An instruction fails where it has no value to trace, or where its effect on the
machine fails. -/
theorem execute_of_run_eq_error {fault : Fault}
    (failed : (carryOut instruction).run debugger = .error fault next) :
    (debugger.state.stack.peek = .error fault ∧ next = debugger) ∨
      ∃ terminal after,
        instruction.execute.run { debugger.state with terminal } = .error fault after ∧
          next = debugger.withState after := by
  rw [run_carryOut, Instruction.run_observe] at failed
  cases isAnnounced : instruction.announceExit debugger with
  | error raised =>
      simp only [isAnnounced] at failed
      obtain ⟨rfl, rfl⟩ := EStateM.Result.error.inj failed
      exact .inl ⟨Instruction.peek_of_announceExit isAnnounced, rfl⟩
  | ok announced =>
      obtain ⟨terminal, rfl⟩ := Instruction.eq_of_announceExit isAnnounced
      simp only [isAnnounced, state_withState, withState_withState] at failed
      cases isExecuted : instruction.execute.run { debugger.state with terminal } with
      | ok done executed => simp [isExecuted] at failed
      | error raised after =>
          simp only [isExecuted] at failed
          obtain ⟨rfl, rfl⟩ := EStateM.Result.error.inj failed
          exact .inr ⟨terminal, after, isExecuted, rfl⟩

/-- An instruction that fails has at most dropped values of the innermost frame
and used the terminal; what the debugger knows is as before. -/
theorem eq_of_run_eq_error {fault : Fault}
    (failed : (carryOut instruction).run debugger = .error fault next) :
    ∃ stack terminal, debugger.state.stack.Truncated stack ∧
      next = debugger.withState { debugger.state with stack, terminal } := by
  rcases execute_of_run_eq_error failed with ⟨-, rfl⟩ | ⟨used, after, isFailed, rfl⟩
  · exact ⟨_, _, .refl _, rfl⟩
  · obtain ⟨stack, terminal, truncated, rfl⟩ := Instruction.eq_of_execute_eq_error isFailed
    exact ⟨stack, terminal, truncated, rfl⟩

/-- Without tracing the debugger steps exactly as the machine does, except that a
breakpoint keeps it from going on. -/
theorem run_carryOut_of_untraced (untraced : debugger.tracing = false)
    (fetched : debugger.machine.program.fetch? debugger.state.pc = some instruction) :
    (carryOut instruction).run debugger =
      match (State.step debugger.machine.program).run debugger.state with
      | .error fault failed => .error fault (debugger.withState failed)
      | .ok _ stepped => .ok ()
          { debugger.withState (instruction.interrupt debugger.breakpoints stepped) with
            activations := instruction.track stepped.stack debugger.activations
            hit := (instruction.armedLine? debugger.breakpoints).or debugger.hit } := by
  rw [run_carryOut, Instruction.run_observe, instruction.announceExit_of_untraced untraced,
    State.run_step_of_some fetched]
  cases isExecuted : instruction.execute.run debugger.state with
  | error fault failed => simp [isExecuted]
  | ok done executed =>
      have stillUntraced : (instruction.note (debugger.withState executed)).tracing = false :=
        untraced
      have stack : (instruction.shown executed).advance.stack = executed.stack :=
        congrArg Position.stack (instruction.position_shown executed)
      simp only [isExecuted, instruction.announceEntry_of_untraced stillUntraced, stack,
        ← instruction.advance_interrupt, ← instruction.shown_interrupt]
      rfl

end Debugger

end StackDebugger
