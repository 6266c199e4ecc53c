import StackDebugger.Machine.Basic
import StackDebugger.Proofs.Machine.Effects

/-!
# What instructions do to a run

The position of a run is its next instruction, its pending calls and its
frames.  `Position.Executes` lists every way in which an instruction that
succeeds can move it; an instruction that fails moves nothing and has at most
dropped values of the innermost frame.  Later proofs about calls and frames use
these two descriptions and never the effects themselves.
-/

namespace StackDebugger

/-- Where a run stands: its next instruction, its pending calls and its frames. -/
structure Position where
  pc : Nat
  returns : List Nat
  stack : OperandStack

def State.position (state : State) : Position :=
  { pc := state.pc, returns := state.returns, stack := state.stack }

/-- What turns a run on and off: whether it goes on, whether it is over, and
whether it is shown. -/
structure Switches where
  running : Bool
  halted : Bool
  dumping : Bool

def State.switches (state : State) : Switches :=
  { running := state.running, halted := state.halted, dumping := state.dumping }

/-- What an instruction does to the switches. -/
def Instruction.setSwitches : Instruction Jump → Switches → Switches
  | .halt, switches => { switches with running := false, halted := true }
  | .dump .on, switches => { switches with dumping := true }
  | .dump .off, switches => { switches with dumping := false }
  | _, switches => switches

/-- Whether an instruction may leave calls, frames and the next instruction alone. -/
def Instruction.isLocal : Instruction Jump → Bool
  | .args _ | .call _ | .ret _ | .goto _ => false
  | _ => true

namespace Position

/-- How an instruction that succeeds moves a run, before the run moves on to the
instruction behind the position that is reached. -/
inductive Executes : Instruction Jump → Position → Position → Prop where
  | stays {instruction : Instruction Jump} {start : Position} {stack : OperandStack} :
      instruction.isLocal → start.stack.FrameLocal stack →
      Executes instruction start { start with stack }
  | jumps {instruction : Instruction Jump} {destination : Jump} {start : Position}
      {stack : OperandStack} :
      instruction = .goto destination ∨ instruction = .falseBranch destination →
      start.stack.FrameLocal stack →
      Executes instruction start { start with pc := destination.target, stack }
  | opens {count : Nat} {start : Position} {stack : OperandStack} :
      start.stack.openFrame count = (.ok (), stack) →
      Executes (.args count) start { start with stack }
  | calls {destination : Jump} {start : Position} :
      Executes (.call destination) start
        { start with pc := destination.target, returns := start.pc :: start.returns }
  | returns {owner : Option String} {start : Position} {address : Nat} {outer : List Nat}
      {result : Int32} {stack : OperandStack} :
      start.returns = address :: outer →
      start.stack.closeFrame = (.ok result, stack) →
      Executes (.ret owner) start { pc := address, returns := outer, stack }

/-- One instruction is carried out and the run moves on. -/
def Advances (program : Program) (start finish : Position) : Prop :=
  ∃ instruction reached, program.fetch? start.pc = some instruction ∧
    Executes instruction start reached ∧ finish = { reached with pc := reached.pc + 1 }

end Position

namespace Instruction

theorem run_execute_ret_of_nil {owner : Option String} {state : State}
    (none : state.returns = []) :
    (ret owner).execute.run state = .error .returnWithoutCall state := by
  simp [execute, none]

theorem run_execute_ret_of_cons {owner : Option String} {state : State} {address : Nat}
    {outer : List Nat} (pending : state.returns = address :: outer) :
    (ret owner).execute.run state =
      (Effect.onStack OperandStack.closeFrame >>= fun _ =>
        modify fun closed => { closed with returns := outer, pc := address }).run state := by
  simp only [execute, EStateM.run_bind, EStateM.run_get, pending, Effect.discard_bind]

/-- An instruction that succeeds moves the position in one of the listed ways and
switches at most its own switches. -/
theorem executes_of_execute_eq_ok {instruction : Instruction Jump} {before after : State}
    {value : Unit} (executed : instruction.execute.run before = .ok value after) :
    Position.Executes instruction before.position after.position ∧
      after.switches = instruction.setSwitches before.switches := by
  cases instruction with
  | lit number name =>
      obtain ⟨-, rfl⟩ := EStateM.Result.ok.inj executed
      exact ⟨.stays rfl (.push _ _), rfl⟩
  | load offset name =>
      obtain ⟨found, middle, inspected, pushed⟩ := Effect.run_bind_eq_ok.mp executed
      obtain ⟨-, rfl⟩ := Effect.run_inspectStack_eq_ok.mp inspected
      obtain ⟨-, rfl⟩ := EStateM.Result.ok.inj pushed
      exact ⟨.stays rfl (.push _ _), rfl⟩
  | store offset name =>
      obtain ⟨found, middle, popped, stored⟩ := Effect.run_bind_eq_ok.mp executed
      obtain ⟨dropped, truncated, rfl⟩ := Effect.run_pop_eq_ok popped
      obtain ⟨stack, isStored, rfl⟩ := Effect.run_onStack_eq_ok.mp stored
      exact ⟨.stays rfl (truncated.frameLocal.trans (.store isStored)), rfl⟩
  | args count =>
      simp only [execute] at executed
      obtain ⟨stack, opened, rfl⟩ := Effect.run_onStack_eq_ok.mp executed
      exact ⟨.opens opened, rfl⟩
  | bop operator =>
      obtain ⟨right, middle, rightPopped, rest⟩ := Effect.run_bind_eq_ok.mp executed
      obtain ⟨left, lower, leftPopped, combined⟩ := Effect.run_bind_eq_ok.mp rest
      obtain ⟨_, firstTruncated, rfl⟩ := Effect.run_pop_eq_ok rightPopped
      obtain ⟨_, secondTruncated, rfl⟩ := Effect.run_pop_eq_ok leftPopped
      have truncated := firstTruncated.trans secondTruncated
      cases evaluated : operator.eval? left right with
      | none => simp [evaluated] at combined
      | some result =>
          simp only [evaluated] at combined
          obtain ⟨-, rfl⟩ := EStateM.Result.ok.inj combined
          exact ⟨.stays rfl (truncated.frameLocal.trans (.push _ _)), rfl⟩
  | call destination =>
      obtain ⟨-, rfl⟩ := EStateM.Result.ok.inj executed
      exact ⟨.calls, rfl⟩
  | ret owner =>
      cases isReturns : before.returns with
      | nil => simp [run_execute_ret_of_nil isReturns] at executed
      | cons address outer =>
          rw [run_execute_ret_of_cons isReturns] at executed
          obtain ⟨result, middle, closed, moved⟩ := Effect.run_bind_eq_ok.mp executed
          obtain ⟨stack, isClosed, rfl⟩ := Effect.run_onStack_eq_ok.mp closed
          obtain ⟨-, rfl⟩ := EStateM.Result.ok.inj moved
          exact ⟨.returns isReturns isClosed, rfl⟩
  | goto destination =>
      obtain ⟨-, rfl⟩ := EStateM.Result.ok.inj executed
      exact ⟨.jumps (.inl rfl) (.refl _), rfl⟩
  | falseBranch destination =>
      obtain ⟨condition, middle, popped, branched⟩ := Effect.run_bind_eq_ok.mp executed
      obtain ⟨_, truncated, rfl⟩ := Effect.run_pop_eq_ok popped
      split at branched
      · obtain ⟨-, rfl⟩ := EStateM.Result.ok.inj branched
        exact ⟨.jumps (.inr rfl) truncated.frameLocal, rfl⟩
      · obtain ⟨-, rfl⟩ := EStateM.Result.ok.inj branched
        exact ⟨.stays rfl truncated.frameLocal, rfl⟩
  | pop count =>
      obtain ⟨_, truncated, rfl⟩ := Effect.run_popMany_eq_ok executed
      exact ⟨.stays rfl truncated.frameLocal, rfl⟩
  | read =>
      obtain ⟨number, middle, isRead, pushed⟩ := Effect.run_bind_eq_ok.mp executed
      obtain ⟨terminal, rfl⟩ := Effect.run_readInteger_eq_ok isRead
      obtain ⟨-, rfl⟩ := EStateM.Result.ok.inj pushed
      exact ⟨.stays rfl (.push _ _), rfl⟩
  | write =>
      obtain ⟨number, middle, popped, written⟩ := Effect.run_bind_eq_ok.mp executed
      obtain ⟨_, truncated, rfl⟩ := Effect.run_pop_eq_ok popped
      obtain ⟨-, rfl⟩ := EStateM.Result.ok.inj written
      exact ⟨.stays rfl truncated.frameLocal, rfl⟩
  | dump mode =>
      cases mode with
      | now | on | off =>
          obtain ⟨-, rfl⟩ := EStateM.Result.ok.inj executed
          exact ⟨.stays rfl (.refl _), rfl⟩
  | halt | label name | line number | function name first last | formal name offset =>
      obtain ⟨-, rfl⟩ := EStateM.Result.ok.inj executed
      exact ⟨.stays rfl (.refl _), rfl⟩

/-- An instruction that fails has at most dropped values of the innermost frame
and used the terminal. -/
theorem eq_of_execute_eq_error {instruction : Instruction Jump} {before after : State}
    {fault : Fault} (failed : instruction.execute.run before = .error fault after) :
    ∃ stack terminal, before.stack.Truncated stack ∧
      after = { before with stack, terminal } := by
  cases instruction with
  | load offset name =>
      rcases Effect.run_bind_eq_error.mp failed with inspected | ⟨found, middle, -, pushed⟩
      · obtain ⟨-, rfl⟩ := Effect.run_inspectStack_eq_error.mp inspected
        exact ⟨_, _, .refl _, rfl⟩
      · simp at pushed
  | store offset name =>
      rcases Effect.run_bind_eq_error.mp failed with unpopped | ⟨found, middle, popped, unstored⟩
      · obtain rfl := Effect.run_pop_eq_error unpopped
        exact ⟨_, _, .refl _, rfl⟩
      · obtain ⟨_, truncated, rfl⟩ := Effect.run_pop_eq_ok popped
        obtain ⟨-, rfl⟩ := (Effect.run_onStack_eq_error (OperandStack.atomic_store _ _)).mp unstored
        exact ⟨_, _, truncated, rfl⟩
  | args count =>
      simp only [execute] at failed
      obtain ⟨-, rfl⟩ := (Effect.run_onStack_eq_error (OperandStack.atomic_openFrame _)).mp failed
      exact ⟨_, _, .refl _, rfl⟩
  | bop operator =>
      rcases Effect.run_bind_eq_error.mp failed with unpopped | ⟨right, middle, popped, rest⟩
      · obtain rfl := Effect.run_pop_eq_error unpopped
        exact ⟨_, _, .refl _, rfl⟩
      · obtain ⟨_, firstTruncated, rfl⟩ := Effect.run_pop_eq_ok popped
        rcases Effect.run_bind_eq_error.mp rest with unpopped | ⟨left, lower, popped, combined⟩
        · obtain rfl := Effect.run_pop_eq_error unpopped
          exact ⟨_, _, firstTruncated, rfl⟩
        · obtain ⟨_, secondTruncated, rfl⟩ := Effect.run_pop_eq_ok popped
          cases evaluated : operator.eval? left right with
          | some result => simp [evaluated] at combined
          | none =>
              simp only [evaluated] at combined
              obtain ⟨-, rfl⟩ := EStateM.Result.error.inj combined
              exact ⟨_, _, firstTruncated.trans secondTruncated, rfl⟩
  | ret owner =>
      rcases isReturns : before.returns with _ | ⟨address, outer⟩
      · rw [run_execute_ret_of_nil isReturns] at failed
        obtain ⟨-, rfl⟩ := EStateM.Result.error.inj failed
        exact ⟨_, _, .refl _, by rw [← isReturns]⟩
      · rw [run_execute_ret_of_cons isReturns] at failed
        rcases Effect.run_bind_eq_error.mp failed with unclosed | ⟨_, _, -, moved⟩
        · obtain ⟨-, rfl⟩ :=
            (Effect.run_onStack_eq_error OperandStack.atomic_closeFrame).mp unclosed
          exact ⟨_, _, .refl _, by rw [← isReturns]⟩
        · simp at moved
  | falseBranch destination =>
      rcases Effect.run_bind_eq_error.mp failed with unpopped | ⟨condition, _, -, branched⟩
      · obtain rfl := Effect.run_pop_eq_error unpopped
        exact ⟨_, _, .refl _, rfl⟩
      · split at branched <;> simp at branched
  | pop count =>
      obtain ⟨_, truncated, rfl⟩ := Effect.run_popMany_eq_error failed
      exact ⟨_, _, truncated, rfl⟩
  | read =>
      rcases Effect.run_bind_eq_error.mp failed with unread | ⟨number, _, -, pushed⟩
      · obtain ⟨terminal, rfl⟩ := Effect.run_readInteger_eq_error unread
        exact ⟨_, terminal, .refl _, rfl⟩
      · simp at pushed
  | write =>
      rcases Effect.run_bind_eq_error.mp failed with unpopped | ⟨number, _, -, written⟩
      · obtain rfl := Effect.run_pop_eq_error unpopped
        exact ⟨_, _, .refl _, rfl⟩
      · simp at written
  | dump mode => cases mode <;> simp [execute] at failed
  | lit number name => simp [execute] at failed
  | call destination => simp [execute] at failed
  | goto destination => simp [execute] at failed
  | label name => simp [execute] at failed
  | halt => simp [execute] at failed
  | line number => simp [execute] at failed
  | function name first last => simp [execute] at failed
  | formal name offset => simp [execute] at failed

/-- The state in which a dumping run has shown an instruction. -/
def shown (instruction : Instruction Jump) (state : State) : State :=
  if state.dumping && !instruction.isDump then
    (state.writeLine instruction.symbolic.render).writeLine state.stack.render
  else state

@[simp] theorem run_showAfter (instruction : Instruction Jump) (state : State) :
    instruction.showAfter.run state = .ok () (instruction.shown state) := by
  simp only [showAfter, shown, EStateM.run_bind, EStateM.run_get]
  split <;> rfl

@[simp] theorem position_shown (instruction : Instruction Jump) (state : State) :
    (instruction.shown state).position = state.position := by
  unfold shown
  split <;> rfl

@[simp] theorem switches_shown (instruction : Instruction Jump) (state : State) :
    (instruction.shown state).switches = state.switches := by
  unfold shown
  split <;> rfl

end Instruction

namespace State

variable {program : Program} {state : State}

@[simp] theorem position_advance (state : State) :
    state.advance.position = { state.position with pc := state.position.pc + 1 } := rfl

theorem run_step_of_none (atEnd : program.fetch? state.pc = none) :
    (step program).run state = .ok () state.halt := by
  simp [step, atEnd]

theorem run_step_of_some {instruction : Instruction Jump}
    (fetched : program.fetch? state.pc = some instruction) :
    (step program).run state =
      match instruction.execute.run state with
      | .ok _ executed => .ok () (instruction.shown executed).advance
      | .error fault failed => .error fault failed := by
  simp only [step, EStateM.run_bind, EStateM.run_get, fetched, Instruction.run_showAfter,
    EStateM.run_modify]
  cases instruction.execute.run state with
  | ok value executed => rfl
  | error fault failed => rfl

/-- A step that succeeds carries out an instruction, or finds none and halts. -/
theorem advances_of_step_eq_ok {next : State} {value : Unit}
    (stepped : (step program).run state = .ok value next) :
    (program.fetch? state.pc = none ∧ next = state.halt) ∨
      state.position.Advances program next.position := by
  cases fetched : program.fetch? state.pc with
  | none =>
      rw [run_step_of_none fetched] at stepped
      exact .inl ⟨rfl, (EStateM.Result.ok.inj stepped).2.symm⟩
  | some instruction =>
      rw [run_step_of_some fetched] at stepped
      split at stepped
      · next executed isExecuted =>
          obtain ⟨-, rfl⟩ := EStateM.Result.ok.inj stepped
          have executes := (Instruction.executes_of_execute_eq_ok isExecuted).1
          exact .inr ⟨instruction, executed.position, fetched, executes, by simp⟩
      · contradiction

/-- A run that goes on until it is over still does so after a step. -/
theorem running_eq_not_halted_of_step_eq_ok {next : State} {value : Unit}
    (stepped : (step program).run state = .ok value next)
    (before : state.running = !state.halted) : next.running = !next.halted := by
  cases fetched : program.fetch? state.pc with
  | none =>
      rw [run_step_of_none fetched] at stepped
      obtain ⟨-, rfl⟩ := EStateM.Result.ok.inj stepped
      rfl
  | some instruction =>
      rw [run_step_of_some fetched] at stepped
      split at stepped
      · next executed isExecuted =>
          obtain ⟨-, rfl⟩ := EStateM.Result.ok.inj stepped
          have switches : (instruction.shown executed).switches =
              instruction.setSwitches state.switches := by
            rw [instruction.switches_shown, (Instruction.executes_of_execute_eq_ok isExecuted).2]
          change (instruction.shown executed).switches.running =
            !(instruction.shown executed).switches.halted
          rw [switches]
          unfold Instruction.setSwitches
          split
          · rfl
          · exact before
          · exact before
          · exact before
      · contradiction

/-- A step fails where its instruction does. -/
theorem exists_execute_of_step_eq_error {next : State} {fault : Fault}
    (failed : (step program).run state = .error fault next) :
    ∃ instruction, program.fetch? state.pc = some instruction ∧
      instruction.execute.run state = .error fault next := by
  cases fetched : program.fetch? state.pc with
  | none => simp [run_step_of_none fetched] at failed
  | some instruction =>
      refine ⟨instruction, rfl, ?_⟩
      rw [run_step_of_some fetched] at failed
      split at failed
      · contradiction
      · next isFailed =>
          obtain ⟨rfl, rfl⟩ := EStateM.Result.error.inj failed
          exact isFailed

/-- A step that fails has at most dropped values of the innermost frame and used
the terminal. -/
theorem eq_of_step_eq_error {next : State} {fault : Fault}
    (failed : (step program).run state = .error fault next) :
    ∃ stack terminal, state.stack.Truncated stack ∧ next = { state with stack, terminal } := by
  obtain ⟨instruction, -, isFailed⟩ := exists_execute_of_step_eq_error failed
  exact Instruction.eq_of_execute_eq_error isFailed

end State

end StackDebugger
