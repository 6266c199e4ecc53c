import StackDebugger.Proofs.Debugger.CallStructure
import StackDebugger.Proofs.Debugger.FirstStop

/-!
# Failures are contained

An instruction that fails half-way has popped operands at most, and they were values of its own
frame.  So the run that it ends leaves the position, the pending calls, the frames and the
activations as they were before the instruction (`State.ContainsFailure`), with the program over.
Only a reset takes a program up again that is over: everything else finds it as it is.
-/

namespace StackDebugger

/-- The instruction that was next has failed and ended the program: nothing but values of the
innermost frame was dropped. -/
structure State.ContainsFailure (before after : State) : Prop where
  pc : after.pc = before.pc
  returns : after.returns = before.returns
  bases : after.stack.bases = before.stack.bases
  dumping : after.dumping = before.dumping
  values : after.stack.values.toList <+: before.stack.values.toList
  below : before.stack.values.toList.take before.stack.base <+: after.stack.values.toList
  running : after.running = false
  halted : after.halted = true

/-- Resumes a machine so many times, unless one of the runs does not return. -/
def Machine.resumes (fuel : Nat) : Nat → Machine → Option (List (Except Fault Unit) × Machine)
  | 0, machine => some ([], machine)
  | times + 1, machine =>
      match machine.resume fuel with
      | none => none
      | some (result, next) =>
          (next.resumes fuel times).map fun (later, final) => (result :: later, final)

/-- A failure has led from one machine to the other, which stays as it is however often it is
resumed. -/
structure Machine.ContainsFailure (before final : Machine) : Prop where
  state : before.state.ContainsFailure final.state
  later : ∀ fuel times,
    final.resumes (fuel + 1) times = some (List.replicate times (.ok ()), final)

/-- A failure has led from one debugger to the other, whose program and activations stay as they
are whatever is asked of it, unless it is reset. -/
structure Debugger.ContainsFailure (before final : Debugger) : Prop where
  state : before.state.ContainsFailure final.state
  activations : final.activations = before.activations
  later : ∀ fuel operations, .adjust .reset ∉ operations →
    ∃ later, final.session fuel operations =
        some (List.replicate (operations.count .resume) (.ok .halted), later) ∧
      later.state = final.state ∧ later.activations = final.activations

namespace State.ContainsFailure

variable {before after : State}

theorem of_truncated {stack : OperandStack} (truncated : before.stack.Truncated stack)
    (terminal : Terminal) :
    before.ContainsFailure { before with stack, terminal }.halt := by
  have bases : stack.bases = before.stack.bases := truncated.frameLocal.bases
  obtain ⟨size, fits, rfl⟩ := truncated
  have values : (before.stack.values.take size).toList = before.stack.values.toList.take size := by
    simp
  refine ⟨rfl, rfl, bases, rfl, ?_, ?_, rfl, rfl⟩
  · change (before.stack.values.take size).toList <+: _
    rw [values]
    exact List.take_prefix size _
  · change _ <+: (before.stack.values.take size).toList
    rw [values]
    exact List.take_prefix_take_left fits

/-- Whether the machine was running before the failure makes no difference. -/
theorem of_running {running : Bool}
    (contained : { before with running }.ContainsFailure after) :
    before.ContainsFailure after :=
  { contained with }

end State.ContainsFailure

namespace Machine

variable {machine final : Machine} {fault : Fault}

theorem start_of_over (stopped : machine.state.running = false)
    (done : machine.state.halted = true) : machine.start = machine := by
  rw [start, done, Bool.not_true, ← stopped]

theorem resumes_of_over (stopped : machine.state.running = false)
    (done : machine.state.halted = true) (fuel times : Nat) :
    machine.resumes (fuel + 1) times = some (List.replicate times (.ok ()), machine) := by
  induction times with
  | zero => rfl
  | succ times ih =>
      have resumed : machine.resume (fuel + 1) = some (.ok (), machine) := by
        rw [resume, start_of_over stopped done, proceed, stopped]
        rfl
      rw [resumes, resumed]
      simp only [ih, Option.map_some, List.replicate_succ]

theorem ContainsFailure.of_step {failed : Machine}
    (failing : machine.step = (.error fault, failed)) :
    machine.ContainsFailure { failed with state := failed.state.halt } := by
  obtain ⟨stack, terminal, truncated, isFailed⟩ :=
    State.eq_of_step_eq_error (step_eq_error_iff.mp failing).1
  refine ⟨?_, resumes_of_over rfl rfl⟩
  rw [isFailed]
  exact .of_truncated truncated terminal

/-- A run that fails has carried out some instructions and failed at the next one. -/
theorem exists_runs_of_proceed_eq_error {fuel : Nat}
    (ended : machine.proceed fuel = some (.error fault, final)) :
    ∃ count before failed, Runs count machine before ∧ before.step = (.error fault, failed) ∧
      final = { failed with state := failed.state.halt } := by
  induction fuel generalizing machine with
  | zero => simp [proceed] at ended
  | succ fuel ih =>
      rw [proceed] at ended
      split at ended
      · next running =>
          split at ended
          · next next stepped =>
              obtain ⟨count, before, failed, runs, failing, isFinal⟩ := ih ended
              exact ⟨count + 1, before, failed, .step running stepped runs, failing, isFinal⟩
          · next raised failed stepped =>
              obtain ⟨sameFault, rfl⟩ := Prod.mk.inj (Option.some.inj ended)
              obtain rfl := Except.error.inj sameFault
              exact ⟨0, machine, failed, .refl machine, stepped, rfl⟩
      · simp at ended

/-- Where the next instruction fails, a run fails at once. -/
theorem exists_resume_of_step_eq_error (going : machine.state.halted = false)
    (failing : machine.step.1 = .error fault) :
    ∃ final, (∀ fuel, machine.resume (fuel + 1) = some (.error fault, final)) ∧
      machine.ContainsFailure final := by
  have agrees : machine.Agrees machine.start := ⟨rfl, rfl, by simp [start], rfl, rfl, rfl⟩
  have running : machine.start.state.running = true := by rw [start, going]; rfl
  have startFailing : machine.start.step = (.error fault, machine.start.step.2) :=
    Prod.ext (agrees.step_alike.1.trans failing) rfl
  have contained := ContainsFailure.of_step startFailing
  refine ⟨_, ?_, contained.state.of_running, contained.later⟩
  intro fuel
  rw [resume, proceed, if_pos running, startFailing]

theorem exists_runs_of_resume_eq_error {fuel : Nat}
    (ended : machine.resume fuel = some (.error fault, final)) :
    ∃ count before, Runs count machine.start before ∧ before.step.1 = .error fault ∧
      before.ContainsFailure final := by
  obtain ⟨count, before, failed, runs, failing, rfl⟩ := exists_runs_of_proceed_eq_error ended
  exact ⟨count, before, runs, by rw [failing], .of_step failing⟩

end Machine

theorem Instruction.announceExit_setRunning (instruction : Instruction Jump) (debugger : Debugger) :
    instruction.announceExit debugger.setRunning =
      (instruction.announceExit debugger).map Debugger.setRunning := by
  unfold announceExit
  split
  · change (if debugger.tracing then Except.map _ debugger.state.stack.peek else _) = _
    split
    · cases debugger.state.stack.peek with
      | error fault => rfl
      | ok value => rfl
    · rfl
  · rfl

namespace Debugger

variable {debugger final : Debugger} {fault : Fault}

theorem adjust_of_over {adjustment : Adjustment} (kept : adjustment ≠ .reset)
    (stopped : debugger.state.running = false) (done : debugger.isDone = true) :
    (adjustment.apply debugger).state = debugger.state ∧
      (adjustment.apply debugger).activations = debugger.activations := by
  cases adjustment with
  | reset => contradiction
  | turnOff =>
      refine ⟨?_, rfl⟩
      change { debugger.state with running := false, halted := true } = debugger.state
      rw [← stopped, ← (show debugger.state.halted = true from done)]
  | armStepOver | armStepInto | armStepOut | setBreakpoint line | clearBreakpoint line
  | clearBreakpoints | startTracing => exact ⟨rfl, rfl⟩

/-- Nothing but a reset changes a program that is over, and every run finds it so. -/
theorem session_of_over (stopped : debugger.state.running = false)
    (done : debugger.isDone = true) (fuel : Nat) {operations : List Operation}
    (kept : .adjust .reset ∉ operations) :
    ∃ later, debugger.session fuel operations =
        some (List.replicate (operations.count .resume) (.ok .halted), later) ∧
      later.state = debugger.state ∧ later.activations = debugger.activations := by
  induction operations generalizing debugger with
  | nil => exact ⟨debugger, rfl, rfl, rfl⟩
  | cons operation operations ih =>
      have ⟨differs, rest⟩ := List.ne_and_not_mem_of_not_mem_cons kept
      cases operation with
      | adjust adjustment =>
          have notReset : adjustment ≠ .reset := fun isReset => differs (by rw [isReset])
          obtain ⟨sameState, sameActivations⟩ := adjust_of_over notReset stopped done
          obtain ⟨later, ended, isState, isActivations⟩ := ih
            (by rw [sameState]; exact stopped) (by rw [isDone, sameState]; exact done) rest
          refine ⟨later, ?_, isState.trans sameState, isActivations.trans sameActivations⟩
          rw [session, ended, List.count_cons_of_ne (by simp)]
      | resume =>
          obtain ⟨later, ended, isState, isActivations⟩ := ih stopped done rest
          refine ⟨later, ?_, isState, isActivations⟩
          rw [session, resume_of_done done, List.count_cons_self, List.replicate_succ]
          simp only [ended, Option.map_some]

theorem ContainsFailure.of_run {instruction : Instruction Jump} {failed : Debugger}
    (failing : (carryOut instruction).run debugger = .error fault failed) :
    debugger.ContainsFailure failed.turnOff := by
  obtain ⟨stack, terminal, truncated, rfl⟩ := eq_of_run_eq_error failing
  exact ⟨.of_truncated truncated terminal, rfl, fun fuel _ => session_of_over rfl rfl fuel⟩

/-- An instruction fails alike in a debugger that is set running. -/
theorem exists_run_carryOut_setRunning {instruction : Instruction Jump} {failed : Debugger}
    (failing : (carryOut instruction).run debugger = .error fault failed) :
    ∃ other, (carryOut instruction).run debugger.setRunning = .error fault other := by
  rw [run_carryOut, Instruction.run_observe] at failing ⊢
  rw [instruction.announceExit_setRunning]
  cases isAnnounced : instruction.announceExit debugger with
  | error raised =>
      simp only [isAnnounced] at failing
      obtain ⟨rfl, -⟩ := EStateM.Result.error.inj failing
      exact ⟨_, rfl⟩
  | ok announced =>
      have corresponds : State.Corresponds id Eq announced.state announced.setRunning.state :=
        ⟨rfl, by simp [setRunning], rfl, rfl, rfl⟩
      have results := instruction.simulates_execute .eq corresponds
      rw [instruction.relocate_id] at results
      simp only [isAnnounced, Except.map] at failing ⊢
      generalize instruction.execute.run announced.state = left at results failing
      generalize instruction.execute.run announced.setRunning.state = right at results ⊢
      cases results with
      | ok executed => simp at failing
      | error executed =>
          obtain ⟨rfl, -⟩ := EStateM.Result.error.inj failing
          exact ⟨_, rfl⟩

theorem exists_run_of_fault? (failing : debugger.advance.fault? = some fault) :
    ∃ instruction failed, debugger.machine.program.fetch? debugger.state.pc = some instruction ∧
      (carryOut instruction).run debugger = .error fault failed := by
  rcases debugger.advance_cases with ⟨-, advanced⟩ | ⟨_, next, -, -, advanced⟩ |
    ⟨instruction, raised, failed, fetched, isFailed, advanced⟩
  · simp [advanced, Progress.fault?] at failing
  · simp [advanced] at failing
  · rw [advanced] at failing
    obtain rfl := Option.some.inj failing
    exact ⟨instruction, failed, fetched, isFailed⟩

/-- Where the next instruction fails, a run fails at once. -/
theorem exists_resume_of_fault? (going : debugger.isDone = false)
    (failing : debugger.advance.fault? = some fault) :
    ∃ final, (∀ fuel, debugger.resume (fuel + 1) = some (.error fault, final)) ∧
      debugger.ContainsFailure final := by
  obtain ⟨instruction, failed, fetched, isFailed⟩ := exists_run_of_fault? failing
  obtain ⟨other, alsoFailed⟩ := exists_run_carryOut_setRunning isFailed
  have contained := ContainsFailure.of_run alsoFailed
  refine ⟨other.turnOff, ?_, contained.state.of_running, contained.activations, contained.later⟩
  intro fuel
  have advanced : debugger.setRunning.advance = .stopped (.error fault) other.turnOff :=
    advance_of_fault alsoFailed fetched
  rw [resume, if_neg (Bool.eq_false_iff.mp going)]
  change debugger.setRunning.proceed (fuel + 1) = _
  rw [proceed, advanced]

/-- A run that fails has carried out some instructions and failed at the next one. -/
theorem exists_after?_of_proceed_eq_error {fuel : Nat}
    (ended : debugger.proceed fuel = some (.error fault, final)) :
    ∃ count before, debugger.after? count = some before ∧
      before.advance.fault? = some fault ∧ before.ContainsFailure final := by
  induction fuel generalizing debugger with
  | zero => simp [proceed] at ended
  | succ fuel ih =>
      rw [proceed] at ended
      rcases debugger.advance_cases with ⟨-, advanced⟩ |
        ⟨instruction, next, fetched, carried, advanced⟩ |
        ⟨instruction, raised, failed, -, isFailed, advanced⟩
      · simp [advanced] at ended
      · split at ended
        · next going isGoing =>
            obtain ⟨-, -, -, rfl⟩ := judge_eq_going_iff.mp (advanced.symm.trans isGoing)
            obtain ⟨count, before, isAfter, failing, contained⟩ := ih ended
            refine ⟨count + 1, before, ?_, failing, contained⟩
            have tried : debugger.attempt? = some ⟨instruction, .ok () going⟩ := by
              rw [attempt?, fetched, Option.map_some, carried]
            rw [after?_succ tried]
            exact isAfter
        · next isStopped =>
            obtain ⟨rfl, rfl⟩ := Prod.mk.inj (Option.some.inj ended)
            have unfailed := next.fault?_judge
            rw [← advanced, isStopped] at unfailed
            contradiction
      · rw [advanced] at ended
        obtain ⟨sameFault, rfl⟩ := Prod.mk.inj (Option.some.inj ended)
        obtain rfl := Except.error.inj sameFault
        exact ⟨0, debugger, rfl, by rw [advanced]; rfl, .of_run isFailed⟩

theorem exists_after?_of_resume_eq_error {fuel : Nat}
    (ended : debugger.resume fuel = some (.error fault, final)) :
    ∃ count before, debugger.setRunning.after? count = some before ∧
      before.advance.fault? = some fault ∧ before.ContainsFailure final := by
  unfold resume at ended
  split at ended
  · simp at ended
  · exact exists_after?_of_proceed_eq_error ended

end Debugger

/-- Failures are contained, by the plain machine and by the debugger, with and without tracing.
A program that is not over and whose next instruction fails is ended by the run that meets it;
and a run that fails has carried out some instructions and failed at the next one.  Position,
pending calls, frames, dumping and activations are then as before that instruction, and the
values are the earlier ones up to some place at or above the base of the innermost frame.  All of
it stays so, with the output, through every operation that does not start the program again; and
every further run reports that the program is over. -/
theorem failures_contained (fault : Fault) :
    (∀ machine : Machine, machine.state.halted = false → machine.step.1 = .error fault →
      ∃ final, (∀ fuel, machine.resume (fuel + 1) = some (.error fault, final)) ∧
        machine.ContainsFailure final) ∧
    (∀ (machine final : Machine) (fuel : Nat), machine.resume fuel = some (.error fault, final) →
      ∃ count before, Machine.Runs count machine.start before ∧
        before.step.1 = .error fault ∧ before.ContainsFailure final) ∧
    (∀ debugger : Debugger, debugger.isDone = false → debugger.advance.fault? = some fault →
      ∃ final, (∀ fuel, debugger.resume (fuel + 1) = some (.error fault, final)) ∧
        debugger.ContainsFailure final) ∧
    ∀ (debugger final : Debugger) (fuel : Nat),
      debugger.resume fuel = some (.error fault, final) →
      ∃ count before, debugger.setRunning.after? count = some before ∧
        before.advance.fault? = some fault ∧ before.ContainsFailure final := by
  refine ⟨?_, ?_, ?_, ?_⟩
  · intro machine going failing
    exact Machine.exists_resume_of_step_eq_error going failing
  · intro machine final fuel ended
    exact Machine.exists_runs_of_resume_eq_error ended
  · intro debugger going failing
    exact Debugger.exists_resume_of_fault? going failing
  · intro debugger final fuel ended
    exact Debugger.exists_after?_of_resume_eq_error ended

/-- A division by zero inside a traced call has popped both operands and leaves the caller's
value, the pending call and both activations. -/
theorem failures_contained_division :
    let program : Program :=
      { code := #[.lit 4 none, .lit 7 none, .args 1, .call ⟨"f", 5⟩, .halt, .label "f",
          .function "f" (some 1) (some 2), .lit 0 none, .bop .div] }
    let machine := (fun current : Machine => current.step.2)^[6] (Machine.create program {})
    let debugger := (Debugger.create program [] {}).startTracing
    (∃ final, machine.resume 1 = some (.error .divisionByZero, final) ∧
      machine.ContainsFailure final) ∧
    ∃ final, debugger.resume 9 = some (.error .divisionByZero, final) ∧
      final.state.stack = { values := #[4], base := 1, callers := [0] } ∧
      final.state.returns = [3] ∧ final.depth = 2 ∧
      ∃ count before, debugger.setRunning.after? count = some before ∧
        before.ContainsFailure final := by
  intro program machine debugger
  obtain ⟨stepwise, -, -, running⟩ := failures_contained .divisionByZero
  constructor
  · obtain ⟨final, ended, contained⟩ := stepwise machine (by decide +kernel) (by decide +kernel)
    exact ⟨final, ended 0, contained⟩
  · have ended : ∃ final, debugger.resume 9 = some (.error .divisionByZero, final) ∧
        final.state.stack = { values := #[4], base := 1, callers := [0] } ∧
        final.state.returns = [3] ∧ final.depth = 2 := ⟨_, rfl, rfl, rfl, rfl⟩
    obtain ⟨final, ended, stack, returns, depth⟩ := ended
    obtain ⟨count, before, isAfter, -, contained⟩ := running debugger final 9 ended
    exact ⟨final, ended, stack, returns, depth, count, before, isAfter, contained⟩

end StackDebugger
