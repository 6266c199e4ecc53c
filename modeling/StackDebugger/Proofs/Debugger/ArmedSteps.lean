import Mathlib.Data.List.Induction
import StackDebugger.Proofs.Debugger.Stepping

/-!
# A step counts where it was armed

A run disarms the step that it stops for, and any other that a breakpoint has overtaken; a run
that ends the program leaves its step armed, but then nothing can be resumed before a reset has
disarmed it.  So what is armed in a program that is not over was armed since the last run, where
the program still stands.
-/

namespace StackDebugger

/-- Where the step that is armed starts. -/
def RunMode.start? : RunMode → Option Snapshot
  | .untilBreakpoint => none
  | .stepOver start | .stepInto start | .stepOut start => some start

/-- What is armed behind an operation that leaves a program standing here. -/
def Operation.arms (here : Snapshot) (armed : RunMode) : Operation → RunMode
  | .resume | .adjust .reset => .untilBreakpoint
  | .adjust .armStepOver => .stepOver here
  | .adjust .armStepInto => .stepInto here
  | .adjust .armStepOut => .stepOut here
  | .adjust _ => armed

namespace Snapshot

/-- What is armed behind a sequence of operations that leaves a program standing here. -/
def armedBy (here : Snapshot) (operations : List Operation) : RunMode :=
  operations.foldl (Operation.arms here) .untilBreakpoint

theorem armedBy_append (here : Snapshot) (operations : List Operation) (operation : Operation) :
    here.armedBy (operations ++ [operation]) = operation.arms here (here.armedBy operations) := by
  rw [armedBy, List.foldl_append]
  rfl

/-- Whatever the operations were, a step that is armed starts here. -/
theorem armedBy_cases (here : Snapshot) (operations : List Operation) :
    here.armedBy operations = .untilBreakpoint ∨
      (here.armedBy operations).start? = some here := by
  induction operations using List.reverseRecOn with
  | nil => exact .inl rfl
  | append_singleton operations operation ih =>
      rw [armedBy_append]
      cases operation with
      | resume => exact .inl rfl
      | adjust adjustment =>
          cases adjustment with
          | reset => exact .inl rfl
          | armStepOver | armStepInto | armStepOut => exact .inr rfl
          | setBreakpoint line | clearBreakpoint line | clearBreakpoints | startTracing
          | turnOff => exact ih

end Snapshot

namespace Debugger

/-- The debugger waits for its program to be resumed, with what the operations have armed. -/
structure Awaits (operations : List Operation) (debugger : Debugger) : Prop where
  hit : debugger.hit = none
  running : debugger.state.running = false
  mode : debugger.mode = debugger.snapshot.armedBy operations

variable {debugger final : Debugger} {fuel : Nat} {passed : List Operation}

theorem awaits_create (program : Program) (source : List String) (terminal : Terminal) :
    Awaits [] (create program source terminal) :=
  ⟨rfl, rfl, rfl⟩

theorem awaits_adjust (adjustment : Adjustment)
    (awaits : debugger.isDone = false → Awaits passed debugger)
    (going : (adjustment.apply debugger).isDone = false) :
    Awaits (passed ++ [.adjust adjustment]) (adjustment.apply debugger) := by
  have armed := (adjustment.apply debugger).snapshot.armedBy_append passed (.adjust adjustment)
  cases adjustment with
  | reset => exact ⟨rfl, rfl, armed.symm⟩
  | turnOff => contradiction
  | armStepOver | armStepInto | armStepOut =>
      exact ⟨(awaits going).hit, (awaits going).running, armed.symm⟩
  | setBreakpoint line | clearBreakpoint line | clearBreakpoints | startTracing =>
      exact ⟨(awaits going).hit, (awaits going).running, (awaits going).mode.trans armed.symm⟩

/-- A stop ends the program, or leaves the debugger where nothing is armed. -/
theorem isDone_or_eq_suspend_of_stop? {start : Debugger} {count : Nat} {outcome : Outcome}
    (stopped : start.stop? count = some (outcome, final)) :
    final.isDone = true ∨ ∃ reached : Debugger, final = reached.suspend := by
  rcases stop?_cases stopped with ⟨attempt, -, made⟩ | ⟨reached, -, -, -, rfl⟩
  · rcases Attempt.stop?_cases made with ⟨fault, failed, -, -, rfl⟩ | ⟨reached, -, made⟩
    · exact .inl rfl
    · rcases made with ⟨-, rfl⟩ | ⟨line, -, rfl⟩ | ⟨-, -, rfl⟩
      · exact .inl rfl
      · exact .inr ⟨reached, rfl⟩
      · exact .inr ⟨reached, rfl⟩
  · exact .inl rfl

theorem awaits_resume {outcome : Outcome}
    (awaits : debugger.isDone = false → Awaits passed debugger)
    (ended : debugger.resume fuel = some (outcome, final)) (going : final.isDone = false) :
    Awaits (passed ++ [.resume]) final := by
  cases done : debugger.isDone with
  | true =>
      rw [resume_of_done done] at ended
      obtain ⟨-, rfl⟩ := Prod.mk.inj (Option.some.inj ended)
      simp [done] at going
  | false =>
      -- A stop that does not end the program disarms every step, so what was armed before is lost.
      obtain ⟨count, stops⟩ :=
        (exists_resume_iff_stopsAfter done (awaits done).hit).mp ⟨fuel, ended⟩
      rcases isDone_or_eq_suspend_of_stop? stops.stops with isOver | ⟨reached, rfl⟩
      · simp [isOver] at going
      · exact ⟨rfl, rfl, (reached.suspend.snapshot.armedBy_append passed .resume).symm⟩

theorem awaits_session {operations : List Operation} {outcomes : List Outcome}
    (awaits : debugger.isDone = false → Awaits passed debugger)
    (ended : debugger.session fuel operations = some (outcomes, final)) :
    final.isDone = false → Awaits (passed ++ operations) final := by
  let holds (passed : List Operation) (debugger : Debugger) : Prop :=
    debugger.isDone = false → Awaits passed debugger
  have reached : holds (passed ++ operations) final :=
    session_history awaits_adjust awaits_resume awaits ended
  exact reached

/-- A run that stops for a step does so by what was armed when it started. -/
theorem StopsAfter.stopsAt_of_step {start : Debugger} {count : Nat}
    (stops : start.StopsAfter count (.ok .step) final) :
    start.mode.stopsAt final.depth final.currentLine = true := by
  obtain ⟨before, instruction, reached, rfl, isLast, complete, rfl⟩ := stops.exists_of_step
  have kept {debugger next : Debugger} {instruction : Instruction Jump}
      (sameMode : debugger.mode = start.mode)
      (tried : debugger.attempt? = some ⟨instruction, .ok () next⟩) : next.mode = start.mode :=
    (carriedOut_of_run_eq_ok (run_carryOut_of_attempt? tried).2).mode.trans sameMode
  have passed : ∃ passed, start.after? before = some passed ∧ passed.mode = start.mode :=
    exists_after?_of_unstopped rfl (fun sameMode tried _ => kept sameMode tried)
      fun earlier isEarlier => stops.first earlier (Nat.lt_succ_of_le isEarlier)
  obtain ⟨passed, isAfter, sameMode⟩ := passed
  rw [last?, isAfter] at isLast
  rw [kept sameMode isLast] at complete
  exact complete

theorem stopsAt_of_resume (unhit : debugger.isDone = false → debugger.hit = none)
    (ended : debugger.resume fuel = some (.ok .step, final)) :
    debugger.isDone = false ∧ debugger.mode.stopsAt final.depth final.currentLine = true := by
  cases done : debugger.isDone with
  | true => simp [resume_of_done done] at ended
  | false =>
      obtain ⟨count, stops⟩ := (exists_resume_iff_stopsAfter done (unhit done)).mp ⟨fuel, ended⟩
      exact ⟨rfl, stops.stopsAt_of_step⟩

/-- No step is stale.  After any operations on a new debugger, a program that is not over waits
to be resumed: no breakpoint is left pending, the machine is not running, and what is armed is what
the operations since the last run or reset have armed, where the program now stands.  So a run that
stops for a step stops for one that was armed where the run started. -/
theorem steps_never_stale {program : Program} {source : List String} {terminal : Terminal}
    {fuel : Nat} {operations : List Operation} {outcomes : List Outcome} {debugger : Debugger}
    (ended : (create program source terminal).session fuel operations =
      some (outcomes, debugger)) :
    (debugger.isDone = false →
      (debugger.mode = .untilBreakpoint ∨ debugger.mode.start? = some debugger.snapshot) ∧
      debugger.hit = none ∧ debugger.state.running = false ∧
      debugger.mode = debugger.snapshot.armedBy operations) ∧
    ∀ more final, debugger.resume more = some (.ok .step, final) →
      debugger.isDone = false ∧ debugger.mode.start? = some debugger.snapshot ∧
        debugger.mode.stopsAt final.depth final.currentLine = true := by
  have awaits (going : debugger.isDone = false) : Awaits operations debugger :=
    awaits_session (fun _ => awaits_create program source terminal) ended going
  have armed (going : debugger.isDone = false) :
      debugger.mode = .untilBreakpoint ∨ debugger.mode.start? = some debugger.snapshot := by
    rw [(awaits going).mode]
    exact debugger.snapshot.armedBy_cases operations
  constructor
  · intro going
    exact ⟨armed going, (awaits going).hit, (awaits going).running, (awaits going).mode⟩
  · intro more final stepped
    obtain ⟨going, complete⟩ := stopsAt_of_resume (fun going => (awaits going).hit) stepped
    refine ⟨going, ?_, complete⟩
    rcases armed going with unarmed | isStart
    · simp [unarmed, RunMode.stopsAt] at complete
    · exact isStart

/-- A breakpoint has overtaken a step out, and of two steps armed there the second one counts. -/
theorem steps_never_stale_overtaken :
    let program : Program :=
      { code := #[.line (some 1), .line (some 2), .line (some 3), .halt] }
    ∃ debugger final,
      (create program [] {}).session 9
        [.adjust (.setBreakpoint 2), .adjust .armStepOut, .resume, .adjust .armStepInto,
          .adjust .armStepOver] = some ([.ok (.breakpoint 2)], debugger) ∧
      debugger.mode = .stepOver ⟨1, some 2⟩ ∧
      debugger.resume 9 = some (.ok .step, final) ∧
      debugger.mode.start? = some debugger.snapshot ∧
      debugger.mode.stopsAt final.depth final.currentLine = true := by
  intro program
  have ended : ∃ debugger, (create program [] {}).session 9
      [.adjust (.setBreakpoint 2), .adjust .armStepOut, .resume, .adjust .armStepInto,
        .adjust .armStepOver] = some ([.ok (.breakpoint 2)], debugger) ∧
      debugger.mode = .stepOver ⟨1, some 2⟩ ∧
      ∃ final, debugger.resume 9 = some (.ok .step, final) := ⟨_, rfl, rfl, _, rfl⟩
  obtain ⟨debugger, ended, mode, final, stepped⟩ := ended
  obtain ⟨-, isStart, complete⟩ := (steps_never_stale ended).2 9 final stepped
  exact ⟨debugger, final, ended, mode, stepped, isStart, complete⟩

/-- The end of a program leaves its step armed, and a reset disarms it. -/
example :
    let program : Program := { code := #[.line (some 1), .halt] }
    ∃ halted again,
      (create program [] {}).session 9 [.adjust .armStepOut, .resume] =
        some ([.ok .halted], halted) ∧
      halted.mode = .stepOut ⟨1, none⟩ ∧ halted.isDone = true ∧
      halted.session 9 [.adjust .reset] = some ([], again) ∧ again.mode = .untilBreakpoint :=
  ⟨_, _, rfl, rfl, rfl, rfl, rfl⟩

end Debugger

end StackDebugger
