import StackDebugger.Proofs.Machine.CallStructure
import StackDebugger.Proofs.Program.Annotation

/-!
# Running without source annotations

A machine that runs a program, and a plain one that runs it without its source
annotations, go through corresponding states: `Machine.StrippedTo`.  The plain one
rests while the other passes an annotation.  Since annotations are passed one
after another towards the end of the code, only finitely many follow each other,
and either machine ends if and only if the other does.
-/

namespace StackDebugger

/-- The program never starts to show what it does. -/
def Program.NeverDumps (program : Program) : Prop :=
  ∀ index, program.fetch? index ≠ some (.dump .on)

@[simp] theorem Instruction.setSwitches_relocate (rename : Nat → Nat)
    (instruction : Instruction Jump) (switches : Switches) :
    (instruction.relocate rename).setSwitches switches = instruction.setSwitches switches := by
  cases instruction <;> rfl

/-- An instruction that is kept leads to one that is kept: to itself, to a label, or
to a call. -/
theorem Position.Executes.exists_kept {program : Program} {instruction : Instruction Jump}
    {start reached : Position} (isResolved : program.IsResolved)
    (executes : start.Executes instruction reached)
    (fetched : program.fetch? start.pc = some instruction) (kept : instruction.isKept = true)
    (pending : ∀ address ∈ start.returns, program.CallAt address) :
    ∃ landed, program.fetch? reached.pc = some landed ∧ landed.isKept = true := by
  cases executes with
  | stays _ _ | opens _ => exact ⟨_, fetched, kept⟩
  | @jumps _ destination _ _ isJump _ =>
      have named : instruction.destination? = some destination := by
        rcases isJump with rfl | rfl <;> rfl
      exact ⟨_, isResolved.fetch?_target fetched named, rfl⟩
  | calls => exact ⟨_, isResolved.fetch?_target fetched rfl, rfl⟩
  | @returns _ _ address _ _ _ isReturns _ =>
      obtain ⟨destination, isCall⟩ := pending address (by simp [isReturns])
      exact ⟨_, isCall, rfl⟩

namespace Machine

/-- The plain machine stands where the machine of the annotated program stands. -/
structure StrippedTo (program : Program) (machine plain : Machine) : Prop where
  annotated : machine.program = program
  stripped : plain.program = program.stripped
  state : State.Corresponds program.keptBefore Eq machine.state plain.state
  switches : plain.state.switches = machine.state.switches
  undumped : machine.state.dumping = false
  pending : ∀ address ∈ machine.state.returns, program.CallAt address

/-- Both machines take a step, or both fail with the same fault. -/
inductive StepsAlike (program : Program) (machine plain : Machine) : Prop where
  | ok {next plainNext : Machine} :
      machine.step = (.ok (), next) → plain.step = (.ok (), plainNext) →
      StrippedTo program next plainNext → StepsAlike program machine plain
  | error {fault : Fault} {failed plainFailed : Machine} :
      machine.step = (.error fault, failed) → plain.step = (.error fault, plainFailed) →
      StrippedTo program failed plainFailed → StepsAlike program machine plain

namespace StrippedTo

variable {program : Program} {machine plain : Machine} {instruction : Instruction Jump}

theorem halt (strippedTo : StrippedTo program machine plain) :
    StrippedTo program { machine with state := machine.state.halt }
      { plain with state := plain.state.halt } := by
  have dumping := congrArg Switches.dumping strippedTo.switches
  refine ⟨strippedTo.annotated, strippedTo.stripped, { strippedTo.state with }, ?_,
    strippedTo.undumped, strippedTo.pending⟩
  change Switches.mk false true plain.state.dumping = Switches.mk false true machine.state.dumping
  exact congrArg (Switches.mk false true) dumping

theorem stepsAlike_of_none (strippedTo : StrippedTo program machine plain)
    (atEnd : program.fetch? machine.state.pc = none) : StepsAlike program machine plain := by
  have plainEnd := Program.fetch?_stripped_of_none atEnd
  rw [← strippedTo.state.pc, ← strippedTo.stripped] at plainEnd
  rw [← strippedTo.annotated] at atEnd
  exact .ok (step_of_run_eq_ok (State.run_step_of_none atEnd))
    (step_of_run_eq_ok (State.run_step_of_none plainEnd)) strippedTo.halt

theorem undumped_of_execute {executed : State} {value : Unit} (neverDumps : program.NeverDumps)
    (strippedTo : StrippedTo program machine plain)
    (fetched : program.fetch? machine.state.pc = some instruction)
    (isExecuted : instruction.execute.run machine.state = .ok value executed) :
    executed.dumping = false := by
  have switches := (Instruction.executes_of_execute_eq_ok isExecuted).2
  have dumping : executed.dumping = (instruction.setSwitches machine.state.switches).dumping :=
    congrArg Switches.dumping switches
  rw [dumping]
  unfold Instruction.setSwitches
  split
  · exact strippedTo.undumped
  · exact absurd fetched (neverDumps _)
  · rfl
  · exact strippedTo.undumped

/-- Both machines move on behind an instruction that both have carried out. -/
theorem advance (isResolved : program.IsResolved) (neverDumps : program.NeverDumps)
    (strippedTo : StrippedTo program machine plain)
    (fetched : program.fetch? machine.state.pc = some instruction)
    (kept : instruction.isKept = true) {executed plainExecuted : State} {value : Unit}
    (isExecuted : instruction.execute.run machine.state = .ok value executed)
    (isPlainExecuted : (instruction.relocate program.keptBefore).execute.run plain.state =
      .ok value plainExecuted)
    (corresponds : State.Corresponds program.keptBefore Eq executed plainExecuted) :
    StrippedTo program { machine with state := (instruction.shown executed).advance }
      { plain with
        state := ((instruction.relocate program.keptBefore).shown plainExecuted).advance } := by
  obtain ⟨executes, switches⟩ := Instruction.executes_of_execute_eq_ok isExecuted
  obtain ⟨-, plainSwitches⟩ := Instruction.executes_of_execute_eq_ok isPlainExecuted
  have shown := corresponds.shown .eq instruction
  have samePosition := instruction.position_shown executed
  refine ⟨strippedTo.annotated, strippedTo.stripped, { shown with pc := ?_ }, ?_, ?_, ?_⟩
  · obtain ⟨landed, isLanded, landedKept⟩ :=
      executes.exists_kept isResolved fetched kept strippedTo.pending
    have counted := Program.keptBefore_succ isLanded
    rw [if_pos landedKept] at counted
    have samePc : (instruction.shown executed).pc = executed.pc :=
      congrArg Position.pc samePosition
    change _ + 1 = program.keptBefore ((instruction.shown executed).pc + 1)
    rw [shown.pc, samePc]
    exact counted.symm
  · calc
      ((instruction.relocate program.keptBefore).shown plainExecuted).advance.switches
          = plainExecuted.switches := Instruction.switches_shown _ _
      _ = instruction.setSwitches machine.state.switches := by
        rw [plainSwitches, Instruction.setSwitches_relocate, strippedTo.switches]
      _ = (instruction.shown executed).switches := by
        rw [Instruction.switches_shown, switches]
  · have dumping : (instruction.shown executed).dumping = executed.dumping :=
      congrArg Switches.dumping (instruction.switches_shown executed)
    exact dumping.trans (strippedTo.undumped_of_execute neverDumps fetched isExecuted)
  · have sameReturns : (instruction.shown executed).returns = executed.returns :=
      congrArg Position.returns samePosition
    change ∀ address ∈ (instruction.shown executed).returns, _
    rw [sameReturns]
    exact executes.pending fetched strippedTo.pending

theorem stepsAlike_of_kept (isResolved : program.IsResolved) (neverDumps : program.NeverDumps)
    (strippedTo : StrippedTo program machine plain)
    (fetched : program.fetch? machine.state.pc = some instruction)
    (kept : instruction.isKept = true) : StepsAlike program machine plain := by
  have plainFetched := Program.fetch?_stripped fetched kept
  rw [← strippedTo.state.pc, ← strippedTo.stripped] at plainFetched
  have ran := State.run_step_of_some fetched
  rw [← strippedTo.annotated] at ran
  have plainRan := State.run_step_of_some plainFetched
  have results := instruction.simulates_execute .eq strippedTo.state
  generalize isExecuted : instruction.execute.run machine.state = result at results ran
  generalize isPlainExecuted :
    (instruction.relocate program.keptBefore).execute.run plain.state = plainResult
      at results plainRan
  cases results with
  | @ok value executed plainExecuted corresponds =>
      exact .ok (step_of_run_eq_ok ran) (step_of_run_eq_ok plainRan)
        (strippedTo.advance isResolved neverDumps fetched kept isExecuted isPlainExecuted
          corresponds)
  | @error fault failed plainFailed corresponds =>
      obtain ⟨stack, terminal, -, rfl⟩ := Instruction.eq_of_execute_eq_error isExecuted
      obtain ⟨_, _, -, rfl⟩ := Instruction.eq_of_execute_eq_error isPlainExecuted
      exact .error (step_of_run_eq_error ran) (step_of_run_eq_error plainRan)
        ⟨strippedTo.annotated, strippedTo.stripped, corresponds, strippedTo.switches,
          strippedTo.undumped, strippedTo.pending⟩

/-- The plain machine rests while a source annotation is passed. -/
theorem step_of_annotation (strippedTo : StrippedTo program machine plain)
    (fetched : program.fetch? machine.state.pc = some instruction)
    (dropped : instruction.isKept = false) :
    machine.step = (.ok (), { machine with state := machine.state.advance }) ∧
      StrippedTo program { machine with state := machine.state.advance } plain := by
  have executed : instruction.execute.run machine.state = .ok () machine.state := by
    cases instruction with
    | line number | function name first last | formal name offset => rfl
    | _ => contradiction
  have shown : instruction.shown machine.state = machine.state := by
    simp [Instruction.shown, strippedTo.undumped]
  have ran := State.run_step_of_some fetched
  rw [← strippedTo.annotated] at ran
  simp only [executed, shown] at ran
  refine ⟨step_of_run_eq_ok ran, strippedTo.annotated, strippedTo.stripped,
    { strippedTo.state with pc := ?_ }, strippedTo.switches, strippedTo.undumped,
    strippedTo.pending⟩
  change plain.state.pc = program.keptBefore (machine.state.pc + 1)
  rw [Program.keptBefore_succ fetched, if_neg (by simp [dropped]), strippedTo.state.pc]
  rfl

/-- One step: both machines take it alike, or the plain one rests while a source
annotation is passed. -/
theorem step (isResolved : program.IsResolved) (neverDumps : program.NeverDumps)
    (strippedTo : StrippedTo program machine plain) :
    StepsAlike program machine plain ∨
      ∃ next, machine.step = (.ok (), next) ∧
        program.size - next.state.pc < program.size - machine.state.pc ∧
        StrippedTo program next plain := by
  cases fetched : program.fetch? machine.state.pc with
  | none => exact .inl (strippedTo.stepsAlike_of_none fetched)
  | some instruction =>
      cases kept : instruction.isKept with
      | true => exact .inl (strippedTo.stepsAlike_of_kept isResolved neverDumps fetched kept)
      | false =>
          obtain ⟨stepped, strippedNext⟩ := strippedTo.step_of_annotation fetched kept
          have inside : machine.state.pc < program.size := (Array.getElem?_eq_some_iff.mp fetched).1
          refine .inr ⟨_, stepped, ?_, strippedNext⟩
          change program.size - (machine.state.pc + 1) < _
          omega

theorem running_eq (strippedTo : StrippedTo program machine plain) :
    plain.state.running = machine.state.running :=
  congrArg Switches.running strippedTo.switches

/-- Where the machine ends, the plain one ends in the same way. -/
theorem proceed {fuel : Nat} {result : Except Fault Unit} {final : Machine}
    (isResolved : program.IsResolved) (neverDumps : program.NeverDumps)
    (strippedTo : StrippedTo program machine plain)
    (ended : machine.proceed fuel = some (result, final)) :
    ∃ plainFuel plainFinal, plain.proceed plainFuel = some (result, plainFinal) ∧
      StrippedTo program final plainFinal := by
  induction fuel generalizing machine plain with
  | zero => simp [Machine.proceed] at ended
  | succ fuel ih =>
      have sameRunning := strippedTo.running_eq
      rw [Machine.proceed] at ended
      split at ended
      · next running =>
          rw [running] at sameRunning
          rcases strippedTo.step isResolved neverDumps with
            stepsAlike | ⟨next, stepped, -, strippedNext⟩
          · cases stepsAlike with
            | ok stepped plainStepped strippedNext =>
                rw [stepped] at ended
                obtain ⟨plainFuel, plainFinal, plainEnded, strippedFinal⟩ := ih strippedNext ended
                refine ⟨plainFuel + 1, plainFinal, ?_, strippedFinal⟩
                simpa [Machine.proceed, sameRunning, plainStepped] using plainEnded
            | error stepped plainStepped strippedFailed =>
                rw [stepped] at ended
                obtain ⟨rfl, rfl⟩ := Prod.mk.inj (Option.some.inj ended)
                refine ⟨1, _, ?_, strippedFailed.halt⟩
                simp [Machine.proceed, sameRunning, plainStepped]
          · rw [stepped] at ended
            exact ih strippedNext ended
      · next stopped =>
          obtain ⟨rfl, rfl⟩ := Prod.mk.inj (Option.some.inj ended)
          have plainStopped : ¬ plain.state.running = true := by
            rw [sameRunning]
            exact stopped
          exact ⟨1, plain, by simp [Machine.proceed, plainStopped], strippedTo⟩

/-- A running machine comes to an instruction that both machines carry out. -/
theorem exists_stepsAlike (isResolved : program.IsResolved) (neverDumps : program.NeverDumps)
    (strippedTo : StrippedTo program machine plain) (running : plain.state.running = true) :
    ∃ count next, machine.Runs count next ∧ next.state.running = true ∧
      StepsAlike program next plain := by
  have annotatedRunning := strippedTo.running_eq.symm.trans running
  -- by induction on how much code lies ahead, since annotations never jump
  induction ahead : program.size - machine.state.pc using Nat.strongRecOn generalizing machine with
  | ind distance ih =>
      rcases strippedTo.step isResolved neverDumps with
        stepsAlike | ⟨next, stepped, closer, strippedNext⟩
      · exact ⟨0, machine, .refl machine, annotatedRunning, stepsAlike⟩
      · rw [ahead] at closer
        obtain ⟨count, reached, runs, reachedRunning, stepsAlike⟩ :=
          ih _ closer strippedNext (strippedNext.running_eq.symm.trans running) rfl
        exact ⟨count + 1, reached, .step annotatedRunning stepped runs, reachedRunning, stepsAlike⟩

/-- Where the plain machine ends, the other one ends as well. -/
theorem exists_proceed {fuel : Nat} {result : Except Fault Unit × Machine}
    (isResolved : program.IsResolved) (neverDumps : program.NeverDumps)
    (strippedTo : StrippedTo program machine plain)
    (ended : plain.proceed fuel = some result) :
    ∃ annotatedFuel annotatedResult, machine.proceed annotatedFuel = some annotatedResult := by
  induction fuel generalizing machine plain with
  | zero => simp [Machine.proceed] at ended
  | succ fuel ih =>
      rw [Machine.proceed] at ended
      split at ended
      · next running =>
          obtain ⟨count, reached, runs, reachedRunning, stepsAlike⟩ :=
            strippedTo.exists_stepsAlike isResolved neverDumps running
          cases stepsAlike with
          | ok stepped plainStepped strippedNext =>
              rw [plainStepped] at ended
              obtain ⟨rest, annotatedResult, annotatedEnded⟩ := ih strippedNext ended
              have goesOn : reached.proceed (rest + 1) = some annotatedResult := by
                simpa [Machine.proceed, reachedRunning, stepped] using annotatedEnded
              exact ⟨_, _, runs.proceed goesOn⟩
          | @error fault failed _ stepped _ _ =>
              have fails : reached.proceed 1 =
                  some (.error fault, { failed with state := failed.state.halt }) := by
                simp [Machine.proceed, reachedRunning, stepped]
              exact ⟨_, _, runs.proceed fails⟩
      · next stopped =>
          rw [strippedTo.running_eq] at stopped
          have stops : machine.proceed 1 = some (.ok (), machine) := by
            simp [Machine.proceed, stopped]
          exact ⟨_, _, stops⟩

/-- A machine and the plain one with the same terminal begin in corresponding states. -/
theorem initial (program : Program) (terminal : Terminal) :
    StrippedTo program (Machine.create program terminal).reset.start
      (Machine.create program.stripped terminal).reset.start := by
  refine ⟨rfl, rfl, ⟨?_, rfl, rfl, rfl, rfl⟩, rfl, rfl, by simp [Machine.start, reset, State.reset]⟩
  exact program.keptBefore_zero.symm

end StrippedTo

end Machine

end StackDebugger
