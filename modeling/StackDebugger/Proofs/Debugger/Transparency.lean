import StackDebugger.Proofs.Debugger.Session
import StackDebugger.Proofs.Machine.Runs

/-!
# Debugging is transparent

As long as nothing is traced, a debugged program goes through the states of the
plain machine, however it is stopped, stepped and resumed.  The invariant of a
session is that the debugger, once set running, has exactly the state of a plain
machine that has been running from the beginning without a stop; a run that ends
the program ends the plain run with the same result.
-/

namespace StackDebugger

/-- Whether an adjustment only says where runs stop. -/
def Adjustment.isSteering : Adjustment → Bool
  | .reset | .startTracing | .turnOff => false
  | _ => true

/-- Whether an operation only says where runs stop, or resumes a run. -/
def Operation.isSteering : Operation → Bool
  | .resume => true
  | .adjust adjustment => adjustment.isSteering

/-- How the program has ended, if an outcome ends it. -/
def Outcome.ending? : Outcome → Option (Except Fault Unit)
  | .error fault => some (.error fault)
  | .ok .halted => some (.ok ())
  | .ok _ => none

/-- Everything of a state that shows, except for whether it is running and over. -/
structure State.Shows (state plain : State) : Prop where
  pc : state.pc = plain.pc
  values : state.stack.values = plain.stack.values
  bases : state.stack.bases = plain.stack.bases
  returns : state.returns = plain.returns
  dumping : state.dumping = plain.dumping
  input : state.terminal.input = plain.terminal.input
  output : state.terminal.output = plain.terminal.output

theorem State.Corresponds.shows {state plain : State}
    (corresponds : State.Corresponds id Eq state plain) : state.Shows plain where
  pc := corresponds.pc.symm
  values := by rw [corresponds.stack]
  bases := by rw [corresponds.stack]
  returns := by rw [corresponds.returns, List.map_id]
  dumping := corresponds.dumping.symm
  input := by rw [corresponds.terminal]
  output := by rw [corresponds.terminal]

namespace Debugger

/-- Once set running, the debugger is where the plain machine is. -/
structure InStep (debugger : Debugger) (machine : Machine) : Prop where
  untraced : debugger.tracing = false
  going : debugger.isDone = false
  program : machine.program = debugger.machine.program
  state : machine.state = debugger.setRunning.state

namespace InStep

variable {debugger next : Debugger} {machine : Machine}

theorem running (inStep : InStep debugger machine) : machine.state.running = true := by
  rw [inStep.state]
  rfl

theorem setRunning (inStep : InStep debugger machine) : InStep debugger.setRunning machine :=
  ⟨inStep.untraced, inStep.going, inStep.program, inStep.state⟩

theorem adjust (inStep : InStep debugger machine) {adjustment : Adjustment}
    (steering : adjustment.isSteering) : InStep (adjustment.apply debugger) machine := by
  cases adjustment with
  | reset | startTracing | turnOff => simp [Adjustment.isSteering] at steering
  | armStepOver | armStepInto | armStepOut | setBreakpoint line | clearBreakpoint line
  | clearBreakpoints => exact ⟨inStep.untraced, inStep.going, inStep.program, inStep.state⟩

end InStep

/-- What is known of the plain machine: it ends as the debugger did and in the same
state, or it has been going on to where the debugger was stopped. -/
inductive Matches (machine : Machine) : Option (Except Fault Unit) → Debugger → Prop where
  | ended {fuel : Nat} {result : Except Fault Unit} {final : Machine} {debugger : Debugger} :
      debugger.isDone = true → machine.proceed fuel = some (result, final) →
      final.state = debugger.state → Matches machine (some result) debugger
  | stopped {count : Nat} {next : Machine} {debugger : Debugger} :
      machine.Runs count next → InStep debugger next → Matches machine none debugger

/-- What is known of the plain machine when the debugger has got so far. -/
def Follows (machine : Machine) : Progress → Prop
  | .going next => next.state.running = true ∧
      ∃ stepped, machine.step = (.ok (), stepped) ∧ InStep next stepped
  | .stopped outcome debugger => Matches machine outcome.ending? debugger

/-- Where the plain machine has gone when the debugger has carried out an
instruction. -/
structure SteppedTo (instruction : Instruction Jump) (debugger : Debugger) (machine : Machine)
    (next : Debugger) (stepped : Machine) : Prop where
  isStep : machine.step = (.ok (), stepped)
  program : stepped.program = next.machine.program
  untraced : next.tracing = false
  goesOn : stepped.state.running = !stepped.state.halted
  state : next.state = instruction.interrupt debugger.breakpoints stepped.state
  hit : next.hit = (instruction.armedLine? debugger.breakpoints).or debugger.hit

namespace SteppedTo

variable {instruction : Instruction Jump} {debugger next : Debugger} {machine stepped : Machine}

theorem isDone (steppedTo : SteppedTo instruction debugger machine next stepped) :
    next.isDone = stepped.state.halted := by
  rw [Debugger.isDone, steppedTo.state]
  unfold Instruction.interrupt
  split <;> rfl

/-- A program that is over is not interrupted any more. -/
theorem state_of_done (steppedTo : SteppedTo instruction debugger machine next stepped)
    (done : next.isDone = true) : next.state = stepped.state := by
  have halted : stepped.state.halted = true := steppedTo.isDone.symm.trans done
  have stopped : stepped.state.running = false := by simp [steppedTo.goesOn, halted]
  rw [steppedTo.state]
  unfold Instruction.interrupt
  split
  · rw [← stopped]
  · rfl

theorem inStep (steppedTo : SteppedTo instruction debugger machine next stepped)
    (going : next.isDone = false) : InStep next stepped := by
  have notHalted : stepped.state.halted = false := steppedTo.isDone.symm.trans going
  have running : stepped.state.running = true := by simp [steppedTo.goesOn, notHalted]
  refine ⟨steppedTo.untraced, going, steppedTo.program, ?_⟩
  rw [Debugger.setRunning, state_withState, steppedTo.state]
  unfold Instruction.interrupt
  split <;> rw [← running]

/-- Where no breakpoint is reached, nothing keeps the machine from going on. -/
theorem running (steppedTo : SteppedTo instruction debugger machine next stepped)
    (going : next.isDone = false) (noHit : next.hit = none) : next.state.running = true := by
  have notArmed : instruction.armedLine? debugger.breakpoints = none :=
    (Option.or_eq_none_iff.mp (steppedTo.hit.symm.trans noHit)).1
  have same : next.state = stepped.state := by
    rw [steppedTo.state]
    simp [Instruction.interrupt, notArmed]
  rw [same]
  exact (steppedTo.inStep going).running

end SteppedTo

theorem InStep.state_eq {debugger : Debugger} {machine : Machine} (inStep : InStep debugger machine)
    (running : debugger.state.running = true) : machine.state = debugger.state := by
  rw [inStep.state, Debugger.setRunning, state_withState, ← running]

theorem InStep.steppedTo {instruction : Instruction Jump} {debugger next : Debugger}
    {machine : Machine} (inStep : InStep debugger machine)
    (running : debugger.state.running = true)
    (fetched : debugger.machine.program.fetch? debugger.state.pc = some instruction)
    (carried : (carryOut instruction).run debugger = .ok () next) :
    ∃ stepped, SteppedTo instruction debugger machine next stepped := by
  rw [run_carryOut_of_untraced inStep.untraced fetched] at carried
  split at carried
  · contradiction
  · next state isStepped =>
      obtain ⟨-, rfl⟩ := EStateM.Result.ok.inj carried
      have going : debugger.state.running = !debugger.state.halted := by
        have notDone : debugger.state.halted = false := inStep.going
        rw [running, notDone]
        rfl
      refine ⟨{ machine with state }, ?_, inStep.program, inStep.untraced, ?_, rfl, rfl⟩
      · apply Machine.step_of_run_eq_ok
        rw [inStep.program, inStep.state_eq running]
        exact isStepped
      · exact State.running_eq_not_halted_of_step_eq_ok isStepped going

theorem Matches.of_step {debugger : Debugger} {machine stepped : Machine}
    (running : machine.state.running = true) (isStep : machine.step = (.ok (), stepped))
    (stopped : stepped.state.running = false) (done : debugger.isDone = true)
    (same : stepped.state = debugger.state) : Matches machine (some (.ok ())) debugger := by
  have ended : machine.proceed 2 = some (.ok (), stepped) := by
    simp [Machine.proceed, running, isStep, stopped]
  exact .ended done ended same

theorem SteppedTo.judge {instruction : Instruction Jump} {debugger next : Debugger}
    {machine stepped : Machine} (running : machine.state.running = true)
    (steppedTo : SteppedTo instruction debugger machine next stepped) :
    Follows machine next.judge := by
  cases done : next.isDone with
  | true =>
      have stopped : stepped.state.running = false := by
        rw [steppedTo.goesOn, ← steppedTo.isDone, done]
        rfl
      simp only [Debugger.judge, done, if_true]
      exact Matches.of_step running steppedTo.isStep stopped done
        (steppedTo.state_of_done done).symm
  | false =>
      have nextInStep := steppedTo.inStep done
      have runs := Machine.Runs.single running steppedTo.isStep
      cases isHit : next.hit with
      | some line =>
          simp only [Debugger.judge, done, isHit, Bool.false_eq_true, if_false]
          exact .stopped runs ⟨nextInStep.untraced, done, nextInStep.program, nextInStep.state⟩
      | none =>
          cases complete : next.mode.stopsAt next.depth next.currentLine with
          | true =>
              simp only [Debugger.judge, done, isHit, complete, Bool.false_eq_true, if_false,
                if_true]
              exact .stopped runs ⟨nextInStep.untraced, done, nextInStep.program, nextInStep.state⟩
          | false =>
              simp only [Debugger.judge, done, isHit, complete, Bool.false_eq_true, if_false]
              exact ⟨steppedTo.running done isHit, stepped, steppedTo.isStep, nextInStep⟩

theorem InStep.of_fault {instruction : Instruction Jump} {debugger failed : Debugger}
    {machine : Machine} {fault : Fault} (inStep : InStep debugger machine)
    (running : debugger.state.running = true)
    (fetched : debugger.machine.program.fetch? debugger.state.pc = some instruction)
    (carried : (carryOut instruction).run debugger = .error fault failed) :
    Matches machine (some (.error fault)) failed.turnOff := by
  rw [run_carryOut_of_untraced inStep.untraced fetched] at carried
  split at carried
  · next raised state isFailed =>
      obtain ⟨rfl, rfl⟩ := EStateM.Result.error.inj carried
      rw [← inStep.program, ← inStep.state_eq running] at isFailed
      have isStep := Machine.step_of_run_eq_error isFailed
      have ended : machine.proceed 1 =
          some (.error raised, { machine with state := state.halt }) := by
        simp [Machine.proceed, inStep.running, isStep]
      exact .ended rfl ended rfl
  · contradiction

/-- One instruction of a run: the plain machine takes the same step, or the outcome
matches. -/
theorem InStep.advance {debugger : Debugger} {machine : Machine} (inStep : InStep debugger machine)
    (running : debugger.state.running = true) : Follows machine debugger.advance := by
  rcases debugger.advance_cases with ⟨atEnd, advanced⟩ |
    ⟨instruction, next, fetched, carried, advanced⟩ |
    ⟨instruction, fault, failed, fetched, carried, advanced⟩
  · rw [advanced]
    have sameState := inStep.state_eq running
    have isStep : machine.step = (.ok (), { machine with state := machine.state.halt }) := by
      apply Machine.step_of_run_eq_ok
      rw [State.run_step_of_none (by rw [inStep.program, sameState, atEnd])]
    exact Matches.of_step inStep.running isStep rfl rfl (by rw [sameState]; rfl)
  · rw [advanced]
    obtain ⟨stepped, steppedTo⟩ := inStep.steppedTo running fetched carried
    exact steppedTo.judge inStep.running
  · rw [advanced]
    exact inStep.of_fault running fetched carried

theorem Matches.of_runs {debugger : Debugger} {machine next : Machine} {count : Nat}
    {ending : Option (Except Fault Unit)} (runs : machine.Runs count next)
    (matched : Matches next ending debugger) : Matches machine ending debugger := by
  cases matched with
  | ended done ended same => exact .ended done (runs.proceed ended) same
  | stopped further inStep => exact .stopped (runs.trans further) inStep

theorem InStep.proceed {debugger final : Debugger} {machine : Machine} {fuel : Nat}
    {outcome : Outcome} (inStep : InStep debugger machine)
    (running : debugger.state.running = true)
    (ended : debugger.proceed fuel = some (outcome, final)) :
    Matches machine outcome.ending? final := by
  induction fuel generalizing debugger machine with
  | zero => simp [Debugger.proceed] at ended
  | succ fuel ih =>
      have advanced := inStep.advance running
      rw [Debugger.proceed] at ended
      split at ended
      · next next isGoing =>
          rw [isGoing] at advanced
          obtain ⟨stillRunning, stepped, isStep, nextInStep⟩ := advanced
          exact .of_runs (.single inStep.running isStep) (ih nextInStep stillRunning ended)
      · next isStopped =>
          obtain ⟨rfl, rfl⟩ := Prod.mk.inj (Option.some.inj ended)
          rw [isStopped] at advanced
          exact advanced

theorem InStep.resume {debugger final : Debugger} {machine : Machine} {fuel : Nat}
    {outcome : Outcome} (inStep : InStep debugger machine)
    (ended : debugger.resume fuel = some (outcome, final)) :
    Matches machine outcome.ending? final := by
  rw [Debugger.resume, if_neg (by simp [inStep.going])] at ended
  exact inStep.setRunning.proceed rfl ended

/-- Where the plain machine ends, a run under the debugger returns. -/
theorem InStep.exists_proceed {debugger : Debugger} {machine : Machine} {fuel : Nat}
    {result : Except Fault Unit × Machine} (inStep : InStep debugger machine)
    (running : debugger.state.running = true) (ended : machine.proceed fuel = some result) :
    ∃ outcome final, debugger.proceed fuel = some (outcome, final) := by
  induction fuel generalizing debugger machine with
  | zero => simp [Machine.proceed] at ended
  | succ fuel ih =>
      have advanced := inStep.advance running
      rw [Debugger.proceed]
      split
      · next next isGoing =>
          rw [isGoing] at advanced
          obtain ⟨stillRunning, stepped, isStep, nextInStep⟩ := advanced
          rw [Machine.proceed, if_pos inStep.running, isStep] at ended
          exact ih nextInStep stillRunning ended
      · next outcome stopped _ => exact ⟨outcome, stopped, rfl⟩

/-- Nothing that steers a debugger changes the state of a program that is over. -/
theorem state_of_session_of_done {debugger final : Debugger} {fuel : Nat}
    {operations : List Operation} {outcomes : List Outcome}
    (steering : ∀ operation ∈ operations, operation.isSteering) (done : debugger.isDone = true)
    (ended : debugger.session fuel operations = some (outcomes, final)) :
    final.state = debugger.state := by
  induction operations generalizing debugger outcomes with
  | nil =>
      obtain ⟨-, rfl⟩ := Prod.mk.inj (Option.some.inj ended)
      rfl
  | cons operation operations ih =>
      have ⟨first, rest⟩ := List.forall_mem_cons.mp steering
      cases operation with
      | adjust adjustment =>
          have same : (adjustment.apply debugger).state = debugger.state := by
            cases adjustment with
            | reset | startTracing | turnOff => contradiction
            | armStepOver | armStepInto | armStepOut | setBreakpoint line
            | clearBreakpoint line | clearBreakpoints => rfl
          have stillDone : (adjustment.apply debugger).isDone = true := by
            rw [Debugger.isDone, same]
            exact done
          exact (ih rest stillDone ended).trans same
      | resume =>
          simp only [Debugger.session, Debugger.resume, done, if_true] at ended
          obtain ⟨⟨later, last⟩, isLater, equal⟩ := Option.map_eq_some_iff.mp ended
          obtain ⟨-, rfl⟩ := Prod.mk.inj equal
          exact ih rest done isLater

/-- A session matches the plain machine: the first outcome that ends the program
is that of the plain run, and up to then the two are in step. -/
theorem InStep.session {debugger final : Debugger} {machine : Machine} {fuel : Nat}
    {operations : List Operation} {outcomes : List Outcome} (inStep : InStep debugger machine)
    (steering : ∀ operation ∈ operations, operation.isSteering)
    (ended : debugger.session fuel operations = some (outcomes, final)) :
    Matches machine (outcomes.findSome? Outcome.ending?) final := by
  induction operations generalizing debugger machine outcomes with
  | nil =>
      obtain ⟨rfl, rfl⟩ := Prod.mk.inj (Option.some.inj ended)
      exact .stopped (.refl machine) inStep
  | cons operation operations ih =>
      have ⟨first, rest⟩ := List.forall_mem_cons.mp steering
      cases operation with
      | adjust adjustment => exact ih (inStep.adjust first) rest ended
      | resume =>
          simp only [Debugger.session] at ended
          split at ended
          · contradiction
          · next outcome next resumed =>
              obtain ⟨⟨later, last⟩, isLater, equal⟩ := Option.map_eq_some_iff.mp ended
              obtain ⟨rfl, rfl⟩ := Prod.mk.inj equal
              have matched := inStep.resume resumed
              rw [List.findSome?_cons]
              generalize outcome.ending? = ending at matched ⊢
              cases matched with
              | ended done plainEnded same =>
                  have kept := state_of_session_of_done rest done isLater
                  have stillDone : last.isDone = true := by
                    rw [Debugger.isDone, kept]
                    exact done
                  exact .ended stillDone plainEnded (same.trans kept.symm)
              | stopped runs nextInStep => exact .of_runs runs (ih nextInStep rest isLater)

theorem inStep_create (program : Program) (source : List String) (terminal : Terminal) :
    InStep (create program source terminal).reset (Machine.create program terminal).reset.start :=
  ⟨rfl, rfl, rfl, rfl⟩

theorem InStep.shows {debugger : Debugger} {machine stepped : Machine}
    (inStep : InStep debugger machine) (agrees : machine.Agrees stepped) :
    debugger.state.Shows stepped.state := by
  have shows := agrees.2.shows
  rw [inStep.state] at shows
  exact ⟨shows.pc, shows.values, shows.bases, shows.returns, shows.dumping, shows.input,
    shows.output⟩

/-- A matching debugger shows what a plain machine shows that was stepped from
outside. -/
theorem Matches.exists_shows {debugger : Debugger} {machine other : Machine}
    {ending : Option (Except Fault Unit)} (matched : Matches machine ending debugger)
    (agrees : machine.Agrees other) :
    ∃ count, debugger.state.Shows
      ((fun current : Machine => current.step.2)^[count] other).state := by
  cases matched with
  | ended done ended same =>
      obtain ⟨count, reached⟩ := Machine.agrees_iterate_of_proceed ended
      refine ⟨count, ?_⟩
      rw [← same]
      exact (reached.trans (agrees.iterate count)).2.shows
  | @stopped count next _ runs inStep =>
      refine ⟨count, inStep.shows ?_⟩
      rw [runs.eq_iterate]
      exact agrees.iterate count

/-- Debugging is transparent.  A session that resets the debugger, then steers and
resumes it at will, leads to a state that the plain machine shows after some
number of steps; and the first outcome that ends the program is the result of one
uninterrupted plain run, which leaves the same state behind. -/
theorem session_transparent {program : Program} {source : List String} {terminal : Terminal}
    {fuel : Nat} {operations : List Operation} {outcomes : List Outcome} {debugger : Debugger}
    (steering : ∀ operation ∈ operations, operation.isSteering)
    (ended : (create program source terminal).reset.session fuel operations =
      some (outcomes, debugger)) :
    (∃ count, debugger.state.Shows ((fun machine : Machine => machine.step.2)^[count]
      (Machine.create program terminal).reset).state) ∧
    ∀ result, outcomes.findSome? Outcome.ending? = some result →
      ∃ plainFuel final,
        (Machine.create program terminal).reset.resume plainFuel = some (result, final) ∧
        final.state = debugger.state := by
  have matched := (inStep_create program source terminal).session steering ended
  constructor
  · exact matched.exists_shows ⟨rfl, rfl, by simp [Machine.start], rfl, rfl, rfl⟩
  · intro result isEnding
    rw [isEnding] at matched
    cases matched with
    | ended done plainEnded same => exact ⟨_, _, plainEnded, same⟩

/-- A program that is stopped at a breakpoint and stepped to its failure. -/
theorem session_transparent_division :
    let program : Program :=
      { code := #[.line (some 1), .read, .dump .now, .line (some 2), .lit 0 none,
          .line (some 3), .bop .div] }
    let terminal := Terminal.ofBytes [53, 10]
    ∃ debugger,
      (create program [] terminal).reset.session 9
        [.adjust (.setBreakpoint 2), .resume, .adjust .armStepOver, .resume, .resume] =
          some ([.ok (.breakpoint 2), .ok .step, .error .divisionByZero], debugger) ∧
      ∃ plainFuel final,
        (Machine.create program terminal).reset.resume plainFuel =
          some (.error .divisionByZero, final) ∧
        final.state = debugger.state := by
  intro program terminal
  have ended : ∃ debugger, (create program [] terminal).reset.session 9
      [.adjust (.setBreakpoint 2), .resume, .adjust .armStepOver, .resume, .resume] =
        some ([.ok (.breakpoint 2), .ok .step, .error .divisionByZero], debugger) := ⟨_, rfl⟩
  obtain ⟨debugger, ended⟩ := ended
  exact ⟨debugger, ended, (session_transparent (by decide) ended).2 _ rfl⟩

end Debugger

end StackDebugger
