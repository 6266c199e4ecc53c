import StackDebugger.Proofs.Debugger.CallStructure
import StackDebugger.Proofs.Debugger.FirstStop
import StackDebugger.Proofs.Debugger.Indifference

/-!
# Stepping into and stepping over

No instruction reads which step is armed, so a step into a call and a step over it carry out the
same instructions as long as neither stops.  Without a call the depth does not grow, where both
make the same stops; the first call takes the step into it one level deeper, where it ends.  A
program that ends keeps the step that was armed, which is then all that differs.
-/

namespace StackDebugger

/-- Instructions other than calls do not go deeper. -/
theorem Instruction.depth_track_le {instruction : Instruction Jump}
    (notCall : ∀ destination, instruction ≠ .call destination) (stack : OperandStack)
    (activations : ActivationStack) :
    (instruction.track stack activations).depth ≤ activations.depth := by
  by_cases isLocal : instruction.isLocal
  · obtain ⟨change, tracked⟩ := exists_track_eq_modifyCurrent isLocal stack activations
    rw [tracked, ActivationStack.depth_modifyCurrent]
  · cases instruction with
    | call destination => exact absurd rfl (notCall destination)
    | ret owner => simp [track, ActivationStack.depth, ActivationStack.pop]
    | args count | goto destination => exact Nat.le_refl _
    | _ => contradiction

/-- Above the depth at which they were armed, the two steps are judged alike. -/
theorem RunMode.stopsAt_stepInto {start : Snapshot} {depth : Nat} (notDeeper : depth ≤ start.depth)
    (line : Option Nat) :
    (stepInto start).stopsAt depth line = (stepOver start).stopsAt depth line := by
  simp [stopsAt, Nat.not_lt.mpr notDeeper]

namespace Debugger

def withMode (mode : RunMode) (debugger : Debugger) : Debugger :=
  { debugger with mode }

/-- The debugger with another step armed, if the outcome has not disarmed it. -/
def rearm (mode : RunMode) (outcome : Outcome) (debugger : Debugger) : Debugger :=
  match outcome with
  | .ok (.breakpoint _) | .ok .step => debugger
  | .ok .halted | .error _ => debugger.withMode mode

def rearmed (mode : RunMode) (stopped : Outcome × Debugger) : Outcome × Debugger :=
  (stopped.1, stopped.2.rearm mode stopped.1)

/-- A run carries out an instruction as the last of so many. -/
def Executes (start : Debugger) (count : Nat) (instruction : Instruction Jump) : Prop :=
  (∀ earlier < count, start.stop? earlier = none) ∧
    ∃ result, start.last? count = some ⟨instruction, result⟩

end Debugger

namespace Attempt

def onDebugger (change : Debugger → Debugger) (attempt : Attempt) : Attempt :=
  ⟨attempt.instruction, EffectResult.onState change attempt.result⟩

@[simp] theorem reached?_onDebugger (change : Debugger → Debugger) (attempt : Attempt) :
    (attempt.onDebugger change).reached? = attempt.reached?.map change := by
  obtain ⟨instruction, result⟩ := attempt
  cases result <;> rfl

end Attempt

namespace Debugger

variable {mode : RunMode}

theorem attempt?_withMode (debugger : Debugger) :
    (debugger.withMode mode).attempt? =
      debugger.attempt?.map (Attempt.onDebugger (withMode mode)) := by
  have carried (instruction : Instruction Jump) :=
    run_carryOut_refit id (fun _ => mode) instruction debugger
  rw [attempt?, attempt?, Option.map_map]
  refine congrArg (Option.map · _) ?_
  funext instruction
  exact congrArg (Attempt.mk instruction) (carried instruction)

theorem after?_withMode (start : Debugger) (count : Nat) :
    (start.withMode mode).after? count = (start.after? count).map (withMode mode) := by
  induction count with
  | zero => rfl
  | succ count ih =>
      rw [after?, after?, ih]
      cases start.after? count with
      | none => rfl
      | some debugger =>
          simp only [Option.map_some, Option.bind_some, attempt?_withMode]
          cases debugger.attempt? with
          | none => rfl
          | some attempt => simp

theorem last?_withMode (start : Debugger) (count : Nat) :
    (start.withMode mode).last? count =
      (start.last? count).map (Attempt.onDebugger (withMode mode)) := by
  cases count with
  | zero => rfl
  | succ count =>
      rw [last?, last?, after?_withMode]
      cases start.after? count with
      | none => rfl
      | some debugger => exact debugger.attempt?_withMode

theorem end?_withMode (debugger : Debugger) :
    (debugger.withMode mode).end? = debugger.end?.map (rearmed mode) := by
  rw [end?, end?, attempt?_withMode]
  cases debugger.attempt? with
  | none => rfl
  | some attempt => rfl

/-- The end of the program and a failure leave what is armed as it was when the run started. -/
theorem mode_of_stop? {start final : Debugger} {count : Nat} {outcome : Outcome}
    (stopped : start.stop? count = some (outcome, final))
    (ends : outcome = .ok .halted ∨ ∃ fault, outcome = .error fault) :
    final.mode = start.mode := by
  have sameAfter : start.after? count = (start.after? count).map (withMode start.mode) :=
    after?_withMode start count
  have sameLast : start.last? count =
      (start.last? count).map (Attempt.onDebugger (withMode start.mode)) :=
    last?_withMode start count
  have reachedMode {reached : Debugger} (isAfter : start.after? count = some reached) :
      reached.turnOff.mode = start.mode := by
    rw [isAfter, Option.map_some] at sameAfter
    have same : reached = reached.withMode start.mode := Option.some.inj sameAfter
    rw [same]
    rfl
  rcases stop?_cases stopped with ⟨attempt, isLast, made⟩ | ⟨reached, isAfter, -, rfl, rfl⟩
  · rcases Attempt.stop?_cases made with ⟨fault, failed, failing, rfl, rfl⟩ |
      ⟨reached, isReached, made⟩
    · rw [isLast, Option.map_some] at sameLast
      have same := congrArg Attempt.result (Option.some.inj sameLast)
      rw [Attempt.onDebugger, failing] at same
      rw [(EStateM.Result.error.inj same).2]
      rfl
    · rcases made with ⟨-, rfl⟩ | ⟨line, rfl, -⟩ | ⟨-, rfl, -⟩
      · exact reachedMode ((after?_of_last? isLast).2.trans isReached)
      · simp at ends
      · simp at ends
  · exact reachedMode isAfter

end Debugger

namespace Attempt

variable {attempt : Attempt} {start : Snapshot}

theorem halt?_withMode (mode : RunMode) (attempt : Attempt) :
    (attempt.onDebugger (Debugger.withMode mode)).halt? =
      attempt.halt?.map (Debugger.rearmed mode) := by
  obtain ⟨instruction, result⟩ := attempt
  cases instruction with
  | halt => cases result <;> rfl
  | _ => rfl

theorem breakpoint?_withMode (mode : RunMode) (attempt : Attempt) :
    (attempt.onDebugger (Debugger.withMode mode)).breakpoint? =
      attempt.breakpoint?.map (Debugger.rearmed mode) := by
  rw [breakpoint?, breakpoint?, reached?_onDebugger]
  cases attempt.reached? with
  | none => rfl
  | some reached =>
      simp only [Option.map_some, Option.bind_some, Option.map_map]
      rfl

theorem step?_stepInto
    (level : ∀ reached, attempt.reached? = some reached →
      reached.mode = .stepOver start ∧ reached.depth ≤ start.depth) :
    (attempt.onDebugger (Debugger.withMode (.stepInto start))).step? =
      attempt.step?.map (Debugger.rearmed (.stepInto start)) := by
  rw [step?, step?, reached?_onDebugger]
  cases isReached : attempt.reached? with
  | none => rfl
  | some reached =>
      obtain ⟨isOver, notDeeper⟩ := level reached isReached
      have sameTest : (reached.withMode (.stepInto start)).mode.stopsAt
          (reached.withMode (.stepInto start)).depth
          (reached.withMode (.stepInto start)).currentLine =
          reached.mode.stopsAt reached.depth reached.currentLine := by
        rw [isOver]
        exact RunMode.stopsAt_stepInto notDeeper reached.currentLine
      simp only [Option.map_some, Option.bind_some, sameTest]
      split
      · rfl
      · rfl

/-- Where no call has taken it deeper, an instruction stops both steps alike. -/
theorem stop?_stepInto
    (level : ∀ reached, attempt.reached? = some reached →
      reached.mode = .stepOver start ∧ reached.depth ≤ start.depth) :
    (attempt.onDebugger (Debugger.withMode (.stepInto start))).stop? =
      attempt.stop?.map (Debugger.rearmed (.stepInto start)) := by
  have failure : (attempt.onDebugger (Debugger.withMode (.stepInto start))).failure? =
      attempt.failure?.map (Debugger.rearmed (.stepInto start)) := by
    obtain ⟨instruction, result⟩ := attempt
    cases result <;> rfl
  rw [stop?, stop?, Option.map_or, Option.map_or, Option.map_or, failure, halt?_withMode,
    breakpoint?_withMode, step?_stepInto level]

end Attempt

namespace Debugger

variable {start debugger final : Debugger} {outcome : Outcome} {count : Nat}

/-- What is left as it was by instructions that make no call. -/
structure Level (start debugger : Debugger) : Prop where
  program : debugger.machine.program = start.machine.program
  mode : debugger.mode = start.mode
  notDeeper : debugger.depth ≤ start.depth

theorem Level.carriedOut {instruction : Instruction Jump} {next : Debugger}
    (level : start.Level debugger) (notCall : ∀ destination, instruction ≠ .call destination)
    (carriedOut : CarriedOut instruction debugger next) : start.Level next where
  program := carriedOut.program.trans level.program
  mode := carriedOut.mode.trans level.mode
  notDeeper := by
    have tracked := Instruction.depth_track_le notCall next.state.stack debugger.activations
    rw [← carriedOut.activations] at tracked
    exact Nat.le_trans tracked level.notDeeper

theorem level_of_after? (unstopped : ∀ earlier < count, start.stop? earlier = none)
    (noCall : ∀ earlier ≤ count, ∀ destination, ¬ start.Executes earlier (.call destination))
    (isAfter : start.after? count = some debugger) : start.Level debugger := by
  induction count generalizing debugger with
  | zero =>
      obtain rfl := Option.some.inj isAfter
      exact ⟨rfl, rfl, Nat.le_refl _⟩
  | succ count ih =>
      obtain ⟨⟨instruction, result⟩, isLast, isReached⟩ := Option.bind_eq_some_iff.mp isAfter
      obtain ⟨before, isBefore, tried⟩ := Option.bind_eq_some_iff.mp isLast
      cases result with
      | error fault failed => contradiction
      | ok value next =>
          obtain rfl := Option.some.inj isReached
          have level := ih (fun earlier isEarlier => unstopped earlier (by omega))
            (fun earlier isEarlier => noCall earlier (by omega)) isBefore
          refine level.carriedOut ?_ (carriedOut_of_run_eq_ok (run_carryOut_of_attempt? tried).2)
          rintro destination rfl
          exact noCall (count + 1) (Nat.le_refl _) destination ⟨unstopped, _, isLast⟩

/-- As long as no call is made, the step into one stops where the step over it does. -/
theorem stop?_stepInto (armed : start.mode = .stepOver start.snapshot)
    (unstopped : ∀ earlier < count, start.stop? earlier = none)
    (noCall : ∀ earlier ≤ count, ∀ destination, ¬ start.Executes earlier (.call destination)) :
    (start.withMode (.stepInto start.snapshot)).stop? count =
      (start.stop? count).map (rearmed (.stepInto start.snapshot)) := by
  have level {debugger : Debugger} (isAfter : start.after? count = some debugger) :=
    level_of_after? unstopped noCall isAfter
  rw [stop?, stop?, last?_withMode, after?_withMode, Option.map_or]
  congr 1
  · cases isLast : start.last? count with
    | none => rfl
    | some attempt =>
        refine Attempt.stop?_stepInto ?_
        intro reached isReached
        have reachedLevel := level ((after?_of_last? isLast).2.trans isReached)
        exact ⟨reachedLevel.mode.trans armed, reachedLevel.notDeeper⟩
  · cases start.after? count with
    | none => rfl
    | some debugger => exact debugger.end?_withMode

theorem unstopped_of_stepInto (armed : start.mode = .stepOver start.snapshot)
    (noCall : ∀ count destination, ¬ start.Executes count (.call destination))
    (unstopped : ∀ earlier < count,
      (start.withMode (.stepInto start.snapshot)).stop? earlier = none) :
    ∀ earlier < count, start.stop? earlier = none := by
  induction count with
  | zero =>
      intro earlier isEarlier
      contradiction
  | succ count ih =>
      have before := ih fun earlier isEarlier => unstopped earlier (by omega)
      have same := stop?_stepInto armed before fun earlier _ => noCall earlier
      rw [unstopped count (Nat.lt_succ_self count)] at same
      intro earlier isEarlier
      rcases Nat.lt_succ_iff_lt_or_eq.mp isEarlier with isBefore | rfl
      · exact before earlier isBefore
      · exact Option.map_eq_none_iff.mp same.symm

theorem stopsAfter_stepInto_iff (armed : start.mode = .stepOver start.snapshot)
    (noCall : ∀ count destination, ¬ start.Executes count (.call destination)) :
    (start.withMode (.stepInto start.snapshot)).StopsAfter count outcome final ↔
      ∃ other, start.StopsAfter count outcome other ∧
        final = other.rearm (.stepInto start.snapshot) outcome := by
  constructor
  · intro stops
    have unstopped := unstopped_of_stepInto armed noCall stops.first
    have same := stop?_stepInto armed unstopped fun earlier _ => noCall earlier
    rw [stops.stops] at same
    obtain ⟨⟨_, other⟩, isStop, equal⟩ := Option.map_eq_some_iff.mp same.symm
    obtain ⟨rfl, rfl⟩ := Prod.mk.inj equal
    exact ⟨other, ⟨isStop, unstopped⟩, rfl⟩
  · rintro ⟨other, stops, rfl⟩
    have same {earlier : Nat} (isEarlier : earlier ≤ count) :=
      stop?_stepInto armed
        (fun before isBefore => stops.first before (Nat.lt_of_lt_of_le isBefore isEarlier))
        fun before _ => noCall before
    constructor
    · rw [same (Nat.le_refl count), stops.stops]
      rfl
    · intro earlier isEarlier
      rw [same (Nat.le_of_lt isEarlier), stops.first earlier isEarlier]
      rfl

theorem exists_run_carryOut_call (destination : Jump) (debugger : Debugger) :
    ∃ called, (carryOut (.call destination)).run debugger = .ok () called := by
  rw [run_carryOut, Instruction.run_observe]
  exact ⟨_, rfl⟩

theorem CarriedOut.pc_of_call {destination : Jump} {called : Debugger}
    (carriedOut : CarriedOut (.call destination) debugger called) :
    called.state.pc = destination.target + 1 := by
  obtain ⟨reached, executes, isPosition⟩ := carriedOut.position
  have samePc : called.state.pc = reached.pc + 1 := congrArg Position.pc isPosition
  cases executes with
  | stays isLocal _ => contradiction
  | jumps isJump _ => simp at isJump
  | calls => exact samePc

/-- While a step over has not stopped, its run is as deep as where it was armed, or deeper. -/
theorem depth_le_of_unstopped (armed : start.mode = .stepOver start.snapshot)
    (unstopped : ∀ earlier ≤ count, start.stop? earlier = none)
    (isAfter : start.after? count = some debugger) : start.depth ≤ debugger.depth := by
  let invariant (debugger : Debugger) : Prop :=
    debugger.mode = start.mode ∧ start.depth ≤ debugger.depth
  have passed : ∃ debugger, start.after? count = some debugger ∧ invariant debugger := by
    refine exists_after?_of_unstopped ⟨rfl, Nat.le_refl _⟩ ?_ unstopped
    rintro debugger next instruction ⟨sameMode, -⟩ tried incomplete
    have carriedOut := carriedOut_of_run_eq_ok (run_carryOut_of_attempt? tried).2
    have nextMode : next.mode = start.mode := carriedOut.mode.trans sameMode
    refine ⟨nextMode, ?_⟩
    rw [nextMode, armed] at incomplete
    have notPassed := (Bool.or_eq_false_iff.mp incomplete).1
    exact Nat.not_lt.mp (of_decide_eq_false notPassed)
  obtain ⟨_, alsoAfter, -, notShallower⟩ := passed
  obtain rfl := Option.some.inj (isAfter.symm.trans alsoAfter)
  exact notShallower

/-- The first call that a step over carries out ends the step into it. -/
theorem Executes.stopsAfter_stepInto {destination : Jump}
    (armed : start.mode = .stepOver start.snapshot)
    (executes : start.Executes count (.call destination))
    (isFirst : ∀ earlier < count, ∀ other, ¬ start.Executes earlier (.call other)) :
    ∃ before called,
      start.machine.program.fetch? before.state.pc = some (.call destination) ∧
      before.depth = start.depth ∧ CarriedOut (.call destination) before called ∧
      start.after? count = some called ∧
      (start.withMode (.stepInto start.snapshot)).StopsAfter count (.ok .step) called.suspend := by
  obtain ⟨unstopped, result, isLast⟩ := executes
  obtain ⟨positive, isAfter⟩ := after?_of_last? isLast
  obtain ⟨count, rfl⟩ : ∃ earlier, count = earlier + 1 := ⟨count - 1, by omega⟩
  obtain ⟨before, isBefore, tried⟩ := Option.bind_eq_some_iff.mp isLast
  obtain ⟨_, fetched, equal⟩ := Option.map_eq_some_iff.mp tried
  obtain ⟨rfl, rfl⟩ := Attempt.mk.inj equal
  obtain ⟨called, carried⟩ := exists_run_carryOut_call destination before
  rw [carried] at isLast isAfter
  have carriedOut := carriedOut_of_run_eq_ok carried
  have noCall (earlier : Nat) (isEarlier : earlier ≤ count) :=
    isFirst earlier (Nat.lt_succ_of_le isEarlier)
  -- Without an earlier call the run is not deeper here, without an earlier stop not shallower.
  have level := level_of_after? (fun earlier isEarlier => unstopped earlier (by omega)) noCall
    isBefore
  have notShallower := depth_le_of_unstopped armed
    (fun earlier isEarlier => unstopped earlier (by omega)) isBefore
  have sameDepth : before.depth = start.depth := Nat.le_antisymm level.notDeeper notShallower
  rw [level.program] at fetched
  refine ⟨before, called, fetched, sameDepth, carriedOut, isAfter, ?_, ?_⟩
  · have deeper : start.snapshot.depth < called.depth := by
      rw [depth, carriedOut.activations]
      exact Nat.lt_succ_of_le (Nat.le_of_eq sameDepth.symm)
    have complete : (RunMode.stepInto start.snapshot).stopsAt called.depth called.currentLine =
        true := by
      simp [RunMode.stopsAt, deeper]
    have stopped : Attempt.stop?
        ⟨.call destination, .ok () (called.withMode (.stepInto start.snapshot))⟩ =
        some (.ok .step, called.suspend) := if_pos complete
    rw [stop?, last?_withMode, isLast, Option.map_some, Option.bind_some]
    exact congrArg (Option.or · _) stopped
  · intro earlier isEarlier
    rw [stop?_stepInto armed (fun before isBefore => unstopped before (by omega))
      (fun before isBefore => isFirst before (by omega)), unstopped earlier isEarlier]
    rfl

/-- Stepping into refines stepping over.  Without a call among the instructions of the step over,
the step into a call returns with the same outcome and leaves the same debugger, except that a
program that has ended or failed keeps the step that was armed, also where it was stepped over.
Otherwise it ends right behind
the first call, one level deeper and just past the label, with an activation about which nothing
is known yet; the step over need not end for that. -/
theorem stepInto_refines_stepOver {program : Program} (reachable : Reachable program debugger)
    (going : debugger.isDone = false) :
    let overRun := debugger.armStepOver.setRunning
    ((∀ count destination, ¬ overRun.Executes count (.call destination)) →
      ∀ outcome final, (∃ fuel, debugger.armStepInto.resume fuel = some (outcome, final)) ↔
        ∃ fuel other, debugger.armStepOver.resume fuel = some (outcome, other) ∧
          final = other.rearm (.stepInto debugger.snapshot) outcome) ∧
    (∀ fuel outcome other, debugger.armStepOver.resume fuel = some (outcome, other) →
      outcome = .ok .halted ∨ (∃ fault, outcome = .error fault) →
      other.mode = .stepOver debugger.snapshot) ∧
    ∀ count destination, overRun.Executes count (.call destination) →
      (∀ earlier < count, ∀ other, ¬ overRun.Executes earlier (.call other)) →
      ∃ called, overRun.after? count = some called ∧
        (∃ fuel, debugger.armStepInto.resume fuel = some (.ok .step, called.suspend)) ∧
        debugger.armStepInto.setRunning.StopsAfter count (.ok .step) called.suspend ∧
        called.depth = debugger.depth + 1 ∧ called.current = {} ∧
        called.state.pc = destination.target + 1 ∧
        (program.IsResolved →
          program.fetch? destination.target = some (.label destination.label)) := by
  intro overRun
  have armed : overRun.mode = .stepOver overRun.snapshot := rfl
  have goingOver : debugger.armStepOver.isDone = false := going
  have goingInto : debugger.armStepInto.isDone = false := going
  have unhit := reachable.hit_eq_none
  have returnsInto {outcome : Outcome} {final : Debugger} :
      (∃ fuel, debugger.armStepInto.resume fuel = some (outcome, final)) ↔
        ∃ count, (overRun.withMode (.stepInto overRun.snapshot)).StopsAfter count outcome final :=
    exists_resume_iff_stopsAfter goingInto unhit
  refine ⟨?_, ?_, ?_⟩
  · intro noCall outcome final
    rw [returnsInto]
    constructor
    · rintro ⟨count, stops⟩
      obtain ⟨other, overStops, rfl⟩ := (stopsAfter_stepInto_iff armed noCall).mp stops
      obtain ⟨fuel, ended⟩ := (exists_resume_iff_stopsAfter goingOver unhit).mpr ⟨count, overStops⟩
      exact ⟨fuel, other, ended, rfl⟩
    · rintro ⟨fuel, other, ended, isFinal⟩
      obtain ⟨count, stops⟩ := (exists_resume_iff_stopsAfter goingOver unhit).mp ⟨fuel, ended⟩
      exact ⟨count, (stopsAfter_stepInto_iff armed noCall).mpr ⟨other, stops, isFinal⟩⟩
  · intro fuel outcome other ended ends
    obtain ⟨count, stops⟩ := (exists_resume_iff_stopsAfter goingOver unhit).mp ⟨fuel, ended⟩
    exact mode_of_stop? stops.stops ends
  · intro count destination executes isFirst
    obtain ⟨before, called, fetched, sameDepth, carriedOut, isAfter, stops⟩ :=
      executes.stopsAfter_stepInto armed isFirst
    have pushed : called.activations = before.activations.push := carriedOut.activations
    refine ⟨called, isAfter, returnsInto.mpr ⟨count, stops⟩, stops, ?_, ?_,
      carriedOut.pc_of_call, ?_⟩
    · rw [depth, pushed, ActivationStack.depth_push]
      exact congrArg (· + 1) sameDepth
    · rw [current, pushed, ActivationStack.current_push]
    · intro isResolved
      have isProgram : overRun.machine.program = program := reachable.program_eq
      rw [isProgram] at fetched
      exact isResolved.fetch?_target fetched rfl

/-- A step into a function ends before the callee has carried out anything. -/
theorem stepInto_refines_stepOver_call :
    let program : Program :=
      { code := #[.args 0, .call ⟨"f", 3⟩, .halt, .label "f", .line (some 9), .lit 5 none,
          .ret none]
        labels := [("f", 3)] }
    let debugger := create program [] {}
    ∃ fuel final, debugger.armStepInto.resume fuel = some (.ok .step, final) ∧
      final.depth = 2 ∧ final.current = {} ∧ final.state.pc = 4 ∧
      program.fetch? 3 = some (.label "f") := by
  intro program debugger
  let overRun := debugger.armStepOver.setRunning
  have isResolved : program.IsResolved :=
    ⟨[.args 0, .call "f", .halt, .label "f", .line (some 9), .lit 5 none, .ret none], rfl⟩
  have reachable : Reachable program debugger := .create [] {}
  have executes : overRun.Executes 2 (.call ⟨"f", 3⟩) := by
    refine ⟨?_, _, rfl⟩
    intro earlier isEarlier
    obtain rfl | rfl : earlier = 0 ∨ earlier = 1 := by omega
    · rfl
    · rfl
  have isFirst : ∀ earlier < 2, ∀ other, ¬ overRun.Executes earlier (.call other) := by
    rintro earlier isEarlier other ⟨-, result, isLast⟩
    obtain rfl | rfl : earlier = 0 ∨ earlier = 1 := by omega
    · contradiction
    · have isCall : some (Instruction.args 0) = some (Instruction.call other) :=
        congrArg (Option.map Attempt.instruction) isLast
      simp at isCall
  obtain ⟨called, -, ⟨fuel, ended⟩, -, depth, current, pc, isLabel⟩ :=
    (stepInto_refines_stepOver reachable rfl).2.2 2 ⟨"f", 3⟩ executes isFirst
  exact ⟨fuel, called.suspend, ended, depth, current, pc, isLabel isResolved⟩

/-- Where the program ends without a call, the two steps leave debuggers that differ in the step
that is still armed. -/
theorem stepInto_leaves_other_mode :
    let program : Program := { code := #[.halt], labels := [] }
    let debugger := create program [] {}
    Reachable program debugger ∧ debugger.isDone = false ∧
    (∀ count destination,
      ¬ debugger.armStepOver.setRunning.Executes count (.call destination)) ∧
    ∃ overFinal intoFinal, debugger.armStepOver.resume 1 = some (.ok .halted, overFinal) ∧
      debugger.armStepInto.resume 1 = some (.ok .halted, intoFinal) ∧ intoFinal ≠ overFinal := by
  intro program debugger
  refine ⟨.create [] {}, rfl, ?_, _, _, rfl, rfl, ?_⟩
  · rintro count destination ⟨unstopped, result, isLast⟩
    match count with
    | 0 => contradiction
    | 1 =>
        have isCall : some Instruction.halt = some (Instruction.call destination) :=
          congrArg (Option.map Attempt.instruction) isLast
        simp at isCall
    | count + 2 =>
        have atHalt := unstopped 1 (by omega)
        contradiction
  · intro same
    have sameMode := congrArg Debugger.mode same
    contradiction

end Debugger

end StackDebugger
