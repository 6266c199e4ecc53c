import Mathlib.Data.Nat.Find
import StackDebugger.Proofs.Debugger.Session

/-!
# Runs end at the first stop

A run is compared with the instructions carried out one at a time and with nothing to stop
them.  `Debugger.after?` is where so many of them lead, `Debugger.stop?` is the first of the
five tests that ends a run there: the last instruction failed, it was a `HALT`, it reached a
line with a breakpoint, it completed the step that is armed, or no instruction is left.  A run
returns exactly at the least number of instructions with such a stop.
-/

namespace StackDebugger

/-- How a run with this outcome leaves its debugger: with its program over, or to be resumed
with no step armed. -/
def Outcome.Leaves (outcome : Outcome) (final : Debugger) : Prop :=
  match outcome with
  | .ok (.breakpoint _) | .ok .step => final.isDone = false ∧ final.mode = .untilBreakpoint
  | .ok .halted | .error _ => final.isDone = true

/-- An instruction with what carrying it out has led to. -/
structure Attempt where
  instruction : Instruction Jump
  result : EStateM.Result Fault Debugger Unit

namespace Debugger

/-- The instruction that is next, carried out. -/
def attempt? (debugger : Debugger) : Option Attempt :=
  (debugger.machine.program.fetch? debugger.state.pc).map fun instruction =>
    ⟨instruction, (carryOut instruction).run debugger⟩

/-- The debugger as a stop leaves it from where its program can be resumed. -/
def suspend (debugger : Debugger) : Debugger :=
  { debugger.withState { debugger.state with running := false } with
    hit := none
    mode := .untilBreakpoint }

end Debugger

namespace Attempt

/-- Where an instruction that did not fail has led. -/
def reached? (attempt : Attempt) : Option Debugger :=
  match attempt.result with
  | .ok _ reached => some reached
  | .error _ _ => none

def failure? (attempt : Attempt) : Option (Outcome × Debugger) :=
  match attempt.result with
  | .ok _ _ => none
  | .error fault failed => some (.error fault, failed.turnOff)

def halt? (attempt : Attempt) : Option (Outcome × Debugger) :=
  match attempt.instruction with
  | .halt => attempt.reached?.map fun reached => (.ok .halted, reached.turnOff)
  | _ => none

def breakpoint? (attempt : Attempt) : Option (Outcome × Debugger) :=
  attempt.reached?.bind fun reached =>
    (attempt.instruction.armedLine? reached.breakpoints).map fun line =>
      (.ok (.breakpoint line), reached.suspend)

def step? (attempt : Attempt) : Option (Outcome × Debugger) :=
  attempt.reached?.bind fun reached =>
    if reached.mode.stopsAt reached.depth reached.currentLine then
      some (.ok .step, reached.suspend)
    else none

/-- How an instruction ends a run; the tests count in this order. -/
def stop? (attempt : Attempt) : Option (Outcome × Debugger) :=
  attempt.failure?.or (attempt.halt?.or (attempt.breakpoint?.or attempt.step?))

/-- What is left to test behind an instruction that neither failed nor halted. -/
theorem stop?_of_ne_halt {instruction : Instruction Jump} (notHalt : instruction ≠ .halt)
    (reached : Debugger) :
    stop? ⟨instruction, .ok () reached⟩ =
      ((instruction.armedLine? reached.breakpoints).map fun line =>
          (.ok (.breakpoint line), reached.suspend)).or
        (if reached.mode.stopsAt reached.depth reached.currentLine then
          some (.ok .step, reached.suspend)
        else none) := by
  have unhalted : halt? ⟨instruction, .ok () reached⟩ = none := by
    unfold halt?
    split
    · contradiction
    · rfl
  rw [stop?, unhalted]
  rfl

/-- The instruction failed, or one of the tests behind it applies. -/
theorem stop?_cases {attempt : Attempt} {outcome : Outcome} {final : Debugger}
    (stopped : attempt.stop? = some (outcome, final)) :
    (∃ fault failed, attempt.result = .error fault failed ∧ outcome = .error fault ∧
      final = failed.turnOff) ∨
    ∃ reached, attempt.reached? = some reached ∧
      (outcome = .ok .halted ∧ final = reached.turnOff ∨
        (∃ line, outcome = .ok (.breakpoint line) ∧ final = reached.suspend) ∨
        reached.mode.stopsAt reached.depth reached.currentLine = true ∧
          outcome = .ok .step ∧ final = reached.suspend) := by
  obtain ⟨instruction, result⟩ := attempt
  cases result with
  | error fault failed =>
      obtain ⟨rfl, rfl⟩ := Prod.mk.inj (Option.some.inj stopped)
      exact .inl ⟨fault, failed, rfl, rfl, rfl⟩
  | ok value reached =>
      refine .inr ⟨reached, rfl, ?_⟩
      simp only [stop?, failure?, Option.none_or, Option.or_eq_some_iff] at stopped
      rcases stopped with halts | ⟨-, breaks | ⟨-, steps⟩⟩
      · unfold halt? at halts
        split at halts
        · obtain ⟨rfl, rfl⟩ := Prod.mk.inj (Option.some.inj halts)
          exact .inl ⟨rfl, rfl⟩
        · contradiction
      · obtain ⟨line, -, equal⟩ := Option.map_eq_some_iff.mp breaks
        obtain ⟨rfl, rfl⟩ := Prod.mk.inj equal
        exact .inr (.inl ⟨line, rfl, rfl⟩)
      · simp only [step?, reached?, Option.bind_some] at steps
        split at steps
        · next complete =>
            obtain ⟨rfl, rfl⟩ := Prod.mk.inj (Option.some.inj steps)
            exact .inr (.inr ⟨complete, rfl, rfl⟩)
        · contradiction

/-- What stops nothing has not failed and completes no step. -/
theorem exists_of_stop?_eq_none {attempt : Attempt} (unstopped : attempt.stop? = none) :
    ∃ reached, attempt = ⟨attempt.instruction, .ok () reached⟩ ∧
      reached.mode.stopsAt reached.depth reached.currentLine = false := by
  obtain ⟨instruction, result⟩ := attempt
  cases result with
  | error fault failed => contradiction
  | ok value reached =>
      simp only [stop?, Option.or_eq_none_iff] at unstopped
      refine ⟨reached, rfl, ?_⟩
      simpa [step?, reached?] using unstopped.2.2.2

end Attempt

namespace Debugger

/-- Where so many instructions lead when nothing stops them. -/
def after? (start : Debugger) : Nat → Option Debugger
  | 0 => some start
  | count + 1 => ((start.after? count).bind attempt?).bind Attempt.reached?

/-- The last of so many instructions. -/
def last? (start : Debugger) : Nat → Option Attempt
  | 0 => none
  | count + 1 => (start.after? count).bind attempt?

/-- The end of the program, where no instruction is left. -/
def end? (debugger : Debugger) : Option (Outcome × Debugger) :=
  match debugger.attempt? with
  | none => some (.ok .halted, debugger.turnOff)
  | some _ => none

/-- How a run ends after so many instructions. -/
def stop? (start : Debugger) (count : Nat) : Option (Outcome × Debugger) :=
  ((start.last? count).bind Attempt.stop?).or ((start.after? count).bind end?)

/-- The first stop comes after so many instructions. -/
structure StopsAfter (start : Debugger) (count : Nat) (outcome : Outcome) (final : Debugger) :
    Prop where
  stops : start.stop? count = some (outcome, final)
  first : ∀ earlier < count, start.stop? earlier = none

/-- Where the instructions of a run with this outcome have led, the one that failed included. -/
def LeadsTo (start : Debugger) (count : Nat) (outcome : Outcome) (reached : Debugger) : Prop :=
  match outcome with
  | .ok _ => start.after? count = some reached
  | .error fault =>
      ∃ instruction, start.last? count = some ⟨instruction, .error fault reached⟩

theorem suspend_of_unhit {debugger : Debugger} (unhit : debugger.hit = none) :
    debugger.suspend =
      { debugger.withState { debugger.state with running := false } with
        mode := .untilBreakpoint } := by
  rw [suspend, ← unhit]
  rfl

namespace CarriedOut

variable {instruction : Instruction Jump} {debugger next : Debugger}

theorem turnOff_of_halt (carriedOut : CarriedOut .halt debugger next) : next.turnOff = next := by
  have running : next.state.running = false := congrArg Switches.running carriedOut.switches
  have halted : next.state.halted = true := congrArg Switches.halted carriedOut.switches
  rw [turnOff, State.halt, ← running, ← halted]
  rfl

theorem isDone_of_halt (carriedOut : CarriedOut .halt debugger next) : next.isDone = true :=
  congrArg Switches.halted carriedOut.switches

theorem isDone_of_ne_halt (carriedOut : CarriedOut instruction debugger next)
    (notHalt : instruction ≠ .halt) : next.isDone = debugger.isDone := by
  refine (congrArg Switches.halted carriedOut.switches).trans ?_
  change (instruction.setSwitches debugger.state.switches).halted = _
  unfold Instruction.setSwitches
  split
  · contradiction
  · rfl
  · rfl
  · rfl

/-- A line with a breakpoint has already kept the machine from going on. -/
theorem suspend_of_armed {line : Nat} (carriedOut : CarriedOut instruction debugger next)
    (armed : instruction.armedLine? debugger.breakpoints = some line) :
    next.suspend = { next with hit := none, mode := .untilBreakpoint } := by
  have running : next.state.running = false := by
    refine (congrArg Switches.running carriedOut.switches).trans ?_
    rw [armed]
    rfl
  rw [suspend, ← running]
  rfl

theorem hit_eq (carriedOut : CarriedOut instruction debugger next) (unhit : debugger.hit = none) :
    next.hit = instruction.armedLine? debugger.breakpoints := by
  rw [carriedOut.hit, unhit, Option.or_none]

/-- The debugger stops behind an instruction as the tests say. -/
theorem judge_eq (carriedOut : CarriedOut instruction debugger next)
    (going : debugger.isDone = false) (unhit : debugger.hit = none) :
    next.judge =
      match Attempt.stop? ⟨instruction, .ok () next⟩ with
      | some (outcome, final) => .stopped outcome final
      | none => .going next := by
  have hit := carriedOut.hit_eq unhit
  by_cases isHalt : instruction = .halt
  · subst isHalt
    rw [judge_of_done carriedOut.isDone_of_halt]
    change _ = Progress.stopped (.ok .halted) next.turnOff
    rw [carriedOut.turnOff_of_halt]
  · have stillGoing : next.isDone = false := (carriedOut.isDone_of_ne_halt isHalt).trans going
    rw [Attempt.stop?_of_ne_halt isHalt, carriedOut.breakpoints]
    cases armed : instruction.armedLine? debugger.breakpoints with
    | some line =>
        rw [judge_of_breakpoint stillGoing (hit.trans armed), ← carriedOut.suspend_of_armed armed]
        rfl
    | none =>
        have nextUnhit := hit.trans armed
        cases complete : next.mode.stopsAt next.depth next.currentLine with
        | true =>
            rw [judge_of_step stillGoing nextUnhit complete, ← suspend_of_unhit nextUnhit]
            rfl
        | false => exact judge_eq_going_iff.mpr ⟨stillGoing, nextUnhit, complete, rfl⟩

end CarriedOut

variable {instruction : Instruction Jump} {start debugger next final : Debugger}
  {outcome : Outcome} {count : Nat}

/-- No breakpoint is left over when a run has stopped or passed an instruction. -/
theorem hit_advance (going : debugger.isDone = false) (unhit : debugger.hit = none) :
    debugger.advance.debugger.hit = none := by
  rcases debugger.advance_cases with ⟨-, advanced⟩ | ⟨instruction, next, -, carried, advanced⟩ |
    ⟨instruction, fault, failed, -, carried, advanced⟩
  · rw [advanced]
    exact unhit
  · rw [advanced]
    unfold judge
    split
    · next done =>
        have carriedOut := carriedOut_of_run_eq_ok carried
        have isHalt : instruction = .halt := by
          by_contra notHalt
          rw [carriedOut.isDone_of_ne_halt notHalt, going] at done
          contradiction
        rw [isHalt] at carriedOut
        exact carriedOut.hit_eq unhit
    · split
      · rfl
      · next nextUnhit => split <;> exact nextUnhit
  · rw [advanced]
    obtain ⟨stack, terminal, -, rfl⟩ := eq_of_run_eq_error carried
    exact unhit

theorem Reachable.hit_eq_none {program : Program} (reachable : Reachable program debugger) :
    debugger.hit = none := by
  induction reachable with
  | create source terminal => rfl
  | adjust adjustment _ ih =>
      cases adjustment with
      | reset => rfl
      | _ => exact ih
  | setRunning _ _ ih => exact ih
  | advance _ going ih => exact hit_advance going ih

theorem after?_succ (tried : start.attempt? = some ⟨instruction, .ok () next⟩) (count : Nat) :
    start.after? (count + 1) = next.after? count := by
  induction count with
  | zero =>
      change start.attempt?.bind Attempt.reached? = some next
      rw [tried]
      rfl
  | succ count ih => rw [after?, ih, after?]

theorem last?_succ (tried : start.attempt? = some ⟨instruction, .ok () next⟩) (count : Nat) :
    start.last? (count + 2) = next.last? (count + 1) := by
  rw [last?, last?, after?_succ tried]

theorem stop?_zero (start : Debugger) : start.stop? 0 = start.end? := rfl

theorem stop?_one (start : Debugger) :
    start.stop? 1 = (start.attempt?.bind Attempt.stop?).or
      ((start.attempt?.bind Attempt.reached?).bind end?) := rfl

theorem stop?_succ (tried : start.attempt? = some ⟨instruction, .ok () next⟩)
    (unstopped : Attempt.stop? ⟨instruction, .ok () next⟩ = none) (count : Nat) :
    start.stop? (count + 1) = next.stop? count := by
  cases count with
  | zero =>
      rw [stop?_zero, stop?_one, tried, Option.bind_some, Option.bind_some, unstopped]
      rfl
  | succ count => rw [stop?, stop?, last?_succ tried, after?_succ tried]

/-- The first stop is the one that the next instruction makes, or the first one behind it. -/
theorem advance_stops (going : debugger.isDone = false) (unhit : debugger.hit = none) :
    (∃ count outcome final, debugger.advance = .stopped outcome final ∧
      debugger.StopsAfter count outcome final) ∨
    ∃ next, debugger.advance = .going next ∧ next.isDone = false ∧ next.hit = none ∧
      debugger.stop? 0 = none ∧ ∀ count, debugger.stop? (count + 1) = next.stop? count := by
  rcases debugger.advance_cases with ⟨atEnd, advanced⟩ |
    ⟨instruction, next, fetched, carried, advanced⟩ |
    ⟨instruction, fault, failed, fetched, carried, advanced⟩
  · have noAttempt : debugger.attempt? = none := by rw [attempt?, atEnd, Option.map_none]
    refine .inl ⟨0, _, _, advanced, ?_, by simp⟩
    rw [stop?_zero, end?, noAttempt]
  · have tried : debugger.attempt? = some ⟨instruction, .ok () next⟩ := by
      rw [attempt?, fetched, Option.map_some, carried]
    have atStart : debugger.stop? 0 = none := by rw [stop?_zero, end?, tried]
    have judged := (carriedOut_of_run_eq_ok carried).judge_eq going unhit
    cases isStop : Attempt.stop? ⟨instruction, .ok () next⟩ with
    | some stopped =>
        rw [isStop] at judged
        refine .inl ⟨1, _, _, advanced.trans judged, ?_, ?_⟩
        · rw [stop?_one, tried, Option.bind_some, isStop]
          rfl
        · intro earlier isEarlier
          obtain rfl : earlier = 0 := by omega
          exact atStart
    | none =>
        rw [isStop] at judged
        obtain ⟨stillGoing, nextUnhit, -, -⟩ := judge_eq_going_iff.mp judged
        exact .inr ⟨next, advanced.trans judged, stillGoing, nextUnhit, atStart,
          stop?_succ tried isStop⟩
  · have tried : debugger.attempt? = some ⟨instruction, .error fault failed⟩ := by
      rw [attempt?, fetched, Option.map_some, carried]
    refine .inl ⟨1, _, _, advanced, ?_, ?_⟩
    · rw [stop?_one, tried]
      rfl
    · intro earlier isEarlier
      obtain rfl : earlier = 0 := by omega
      rw [stop?_zero, end?, tried]

namespace StopsAfter

theorem unique {other : Nat} {otherOutcome : Outcome} {otherFinal : Debugger}
    (stops : start.StopsAfter count outcome final)
    (also : start.StopsAfter other otherOutcome otherFinal) :
    outcome = otherOutcome ∧ final = otherFinal := by
  have same : count = other := by
    rcases Nat.lt_trichotomy count other with before | same | behind
    · have none := also.first count before
      simp [stops.stops] at none
    · exact same
    · have none := stops.first other behind
      simp [also.stops] at none
  subst same
  exact Prod.mk.inj (Option.some.inj (stops.stops.symm.trans also.stops))

theorem succ (atStart : debugger.stop? 0 = none)
    (shifted : ∀ count, debugger.stop? (count + 1) = next.stop? count)
    (stops : next.StopsAfter count outcome final) :
    debugger.StopsAfter (count + 1) outcome final where
  stops := (shifted count).trans stops.stops
  first earlier isEarlier := by
    cases earlier with
    | zero => exact atStart
    | succ earlier => exact (shifted earlier).trans (stops.first earlier (by omega))

theorem pred (shifted : ∀ count, debugger.stop? (count + 1) = next.stop? count)
    (stops : debugger.StopsAfter (count + 1) outcome final) :
    next.StopsAfter count outcome final where
  stops := (shifted count).symm.trans stops.stops
  first earlier isEarlier :=
    (shifted earlier).symm.trans (stops.first (earlier + 1) (by omega))

end StopsAfter

theorem exists_stopsAfter_of_proceed {fuel : Nat} (going : debugger.isDone = false)
    (unhit : debugger.hit = none) (ended : debugger.proceed fuel = some (outcome, final)) :
    ∃ count, debugger.StopsAfter count outcome final := by
  induction fuel generalizing debugger with
  | zero => simp [proceed] at ended
  | succ fuel ih =>
      rw [proceed] at ended
      rcases advance_stops going unhit with ⟨count, _, _, advanced, stops⟩ |
        ⟨next, advanced, stillGoing, nextUnhit, atStart, shifted⟩
      · rw [advanced] at ended
        obtain ⟨rfl, rfl⟩ := Prod.mk.inj (Option.some.inj ended)
        exact ⟨count, stops⟩
      · rw [advanced] at ended
        obtain ⟨count, stops⟩ := ih stillGoing nextUnhit ended
        exact ⟨count + 1, stops.succ atStart shifted⟩

/-- One unit of fuel for every instruction, and one to see that none is left. -/
theorem StopsAfter.proceed (going : debugger.isDone = false) (unhit : debugger.hit = none)
    (stops : debugger.StopsAfter count outcome final) :
    debugger.proceed (count + 1) = some (outcome, final) := by
  induction count generalizing debugger with
  | zero =>
      rcases advance_stops going unhit with ⟨_, _, _, advanced, also⟩ | ⟨_, -, -, -, atStart, -⟩
      · obtain ⟨rfl, rfl⟩ := stops.unique also
        rw [Debugger.proceed, advanced]
      · simp [stops.stops] at atStart
  | succ count ih =>
      rcases advance_stops going unhit with ⟨_, _, _, advanced, also⟩ |
        ⟨next, advanced, stillGoing, nextUnhit, -, shifted⟩
      · obtain ⟨rfl, rfl⟩ := stops.unique also
        rw [Debugger.proceed, advanced]
      · rw [Debugger.proceed, advanced]
        exact ih stillGoing nextUnhit (stops.pred shifted)

theorem exists_resume_iff_stopsAfter (going : debugger.isDone = false)
    (unhit : debugger.hit = none) :
    (∃ fuel, debugger.resume fuel = some (outcome, final)) ↔
      ∃ count, debugger.setRunning.StopsAfter count outcome final := by
  have resumed (fuel : Nat) : debugger.resume fuel = debugger.setRunning.proceed fuel :=
    if_neg (Bool.eq_false_iff.mp going)
  constructor
  · rintro ⟨fuel, ended⟩
    rw [resumed] at ended
    exact exists_stopsAfter_of_proceed going unhit ended
  · rintro ⟨count, stops⟩
    refine ⟨count + 1, ?_⟩
    rw [resumed]
    exact stops.proceed going unhit

theorem exists_stopsAfter (stopped : (start.stop? count).isSome) :
    ∃ least outcome final, start.StopsAfter least outcome final := by
  have exists_stop : ∃ count, (start.stop? count).isSome := ⟨count, stopped⟩
  obtain ⟨⟨outcome, final⟩, stops⟩ := Option.isSome_iff_exists.mp (Nat.find_spec exists_stop)
  refine ⟨Nat.find exists_stop, outcome, final, stops, ?_⟩
  intro earlier isEarlier
  exact Option.not_isSome_iff_eq_none.mp (Nat.find_min exists_stop isEarlier)

theorem after?_of_last? {attempt : Attempt} (isLast : start.last? count = some attempt) :
    0 < count ∧ start.after? count = attempt.reached? := by
  cases count with
  | zero => contradiction
  | succ count =>
      rw [last?] at isLast
      rw [after?, isLast]
      exact ⟨count.succ_pos, rfl⟩

/-- A stop is made by the last instruction, or no instruction is left. -/
theorem stop?_cases (stopped : start.stop? count = some (outcome, final)) :
    (∃ attempt, start.last? count = some attempt ∧ attempt.stop? = some (outcome, final)) ∨
    ∃ reached, start.after? count = some reached ∧ reached.attempt? = none ∧
      outcome = .ok .halted ∧ final = reached.turnOff := by
  rw [stop?, Option.or_eq_some_iff] at stopped
  rcases stopped with byLast | ⟨-, atEnd⟩
  · exact .inl (Option.bind_eq_some_iff.mp byLast)
  · obtain ⟨reached, isAfter, ended⟩ := Option.bind_eq_some_iff.mp atEnd
    unfold end? at ended
    split at ended
    · next noAttempt =>
        obtain ⟨rfl, rfl⟩ := Prod.mk.inj (Option.some.inj ended)
        exact .inr ⟨reached, isAfter, noAttempt, rfl, rfl⟩
    · contradiction

theorem run_carryOut_of_attempt? {value : Unit}
    (tried : debugger.attempt? = some ⟨instruction, .ok value next⟩) :
    debugger.machine.program.fetch? debugger.state.pc = some instruction ∧
      (carryOut instruction).run debugger = .ok value next := by
  obtain ⟨_, fetched, equal⟩ := Option.map_eq_some_iff.mp tried
  obtain ⟨rfl, carried⟩ := Attempt.mk.inj equal
  exact ⟨fetched, carried⟩

/-- A run that does not stop carries out another instruction. -/
theorem exists_last?_of_unstopped (isAfter : start.after? count = some debugger)
    (unstopped : start.stop? count = none) :
    ∃ attempt, debugger.attempt? = some attempt ∧ start.last? (count + 1) = some attempt := by
  have notEnd : debugger.end? = none := by
    have tests := Option.or_eq_none_iff.mp unstopped
    rw [isAfter] at tests
    exact tests.2
  cases tried : debugger.attempt? with
  | none => simp [end?, tried] at notEnd
  | some attempt =>
      refine ⟨attempt, rfl, ?_⟩
      rw [last?, isAfter]
      exact tried

/-- What holds at the start of a run, and is kept by the instructions that complete no step,
holds as long as the run does not stop. -/
theorem exists_after?_of_unstopped {invariant : Debugger → Prop} (initial : invariant start)
    (passes : ∀ {debugger next : Debugger} {instruction : Instruction Jump}, invariant debugger →
      debugger.attempt? = some ⟨instruction, .ok () next⟩ →
      next.mode.stopsAt next.depth next.currentLine = false → invariant next)
    (unstopped : ∀ earlier ≤ count, start.stop? earlier = none) :
    ∃ passed, start.after? count = some passed ∧ invariant passed := by
  induction count with
  | zero => exact ⟨start, rfl, initial⟩
  | succ count ih =>
      obtain ⟨passed, isAfter, holds⟩ := ih fun earlier isEarlier => unstopped earlier (by omega)
      obtain ⟨attempt, tried, isLast⟩ :=
        exists_last?_of_unstopped isAfter (unstopped count (by omega))
      have tests := Option.or_eq_none_iff.mp (unstopped (count + 1) (Nat.le_refl _))
      rw [isLast] at tests
      obtain ⟨next, isAttempt, incomplete⟩ := Attempt.exists_of_stop?_eq_none tests.1
      rw [isAttempt] at tried isLast
      exact ⟨next, (after?_of_last? isLast).2, passes holds tried incomplete⟩

/-- A stop leaves the machine and the activations as they are there, except that the machine
no longer runs. -/
theorem exists_reached_of_stop? (stopped : start.stop? count = some (outcome, final)) :
    ∃ reached, start.LeadsTo count outcome reached ∧
      final.state = { reached.state with running := false, halted := final.isDone } ∧
      final.machine.program = reached.machine.program ∧
      final.activations = reached.activations := by
  rcases stop?_cases stopped with ⟨attempt, isLast, made⟩ | ⟨reached, isAfter, -, rfl, rfl⟩
  · rcases Attempt.stop?_cases made with ⟨fault, failed, failing, rfl, rfl⟩ |
      ⟨reached, isReached, made⟩
    · refine ⟨failed, ⟨attempt.instruction, ?_⟩, rfl, rfl, rfl⟩
      rw [isLast, ← failing]
    · have isAfter := (after?_of_last? isLast).2.trans isReached
      rcases made with ⟨rfl, rfl⟩ | ⟨line, rfl, rfl⟩ | ⟨-, rfl, rfl⟩
      · exact ⟨reached, isAfter, rfl, rfl, rfl⟩
      · exact ⟨reached, isAfter, rfl, rfl, rfl⟩
      · exact ⟨reached, isAfter, rfl, rfl, rfl⟩
  · exact ⟨reached, isAfter, rfl, rfl, rfl⟩

theorem leaves_of_judge (judged : debugger.judge = .stopped outcome final) :
    outcome.Leaves final := by
  unfold judge at judged
  split at judged
  · next done =>
      obtain ⟨rfl, rfl⟩ := Progress.stopped.inj judged
      exact done
  · next going =>
      have stillGoing : debugger.isDone = false := Bool.eq_false_iff.mpr going
      split at judged
      · obtain ⟨rfl, rfl⟩ := Progress.stopped.inj judged
        exact ⟨stillGoing, rfl⟩
      · split at judged
        · obtain ⟨rfl, rfl⟩ := Progress.stopped.inj judged
          exact ⟨stillGoing, rfl⟩
        · contradiction

theorem leaves_of_proceed {fuel : Nat} (ended : debugger.proceed fuel = some (outcome, final)) :
    outcome.Leaves final := by
  induction fuel generalizing debugger with
  | zero => simp [proceed] at ended
  | succ fuel ih =>
      rw [proceed] at ended
      rcases debugger.advance_cases with ⟨-, advanced⟩ | ⟨_, next, -, -, advanced⟩ |
        ⟨_, fault, failed, -, -, advanced⟩
      · rw [advanced] at ended
        obtain ⟨rfl, rfl⟩ := Prod.mk.inj (Option.some.inj ended)
        rfl
      · split at ended
        · exact ih ended
        · next isStopped =>
            obtain ⟨rfl, rfl⟩ := Prod.mk.inj (Option.some.inj ended)
            exact leaves_of_judge (advanced.symm.trans isStopped)
      · rw [advanced] at ended
        obtain ⟨rfl, rfl⟩ := Prod.mk.inj (Option.some.inj ended)
        rfl

/-- A resumed program stops at the first stop.  Let a debugger be reachable and its program not
over, and let any step be armed and any breakpoints be set.  The run returns what the least
number of instructions with a stop gives, and does not return if there is no stop.  It carries
out an instruction unless it ends the program; a breakpoint and a complete step leave a program
that can be resumed with no step armed, everything else ends it; and the machine and the
activations are as the instructions, the failing one included, have left them. -/
theorem resume_stops_first {program : Program} {origin : Debugger}
    (reachable : Reachable program origin) (going : origin.isDone = false) (mode : RunMode)
    (breakpoints : Breakpoints) :
    let debugger := { origin with mode, breakpoints }
    let start := debugger.setRunning
    (∀ outcome final, (∃ fuel, debugger.resume fuel = some (outcome, final)) ↔
      ∃ count, start.StopsAfter count outcome final) ∧
    ((∀ fuel, debugger.resume fuel = none) ↔ ∀ count, start.stop? count = none) ∧
    ∀ count outcome final, start.StopsAfter count outcome final →
      (0 < count ∨ final.isDone = true) ∧ outcome.Leaves final ∧
      ∃ reached, start.LeadsTo count outcome reached ∧
        final.state = { reached.state with running := false, halted := final.isDone } ∧
        final.machine.program = reached.machine.program ∧
        final.activations = reached.activations := by
  intro debugger start
  have returns (outcome : Outcome) (final : Debugger) :
      (∃ fuel, debugger.resume fuel = some (outcome, final)) ↔
        ∃ count, start.StopsAfter count outcome final :=
    exists_resume_iff_stopsAfter going reachable.hit_eq_none
  refine ⟨returns, ⟨?_, ?_⟩, ?_⟩
  · intro never count
    by_contra isStop
    obtain ⟨least, outcome, final, stops⟩ :=
      exists_stopsAfter (Option.isSome_iff_ne_none.mpr isStop)
    obtain ⟨fuel, ended⟩ := (returns outcome final).mpr ⟨least, stops⟩
    rw [never fuel] at ended
    contradiction
  · intro never fuel
    cases ended : debugger.resume fuel with
    | none => rfl
    | some result =>
        obtain ⟨count, stops⟩ := (returns result.1 result.2).mp ⟨fuel, ended⟩
        have isStop := stops.stops
        rw [never count] at isStop
        contradiction
  · intro count outcome final stops
    have notDone : start.isDone = false := going
    have unhit : start.hit = none := reachable.hit_eq_none
    refine ⟨?_, leaves_of_proceed (stops.proceed notDone unhit),
      exists_reached_of_stop? stops.stops⟩
    rcases stop?_cases stops.stops with ⟨attempt, isLast, -⟩ | ⟨reached, -, -, -, rfl⟩
    · exact .inl (after?_of_last? isLast).1
    · exact .inr rfl

/-- A step that is complete on a line with a breakpoint stops at the breakpoint. -/
theorem resume_stops_first_tie :
    let program : Program :=
      { code := #[.line (some 1), .line (some 2), .halt], labels := [] }
    let origin := create program [] {}
    let debugger := { origin with
      mode := .stepOver ⟨1, some 1⟩
      breakpoints := { valid := [1, 2], armed := [2] } }
    ∃ fuel final, debugger.resume fuel = some (.ok (.breakpoint 2), final) ∧
      final.mode = .untilBreakpoint ∧ final.state.pc = 2 := by
  intro program origin debugger
  have reachable : Reachable program origin := .create [] {}
  obtain ⟨returns, -, leaves⟩ := resume_stops_first reachable rfl (.stepOver ⟨1, some 1⟩)
    { valid := [1, 2], armed := [2] }
  have stops : ∃ final, debugger.setRunning.StopsAfter 2 (.ok (.breakpoint 2)) final := by
    refine ⟨_, rfl, ?_⟩
    intro earlier isEarlier
    match earlier with
    | 0 => rfl
    | 1 => rfl
  obtain ⟨final, stops⟩ := stops
  obtain ⟨fuel, ended⟩ := (returns _ final).mpr ⟨2, stops⟩
  obtain ⟨-, ⟨-, disarmed⟩, reached, isAfter, isState, -, -⟩ := leaves 2 _ final stops
  obtain rfl := Option.some.inj isAfter
  exact ⟨fuel, final, ended, disarmed, congrArg State.pc isState⟩

end Debugger

end StackDebugger
