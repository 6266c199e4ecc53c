import StackDebugger.Proofs.Debugger.Observation

/-!
# Sessions and reachable debuggers

A session is a sequence of operations on a debugger: runs are resumed, and
between them steps are armed, breakpoints set and cleared, and the like.  Runs
take fuel; a session answers nothing unless every run in it returns.

`Debugger.Reachable` holds of every debugger that a session can lead to and also
of every debugger that a run passes through, whether or not the run returns.

`Debugger.Unnoticed` holds of the changes of a debugger that commute with every
instruction and every adjustment, and so with every session.
-/

namespace StackDebugger

/-- An operation on a debugger that carries out no instruction. -/
inductive Adjustment where
  | reset
  | armStepOver
  | armStepInto
  | armStepOut
  | setBreakpoint (line : Nat)
  | clearBreakpoint (line : Nat)
  | clearBreakpoints
  | startTracing
  | turnOff
  deriving DecidableEq, Repr

def Adjustment.apply : Adjustment → Debugger → Debugger
  | .reset => Debugger.reset
  | .armStepOver => Debugger.armStepOver
  | .armStepInto => Debugger.armStepInto
  | .armStepOut => Debugger.armStepOut
  | .setBreakpoint line => (·.setBreakpoint line)
  | .clearBreakpoint line => (·.clearBreakpoint line)
  | .clearBreakpoints => Debugger.clearBreakpoints
  | .startTracing => Debugger.startTracing
  | .turnOff => Debugger.turnOff

/-- What a front end can ask of a debugger. -/
inductive Operation where
  | resume
  | adjust (adjustment : Adjustment)
  deriving DecidableEq, Repr

namespace Debugger

/-- Carries out operations one after another.  The outcomes are those of the
runs, in their order. -/
def session (fuel : Nat) : List Operation → Debugger → Option (List Outcome × Debugger)
  | [], debugger => some ([], debugger)
  | .adjust adjustment :: rest, debugger => session fuel rest (adjustment.apply debugger)
  | .resume :: rest, debugger =>
      match debugger.resume fuel with
      | none => none
      | some (outcome, next) =>
          (session fuel rest next).map fun (later, final) => (outcome :: later, final)

def setRunning (debugger : Debugger) : Debugger :=
  debugger.withState { debugger.state with running := true }

end Debugger

/-- The debugger that an instruction has led to. -/
def Progress.debugger : Progress → Debugger
  | .going debugger => debugger
  | .stopped _ debugger => debugger

/-- The fault with which an instruction has failed. -/
def Progress.fault? : Progress → Option Fault
  | .stopped (.error fault) _ => some fault
  | _ => none

namespace Debugger

/-- The debuggers of a program that sessions lead to and runs pass through. -/
inductive Reachable (program : Program) : Debugger → Prop where
  | create (source : List String) (terminal : Terminal) :
      Reachable program (create program source terminal)
  | adjust {debugger : Debugger} (adjustment : Adjustment) :
      Reachable program debugger → Reachable program (adjustment.apply debugger)
  | setRunning {debugger : Debugger} :
      Reachable program debugger → debugger.isDone = false →
      Reachable program debugger.setRunning
  | advance {debugger : Debugger} :
      Reachable program debugger → debugger.isDone = false →
      Reachable program debugger.advance.debugger

/-- One move of a session that goes on without failing and without being reset. -/
inductive Continues : Debugger → Debugger → Prop where
  | adjust {debugger : Debugger} {adjustment : Adjustment} :
      adjustment ≠ .reset → Continues debugger (adjustment.apply debugger)
  | setRunning {debugger : Debugger} :
      debugger.isDone = false → Continues debugger debugger.setRunning
  | advance {debugger : Debugger} :
      debugger.isDone = false → debugger.advance.fault? = none →
      Continues debugger debugger.advance.debugger

/-- Judging changes no more than whether the machine goes on and how a run stops. -/
theorem exists_judge_debugger_eq (debugger : Debugger) :
    ∃ running hit mode, debugger.judge.debugger =
      { debugger.withState { debugger.state with running } with hit, mode } := by
  unfold judge
  split
  · exact ⟨_, _, _, rfl⟩
  · split
    · exact ⟨_, _, _, rfl⟩
    · split
      · exact ⟨_, _, _, rfl⟩
      · exact ⟨_, _, _, rfl⟩

theorem judge_eq_going_iff {debugger next : Debugger} :
    debugger.judge = .going next ↔
      debugger.isDone = false ∧ debugger.hit = none ∧
        debugger.mode.stopsAt debugger.depth debugger.currentLine = false ∧ next = debugger := by
  unfold judge
  cases debugger.isDone with
  | true => simp
  | false =>
      cases debugger.hit with
      | some line => simp
      | none =>
          cases debugger.mode.stopsAt debugger.depth debugger.currentLine with
          | true => simp
          | false => simp [eq_comm]

theorem judge_of_done {debugger : Debugger} (done : debugger.isDone = true) :
    debugger.judge = .stopped (.ok .halted) debugger :=
  if_pos done

theorem judge_of_breakpoint {debugger : Debugger} {line : Nat} (going : debugger.isDone = false)
    (hit : debugger.hit = some line) :
    debugger.judge = .stopped (.ok (.breakpoint line))
      { debugger with hit := none, mode := .untilBreakpoint } := by
  simp [judge, going, hit]

theorem judge_of_step {debugger : Debugger} (going : debugger.isDone = false)
    (unhit : debugger.hit = none)
    (complete : debugger.mode.stopsAt debugger.depth debugger.currentLine = true) :
    debugger.judge = .stopped (.ok .step)
      { debugger.withState { debugger.state with running := false } with
        mode := .untilBreakpoint } := by
  simp [judge, going, unhit, complete]

theorem advance_of_end {debugger : Debugger}
    (atEnd : debugger.machine.program.fetch? debugger.state.pc = none) :
    debugger.advance = .stopped (.ok .halted) debugger.turnOff := by
  simp only [advance, atEnd]

theorem advance_of_carryOut {debugger next : Debugger} {instruction : Instruction Jump}
    {value : Unit} (carried : (carryOut instruction).run debugger = .ok value next)
    (fetched : debugger.machine.program.fetch? debugger.state.pc = some instruction) :
    debugger.advance = next.judge := by
  simp only [advance, fetched, carried]

theorem advance_of_fault {debugger failed : Debugger} {instruction : Instruction Jump}
    {fault : Fault} (isFailed : (carryOut instruction).run debugger = .error fault failed)
    (fetched : debugger.machine.program.fetch? debugger.state.pc = some instruction) :
    debugger.advance = .stopped (.error fault) failed.turnOff := by
  simp only [advance, fetched, isFailed]

/-- The three things that can happen next: the program has ended, an instruction
is carried out and judged, or it fails. -/
theorem advance_cases (debugger : Debugger) :
    (debugger.machine.program.fetch? debugger.state.pc = none ∧
      debugger.advance = .stopped (.ok .halted) debugger.turnOff) ∨
    (∃ instruction next,
      debugger.machine.program.fetch? debugger.state.pc = some instruction ∧
      (carryOut instruction).run debugger = .ok () next ∧ debugger.advance = next.judge) ∨
    ∃ instruction fault failed,
      debugger.machine.program.fetch? debugger.state.pc = some instruction ∧
      (carryOut instruction).run debugger = .error fault failed ∧
      debugger.advance = .stopped (.error fault) failed.turnOff := by
  cases fetched : debugger.machine.program.fetch? debugger.state.pc with
  | none => exact .inl ⟨rfl, advance_of_end fetched⟩
  | some instruction =>
      right
      cases carried : (carryOut instruction).run debugger with
      | ok value next =>
          exact .inl ⟨instruction, next, rfl, carried, advance_of_carryOut carried fetched⟩
      | error fault failed =>
          exact .inr ⟨instruction, fault, failed, rfl, carried, advance_of_fault carried fetched⟩

theorem isDone_of_advance_eq_going {debugger next : Debugger}
    (isGoing : debugger.advance = .going next) : next.isDone = false := by
  rcases debugger.advance_cases with ⟨-, ended⟩ | ⟨_, carried, -, -, judged⟩ |
    ⟨_, _, _, -, -, failed⟩
  · simp [ended] at isGoing
  · obtain ⟨going, -, -, rfl⟩ := judge_eq_going_iff.mp (judged.symm.trans isGoing)
    exact going
  · simp [failed] at isGoing

/-- A program goes on only behind an instruction that was carried out. -/
theorem exists_carried_of_going {debugger : Debugger}
    (going : debugger.advance.debugger.isDone = false) :
    ∃ instruction next,
      debugger.machine.program.fetch? debugger.state.pc = some instruction ∧
      (carryOut instruction).run debugger = .ok () next ∧ debugger.advance = next.judge := by
  rcases debugger.advance_cases with ⟨-, ended⟩ | carried | ⟨_, _, _, -, -, failed⟩
  · rw [ended] at going
    contradiction
  · exact carried
  · rw [failed] at going
    contradiction

theorem proceed_mono {debugger : Debugger} {fuel more : Nat} {result : Outcome × Debugger}
    (enough : fuel ≤ more) (ended : debugger.proceed fuel = some result) :
    debugger.proceed more = some result := by
  induction fuel generalizing debugger more with
  | zero => simp [proceed] at ended
  | succ fuel ih =>
      obtain ⟨more, rfl⟩ : ∃ rest, more = rest + 1 := ⟨more - 1, by omega⟩
      simp only [proceed] at ended ⊢
      split
      · next next isGoing =>
          simp only [isGoing] at ended
          exact ih (by omega) ended
      · next outcome stopped isStopped => simpa [isStopped] using ended

theorem resume_of_done {debugger : Debugger} (done : debugger.isDone = true) (fuel : Nat) :
    debugger.resume fuel = some (.ok .halted, debugger) :=
  if_pos done

/-- What every instruction keeps holds when a run has returned. -/
theorem proceed_invariant {holds : Debugger → Prop}
    (advance : ∀ {debugger : Debugger}, holds debugger → debugger.isDone = false →
      holds debugger.advance.debugger)
    {debugger final : Debugger} {fuel : Nat} {outcome : Outcome} (initial : holds debugger)
    (going : debugger.isDone = false) (ended : debugger.proceed fuel = some (outcome, final)) :
    holds final := by
  induction fuel generalizing debugger with
  | zero => simp [proceed] at ended
  | succ fuel ih =>
      have advanced := advance initial going
      rw [proceed] at ended
      split at ended
      · next next isGoing =>
          rw [isGoing] at advanced
          exact ih advanced (isDone_of_advance_eq_going isGoing) ended
      · next isStopped =>
          obtain ⟨rfl, rfl⟩ := Prod.mk.inj (Option.some.inj ended)
          rw [isStopped] at advanced
          exact advanced

theorem resume_invariant {holds : Debugger → Prop}
    (setRunning : ∀ {debugger : Debugger}, holds debugger → debugger.isDone = false →
      holds debugger.setRunning)
    (advance : ∀ {debugger : Debugger}, holds debugger → debugger.isDone = false →
      holds debugger.advance.debugger)
    {debugger final : Debugger} {fuel : Nat} {outcome : Outcome} (initial : holds debugger)
    (ended : debugger.resume fuel = some (outcome, final)) : holds final := by
  unfold resume at ended
  split at ended
  · obtain ⟨-, rfl⟩ := Prod.mk.inj (Option.some.inj ended)
    exact initial
  · next going =>
      have notDone : debugger.isDone = false := Bool.eq_false_iff.mpr going
      exact proceed_invariant advance (setRunning initial notDone) notDone ended

/-- What every move keeps, and every adjustment that is made, holds after a session. -/
theorem session_invariant {holds : Debugger → Prop}
    (setRunning : ∀ {debugger : Debugger}, holds debugger → debugger.isDone = false →
      holds debugger.setRunning)
    (advance : ∀ {debugger : Debugger}, holds debugger → debugger.isDone = false →
      holds debugger.advance.debugger)
    {operations : List Operation}
    (adjust : ∀ {debugger : Debugger} {adjustment : Adjustment},
      .adjust adjustment ∈ operations → holds debugger → holds (adjustment.apply debugger))
    {debugger final : Debugger} {fuel : Nat} {outcomes : List Outcome} (initial : holds debugger)
    (ended : debugger.session fuel operations = some (outcomes, final)) : holds final := by
  induction operations generalizing debugger outcomes with
  | nil =>
      obtain ⟨-, rfl⟩ := Prod.mk.inj (Option.some.inj ended)
      exact initial
  | cons operation operations ih =>
      have later {debugger : Debugger} {adjustment : Adjustment}
          (member : .adjust adjustment ∈ operations) :
          holds debugger → holds (adjustment.apply debugger) :=
        adjust (List.mem_cons_of_mem operation member)
      cases operation with
      | adjust adjustment => exact ih later (adjust List.mem_cons_self initial) ended
      | resume =>
          simp only [session] at ended
          split at ended
          · contradiction
          · next outcome next resumed =>
              obtain ⟨⟨outcomes, last⟩, isLater, equal⟩ := Option.map_eq_some_iff.mp ended
              obtain ⟨-, rfl⟩ := Prod.mk.inj equal
              exact ih later (resume_invariant setRunning advance initial resumed) isLater

/-- What each operation carries on from the operations before it holds after a session. -/
theorem session_history {fuel : Nat} {holds : List Operation → Debugger → Prop}
    (adjust : ∀ {passed : List Operation} {debugger : Debugger} (adjustment : Adjustment),
      holds passed debugger → holds (passed ++ [.adjust adjustment]) (adjustment.apply debugger))
    (resume : ∀ {passed : List Operation} {debugger next : Debugger} {outcome : Outcome},
      holds passed debugger → debugger.resume fuel = some (outcome, next) →
      holds (passed ++ [.resume]) next)
    {passed operations : List Operation} {debugger final : Debugger} {outcomes : List Outcome}
    (initial : holds passed debugger)
    (ended : debugger.session fuel operations = some (outcomes, final)) :
    holds (passed ++ operations) final := by
  induction operations generalizing debugger passed outcomes with
  | nil =>
      obtain ⟨-, rfl⟩ := Prod.mk.inj (Option.some.inj ended)
      rw [List.append_nil]
      exact initial
  | cons operation operations ih =>
      rw [List.append_cons]
      cases operation with
      | adjust adjustment => exact ih (adjust adjustment initial) ended
      | resume =>
          simp only [session] at ended
          split at ended
          · contradiction
          · next outcome next resumed =>
              obtain ⟨⟨later, last⟩, isLater, equal⟩ := Option.map_eq_some_iff.mp ended
              obtain ⟨-, rfl⟩ := Prod.mk.inj equal
              exact ih (resume initial resumed) isLater

/-- A session that returns has returned from each part of it. -/
theorem exists_session_of_append {fuel : Nat} {first second : List Operation}
    {debugger final : Debugger} {outcomes : List Outcome}
    (ended : debugger.session fuel (first ++ second) = some (outcomes, final)) :
    ∃ earlier middle, debugger.session fuel first = some (earlier, middle) := by
  induction first generalizing debugger outcomes final with
  | nil => exact ⟨[], debugger, rfl⟩
  | cons operation first ih =>
      cases operation with
      | adjust adjustment => exact ih ended
      | resume =>
          rw [List.cons_append, session] at ended
          rw [session]
          split at ended
          · contradiction
          · obtain ⟨⟨later, last⟩, isLater, -⟩ := Option.map_eq_some_iff.mp ended
            obtain ⟨earlier, middle, isFirst⟩ := ih isLater
            exact ⟨_, middle, by rw [isFirst]; rfl⟩

/-- A run returns by the last instruction that it carries out. -/
theorem Reachable.exists_stopped_of_proceed {program : Program} {debugger final : Debugger}
    {fuel : Nat} {outcome : Outcome} (reachable : Reachable program debugger)
    (going : debugger.isDone = false) (ended : debugger.proceed fuel = some (outcome, final)) :
    ∃ last, Reachable program last ∧ last.isDone = false ∧
      last.advance = .stopped outcome final := by
  induction fuel generalizing debugger with
  | zero => simp [proceed] at ended
  | succ fuel ih =>
      have advanced := reachable.advance going
      rw [proceed] at ended
      split at ended
      · next next isGoing =>
          rw [isGoing] at advanced
          exact ih advanced (isDone_of_advance_eq_going isGoing) ended
      · next isStopped =>
          obtain ⟨rfl, rfl⟩ := Prod.mk.inj (Option.some.inj ended)
          exact ⟨debugger, reachable, going, isStopped⟩

theorem Reachable.exists_stopped_of_resume {program : Program} {debugger final : Debugger}
    {fuel : Nat} {outcome : Outcome} (reachable : Reachable program debugger)
    (going : debugger.isDone = false) (ended : debugger.resume fuel = some (outcome, final)) :
    ∃ last, Reachable program last ∧ last.isDone = false ∧
      last.advance = .stopped outcome final := by
  rw [Debugger.resume, if_neg (by simp [going])] at ended
  exact (reachable.setRunning going).exists_stopped_of_proceed going ended

theorem Reachable.resume {program : Program} {debugger final : Debugger} {fuel : Nat}
    {outcome : Outcome} (reachable : Reachable program debugger)
    (ended : debugger.resume fuel = some (outcome, final)) : Reachable program final :=
  resume_invariant .setRunning .advance reachable ended

/-- A session leads from reachable debuggers to reachable ones. -/
theorem Reachable.session {program : Program} {debugger final : Debugger} {fuel : Nat}
    {operations : List Operation} {outcomes : List Outcome}
    (reachable : Reachable program debugger)
    (ended : debugger.session fuel operations = some (outcomes, final)) :
    Reachable program final :=
  session_invariant .setRunning .advance (fun _ => .adjust _) reachable ended

end Debugger

/-- Changes the debugger that an instruction has led to. -/
def Progress.onDebugger (change : Debugger → Debugger) : Progress → Progress
  | .going debugger => .going (change debugger)
  | .stopped outcome debugger => .stopped outcome (change debugger)

namespace Debugger

/-- The change touches nothing that a run or an adjustment depends on. -/
structure Unnoticed (change : Debugger → Debugger) : Prop where
  isDone : ∀ debugger, (change debugger).isDone = debugger.isDone
  setRunning : ∀ debugger, (change debugger).setRunning = change debugger.setRunning
  advance : ∀ debugger, (change debugger).advance = debugger.advance.onDebugger change
  adjust : ∀ (adjustment : Adjustment) debugger,
    adjustment.apply (change debugger) = change (adjustment.apply debugger)

namespace Unnoticed

variable {change : Debugger → Debugger}

theorem comp {other : Debugger → Debugger} (unnoticed : Unnoticed change)
    (also : Unnoticed other) : Unnoticed (change ∘ other) where
  isDone debugger := (unnoticed.isDone _).trans (also.isDone debugger)
  setRunning debugger := (unnoticed.setRunning _).trans (congrArg change (also.setRunning debugger))
  advance debugger := by
    rw [Function.comp_apply, unnoticed.advance, also.advance]
    cases debugger.advance with
    | going next => rfl
    | stopped outcome stopped => rfl
  adjust adjustment debugger :=
    (unnoticed.adjust adjustment _).trans (congrArg change (also.adjust adjustment debugger))

theorem proceed (unnoticed : Unnoticed change) (fuel : Nat) (debugger : Debugger) :
    (change debugger).proceed fuel =
      (debugger.proceed fuel).map fun (outcome, final) => (outcome, change final) := by
  induction fuel generalizing debugger with
  | zero => rfl
  | succ fuel ih =>
      rw [Debugger.proceed, Debugger.proceed, unnoticed.advance]
      cases debugger.advance with
      | going next => exact ih next
      | stopped outcome stopped => rfl

theorem resume (unnoticed : Unnoticed change) (fuel : Nat) (debugger : Debugger) :
    (change debugger).resume fuel =
      (debugger.resume fuel).map fun (outcome, final) => (outcome, change final) := by
  unfold Debugger.resume
  rw [unnoticed.isDone]
  split
  · rfl
  · have running := unnoticed.setRunning debugger
    have proceeded := unnoticed.proceed fuel debugger.setRunning
    rw [← running] at proceeded
    exact proceeded

/-- What no run depends on makes no difference to a session. -/
theorem session (unnoticed : Unnoticed change) (fuel : Nat) (operations : List Operation)
    (debugger : Debugger) :
    (change debugger).session fuel operations =
      (debugger.session fuel operations).map fun (outcomes, final) =>
        (outcomes, change final) := by
  induction operations generalizing debugger with
  | nil => rfl
  | cons operation operations ih =>
      cases operation with
      | adjust adjustment =>
          rw [Debugger.session, Debugger.session, unnoticed.adjust]
          exact ih _
      | resume =>
          rw [Debugger.session, Debugger.session, unnoticed.resume]
          cases debugger.resume fuel with
          | none => rfl
          | some result =>
              simp only [Option.map_some, ih, Option.map_map]
              rfl

end Unnoticed

end Debugger

end StackDebugger
