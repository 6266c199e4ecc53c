import StackDebugger.Proofs.Debugger.Session
import StackDebugger.Proofs.Machine.CallStructure

/-!
# Frames, pending calls and activations

A debugger keeps one activation more than there are pending calls, whatever is
done with it and however its runs end.  In a program whose calls are paired with
the `ARGS` before them the frames follow as well, so that no run of such a program
closes the outermost frame.
-/

namespace StackDebugger

theorem ActivationStack.modifyCurrent_id (activations : ActivationStack) :
    activations.modifyCurrent id = activations := by
  rcases activations with ⟨outermost, _ | ⟨innermost, around⟩⟩ <;> rfl

namespace Instruction

/-- An instruction that stays in its frame changes at most the innermost activation. -/
theorem exists_track_eq_modifyCurrent {instruction : Instruction Jump}
    (isLocal : instruction.isLocal) (stack : OperandStack) (activations : ActivationStack) :
    ∃ change, instruction.track stack activations = activations.modifyCurrent change := by
  have unchanged := activations.modifyCurrent_id.symm
  cases instruction with
  | args count | call destination | ret owner | goto destination => contradiction
  | lit value name | load offset name | store offset name =>
      cases name with
      | none => exact ⟨id, unchanged⟩
      | some name =>
          rw [track]
          exact ⟨_, rfl⟩
  | line number =>
      cases number with
      | none => exact ⟨id, unchanged⟩
      | some number =>
          rw [track]
          exact ⟨_, rfl⟩
  | pop count | function name first last | formal name offset =>
      rw [track]
      exact ⟨_, rfl⟩
  | bop operator | falseBranch destination | label name | halt | read | write | dump mode =>
      exact ⟨id, unchanged⟩

/-- Activations follow the pending calls. -/
theorem depth_track {instruction : Instruction Jump} {start reached : Position}
    {activations : ActivationStack} (executes : start.Executes instruction reached)
    (before : activations.depth = start.returns.length + 1) (stack : OperandStack) :
    (instruction.track stack activations).depth = reached.returns.length + 1 := by
  cases executes with
  | stays isLocal kept =>
      obtain ⟨change, tracked⟩ := exists_track_eq_modifyCurrent isLocal stack activations
      rw [tracked, ActivationStack.depth_modifyCurrent]
      exact before
  | jumps isJump kept =>
      rcases isJump with rfl | rfl
      · exact before
      · exact before
  | opens opened => exact before
  | calls =>
      rw [track, ActivationStack.depth_push, before]
      rfl
  | returns isReturns closed =>
      rw [isReturns] at before
      simp only [track, ActivationStack.depth, ActivationStack.pop, List.length_tail,
        List.length_cons] at before ⊢
      omega

end Instruction

/-- Where a debugged run stands, and what is known about its calls. -/
structure Standing where
  position : Position
  activations : ActivationStack

def Debugger.standing (debugger : Debugger) : Standing :=
  { position := debugger.state.position, activations := debugger.activations }

namespace Standing

/-- How a run that does not fail moves: it rests, or carries out an instruction. -/
inductive Moves (program : Program) : Standing → Standing → Prop where
  | rests (start : Standing) : Moves program start start
  | carriesOut {instruction : Instruction Jump} {start : Standing} {reached : Position} :
      program.fetch? start.position.pc = some instruction →
      start.position.Executes instruction reached →
      Moves program start
        { position := { reached with pc := reached.pc + 1 }
          activations := instruction.track reached.stack start.activations }

end Standing

namespace Debugger

variable {program : Program} {debugger : Debugger}

@[simp] theorem standing_judge (debugger : Debugger) :
    debugger.judge.debugger.standing = debugger.standing := by
  obtain ⟨running, hit, mode, judged⟩ := debugger.exists_judge_debugger_eq
  rw [judged]
  rfl

@[simp] theorem fault?_judge (debugger : Debugger) : debugger.judge.fault? = none := by
  unfold judge
  split
  · rfl
  · split
    · rfl
    · split <;> rfl

/-- An instruction that is carried out moves the run and its activations. -/
theorem CarriedOut.exists_standing_eq {instruction : Instruction Jump} {next : Debugger}
    (carriedOut : CarriedOut instruction debugger next) :
    ∃ reached, debugger.state.position.Executes instruction reached ∧
      next.standing =
        { position := { reached with pc := reached.pc + 1 }
          activations := instruction.track reached.stack debugger.activations } := by
  obtain ⟨reached, executes, isPosition⟩ := carriedOut.position
  have sameStack : next.state.stack = reached.stack := congrArg Position.stack isPosition
  refine ⟨reached, executes, ?_⟩
  rw [standing, isPosition, carriedOut.activations, sameStack]

/-- What the next instruction does to a debugger: unless it fails, it moves the run;
if it fails, calls and activations are as before. -/
theorem advance_moves (debugger : Debugger) :
    (debugger.advance.fault? = none ∧
      debugger.standing.Moves debugger.machine.program debugger.advance.debugger.standing) ∨
    (debugger.advance.fault? ≠ none ∧
      ∃ stack, debugger.state.stack.Truncated stack ∧ debugger.advance.debugger.standing =
        { debugger.standing with position := { debugger.state.position with stack } }) := by
  rcases debugger.advance_cases with ⟨-, advanced⟩ |
    ⟨instruction, next, fetched, carried, advanced⟩ |
    ⟨instruction, fault, failed, -, carried, advanced⟩
  · rw [advanced]
    exact .inl ⟨rfl, .rests _⟩
  · left
    rw [advanced, standing_judge]
    obtain ⟨reached, executes, isStanding⟩ :=
      (carriedOut_of_run_eq_ok carried).exists_standing_eq
    rw [isStanding]
    exact ⟨fault?_judge next, .carriesOut fetched executes⟩
  · rw [advanced]
    obtain ⟨stack, terminal, truncated, rfl⟩ := eq_of_run_eq_error carried
    exact .inr ⟨by simp [Progress.fault?], stack, truncated, rfl⟩

@[simp] theorem program_advance (debugger : Debugger) :
    debugger.advance.debugger.machine.program = debugger.machine.program := by
  rcases debugger.advance_cases with ⟨-, advanced⟩ | ⟨instruction, next, -, carried, advanced⟩ |
    ⟨instruction, fault, failed, -, carried, advanced⟩
  · rw [advanced]
    rfl
  · obtain ⟨running, hit, mode, judged⟩ := next.exists_judge_debugger_eq
    rw [advanced, judged]
    exact (carriedOut_of_run_eq_ok carried).program
  · rw [advanced]
    obtain ⟨stack, terminal, -, rfl⟩ := eq_of_run_eq_error carried
    rfl

/-- Adjustments leave a run where it stands, unless they take it back to its
beginning. -/
theorem standing_adjust {adjustment : Adjustment} (notReset : adjustment ≠ .reset)
    (debugger : Debugger) : (adjustment.apply debugger).standing = debugger.standing := by
  cases adjustment with
  | reset => contradiction
  | armStepOver | armStepInto | armStepOut | setBreakpoint line | clearBreakpoint line
  | clearBreakpoints | startTracing | turnOff => rfl

namespace Reachable

theorem program_eq (reachable : Reachable program debugger) :
    debugger.machine.program = program := by
  induction reachable with
  | create source terminal => rfl
  | adjust adjustment _ ih => cases adjustment <;> exact ih
  | setRunning _ _ ih => exact ih
  | advance _ _ ih => rw [program_advance, ih]

/-- What holds in the beginning, and is kept by instructions that succeed and by
those that fail, holds wherever a debugger can stand. -/
theorem standing_induction {invariant : Standing → Prop}
    (initial : invariant { position := .initial, activations := {} })
    (moves : ∀ {start finish : Standing}, invariant start → start.Moves program finish →
      invariant finish)
    (fails : ∀ {start : Standing} {stack : OperandStack}, invariant start →
      start.position.stack.Truncated stack →
      invariant { start with position := { start.position with stack } })
    (reachable : Reachable program debugger) : invariant debugger.standing := by
  induction reachable with
  | create source terminal => exact initial
  | @adjust debugger adjustment _ ih =>
      by_cases isReset : adjustment = .reset
      · rw [isReset]
        exact initial
      · rw [standing_adjust isReset]
        exact ih
  | setRunning _ _ ih => exact ih
  | @advance debugger reachable _ ih =>
      rcases debugger.advance_moves with ⟨-, moved⟩ | ⟨-, stack, truncated, failed⟩
      · rw [reachable.program_eq] at moved
        exact moves ih moved
      · rw [failed]
        exact fails ih truncated

theorem depth_eq (reachable : Reachable program debugger) :
    debugger.depth = debugger.state.returns.length + 1 := by
  let invariant (standing : Standing) : Prop :=
    standing.activations.depth = standing.position.returns.length + 1
  suffices holds : invariant debugger.standing from holds
  refine standing_induction rfl ?_ (fun before _ => before) reachable
  intro start finish before moved
  cases moved with
  | rests => exact before
  | carriesOut _ executes => exact Instruction.depth_track executes before _

theorem aligned (isResolved : program.IsResolved) (pairs : program.PairsCalls)
    (reachable : Reachable program debugger) : debugger.state.position.Aligned program := by
  let invariant (standing : Standing) : Prop := standing.position.Aligned program
  suffices holds : invariant debugger.standing from holds
  refine standing_induction (.initial pairs) ?_ ?_ reachable
  · intro start finish before moved
    cases moved with
    | rests => exact before
    | carriesOut fetched executes =>
        exact Position.Aligned.advances isResolved pairs before
          ⟨_, _, fetched, executes, rfl⟩
  · intro start stack before truncated
    exact Position.Aligned.frameLocal before truncated.frameLocal

theorem advance_ne_outermostFrame (isResolved : program.IsResolved) (pairs : program.PairsCalls)
    (reachable : Reachable program debugger) :
    debugger.advance.fault? ≠ some .outermostFrame := by
  rcases debugger.advance_cases with ⟨-, advanced⟩ | ⟨_, next, -, -, advanced⟩ |
    ⟨instruction, fault, failed, fetched, carried, advanced⟩
  · simp [advanced, Progress.fault?]
  · simp [advanced]
  · rw [advanced]
    rintro ⟨⟩
    rw [reachable.program_eq] at fetched
    rcases execute_of_run_eq_error carried with ⟨unpeeked, -⟩ | ⟨terminal, after, raised, -⟩
    · exact OperandStack.peek_ne_outermostFrame _ unpeeked
    · let state : State := { debugger.state with terminal }
      have aligned : state.position.Aligned program := reachable.aligned isResolved pairs
      exact aligned.execute_ne_outermostFrame fetched raised

/-- No run of a program with paired calls closes the outermost frame. -/
theorem resume_ne_outermostFrame {fuel : Nat} {outcome : Outcome} {final : Debugger}
    (isResolved : program.IsResolved) (pairs : program.PairsCalls)
    (reachable : Reachable program debugger)
    (ended : debugger.resume fuel = some (outcome, final)) :
    outcome ≠ .error .outermostFrame := by
  cases done : debugger.isDone with
  | true =>
      rw [resume_of_done done] at ended
      obtain ⟨rfl, -⟩ := Prod.mk.inj (Option.some.inj ended)
      simp
  | false =>
      obtain ⟨last, isLast, -, isStopped⟩ := reachable.exists_stopped_of_resume done ended
      have spared := isLast.advance_ne_outermostFrame isResolved pairs
      rw [isStopped] at spared
      rintro rfl
      exact spared rfl

end Reachable

/-- Activations, pending calls and frames move in lockstep.  There is always one
activation more than pending calls.  In a resolved program with paired calls there
is also one frame more, and two more exactly where the next instruction is a call;
hence no run of such a program, with or without a debugger, meets the outermost
frame. -/
theorem calls_in_lockstep (program : Program) :
    (∀ debugger, Reachable program debugger →
      debugger.depth = debugger.state.returns.length + 1) ∧
    (program.IsResolved → program.PairsCalls →
      (∀ debugger, Reachable program debugger →
        debugger.state.stack.frameCount =
          debugger.state.returns.length + if program.CallAt debugger.state.pc then 2 else 1) ∧
      (∀ debugger fuel outcome final, Reachable program debugger →
        debugger.resume fuel = some (outcome, final) → outcome ≠ .error .outermostFrame) ∧
      ∀ machine fuel result final, Machine.Reachable program machine →
        machine.resume fuel = some (result, final) → result ≠ .error .outermostFrame) := by
  refine ⟨fun debugger reachable => reachable.depth_eq, fun isResolved pairs => ⟨?_, ?_, ?_⟩⟩
  · intro debugger reachable
    have aligned := reachable.aligned isResolved pairs
    split
    · next callAt => exact aligned.atCall callAt
    · next notCall => exact aligned.elsewhere notCall
  · intro debugger fuel outcome final reachable ended
    exact reachable.resume_ne_outermostFrame isResolved pairs ended
  · intro machine fuel result final reachable ended
    exact reachable.start.proceed_ne_outermostFrame isResolved pairs ended

/-- A program that is stopped inside a call and goes on to the next one. -/
theorem calls_in_lockstep_nested :
    let program : Program :=
      { code := #[.args 0, .call ⟨"outer", 3⟩, .halt, .label "outer", .lit 4 none,
          .line (some 9), .args 1, .call ⟨"inner", 9⟩, .ret none, .label "inner", .load 0 none,
          .ret none]
        labels := [("outer", 3), ("inner", 9)] }
    ∃ debugger,
      (create program [] {}).session 9 [.adjust (.setBreakpoint 9), .resume] =
        some ([.ok (.breakpoint 9)], debugger) ∧
      debugger.state.returns = [1] ∧ debugger.depth = 2 ∧
      debugger.advance.debugger.state.pc = 7 ∧
      debugger.advance.debugger.state.stack.frameCount = 3 := by
  intro program
  have isResolved : program.IsResolved :=
    ⟨[.args 0, .call "outer", .halt, .label "outer", .lit 4 none, .line (some 9), .args 1,
      .call "inner", .ret none, .label "inner", .load 0 none, .ret none], rfl⟩
  have ended : ∃ debugger,
      (create program [] {}).session 9 [.adjust (.setBreakpoint 9), .resume] =
        some ([.ok (.breakpoint 9)], debugger) ∧
      debugger.isDone = false ∧ debugger.state.returns = [1] ∧
      debugger.advance.debugger.state.returns = [1] ∧
      debugger.advance.debugger.state.pc = 7 := ⟨_, rfl, rfl, rfl, rfl, rfl⟩
  obtain ⟨debugger, ended, going, returns, nextReturns, atCall⟩ := ended
  obtain ⟨depths, frames⟩ := calls_in_lockstep program
  have reachable := (Reachable.create [] {}).session ended
  have depth := depths debugger reachable
  have frameCount := (frames isResolved (by decide)).1 _ (reachable.advance going)
  rw [nextReturns, atCall] at frameCount
  rw [returns] at depth
  exact ⟨debugger, ended, returns, depth, atCall, frameCount⟩

end Debugger

end StackDebugger
