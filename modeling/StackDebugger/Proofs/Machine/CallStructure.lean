import StackDebugger.Proofs.Machine.Faults
import StackDebugger.Proofs.Machine.Runs
import StackDebugger.Proofs.Program.Resolution

/-!
# Frames and pending calls

In a program whose calls are paired with the `ARGS` before them, every pending
call has a frame.  `Position.Aligned` is the invariant: there is one frame more
than pending calls, and two more exactly between an `ARGS` and its `CALL`.  It is
kept because a run never comes to a call by any other way than its `ARGS`: jumps
lead behind labels, and returns lead behind calls.
-/

namespace StackDebugger

namespace Program

/-- The instruction at an index is a call. -/
def CallAt (program : Program) (index : Nat) : Prop :=
  ∃ destination, program.fetch? index = some (.call destination)

/-- The instruction at an index opens a frame. -/
def ArgsAt (program : Program) (index : Nat) : Prop :=
  ∃ count, program.fetch? index = some (.args count)

/-- Every call follows an `ARGS`, and every `ARGS` is followed by a call. -/
structure PairsCalls (program : Program) : Prop where
  args_of_call : ∀ index, program.CallAt index →
    ∃ previous, index = previous + 1 ∧ program.ArgsAt previous
  call_of_args : ∀ index, program.ArgsAt index → program.CallAt (index + 1)

/-- Only an `ARGS` has a call behind it. -/
theorem PairsCalls.not_callAt_succ {program : Program} (pairs : program.PairsCalls) {index : Nat}
    {instruction : Instruction Jump} (fetched : program.fetch? index = some instruction)
    (notArgs : ∀ count, instruction ≠ .args count) : ¬ program.CallAt (index + 1) := by
  intro callAt
  obtain ⟨previous, isPrevious, count, isArgs⟩ := pairs.args_of_call _ callAt
  obtain rfl : index = previous := Nat.succ.inj isPrevious
  exact notArgs count (Option.some.inj (fetched.symm.trans isArgs))

theorem not_callAt_of_fetch? {program : Program} {index : Nat} {instruction : Instruction Jump}
    (fetched : program.fetch? index = some instruction)
    (notCall : ∀ destination, instruction ≠ .call destination) : ¬ program.CallAt index := by
  rintro ⟨destination, isCall⟩
  exact notCall destination (Option.some.inj (fetched.symm.trans isCall))

/-- Whether calls are paired is seen on the code alone. -/
theorem pairsCalls_iff {program : Program} :
    program.PairsCalls ↔
      ∀ index < program.size,
        (program.CallAt index → 0 < index ∧ program.ArgsAt (index - 1)) ∧
          (program.ArgsAt index → program.CallAt (index + 1)) := by
  have inside : ∀ {index : Nat} {instruction : Instruction Jump},
      program.fetch? index = some instruction → index < program.size := by
    intro index instruction fetched
    exact (Array.getElem?_eq_some_iff.mp fetched).1
  constructor
  · intro pairs index _
    refine ⟨?_, pairs.call_of_args index⟩
    intro callAt
    obtain ⟨previous, rfl, argsAt⟩ := pairs.args_of_call index callAt
    exact ⟨Nat.succ_pos previous, argsAt⟩
  · intro checked
    constructor
    · intro index callAt
      have ⟨_, fetched⟩ := callAt
      obtain ⟨positive, argsAt⟩ := (checked index (inside fetched)).1 callAt
      exact ⟨index - 1, by omega, argsAt⟩
    · intro index argsAt
      have ⟨_, fetched⟩ := argsAt
      exact (checked index (inside fetched)).2 argsAt

instance (program : Program) (index : Nat) : Decidable (program.CallAt index) :=
  decidable_of_iff ((program.fetch? index).any fun
    | .call _ => true
    | _ => false) (by
      unfold CallAt
      rcases program.fetch? index with _ | instruction
      · simp
      · cases instruction <;> simp)

instance (program : Program) (index : Nat) : Decidable (program.ArgsAt index) :=
  decidable_of_iff ((program.fetch? index).any fun
    | .args _ => true
    | _ => false) (by
      unfold ArgsAt
      rcases program.fetch? index with _ | instruction
      · simp
      · cases instruction <;> simp)

instance (program : Program) : Decidable program.PairsCalls :=
  decidable_of_iff _ pairsCalls_iff.symm

end Program

namespace Position

/-- Only calls are ever pending. -/
theorem Executes.pending {program : Program} {instruction : Instruction Jump}
    {start reached : Position} (executes : start.Executes instruction reached)
    (fetched : program.fetch? start.pc = some instruction)
    (before : ∀ address ∈ start.returns, program.CallAt address) :
    ∀ address ∈ reached.returns, program.CallAt address := by
  cases executes with
  | stays _ _ | jumps _ _ | opens _ => exact before
  | calls => exact List.forall_mem_cons.mpr ⟨⟨_, fetched⟩, before⟩
  | returns isReturns _ =>
      rw [isReturns] at before
      exact (List.forall_mem_cons.mp before).2

/-- A run comes to a call by its `ARGS` only: jumps lead behind labels, and returns lead behind
calls. -/
theorem Executes.not_callAt {program : Program} {instruction : Instruction Jump}
    {start reached : Position} (isResolved : program.IsResolved) (pairs : program.PairsCalls)
    (executes : start.Executes instruction reached)
    (fetched : program.fetch? start.pc = some instruction)
    (pending : ∀ address ∈ start.returns, program.CallAt address)
    (notArgs : ∀ count, instruction ≠ .args count) : ¬ program.CallAt (reached.pc + 1) := by
  cases executes with
  | stays _ _ => exact pairs.not_callAt_succ fetched notArgs
  | @jumps _ destination _ _ isJump _ =>
      have named : instruction.destination? = some destination := by
        rcases isJump with rfl | rfl <;> rfl
      exact pairs.not_callAt_succ (isResolved.fetch?_target fetched named) (by simp)
  | opens _ => exact absurd rfl (notArgs _)
  | calls => exact pairs.not_callAt_succ (isResolved.fetch?_target fetched rfl) (by simp)
  | @returns _ _ address _ _ _ isReturns _ =>
      obtain ⟨destination, isCall⟩ := pending address (by simp [isReturns])
      exact pairs.not_callAt_succ isCall (by simp)

/-- Before anything has happened. -/
def initial : Position :=
  { pc := 0, returns := [], stack := {} }

/-- Every pending call has a frame, and so has a call that comes next. -/
structure Aligned (program : Program) (position : Position) : Prop where
  wellFormed : position.stack.WellFormed
  pending : ∀ address ∈ position.returns, program.CallAt address
  atCall : program.CallAt position.pc →
    position.stack.frameCount = position.returns.length + 2
  elsewhere : ¬ program.CallAt position.pc →
    position.stack.frameCount = position.returns.length + 1

namespace Aligned

variable {program : Program} {position next : Position}

theorem initial (pairs : program.PairsCalls) : Aligned program initial := by
  refine ⟨.empty, by simp [Position.initial], ?_, fun _ => rfl⟩
  intro callAt
  obtain ⟨previous, isPrevious, -⟩ := pairs.args_of_call _ callAt
  simp [Position.initial] at isPrevious

theorem frameLocal {stack : OperandStack} (aligned : Aligned program position)
    (kept : position.stack.FrameLocal stack) : Aligned program { position with stack } := by
  refine ⟨kept.wellFormed aligned.wellFormed, aligned.pending, ?_, ?_⟩
  · intro callAt
    exact kept.frameCount.trans (aligned.atCall callAt)
  · intro notCall
    exact kept.frameCount.trans (aligned.elsewhere notCall)

/-- An instruction that is carried out keeps frames and pending calls aligned. -/
theorem advances (isResolved : program.IsResolved) (pairs : program.PairsCalls)
    (aligned : Aligned program position) (advances : position.Advances program next) :
    Aligned program next := by
  obtain ⟨instruction, reached, fetched, executes, rfl⟩ := advances
  have pending := executes.pending fetched aligned.pending
  have notBehind := executes.not_callAt isResolved pairs fetched aligned.pending
  cases executes with
  | stays isLocal kept =>
      have notHere : ¬ program.CallAt position.pc := by
        apply Program.not_callAt_of_fetch? fetched
        rintro destination rfl
        contradiction
      have notArgs : ∀ count, instruction ≠ .args count := by
        rintro count rfl
        contradiction
      refine ⟨kept.wellFormed aligned.wellFormed, pending,
        fun callAt => absurd callAt (notBehind notArgs), ?_⟩
      intro _
      exact kept.frameCount.trans (aligned.elsewhere notHere)
  | jumps isJump kept =>
      have notHere : ¬ program.CallAt position.pc := by
        apply Program.not_callAt_of_fetch? fetched
        rintro target rfl
        simp at isJump
      have notArgs : ∀ count, instruction ≠ .args count := by
        rintro count rfl
        simp at isJump
      refine ⟨kept.wellFormed aligned.wellFormed, pending,
        fun callAt => absurd callAt (notBehind notArgs), ?_⟩
      intro _
      exact kept.frameCount.trans (aligned.elsewhere notHere)
  | opens opened =>
      have notHere : ¬ program.CallAt position.pc :=
        Program.not_callAt_of_fetch? fetched (by simp)
      have frames := aligned.elsewhere notHere
      refine ⟨aligned.wellFormed.openFrame opened, pending, ?_,
        fun notCall => absurd (pairs.call_of_args _ ⟨_, fetched⟩) notCall⟩
      intro _
      obtain ⟨-, rfl⟩ := OperandStack.eq_of_openFrame opened
      simp only [OperandStack.frameCount, List.length_cons] at frames ⊢
      omega
  | calls =>
      have here : program.CallAt position.pc := ⟨_, fetched⟩
      refine ⟨aligned.wellFormed, pending,
        fun callAt => absurd callAt (notBehind (by simp)), ?_⟩
      intro _
      exact aligned.atCall here
  | @returns owner _ address outer result stack isReturns closed =>
      have notHere : ¬ program.CallAt position.pc :=
        Program.not_callAt_of_fetch? fetched (by simp)
      have frames := aligned.elsewhere notHere
      rw [isReturns] at frames
      refine ⟨aligned.wellFormed.closeFrame closed, pending,
        fun callAt => absurd callAt (notBehind (by simp)), ?_⟩
      intro _
      obtain ⟨caller, callers, isCallers, -, -, rfl⟩ := OperandStack.eq_of_closeFrame closed
      simp only [OperandStack.frameCount, isCallers, List.length_cons] at frames ⊢
      omega

/-- Where frames and pending calls are aligned, no return meets the outermost frame. -/
theorem execute_ne_outermostFrame {state after : State} {instruction : Instruction Jump}
    (aligned : Aligned program state.position)
    (fetched : program.fetch? state.pc = some instruction) :
    instruction.execute.run state ≠ .error .outermostFrame after := by
  intro failed
  obtain ⟨⟨owner, rfl⟩, pending, outermost⟩ := Instruction.ret_of_outermostFrame failed
  have frames := aligned.elsewhere (Program.not_callAt_of_fetch? fetched (by simp))
  simp only [State.position, OperandStack.frameCount, outermost, List.length_nil] at frames
  exact pending (List.length_eq_zero_iff.mp (by omega))

end Aligned

end Position

namespace Machine

variable {program : Program} {machine : Machine}

/-- What holds in the beginning, and is kept by instructions that succeed and by
those that fail, holds wherever a machine can stand. -/
theorem Reachable.position_induction {invariant : Position → Prop}
    (initial : invariant .initial)
    (advances : ∀ {start finish : Position}, invariant start → start.Advances program finish →
      invariant finish)
    (fails : ∀ {start : Position} {stack : OperandStack}, invariant start →
      start.stack.Truncated stack → invariant { start with stack })
    (reachable : Reachable program machine) : invariant machine.state.position := by
  induction reachable with
  | create terminal => exact initial
  | reset _ _ => exact initial
  | start _ ih | halt _ ih => exact ih
  | @step machine reachable ih =>
      cases isStep : machine.step with
      | mk result next =>
          have same := reachable.program_eq
          cases result with
          | ok value =>
              obtain ⟨stepped, -⟩ := step_eq_ok_iff.mp isStep
              rw [same] at stepped
              rcases State.advances_of_step_eq_ok stepped with ⟨-, halted⟩ | advanced
              · rw [halted]
                exact ih
              · exact advances ih advanced
          | error fault =>
              obtain ⟨failed, -⟩ := step_eq_error_iff.mp isStep
              obtain ⟨stack, terminal, truncated, isNext⟩ := State.eq_of_step_eq_error failed
              rw [isNext]
              exact fails ih truncated

theorem Reachable.aligned (isResolved : program.IsResolved) (pairs : program.PairsCalls)
    (reachable : Reachable program machine) : machine.state.position.Aligned program := by
  apply reachable.position_induction
  · exact .initial pairs
  · intro start finish before advanced
    exact before.advances isResolved pairs advanced
  · intro start stack before truncated
    exact before.frameLocal truncated.frameLocal

/-- No run of a program with paired calls closes the outermost frame. -/
theorem Reachable.proceed_ne_outermostFrame {fuel : Nat} {result : Except Fault Unit}
    {final : Machine} (isResolved : program.IsResolved) (pairs : program.PairsCalls)
    (reachable : Reachable program machine)
    (ended : machine.proceed fuel = some (result, final)) : result ≠ .error .outermostFrame := by
  induction fuel generalizing machine with
  | zero => simp [proceed] at ended
  | succ fuel ih =>
      rw [proceed] at ended
      split at ended
      · split at ended
        · next next isStep =>
            have stepped := reachable.step
            rw [isStep] at stepped
            exact ih stepped ended
        · next fault failed isStep =>
            obtain ⟨rfl, -⟩ := Prod.mk.inj (Option.some.inj ended)
            rintro ⟨⟩
            obtain ⟨isFailed, -⟩ := step_eq_error_iff.mp isStep
            rw [reachable.program_eq] at isFailed
            obtain ⟨instruction, fetched, raised⟩ := State.exists_execute_of_step_eq_error isFailed
            exact (reachable.aligned isResolved pairs).execute_ne_outermostFrame fetched raised
      · obtain ⟨rfl, -⟩ := Prod.mk.inj (Option.some.inj ended)
        simp

end Machine

end StackDebugger
