import StackDebugger.Proofs.Machine.CallStructure
import Mathlib.Data.Nat.Init

/-!
# Calls and their returns

A run that stands at an `ARGS`, goes through the call behind it and comes back to
as many pending calls as before has made an excursion.  It comes back behind the
call, to the same pending calls and frames, and what the excursion leaves on the
stack is one value in the place of the arguments: the one that was on top at the
return.  The callee may do anything in between, since `Inside` is kept by every
instruction that does not end the excursion.
-/

namespace StackDebugger

namespace Position

/-- How a run that does not fail moves: it rests, or carries out an instruction. -/
def Moves (program : Program) (start finish : Position) : Prop :=
  finish = start ∨ start.Advances program finish

/-- A run leaves its pending calls with the move from `call`, and the move from
`last` is the first that brings it back to as many of them. -/
structure Excursion (run : Nat → Position) (call last : Nat) : Prop where
  leaves : call < last
  before : ∀ index ≤ call, (run index).returns.length = (run 0).returns.length
  away : ∀ index, call < index → index ≤ last →
    (run index).returns.length ≠ (run 0).returns.length
  back : (run (last + 1)).returns.length = (run 0).returns.length

/-- A run has come back from a call that took `count` arguments, with the value that
its callee had on top. -/
structure Returned (count : Nat) (start callee finish : Position) : Prop where
  pc : finish.pc = start.pc + 2
  returns : finish.returns = start.returns
  bases : finish.stack.bases = start.stack.bases
  values : ∃ result, callee.stack.peek = .ok result ∧
    finish.stack.values =
      (start.stack.values.take (start.stack.values.size - count)).push result

/-- A run is in a call that was made from `start` over the frame of `inner`. -/
structure Inside (program : Program) (start : Position) (inner : OperandStack)
    (position : Position) : Prop where
  aligned : position.Aligned program
  stands : inner.StandsOn position.stack
  pending : (start.pc + 1) :: start.returns <:+ position.returns

variable {program : Program} {start position next : Position} {inner : OperandStack}
variable {count : Nat}

theorem Aligned.moves (isResolved : program.IsResolved) (pairs : program.PairsCalls)
    (aligned : Aligned program position) (moved : position.Moves program next) :
    Aligned program next := by
  rcases moved with rfl | advances
  · exact aligned
  · exact aligned.advances isResolved pairs advances

theorem Aligned.run {run : Nat → Position} {last : Nat} (isResolved : program.IsResolved)
    (pairs : program.PairsCalls) (aligned : (run 0).Aligned program)
    (moves : ∀ index ≤ last, (run index).Moves program (run (index + 1))) :
    ∀ index ≤ last + 1, (run index).Aligned program := by
  intro index
  induction index with
  | zero => exact fun _ => aligned
  | succ index ih =>
      intro inTime
      exact (ih (by omega)).moves isResolved pairs (moves index (by omega))

namespace Inside

theorem length_lt (inside : Inside program start inner position) :
    start.returns.length < position.returns.length := by
  have longer := inside.pending.length_le
  rw [List.length_cons] at longer
  exact longer

/-- As long as an instruction does not bring the run back, it stays inside. -/
theorem advances (isResolved : program.IsResolved) (pairs : program.PairsCalls)
    (frames : inner.frameCount = start.returns.length + 2)
    (inside : Inside program start inner position) (advances : position.Advances program next)
    (away : next.returns.length ≠ start.returns.length) :
    Inside program start inner next := by
  have aligned := inside.aligned.advances isResolved pairs advances
  have wellFormed := inside.aligned.wellFormed
  obtain ⟨instruction, reached, fetched, executes, rfl⟩ := advances
  cases executes with
  | stays _ kept | jumps _ kept =>
      exact ⟨aligned, inside.stands.frameLocal wellFormed kept, inside.pending⟩
  | opens opened => exact ⟨aligned, inside.stands.openFrame opened, inside.pending⟩
  | calls => exact ⟨aligned, inside.stands, inside.pending.trans (List.suffix_cons _ _)⟩
  | @returns _ _ address outer _ _ isReturns closed =>
      have pending := inside.pending
      rw [isReturns] at pending
      have deeper : (start.pc + 1) :: start.returns <:+ outer := by
        rcases List.suffix_cons_iff.mp pending with same | deeper
        · exact absurd (congrArg List.length (List.cons.inj same).2.symm) away
        · exact deeper
      have notCall : ¬ program.CallAt position.pc :=
        Program.not_callAt_of_fetch? fetched (by simp)
      have above : inner.frameCount < position.stack.frameCount := by
        have longer := deeper.length_le
        rw [frames, inside.aligned.elsewhere notCall, isReturns]
        simp only [List.length_cons] at longer ⊢
        omega
      exact ⟨aligned, inside.stands.closeFrame wellFormed closed above, deeper⟩

/-- The instruction that brings the run back is the return from the call. -/
theorem returned (inside : Inside program start inner position)
    (opened : start.stack.openFrame count = (.ok (), inner))
    (frames : inner.frameCount = start.returns.length + 2)
    (advances : position.Advances program next)
    (back : next.returns.length = start.returns.length) :
    (∃ owner, program.fetch? position.pc = some (.ret owner)) ∧
      Returned count start position next := by
  have longer := inside.length_lt
  obtain ⟨instruction, reached, fetched, executes, rfl⟩ := advances
  cases executes with
  | stays _ _ | jumps _ _ | opens _ => exact absurd back (Nat.ne_of_gt longer)
  | calls =>
      simp only [List.length_cons] at back
      omega
  | @returns owner _ address outer result stack isReturns closed =>
      have pending := inside.pending
      rw [isReturns] at pending
      have same : (start.pc + 1) :: start.returns = address :: outer :=
        pending.eq_of_length (by simpa using back.symm)
      obtain ⟨rfl, rfl⟩ := List.cons.inj same
      have notCall : ¬ program.CallAt position.pc :=
        Program.not_callAt_of_fetch? fetched (by simp)
      have level : position.stack.frameCount = inner.frameCount := by
        rw [frames, inside.aligned.elsewhere notCall, isReturns, List.length_cons]
      obtain ⟨onTop, caller, callers, isCallers, rfl⟩ := inside.stands.eq_of_closeFrame closed level
      obtain ⟨-, rfl⟩ := OperandStack.eq_of_openFrame opened
      obtain ⟨rfl, rfl⟩ := List.cons.inj isCallers
      exact ⟨⟨owner, fetched⟩, rfl, rfl, rfl, result, onTop, rfl⟩

end Inside

/-- The only ways to go on from an `ARGS` and from the call behind it. -/
theorem Advances.eq_of_args (advances : position.Advances program next)
    (fetched : program.fetch? position.pc = some (.args count)) :
    ∃ stack, position.stack.openFrame count = (.ok (), stack) ∧
      next = { position with pc := position.pc + 1, stack } := by
  obtain ⟨instruction, reached, isFetched, executes, rfl⟩ := advances
  obtain rfl := Option.some.inj (fetched.symm.trans isFetched)
  cases executes with
  | stays isLocal _ => contradiction
  | jumps isJump _ => simp at isJump
  | opens opened => exact ⟨_, opened, rfl⟩

theorem Advances.eq_of_call {destination : Jump} (advances : position.Advances program next)
    (fetched : program.fetch? position.pc = some (.call destination)) :
    next = { position with
      pc := destination.target + 1
      returns := position.pc :: position.returns } := by
  obtain ⟨instruction, reached, isFetched, executes, rfl⟩ := advances
  obtain rfl := Option.some.inj (fetched.symm.trans isFetched)
  cases executes with
  | stays isLocal _ => contradiction
  | jumps isJump _ => simp at isJump
  | calls => rfl

namespace Excursion

variable {run : Nat → Position} {call last : Nat}

/-- Up to the call the run stands at the `ARGS`, or behind it with the frame opened. -/
theorem waits (excursion : Excursion run call last) (pairs : program.PairsCalls)
    (fetched : program.fetch? (run 0).pc = some (.args count))
    (moves : ∀ index ≤ last, (run index).Moves program (run (index + 1))) :
    ∀ index ≤ call, run index = run 0 ∨
      ∃ stack, (run 0).stack.openFrame count = (.ok (), stack) ∧
        run index = { run 0 with pc := (run 0).pc + 1, stack } := by
  intro index
  induction index with
  | zero => exact fun _ => .inl rfl
  | succ index ih =>
      intro inTime
      have leaves := excursion.leaves
      have unchanged := excursion.before (index + 1) inTime
      rcases moves index (by omega) with rests | advances
      · rw [rests]
        exact ih (by omega)
      · rcases ih (by omega) with atStart | ⟨stack, opened, isOpened⟩
        · rw [atStart] at advances
          exact .inr (advances.eq_of_args fetched)
        · obtain ⟨destination, isCall⟩ := pairs.call_of_args _ ⟨count, fetched⟩
          rw [isOpened] at advances
          rw [advances.eq_of_call isCall] at unchanged
          simp at unchanged

/-- The move that leaves the pending calls is the call behind the `ARGS`. -/
theorem enters (excursion : Excursion run call last) (pairs : program.PairsCalls)
    (fetched : program.fetch? (run 0).pc = some (.args count))
    (moves : ∀ index ≤ last, (run index).Moves program (run (index + 1))) :
    ∃ stack destination, (run 0).stack.openFrame count = (.ok (), stack) ∧
      program.fetch? ((run 0).pc + 1) = some (.call destination) ∧
      run call = { run 0 with pc := (run 0).pc + 1, stack } ∧
      run (call + 1) =
        { pc := destination.target + 1
          returns := ((run 0).pc + 1) :: (run 0).returns
          stack } := by
  have leaves := excursion.leaves
  have changed := excursion.away (call + 1) (by omega) (by omega)
  have level := excursion.before call (Nat.le_refl call)
  rcases moves call (by omega) with rests | advances
  · rw [rests] at changed
    exact absurd level changed
  · rcases excursion.waits pairs fetched moves call (Nat.le_refl call) with
      atStart | ⟨stack, opened, isOpened⟩
    · rw [atStart] at advances
      obtain ⟨stack, -, isNext⟩ := advances.eq_of_args fetched
      simp [isNext] at changed
    · obtain ⟨destination, isCall⟩ := pairs.call_of_args _ ⟨count, fetched⟩
      rw [isOpened] at advances
      exact ⟨stack, destination, opened, isCall, isOpened, advances.eq_of_call isCall⟩

/-- Until it is back, the run is inside the call. -/
theorem inside (excursion : Excursion run call last) (isResolved : program.IsResolved)
    (pairs : program.PairsCalls) (frames : inner.frameCount = (run 0).returns.length + 2)
    (moves : ∀ index ≤ last, (run index).Moves program (run (index + 1)))
    (entered : Inside program (run 0) inner (run (call + 1))) :
    ∀ index, call < index → index ≤ last → Inside program (run 0) inner (run index) := by
  intro index afterCall
  induction index, afterCall using Nat.le_induction with
  | base => exact fun _ => entered
  | succ index afterCall ih =>
      intro inTime
      have earlier := ih (by omega)
      have away := excursion.away (index + 1) (by omega) inTime
      rcases moves index (by omega) with rests | advances
      · rw [rests]
        exact earlier
      · exact earlier.advances isResolved pairs frames advances away

/-- An excursion from an `ARGS` ends with a return to behind its call. -/
theorem returned (excursion : Excursion run call last) (isResolved : program.IsResolved)
    (pairs : program.PairsCalls) (aligned : (run 0).Aligned program)
    (fetched : program.fetch? (run 0).pc = some (.args count))
    (moves : ∀ index ≤ last, (run index).Moves program (run (index + 1))) :
    (run call).pc = (run 0).pc + 1 ∧
      (∃ owner, program.fetch? (run last).pc = some (.ret owner)) ∧
      Returned count (run 0) (run last) (run (last + 1)) := by
  have leaves := excursion.leaves
  obtain ⟨inner, destination, opened, isCall, isOpened, isEntered⟩ :=
    excursion.enters pairs fetched moves
  have frames : inner.frameCount = (run 0).returns.length + 2 := by
    have outside := aligned.elsewhere (Program.not_callAt_of_fetch? fetched (by simp))
    obtain ⟨-, rfl⟩ := OperandStack.eq_of_openFrame opened
    simp only [OperandStack.frameCount, List.length_cons] at outside ⊢
    omega
  have entered : Inside program (run 0) inner (run (call + 1)) := by
    refine ⟨aligned.run isResolved pairs moves (call + 1) (by omega), ?_, ?_⟩
    · rw [isEntered]
      exact .refl inner
    · simp [isEntered]
  have inside :=
    excursion.inside isResolved pairs frames moves entered last leaves (Nat.le_refl last)
  refine ⟨by rw [isOpened], ?_⟩
  rcases moves last (Nat.le_refl last) with rests | advances
  · have away := excursion.away last leaves (Nat.le_refl last)
    rw [← rests] at away
    exact absurd excursion.back away
  · exact inside.returned opened frames advances excursion.back

end Excursion

end Position

/-- What every move of a run keeps is as it was at the start. -/
theorem eq_start_of_kept {α β : Type} {run : Nat → α} {last : Nat} (view : α → β)
    (kept : ∀ index ≤ last, view (run (index + 1)) = view (run index)) :
    ∀ index ≤ last, view (run index) = view (run 0) := by
  intro index
  induction index with
  | zero => exact fun _ => rfl
  | succ index ih =>
      intro inTime
      exact (kept index (by omega)).trans (ih (by omega))

namespace Machine

/-- One move of a machine that goes on without failing. -/
inductive Continues : Machine → Machine → Prop where
  | start (machine : Machine) : Continues machine machine.start
  | step {machine next : Machine} : machine.step = (.ok (), next) → Continues machine next

namespace Continues

variable {machine next : Machine}

theorem program_eq (continues : Continues machine next) : next.program = machine.program := by
  cases continues with
  | start => rfl
  | step stepped => exact (step_eq_ok_iff.mp stepped).2

theorem moves (continues : Continues machine next) :
    machine.state.position.Moves machine.program next.state.position := by
  cases continues with
  | start => exact .inl rfl
  | step stepped =>
      rcases State.advances_of_step_eq_ok (step_eq_ok_iff.mp stepped).1 with
        ⟨-, halted⟩ | advances
      · rw [halted]
        exact .inl rfl
      · exact .inr advances

theorem run_moves {run : Nat → Machine} {last : Nat}
    (continues : ∀ index ≤ last, (run index).Continues (run (index + 1))) :
    ∀ index ≤ last, (run index).state.position.Moves (run 0).program
      (run (index + 1)).state.position := by
  intro index inTime
  have moved := (continues index inTime).moves
  have sameProgram := eq_start_of_kept Machine.program
    (fun index inTime => (continues index inTime).program_eq) index inTime
  rw [sameProgram] at moved
  exact moved

end Continues

end Machine

end StackDebugger
