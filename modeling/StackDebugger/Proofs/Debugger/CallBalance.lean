import StackDebugger.Proofs.Debugger.CallStructure
import StackDebugger.Proofs.Machine.CallBalance

/-!
# Calls and their returns under the debugger

An excursion through a call brings the activations back as well: those of the
callee and of whatever it has called are gone, and that of the caller is as it was
left, with its line and its variables.
-/

namespace StackDebugger

namespace Standing

/-- The activations of `start` are all there, under one for every call made since. -/
def Above (start standing : Standing) : Prop :=
  ∃ innermost around,
    standing.position.returns.length = start.position.returns.length + around.length + 1 ∧
    standing.activations =
      { start.activations with calls := innermost :: around ++ start.activations.calls }

variable {program : Program} {start standing next : Standing}

theorem Moves.position (moved : standing.Moves program next) :
    standing.position.Moves program next.position := by
  cases moved with
  | rests => exact .inl rfl
  | carriesOut fetched executes => exact .inr ⟨_, _, fetched, executes, rfl⟩

theorem Moves.activations_of_args {count : Nat} (moved : standing.Moves program next)
    (fetched : program.fetch? standing.position.pc = some (.args count)) :
    next.activations = standing.activations := by
  cases moved with
  | rests => rfl
  | carriesOut isFetched executes =>
      obtain rfl := Option.some.inj (fetched.symm.trans isFetched)
      rfl

theorem Moves.eq_or_push_of_call {destination : Jump} (moved : standing.Moves program next)
    (fetched : program.fetch? standing.position.pc = some (.call destination)) :
    next = standing ∨ (next.position.returns = standing.position.pc :: standing.position.returns ∧
      next.activations = standing.activations.push) := by
  cases moved with
  | rests => exact .inl rfl
  | carriesOut isFetched executes =>
      obtain rfl := Option.some.inj (fetched.symm.trans isFetched)
      cases executes with
      | stays isLocal _ => contradiction
      | jumps isJump _ => simp at isJump
      | calls => exact .inr ⟨rfl, rfl⟩

namespace Above

/-- As long as the run is not back, the activations of `start` are left alone. -/
theorem moves (above : Above start standing) (moved : standing.Moves program next)
    (away : next.position.returns.length ≠ start.position.returns.length) :
    Above start next := by
  cases moved with
  | rests => exact above
  | @carriesOut instruction _ reached fetched executes =>
      obtain ⟨innermost, around, length, isActivations⟩ := above
      cases executes with
      | stays isLocal kept =>
          obtain ⟨change, tracked⟩ :=
            Instruction.exists_track_eq_modifyCurrent isLocal _ standing.activations
          refine ⟨change innermost, around, length, ?_⟩
          rw [tracked, isActivations]
          rfl
      | jumps isJump kept =>
          refine ⟨innermost, around, length, ?_⟩
          rcases isJump with rfl | rfl
          · exact isActivations
          · exact isActivations
      | opens opened => exact ⟨innermost, around, length, isActivations⟩
      | calls =>
          refine ⟨{}, innermost :: around, ?_, ?_⟩
          · simp only [List.length_cons]
            omega
          · change standing.activations.push = _
            rw [isActivations]
            rfl
      | returns isReturns closed =>
          rw [isReturns, List.length_cons] at length
          cases around with
          | nil => exact absurd (by simpa using length) away
          | cons second around =>
              refine ⟨second, around, ?_, ?_⟩
              · simp only [List.length_cons] at length ⊢
                omega
              · change standing.activations.pop = _
                rw [isActivations]
                rfl

/-- When the run is back, the activations are those of `start`. -/
theorem back (above : Above start standing) (moved : standing.Moves program next)
    (isBack : next.position.returns.length = start.position.returns.length) :
    next.activations = start.activations := by
  obtain ⟨innermost, around, length, isActivations⟩ := above
  cases moved with
  | rests => omega
  | carriesOut fetched executes =>
      cases executes with
      | stays _ _ | jumps _ _ | opens _ =>
          simp only at isBack
          omega
      | calls =>
          simp only [List.length_cons] at isBack
          omega
      | returns isReturns closed =>
          rw [isReturns, List.length_cons] at length
          obtain rfl : around = [] := List.length_eq_zero_iff.mp (by simp only at isBack; omega)
          change standing.activations.pop = _
          rw [isActivations]
          rfl

end Above

section Excursion

variable {run : Nat → Standing} {call last count : Nat}

theorem activations_before
    (excursion : Position.Excursion (fun index => (run index).position) call last)
    (pairs : program.PairsCalls)
    (fetched : program.fetch? (run 0).position.pc = some (.args count))
    (moves : ∀ index ≤ last, (run index).Moves program (run (index + 1))) :
    ∀ index ≤ call, (run index).activations = (run 0).activations := by
  have waits := excursion.waits pairs fetched fun index inTime => (moves index inTime).position
  obtain ⟨destination, isCall⟩ := pairs.call_of_args _ ⟨count, fetched⟩
  intro index
  induction index with
  | zero => exact fun _ => rfl
  | succ index ih =>
      intro inTime
      have leaves := excursion.leaves
      have unchanged := excursion.before (index + 1) inTime
      have level := excursion.before index (by omega)
      have moved := moves index (by omega)
      have same := ih (by omega)
      rcases waits index (by omega) with atStart | ⟨stack, -, isOpened⟩
      · rw [← atStart] at fetched
        exact (moved.activations_of_args fetched).trans same
      · have callNext : program.fetch? (run index).position.pc = some (.call destination) := by
          rw [isOpened]
          exact isCall
        rcases moved.eq_or_push_of_call callNext with rests | ⟨pushed, -⟩
        · rw [rests]
          exact same
        · rw [pushed, List.length_cons] at unchanged
          omega

/-- The call puts one activation above those of the caller. -/
theorem above_call
    (excursion : Position.Excursion (fun index => (run index).position) call last)
    (pairs : program.PairsCalls)
    (fetched : program.fetch? (run 0).position.pc = some (.args count))
    (moves : ∀ index ≤ last, (run index).Moves program (run (index + 1))) :
    Above (run 0) (run (call + 1)) := by
  have leaves := excursion.leaves
  have changed := excursion.away (call + 1) (by omega) (by omega)
  have level := excursion.before call (Nat.le_refl call)
  obtain ⟨stack, destination, -, isCall, isOpened, -⟩ :=
    excursion.enters pairs fetched fun index inTime => (moves index inTime).position
  have callNext : program.fetch? (run call).position.pc = some (.call destination) := by
    rw [isOpened]
    exact isCall
  rcases (moves call (by omega)).eq_or_push_of_call callNext with rests | ⟨pushed, isActivations⟩
  · rw [rests] at changed
    exact absurd level changed
  · refine ⟨{}, [], ?_, ?_⟩
    · rw [pushed, List.length_cons, level]
      rfl
    · rw [isActivations, activations_before excursion pairs fetched moves call (Nat.le_refl call)]
      rfl

theorem activations_back
    (excursion : Position.Excursion (fun index => (run index).position) call last)
    (pairs : program.PairsCalls)
    (fetched : program.fetch? (run 0).position.pc = some (.args count))
    (moves : ∀ index ≤ last, (run index).Moves program (run (index + 1))) :
    (run (last + 1)).activations = (run 0).activations := by
  have above : ∀ index, call < index → index ≤ last → Above (run 0) (run index) := by
    intro index afterCall
    induction index, afterCall using Nat.le_induction with
    | base => exact fun _ => above_call excursion pairs fetched moves
    | succ index afterCall ih =>
        intro inTime
        exact (ih (by omega)).moves (moves index (by omega))
          (excursion.away (index + 1) (by omega) inTime)
  exact (above last excursion.leaves (Nat.le_refl last)).back (moves last (Nat.le_refl last))
    excursion.back

end Excursion

end Standing

namespace Debugger

namespace Continues

variable {debugger next : Debugger}

theorem program_eq (continues : Continues debugger next) :
    next.machine.program = debugger.machine.program := by
  cases continues with
  | @adjust adjustment _ => cases adjustment <;> rfl
  | setRunning _ => rfl
  | advance _ _ => exact program_advance debugger

theorem moves (continues : Continues debugger next) :
    debugger.standing.Moves debugger.machine.program next.standing := by
  cases continues with
  | adjust notReset =>
      rw [standing_adjust notReset]
      exact .rests _
  | setRunning _ => exact .rests _
  | advance _ noFault =>
      rcases debugger.advance_moves with ⟨-, moved⟩ | ⟨fault, -⟩
      · exact moved
      · exact absurd noFault fault

theorem run_moves {run : Nat → Debugger} {last : Nat}
    (continues : ∀ index ≤ last, (run index).Continues (run (index + 1))) :
    ∀ index ≤ last, (run index).standing.Moves (run 0).machine.program
      (run (index + 1)).standing := by
  intro index inTime
  have moved := (continues index inTime).moves
  have sameProgram := eq_start_of_kept (fun debugger : Debugger => debugger.machine.program)
    (fun index inTime => (continues index inTime).program_eq) index inTime
  rw [sameProgram] at moved
  exact moved

end Continues

/-- Calls and returns are balanced.  Let calls be paired in a resolved program, and
let a run from a reachable machine or debugger stand at an `ARGS`, go through the
call behind it and come back, for the first time, to as many pending calls.  It
comes back from a return to the instruction behind the call, with the same pending
calls and frames, and with the value on top of the callee's frame in the place of
the arguments; a debugger has the same activations as before. -/
theorem calls_balanced {program : Program} (isResolved : program.IsResolved)
    (pairs : program.PairsCalls) :
    (∀ (run : Nat → Machine) (call last count : Nat), Machine.Reachable program (run 0) →
      (∀ index ≤ last, (run index).Continues (run (index + 1))) →
      program.fetch? (run 0).state.pc = some (.args count) →
      Position.Excursion (fun index => (run index).state.position) call last →
      (run call).state.pc = (run 0).state.pc + 1 ∧
      (∃ owner, program.fetch? (run last).state.pc = some (.ret owner)) ∧
      Position.Returned count (run 0).state.position (run last).state.position
        (run (last + 1)).state.position) ∧
    (∀ (run : Nat → Debugger) (call last count : Nat), Reachable program (run 0) →
      (∀ index ≤ last, (run index).Continues (run (index + 1))) →
      program.fetch? (run 0).state.pc = some (.args count) →
      Position.Excursion (fun index => (run index).state.position) call last →
      (run call).state.pc = (run 0).state.pc + 1 ∧
      (∃ owner, program.fetch? (run last).state.pc = some (.ret owner)) ∧
      Position.Returned count (run 0).state.position (run last).state.position
        (run (last + 1)).state.position ∧
      (run (last + 1)).activations = (run 0).activations) := by
  constructor
  · intro run call last count reachable continues fetched excursion
    have moves := Machine.Continues.run_moves continues
    rw [reachable.program_eq] at moves
    exact excursion.returned isResolved pairs (reachable.aligned isResolved pairs) fetched moves
  · intro run call last count reachable continues fetched excursion
    have moves := Continues.run_moves continues
    rw [reachable.program_eq] at moves
    obtain ⟨atCall, isReturn, returned⟩ := excursion.returned isResolved pairs
      (reachable.aligned isResolved pairs) fetched fun index inTime => (moves index inTime).position
    refine ⟨atCall, isReturn, returned, ?_⟩
    let standings (index : Nat) : Standing := (run index).standing
    have back : (standings (last + 1)).activations = (standings 0).activations :=
      Standing.activations_back excursion pairs fetched moves
    exact back

/-- A call with an argument whose callee makes a call without one. -/
theorem calls_balanced_nested :
    let program : Program :=
      { code := #[.lit 5 none, .lit 6 none, .args 1, .call ⟨"add", 6⟩, .write, .halt,
          .label "add", .lit 1 (some "x"), .args 0, .call ⟨"seven", 12⟩, .bop .add, .ret none,
          .label "seven", .lit 7 none, .ret none]
        labels := [("add", 6), ("seven", 12)] }
    let run (index : Nat) : Debugger :=
      (fun debugger => debugger.advance.debugger)^[index + 2] (create program [] {})
    Position.Excursion (fun index => (run index).state.position) 1 8 ∧
    (run 9).state.stack.values = #[5, 8] ∧
    Position.Returned 1 (run 0).state.position (run 8).state.position (run 9).state.position ∧
    (run 9).activations = (run 0).activations := by
  intro program run
  have isResolved : program.IsResolved :=
    ⟨[.lit 5 none, .lit 6 none, .args 1, .call "add", .write, .halt, .label "add",
      .lit 1 (some "x"), .args 0, .call "seven", .bop .add, .ret none, .label "seven",
      .lit 7 none, .ret none], rfl⟩
  have reachable : Reachable program (run 0) :=
    ((Reachable.create [] {}).advance rfl).advance rfl
  have continues : ∀ index ≤ 8, (run index).Continues (run (index + 1)) := by
    have goesOn : ∀ index ≤ 8,
        (run index).isDone = false ∧ (run index).advance.fault? = none := by decide +kernel
    intro index inTime
    have isNext : run (index + 1) = (run index).advance.debugger :=
      Function.iterate_succ_apply' _ _ _
    rw [isNext]
    exact .advance (goesOn index inTime).1 (goesOn index inTime).2
  have excursion : Position.Excursion (fun index => (run index).state.position) 1 8 := by
    have away : ∀ index ≤ 8, 1 < index →
        (run index).state.returns.length ≠ (run 0).state.returns.length := by decide +kernel
    exact ⟨by decide, by decide +kernel, fun index later inTime => away index inTime later, by
      decide +kernel⟩
  obtain ⟨-, -, returned, activations⟩ := (calls_balanced isResolved (by decide)).2 run 1 8 1
    reachable continues rfl excursion
  exact ⟨excursion, by decide +kernel, returned, activations⟩

end Debugger

end StackDebugger
