import StackDebugger.Machine.Basic
import StackDebugger.Proofs.Machine.Correspondence
import Mathlib.Logic.Function.Iterate

/-!
# Runs of the plain machine

A run that ends within some fuel ends in the same way with any larger fuel, so
that its result does not depend on the fuel at all.  `Machine.Runs` is a part of
a run in which every step succeeds; a run may be cut behind such a part and
taken up again.

A machine that is stepped from outside goes through the same states as one that
runs by itself: they differ at most in whether they are running and over.

`Machine.Reachable` holds of every machine that can come about.
-/

namespace StackDebugger.Machine

variable {machine next final : Machine} {fault : Fault}

theorem step_eq_ok_iff :
    machine.step = (.ok (), next) ↔
      (State.step machine.program).run machine.state = .ok () next.state ∧
        next.program = machine.program := by
  unfold step
  split
  · next value state stepped =>
      rw [stepped]
      constructor
      · intro equal
        obtain ⟨-, rfl⟩ := Prod.mk.inj equal
        exact ⟨rfl, rfl⟩
      · rintro ⟨sameState, sameProgram⟩
        obtain ⟨-, rfl⟩ := EStateM.Result.ok.inj sameState
        rw [← sameProgram]
  · next stepped => simp [stepped]

theorem step_eq_error_iff :
    machine.step = (.error fault, next) ↔
      (State.step machine.program).run machine.state = .error fault next.state ∧
        next.program = machine.program := by
  unfold step
  split
  · next stepped => simp [stepped]
  · next failure state stepped =>
      rw [stepped]
      constructor
      · intro equal
        obtain ⟨sameFault, rfl⟩ := Prod.mk.inj equal
        exact ⟨by rw [Except.error.inj sameFault], rfl⟩
      · rintro ⟨sameState, sameProgram⟩
        obtain ⟨rfl, rfl⟩ := EStateM.Result.error.inj sameState
        rw [← sameProgram]

theorem step_of_run_eq_ok {state : State}
    (ran : (State.step machine.program).run machine.state = .ok () state) :
    machine.step = (.ok (), { machine with state }) :=
  step_eq_ok_iff.mpr ⟨ran, rfl⟩

theorem step_of_run_eq_error {state : State}
    (ran : (State.step machine.program).run machine.state = .error fault state) :
    machine.step = (.error fault, { machine with state }) :=
  step_eq_error_iff.mpr ⟨ran, rfl⟩

@[simp] theorem program_step (machine : Machine) : machine.step.2.program = machine.program := by
  unfold step
  split <;> rfl

theorem proceed_mono {fuel more : Nat} {result : Except Fault Unit × Machine}
    (enough : fuel ≤ more) (ended : machine.proceed fuel = some result) :
    machine.proceed more = some result := by
  induction fuel generalizing machine more with
  | zero => simp [proceed] at ended
  | succ fuel ih =>
      obtain ⟨more, rfl⟩ : ∃ rest, more = rest + 1 := ⟨more - 1, by omega⟩
      simp only [proceed] at ended ⊢
      split
      · next running =>
          simp only [running, if_true] at ended
          split at ended
          · exact ih (by omega) ended
          · exact ended
      · next stopped => simpa [stopped] using ended

/-- The result of a run does not depend on the fuel. -/
theorem proceed_unique {fuel other : Nat} {result otherResult : Except Fault Unit × Machine}
    (ended : machine.proceed fuel = some result)
    (otherEnded : machine.proceed other = some otherResult) : result = otherResult := by
  have first := proceed_mono (Nat.le_max_left fuel other) ended
  have second := proceed_mono (Nat.le_max_right fuel other) otherEnded
  exact Option.some.inj (first.symm.trans second)

/-- A running machine takes a number of steps, each of which succeeds. -/
inductive Runs : Nat → Machine → Machine → Prop where
  | refl (machine : Machine) : Runs 0 machine machine
  | step {count : Nat} {machine next final : Machine} :
      machine.state.running → machine.step = (.ok (), next) → Runs count next final →
      Runs (count + 1) machine final

namespace Runs

variable {count : Nat}

theorem trans {more : Nat} (first : Runs count machine next) (second : Runs more next final) :
    Runs (count + more) machine final := by
  induction first with
  | refl => simpa using second
  | step running stepped _ ih =>
      rw [Nat.add_right_comm]
      exact .step running stepped (ih second)

theorem single (running : machine.state.running) (stepped : machine.step = (.ok (), next)) :
    Runs 1 machine next :=
  .step running stepped (.refl next)

theorem eq_iterate (runs : Runs count machine final) :
    final = (fun current : Machine => current.step.2)^[count] machine := by
  induction runs with
  | refl => rfl
  | step _ stepped _ ih => simp [ih, stepped]

theorem proceed {fuel : Nat} {result : Except Fault Unit × Machine}
    (runs : Runs count machine next) (ended : next.proceed fuel = some result) :
    machine.proceed (count + fuel) = some result := by
  induction runs with
  | refl => simpa using ended
  | step running stepped _ ih =>
      rw [Nat.add_right_comm, Machine.proceed, if_pos running, stepped]
      exact ih ended

end Runs

/-- The same program in the same state, except for whether it is running and over. -/
def Agrees (machine other : Machine) : Prop :=
  other.program = machine.program ∧ State.Corresponds id Eq machine.state other.state

namespace Agrees

variable {other : Machine}

theorem refl (machine : Machine) : machine.Agrees machine :=
  ⟨rfl, rfl, by simp, rfl, rfl, rfl⟩

theorem trans {third : Machine} (first : machine.Agrees other) (second : other.Agrees third) :
    machine.Agrees third := by
  obtain ⟨firstProgram, firstState⟩ := first
  obtain ⟨secondProgram, secondState⟩ := second
  refine ⟨secondProgram.trans firstProgram, secondState.pc.trans firstState.pc, ?_, ?_, ?_, ?_⟩
  · rw [secondState.returns, firstState.returns, List.map_id]
  · rw [secondState.stack, firstState.stack]
  · rw [secondState.dumping, firstState.dumping]
  · rw [firstState.terminal, secondState.terminal]

/-- Machines that agree step in the same way, and agree again. -/
theorem step_alike (agrees : machine.Agrees other) :
    other.step.1 = machine.step.1 ∧ machine.step.2.Agrees other.step.2 := by
  obtain ⟨sameProgram, corresponds⟩ := agrees
  have results := State.simulates_step .eq machine.program corresponds
  simp only [Machine.step, sameProgram]
  generalize (State.step machine.program).run machine.state = left at results ⊢
  generalize (State.step machine.program).run other.state = right at results ⊢
  cases results with
  | ok stepped => exact ⟨rfl, rfl, stepped⟩
  | error failed => exact ⟨rfl, rfl, failed⟩

theorem iterate (agrees : machine.Agrees other) (count : Nat) :
    ((fun current : Machine => current.step.2)^[count] machine).Agrees
      ((fun current : Machine => current.step.2)^[count] other) := by
  induction count generalizing machine other with
  | zero => exact agrees
  | succ count ih => exact ih agrees.step_alike.2

end Agrees

/-- Where a run has ended, as many steps from outside would have led. -/
theorem agrees_iterate_of_proceed {fuel : Nat} {result : Except Fault Unit}
    (ended : machine.proceed fuel = some (result, final)) :
    ∃ count, final.Agrees ((fun current : Machine => current.step.2)^[count] machine) := by
  induction fuel generalizing machine with
  | zero => simp [proceed] at ended
  | succ fuel ih =>
      rw [proceed] at ended
      split at ended
      · split at ended
        · next next stepped =>
            obtain ⟨count, agrees⟩ := ih ended
            refine ⟨count + 1, ?_⟩
            rw [Function.iterate_succ_apply, stepped]
            exact agrees
        · next fault failed stepped =>
            obtain ⟨-, rfl⟩ := Prod.mk.inj (Option.some.inj ended)
            refine ⟨1, ?_⟩
            rw [Function.iterate_one, stepped]
            exact ⟨rfl, rfl, by simp [State.halt], rfl, rfl, rfl⟩
      · obtain ⟨-, rfl⟩ := Prod.mk.inj (Option.some.inj ended)
        exact ⟨0, .refl machine⟩

/-- The machines of a program that runs and single steps lead to and pass through. -/
inductive Reachable (program : Program) : Machine → Prop where
  | create (terminal : Terminal) : Reachable program (create program terminal)
  | reset {machine : Machine} : Reachable program machine → Reachable program machine.reset
  | start {machine : Machine} : Reachable program machine → Reachable program machine.start
  | step {machine : Machine} : Reachable program machine → Reachable program machine.step.2
  | halt {machine : Machine} :
      Reachable program machine →
      Reachable program { machine with state := machine.state.halt }

theorem Reachable.program_eq {program : Program} (reachable : Reachable program machine) :
    machine.program = program := by
  induction reachable with
  | create terminal => rfl
  | reset _ ih | start _ ih | halt _ ih => exact ih
  | step _ ih => rw [program_step, ih]

end StackDebugger.Machine
