import StackDebugger.Proofs.Machine.StackOperations
import Mathlib.Data.List.Infix

/-!
# Frames are isolated

Operations reach the innermost frame only.  As long as a frame is not closed, the frames around it
and their values are as they were when it was opened, and closing it gives back exactly these with
its result on top.  So a slot of a frame keeps its value through whatever happens in the frames
above it, until it is written, popped or handed over to a frame that is opened over it.
-/

namespace StackDebugger.OperandStack

/-- The frame that is innermost to begin with is not closed by any of the operations. -/
def Stays (stack : OperandStack) (operations : List StackOperation) : Prop :=
  ∀ count, stack.frameCount ≤ (stack.performAll (operations.take count)).frameCount

/-- The innermost frame keeps a slot through the operations.  It is not closed, and nothing is
stored in the slot while it is innermost.  It always ends behind the slot: it is not popped below
the slot, and no frame is opened over it. -/
structure KeepsSlot (stack : OperandStack) (offset : Nat) (operations : List StackOperation) :
    Prop where
  stays : stack.Stays operations
  within : ∀ count,
    stack.base + offset < (stack.performAll (operations.take count)).frameEnd stack.frameCount
  unwritten : ∀ count value, operations[count]? = some (.store offset value) →
    (stack.performAll (operations.take count)).frameCount ≠ stack.frameCount

theorem performAll_concat (stack : OperandStack) (passed : List StackOperation)
    (operation : StackOperation) :
    stack.performAll (passed ++ [operation]) =
      ((stack.performAll passed).perform operation).2 := by
  induction passed generalizing stack with
  | nil => rfl
  | cons first passed ih => exact ih (stack.perform first).2

theorem acts_performAll (stack : OperandStack) {operations : List StackOperation} {count : Nat}
    {operation : StackOperation} (isNext : operations[count]? = some operation) :
    operation.Acts (stack.performAll (operations.take count))
      (stack.performAll (operations.take (count + 1))) := by
  rw [List.take_add_one, isNext, Option.toList_some, performAll_concat]
  exact acts_perform _ _

/-- What holds to begin with and is kept by each of the operations holds after any number of
them. -/
theorem performAll_invariant {stack : OperandStack} {operations : List StackOperation}
    {motive : OperandStack → Prop} (initial : motive stack)
    (step : ∀ count operation, operations[count]? = some operation →
      motive (stack.performAll (operations.take count)) →
      motive (stack.performAll (operations.take (count + 1))))
    (count : Nat) : motive (stack.performAll (operations.take count)) := by
  induction count with
  | zero => exact initial
  | succ count ih =>
      cases isNext : operations[count]? with
      | none => simpa [List.take_add_one, isNext] using ih
      | some operation => exact step count operation isNext ih

theorem frameCount_closeFrame {stack outer : OperandStack} {result : Int32}
    (closed : stack.closeFrame = (.ok result, outer)) :
    stack.frameCount = outer.frameCount + 1 := by
  obtain ⟨caller, callers, isCallers, -, -, rfl⟩ := eq_of_closeFrame closed
  rw [frameCount, isCallers]
  rfl

namespace StandsOn

variable {floor stack : OperandStack}

/-- An operation that does not close the followed frame leaves it standing. -/
theorem acts {operation : StackOperation} {after : OperandStack} (stands : StandsOn floor stack)
    (wellFormed : stack.WellFormed) (acts : operation.Acts stack after)
    (remains : floor.frameCount ≤ after.frameCount) : StandsOn floor after := by
  cases acts with
  | looks => exact stands
  | pushes => exact stands.frameLocal wellFormed (.push _ _)
  | pops popped => exact stands.frameLocal wellFormed (Truncated.pop popped).frameLocal
  | opens opened => exact stands.openFrame opened
  | closes closed =>
      apply stands.closeFrame wellFormed closed
      rw [frameCount_closeFrame closed]
      exact Nat.lt_succ_of_le remains
  | stores stored => exact stands.frameLocal wellFormed (.store stored)

theorem performAll_take {operations : List StackOperation} (wellFormed : floor.WellFormed)
    (stays : floor.Stays operations) (count : Nat) :
    StandsOn floor (floor.performAll (operations.take count)) := by
  apply performAll_invariant (.refl floor)
  intro count operation isNext stands
  exact stands.acts (wellFormed.performAll _) (acts_performAll floor isNext) (stays (count + 1))

theorem performAll {operations : List StackOperation} (wellFormed : floor.WellFormed)
    (stays : floor.Stays operations) : StandsOn floor (floor.performAll operations) := by
  simpa using performAll_take wellFormed stays operations.length

theorem bases_take (stands : StandsOn floor stack) :
    stack.bases.take floor.frameCount = floor.bases := by
  have isInitial : floor.bases <+: stack.bases := List.reverse_prefix.mpr stands.frames
  have length : floor.frameCount = floor.bases.length := by simp [bases, frameCount]
  rw [length, List.prefix_iff_eq_take.mp isInitial |>.symm]

theorem base_eq (stands : StandsOn floor stack) (same : stack.frameCount = floor.frameCount) :
    stack.base = floor.base := by
  have equal : floor.base :: floor.callers = stack.base :: stack.callers :=
    stands.frames.eq_of_length (by simpa [frameCount] using same.symm)
  exact (List.cons.inj equal).1.symm

end StandsOn

theorem WellFormed.frameEnd_le_size {stack : OperandStack} (wellFormed : stack.WellFormed)
    (count : Nat) : stack.frameEnd count ≤ stack.values.size := by
  unfold frameEnd
  cases isBase : stack.bases[count]? with
  | none => exact Nat.le_refl _
  | some next =>
      have nextLe := wellFormed.base_le_base (List.mem_of_getElem? isBase)
      exact Nat.le_trans nextLe wellFormed.within

/-- A frame with another one above it ends at or below the innermost base. -/
theorem WellFormed.frameEnd_le_base {stack : OperandStack} (wellFormed : stack.WellFormed)
    {count : Nat} (above : count < stack.frameCount) : stack.frameEnd count ≤ stack.base := by
  have inside : count < stack.bases.length := by simpa [bases, frameCount] using above
  rw [frameEnd, List.getElem?_eq_getElem inside]
  exact wellFormed.base_le_base (List.getElem_mem inside)

theorem getElem?_of_store {stack stored : OperandStack} {offset : Nat} {value : Int32}
    (isStored : stack.store offset value = (.ok (), stored)) :
    stored.values[stored.base + offset]? = some value := by
  obtain ⟨within, rfl⟩ := eq_of_store isStored
  simp

/-- An operation keeps the value at a position of the array that remains, provided that it does
not close a frame beneath it and stores nothing there. -/
theorem getElem?_of_acts {operation : StackOperation} {stack after : OperandStack}
    {position : Nat} {value : Int32} (acts : operation.Acts stack after)
    (isThere : stack.values[position]? = some value) (remains : position < after.values.size)
    (beneath : after.frameCount < stack.frameCount → position < stack.base)
    (unwritten : ∀ offset other, operation = .store offset other →
      stack.base + offset ≠ position) :
    after.values[position]? = some value := by
  cases acts with
  | looks => exact isThere
  | pushes =>
      obtain ⟨inside, -⟩ := Array.getElem?_eq_some_iff.mp isThere
      rw [push_values, Array.getElem?_push, if_neg (Nat.ne_of_lt inside)]
      exact isThere
  | pops popped =>
      obtain ⟨-, rfl⟩ := eq_of_pop popped
      have inside : position < stack.values.size - 1 := by simpa using remains
      rw [Array.getElem?_pop, if_pos inside]
      exact isThere
  | opens opened =>
      obtain ⟨-, rfl⟩ := eq_of_openFrame opened
      exact isThere
  | closes closed =>
      have lower : position < stack.base := by
        apply beneath
        rw [frameCount_closeFrame closed]
        exact Nat.lt_succ_self _
      obtain ⟨caller, callers, -, -, occupied, rfl⟩ := eq_of_closeFrame closed
      have size : (stack.values.take stack.base).size = stack.base := by
        simp [Nat.min_eq_left (Nat.le_of_lt occupied)]
      rw [Array.getElem?_push, size, if_neg (Nat.ne_of_lt lower)]
      have kept : position < min stack.base stack.values.size - 0 := by omega
      rw [Array.take_eq_extract, Array.getElem?_extract, if_pos kept, Nat.zero_add]
      exact isThere
  | stores stored =>
      obtain ⟨within, rfl⟩ := eq_of_store stored
      rw [Array.getElem?_set, if_neg (unwritten _ _ rfl)]
      exact isThere

/-- A slot that the frame keeps has the value that it had. -/
theorem KeepsSlot.getElem? {stack : OperandStack} {offset : Nat} {value : Int32}
    {operations : List StackOperation} (wellFormed : stack.WellFormed)
    (keeps : stack.KeepsSlot offset operations)
    (isThere : stack.values[stack.base + offset]? = some value) (count : Nat) :
    (stack.performAll (operations.take count)).values[stack.base + offset]? = some value := by
  apply performAll_invariant (motive := fun reached =>
    reached.values[stack.base + offset]? = some value) isThere
  intro count operation isNext isThere
  have lower : stack.frameCount < (stack.performAll (operations.take count)).frameCount →
      stack.base + offset < (stack.performAll (operations.take count)).base := by
    intro above
    exact Nat.lt_of_lt_of_le (keeps.within count)
      ((wellFormed.performAll _).frameEnd_le_base above)
  apply getElem?_of_acts (acts_performAll stack isNext) isThere
  · exact Nat.lt_of_lt_of_le (keeps.within (count + 1))
      ((wellFormed.performAll _).frameEnd_le_size _)
  · intro closes
    exact lower (Nat.lt_of_le_of_lt (keeps.stays (count + 1)) closes)
  · rintro written other rfl same
    rcases Nat.lt_or_eq_of_le (keeps.stays count) with above | innermost
    · have inside := lower above
      omega
    · have sameBase := (StandsOn.performAll_take wellFormed keeps.stays count).base_eq
        innermost.symm
      obtain rfl : written = offset := by omega
      exact keeps.unwritten count other isNext innermost.symm

/-- Frames are isolated.  Let a frame be opened on a stack that was reached by any operations, and
let further ones follow that do not close it.  The values beneath the frame and the bases up to its
own are unchanged, and if it is then closed as the innermost frame, the stack has the bases from
before it was opened and the values beneath it with the result on top.  A value that is stored in a
slot is what is loaded from there when the frame is innermost again, if it has kept the slot. -/
theorem frames_isolated (history : List StackOperation) :
    let stack := ({} : OperandStack).performAll history
    (∀ count inner operations, stack.openFrame count = (.ok (), inner) → inner.Stays operations →
      let reached := inner.performAll operations
      reached.values.take inner.base = inner.values.take inner.base ∧
      reached.bases.take inner.frameCount = inner.bases ∧
      ∀ result outer, reached.frameCount = inner.frameCount →
        reached.closeFrame = (.ok result, outer) →
        outer.bases = stack.bases ∧
        outer.values = (stack.values.take inner.base).push result) ∧
    (∀ offset value stored operations, stack.store offset value = (.ok (), stored) →
      stored.KeepsSlot offset operations →
      (stored.performAll operations).frameCount = stored.frameCount →
      (stored.performAll operations).load offset = .ok value) := by
  intro stack
  have wellFormed : stack.WellFormed := WellFormed.empty.performAll history
  constructor
  · intro count inner operations opened stays reached
    have stands : StandsOn inner reached :=
      .performAll (wellFormed.openFrame opened) stays
    refine ⟨?_, stands.bases_take, ?_⟩
    · apply Array.ext'
      simpa using stands.below
    · intro result outer same closed
      obtain ⟨-, caller, callers, isCallers, rfl⟩ := stands.eq_of_closeFrame closed same
      obtain ⟨-, rfl⟩ := eq_of_openFrame opened
      obtain ⟨rfl, rfl⟩ := List.cons.inj isCallers
      exact ⟨rfl, rfl⟩
  · intro offset value stored operations isStored keeps same
    have storedWellFormed := (FrameLocal.store isStored).wellFormed wellFormed
    have kept := keeps.getElem? storedWellFormed (getElem?_of_store isStored) operations.length
    apply load_of_getElem?
    rw [(StandsOn.performAll storedWellFormed keeps.stays).base_eq same]
    simpa using kept

/-- What holds after any number of operations is checked on the finitely many initial segments. -/
theorem forall_take_of_forall_inits {operations : List StackOperation}
    (holds : List StackOperation → Prop) (checked : ∀ passed ∈ operations.inits, holds passed)
    (count : Nat) : holds (operations.take count) :=
  checked _ ((List.mem_inits _ _).mpr (List.take_prefix count operations))

/-- A slot over which a frame is opened belongs to that frame from then on.  Here the outer frame
does nothing between storing 3 in its slot and loading it again but open a frame, to which it hands
the slot over, and yet the slot comes back with the 9 that was stored there meanwhile. -/
theorem handed_over_slot_rewritten :
    let stack := ({} : OperandStack).performAll [.push 7]
    let stored : OperandStack := { values := #[3] }
    let called : List StackOperation := [.openFrame 1, .store 0 9, .closeFrame]
    stack.store 0 3 = (.ok (), stored) ∧ stored.Stays called ∧
    (∀ count operation, called[count]? = some operation →
      (stored.performAll (called.take count)).frameCount = stored.frameCount →
      operation = .openFrame 1) ∧
    (stored.performAll called).frameCount = stored.frameCount ∧
    (stored.performAll called).load 0 = .ok 9 := by
  intro stack stored called
  have stays : stored.Stays called :=
    forall_take_of_forall_inits
      (fun passed => stored.frameCount ≤ (stored.performAll passed).frameCount)
      (by decide +kernel)
  have opens : ∀ count < called.length,
      (stored.performAll (called.take count)).frameCount = stored.frameCount →
      called[count]? = some (.openFrame 1) := by
    decide +kernel
  refine ⟨by decide +kernel, stays, ?_, by decide +kernel, by decide +kernel⟩
  intro count operation isNext innermost
  have inside : count < called.length := (List.getElem?_eq_some_iff.mp isNext).1
  rw [opens count inside innermost] at isNext
  exact (Option.some.inj isNext).symm

/-- Frames without a slot of their own begin at the same place, and nothing done in one of them
reaches the slots beneath. -/
theorem frames_isolated_zeroSize :
    let stack := ({} : OperandStack).performAll [.push 7, .push 8]
    let inner : OperandStack := { values := #[7, 8], base := 2, callers := [0] }
    let nested : List StackOperation :=
      [.openFrame 0, .store 0 4, .pop, .push 5, .store 0 6, .closeFrame, .push 9]
    let stored : OperandStack := { values := #[7, 3] }
    let called : List StackOperation :=
      [.openFrame 0, .openFrame 0, .store 1 4, .push 5, .push 5, .store 1 6, .closeFrame,
        .closeFrame, .pop]
    (stack.openFrame 0 = (.ok (), inner) ∧ inner.Stays nested ∧
      (inner.performAll nested).values.take 2 = #[7, 8] ∧
      (inner.performAll nested).bases.take 2 = [0, 2] ∧
      ∃ outer, (inner.performAll nested).closeFrame = (.ok 9, outer) ∧
        outer.bases = [0] ∧ outer.values = #[7, 8, 9]) ∧
    (stack.store 1 3 = (.ok (), stored) ∧ stored.KeepsSlot 1 called ∧
      (stored.performAll called).load 1 = .ok 3) := by
  intro stack inner nested stored called
  have ⟨isolated, kept⟩ := frames_isolated [.push 7, .push 8]
  constructor
  · have opened : stack.openFrame 0 = (.ok (), inner) := by decide +kernel
    have stays : inner.Stays nested :=
      forall_take_of_forall_inits
        (fun passed => inner.frameCount ≤ (inner.performAll passed).frameCount)
        (by decide +kernel)
    have ⟨values, bases, closing⟩ := isolated 0 inner nested opened stays
    refine ⟨opened, stays, values, bases, { values := #[7, 8, 9] }, by decide +kernel, ?_⟩
    exact closing 9 _ (by decide +kernel) (by decide +kernel)
  · have isStored : stack.store 1 3 = (.ok (), stored) := by decide +kernel
    have keeps : stored.KeepsSlot 1 called := by
      refine ⟨forall_take_of_forall_inits
          (fun passed => stored.frameCount ≤ (stored.performAll passed).frameCount)
          (by decide +kernel),
        forall_take_of_forall_inits
          (fun passed => stored.base + 1 < (stored.performAll passed).frameEnd stored.frameCount)
          (by decide +kernel), ?_⟩
      intro count value isStore innermost
      have inside : count < called.length := (List.getElem?_eq_some_iff.mp isStore).1
      have others : ∀ count < called.length,
          (stored.performAll (called.take count)).frameCount = stored.frameCount →
          called[count]? = some (.openFrame 0) ∨ called[count]? = some .pop := by decide +kernel
      rcases others count inside innermost with opens | pops
      · simp [opens] at isStore
      · simp [pops] at isStore
    exact ⟨isStored, keeps, kept 1 3 stored called isStored keeps (by decide +kernel)⟩

end StackDebugger.OperandStack
