import StackDebugger.Machine.OperandStack
import Mathlib.Data.List.Basic

/-!
# Frames of the operand stack

The bases of the frames ascend from zero, and the innermost frame begins at or
below the top.  An operation inside a frame leaves everything beneath its base
alone (`FrameLocal`); an operation that failed half-way has at most dropped
values of the frame (`Truncated`).

`StandsOn` follows one frame through whatever happens above it: as long as the
frame is there, the frames around it and their values are as they were, and
closing it as the innermost frame puts its result on top of exactly those.
-/

namespace StackDebugger.OperandStack

/-- The bases ascend from zero and none lies above the top. -/
structure WellFormed (stack : OperandStack) : Prop where
  outermost : stack.bases.head? = some 0
  ascending : stack.bases.Pairwise (· ≤ ·)
  within : stack.base ≤ stack.values.size

/-- At most values of the innermost frame differ. -/
structure FrameLocal (before after : OperandStack) : Prop where
  base : after.base = before.base
  callers : after.callers = before.callers
  within : before.base ≤ before.values.size → before.base ≤ after.values.size
  below : before.base ≤ before.values.size →
    after.values.toList.take before.base = before.values.toList.take before.base

/-- Values were dropped from the top, and none beneath the innermost base. -/
def Truncated (before after : OperandStack) : Prop :=
  ∃ size, before.base ≤ size ∧ after = { before with values := before.values.take size }

theorem bases_eq (stack : OperandStack) :
    stack.bases = stack.callers.reverse ++ [stack.base] := by
  simp [bases]

theorem eq_of_pop {stack rest : OperandStack} {value : Int32}
    (popped : stack.pop = (.ok value, rest)) :
    stack.base < stack.values.size ∧
      rest = { stack with values := stack.values.pop } := by
  unfold pop at popped
  split at popped
  · next occupied => exact ⟨occupied, (Prod.mk.inj popped).2.symm⟩
  · cases popped

theorem peek_of_pop {stack rest : OperandStack} {value : Int32}
    (popped : stack.pop = (.ok value, rest)) : stack.peek = .ok value := by
  have ⟨occupied, _⟩ := eq_of_pop popped
  simp only [pop, occupied, dite_true, Except.ok.injEq, Prod.mk.injEq] at popped
  simp [peek, occupied, popped.1]

theorem eq_of_openFrame {stack inner : OperandStack} {count : Nat}
    (opened : stack.openFrame count = (.ok (), inner)) :
    count ≤ stack.frameSize ∧
      inner = { stack with
        base := stack.values.size - count
        callers := stack.base :: stack.callers } := by
  unfold openFrame at opened
  split at opened
  · cases opened
  · next fits => exact ⟨Nat.le_of_not_lt fits, (Prod.mk.inj opened).2.symm⟩

theorem eq_of_store {stack after : OperandStack} {offset : Nat} {value : Int32}
    (stored : stack.store offset value = (.ok (), after)) :
    ∃ within, after =
      { stack with values := stack.values.set (stack.base + offset) value within } := by
  unfold store at stored
  split at stored
  · next within => exact ⟨within, (Prod.mk.inj stored).2.symm⟩
  · cases stored

theorem lt_frameSize_iff {stack : OperandStack} {offset : Nat} :
    offset < stack.frameSize ↔ stack.base + offset < stack.values.size :=
  Nat.lt_sub_iff_add_lt'

theorem load_of_getElem? {stack : OperandStack} {offset : Nat} {value : Int32}
    (isThere : stack.values[stack.base + offset]? = some value) :
    stack.load offset = .ok value := by
  obtain ⟨within, isValue⟩ := Array.getElem?_eq_some_iff.mp isThere
  rw [load, dif_pos within, isValue]

private theorem take_pop {values : Array Int32} {size : Nat} (shorter : size < values.size) :
    values.pop.take size = values.take size := by
  apply Array.ext'
  have least : min size (values.size - 1) = size := by omega
  simp [List.dropLast_eq_take, List.take_take, least]

/-- The result of a closed frame is the value that was on its top. -/
theorem eq_of_closeFrame {stack outer : OperandStack} {result : Int32}
    (closed : stack.closeFrame = (.ok result, outer)) :
    ∃ caller callers, stack.callers = caller :: callers ∧
      stack.peek = .ok result ∧ stack.base < stack.values.size ∧
      outer =
        { values := (stack.values.take stack.base).push result, base := caller, callers } := by
  unfold closeFrame at closed
  split at closed
  · cases closed
  · next caller callers isCallers =>
      split at closed
      · cases closed
      · next value popped isPopped =>
          obtain ⟨isResult, rfl⟩ := Prod.mk.inj closed
          obtain rfl := Except.ok.inj isResult
          obtain ⟨occupied, rfl⟩ := eq_of_pop isPopped
          refine ⟨caller, callers, isCallers, peek_of_pop isPopped, occupied, ?_⟩
          rw [take_pop occupied]

/-- An operation that fails leaves the stack as it was. -/
def Atomic {α : Type} (operation : OperandStack → Except Fault α × OperandStack) : Prop :=
  ∀ stack after fault, operation stack = (.error fault, after) → after = stack

theorem atomic_pop : Atomic pop := by
  intro stack after fault failed
  unfold pop at failed
  split at failed
  · cases failed
  · exact (Prod.mk.inj failed).2.symm

theorem atomic_openFrame (count : Nat) : Atomic (openFrame · count) := by
  intro stack after fault failed
  simp only [openFrame] at failed
  split at failed
  · exact (Prod.mk.inj failed).2.symm
  · cases failed

theorem atomic_store (offset : Nat) (value : Int32) : Atomic (store · offset value) := by
  intro stack after fault failed
  simp only [store] at failed
  split at failed
  · cases failed
  · exact (Prod.mk.inj failed).2.symm

/-- A frame is closed or left alone: nothing can fail once its result has been popped. -/
theorem atomic_closeFrame : Atomic closeFrame := by
  intro stack after fault failed
  unfold closeFrame at failed
  split at failed
  · exact (Prod.mk.inj failed).2.symm
  · split at failed
    · next popped unpopped =>
        obtain ⟨-, rfl⟩ := Prod.mk.inj failed
        exact atomic_pop stack popped _ unpopped
    · cases failed

namespace FrameLocal

theorem refl (stack : OperandStack) : FrameLocal stack stack :=
  ⟨rfl, rfl, id, fun _ => rfl⟩

theorem trans {first second third : OperandStack}
    (earlier : FrameLocal first second) (later : FrameLocal second third) :
    FrameLocal first third := by
  have laterWithin := later.within
  have laterBelow := later.below
  rw [earlier.base] at laterWithin laterBelow
  refine ⟨later.base.trans earlier.base, later.callers.trans earlier.callers, ?_, ?_⟩
  · intro within
    exact laterWithin (earlier.within within)
  · intro within
    exact (laterBelow (earlier.within within)).trans (earlier.below within)

theorem bases {before after : OperandStack} (kept : FrameLocal before after) :
    after.bases = before.bases := by
  simp [bases_eq, kept.base, kept.callers]

theorem frameCount {before after : OperandStack} (kept : FrameLocal before after) :
    after.frameCount = before.frameCount := by
  simp [OperandStack.frameCount, kept.callers]

theorem wellFormed {before after : OperandStack} (kept : FrameLocal before after)
    (wellFormed : before.WellFormed) : after.WellFormed := by
  refine ⟨?_, ?_, ?_⟩
  · rw [kept.bases]
    exact wellFormed.outermost
  · rw [kept.bases]
    exact wellFormed.ascending
  · rw [kept.base]
    exact kept.within wellFormed.within

theorem push (stack : OperandStack) (value : Int32) : FrameLocal stack (stack.push value) := by
  refine ⟨rfl, rfl, ?_, ?_⟩
  · intro within
    simp only [push_values, Array.size_push]
    omega
  · intro within
    simp [List.take_append_of_le_length, within]

theorem store {stack after : OperandStack} {offset : Nat} {value : Int32}
    (stored : stack.store offset value = (.ok (), after)) : FrameLocal stack after := by
  obtain ⟨within, rfl⟩ := eq_of_store stored
  refine ⟨rfl, rfl, by simp, ?_⟩
  intro _
  simp [List.take_set_of_le]

end FrameLocal

namespace Truncated

theorem refl (stack : OperandStack) : Truncated stack stack := by
  refine ⟨max stack.base stack.values.size, Nat.le_max_left _ _, ?_⟩
  simp [Array.extract_eq_self_of_le (Nat.le_max_right stack.base stack.values.size)]

theorem trans {first second third : OperandStack}
    (earlier : Truncated first second) (later : Truncated second third) :
    Truncated first third := by
  obtain ⟨earlierSize, earlierFits, rfl⟩ := earlier
  obtain ⟨laterSize, laterFits, rfl⟩ := later
  refine ⟨min laterSize earlierSize, ?_, by simp [Array.extract_extract]⟩
  exact Nat.le_min.mpr ⟨laterFits, earlierFits⟩

theorem pop {stack rest : OperandStack} {value : Int32}
    (popped : stack.pop = (.ok value, rest)) : Truncated stack rest := by
  obtain ⟨occupied, rfl⟩ := eq_of_pop popped
  exact ⟨stack.values.size - 1, by omega, by simp⟩

theorem frameLocal {before after : OperandStack} (truncated : Truncated before after) :
    FrameLocal before after := by
  obtain ⟨size, fits, rfl⟩ := truncated
  refine ⟨rfl, rfl, ?_, ?_⟩
  · intro within
    simp only [Array.take_eq_extract, Array.size_extract]
    omega
  · intro _
    simp [List.take_take, fits]

end Truncated

namespace WellFormed

theorem empty : WellFormed {} :=
  ⟨rfl, by simp [bases_eq], Nat.le_refl 0⟩

/-- The base of a frame around the innermost one lies no higher. -/
theorem le_base {stack : OperandStack} (wellFormed : stack.WellFormed) {caller : Nat}
    (member : caller ∈ stack.callers) : caller ≤ stack.base := by
  have ascending := wellFormed.ascending
  rw [bases_eq, List.pairwise_append] at ascending
  exact ascending.2.2 caller (by simpa using member) stack.base (by simp)

theorem openFrame {stack inner : OperandStack} {count : Nat} (wellFormed : stack.WellFormed)
    (opened : stack.openFrame count = (.ok (), inner)) : inner.WellFormed := by
  obtain ⟨fits, rfl⟩ := eq_of_openFrame opened
  have room : count ≤ stack.values.size - stack.base := fits
  have within := wellFormed.within
  refine ⟨?_, ?_, ?_⟩
  · have outermost := wellFormed.outermost
    simp only [bases_eq, List.reverse_cons] at outermost ⊢
    rw [List.head?_append, outermost]
    rfl
  · have ascending := wellFormed.ascending
    simp only [bases_eq] at ascending ⊢
    simp only [List.reverse_cons]
    rw [List.pairwise_append]
    refine ⟨ascending, by simp, ?_⟩
    intro lower member upper isUpper
    obtain rfl : upper = stack.values.size - count := by simpa using isUpper
    have lowerLe : lower ≤ stack.base := by
      rcases List.mem_append.mp member with caller | innermost
      · exact wellFormed.le_base (by simpa using caller)
      · exact Nat.le_of_eq (by simpa using innermost)
    omega
  · exact Nat.sub_le _ _

theorem closeFrame {stack outer : OperandStack} {result : Int32} (wellFormed : stack.WellFormed)
    (closed : stack.closeFrame = (.ok result, outer)) : outer.WellFormed := by
  obtain ⟨caller, callers, isCallers, -, occupied, rfl⟩ := eq_of_closeFrame closed
  have callerLe : caller ≤ stack.base := wellFormed.le_base (by simp [isCallers])
  have outermost := wellFormed.outermost
  have ascending := wellFormed.ascending
  simp only [bases_eq, isCallers, List.reverse_cons] at outermost ascending
  refine ⟨?_, ?_, ?_⟩
  · simpa [bases_eq] using outermost
  · rw [bases_eq]
    exact (List.pairwise_append.mp ascending).1
  · simp only [Array.take_eq_extract, Array.size_push, Array.size_extract]
    omega

end WellFormed

/-- The innermost frame of `floor` and all frames around it are still there, and
so are the values beneath that frame. -/
structure StandsOn (floor stack : OperandStack) : Prop where
  frames : floor.base :: floor.callers <:+ stack.base :: stack.callers
  below : stack.values.toList.take floor.base = floor.values.toList.take floor.base

namespace StandsOn

variable {floor stack : OperandStack}

theorem refl (stack : OperandStack) : StandsOn stack stack :=
  ⟨List.suffix_rfl, rfl⟩

theorem base_le (stands : StandsOn floor stack) (wellFormed : stack.WellFormed) :
    floor.base ≤ stack.base := by
  have member : floor.base ∈ stack.base :: stack.callers :=
    stands.frames.subset (by simp)
  rcases List.mem_cons.mp member with innermost | caller
  · exact Nat.le_of_eq innermost
  · exact wellFormed.le_base caller

theorem frameLocal {after : OperandStack} (stands : StandsOn floor stack)
    (wellFormed : stack.WellFormed) (kept : FrameLocal stack after) :
    StandsOn floor after := by
  refine ⟨by simpa [kept.base, kept.callers] using stands.frames, ?_⟩
  have least : min floor.base stack.base = floor.base :=
    Nat.min_eq_left (stands.base_le wellFormed)
  calc
    after.values.toList.take floor.base
        = (after.values.toList.take stack.base).take floor.base := by
      rw [List.take_take, least]
    _ = (stack.values.toList.take stack.base).take floor.base := by
      rw [kept.below wellFormed.within]
    _ = stack.values.toList.take floor.base := by
      rw [List.take_take, least]
    _ = floor.values.toList.take floor.base := stands.below

theorem openFrame {inner : OperandStack} {count : Nat} (stands : StandsOn floor stack)
    (opened : stack.openFrame count = (.ok (), inner)) : StandsOn floor inner := by
  obtain ⟨-, rfl⟩ := eq_of_openFrame opened
  exact ⟨stands.frames.trans (List.suffix_cons _ _), stands.below⟩

/-- Closing a frame above the followed one leaves the latter alone. -/
theorem closeFrame {outer : OperandStack} {result : Int32} (stands : StandsOn floor stack)
    (wellFormed : stack.WellFormed) (closed : stack.closeFrame = (.ok result, outer))
    (above : floor.frameCount < stack.frameCount) : StandsOn floor outer := by
  have baseLe := stands.base_le wellFormed
  obtain ⟨caller, callers, isCallers, -, occupied, rfl⟩ := eq_of_closeFrame closed
  constructor
  · have frames := stands.frames
    rw [isCallers] at frames
    rcases List.suffix_cons_iff.mp frames with equal | deeper
    · have lengths := congrArg List.length equal
      simp only [frameCount, isCallers, List.length_cons] at above lengths
      omega
    · exact deeper
  · have least : min floor.base stack.base = floor.base := Nat.min_eq_left baseLe
    have room : floor.base ≤ (stack.values.toList.take stack.base).length := by
      simp only [List.length_take, Array.length_toList]
      omega
    simp only [Array.take_eq_extract, Array.toList_push, Array.toList_extract,
      List.extract_eq_take_drop, List.drop_zero, Nat.sub_zero]
    rw [List.take_append_of_le_length room, List.take_take, least]
    exact stands.below

/-- Closing the followed frame itself leaves its result on the frame around it. -/
theorem eq_of_closeFrame {outer : OperandStack} {result : Int32} (stands : StandsOn floor stack)
    (closed : stack.closeFrame = (.ok result, outer))
    (same : stack.frameCount = floor.frameCount) :
    stack.peek = .ok result ∧
      ∃ caller callers, floor.callers = caller :: callers ∧
        outer = { values := (floor.values.take floor.base).push result
                  base := caller
                  callers } := by
  obtain ⟨caller, callers, isCallers, onTop, -, rfl⟩ := OperandStack.eq_of_closeFrame closed
  have equal : floor.base :: floor.callers = stack.base :: stack.callers :=
    stands.frames.eq_of_length (by simpa [frameCount] using same.symm)
  obtain ⟨sameBase, sameCallers⟩ := List.cons.inj equal
  refine ⟨onTop, caller, callers, sameCallers.trans isCallers, ?_⟩
  have values : stack.values.take stack.base = floor.values.take floor.base := by
    apply Array.ext'
    simpa [sameBase] using stands.below
  rw [values]

end StandsOn

end StackDebugger.OperandStack
