import StackDebugger.Proofs.Machine.Effects

/-!
# Operations on the operand stack

Any operations, in any order and with any arguments, may be carried out on an empty stack.  The
bases of its frames still ascend from zero and none lies above the top, so that every difference
of sizes is exact and every slot and slice that is looked up is there.  An operation is refused
exactly where the innermost frame does not have what it asks for, and then nothing has changed.
-/

namespace StackDebugger

/-- An operation on the operand stack. -/
inductive StackOperation where
  | push (value : Int32)
  | pop
  | peek
  | openFrame (count : Nat)
  | closeFrame
  | load (offset : Nat)
  | store (offset : Nat) (value : Int32)
  deriving DecidableEq, Repr

namespace StackOperation

/-- The operation as instructions carry it out, with the value that it gives. -/
def effect : StackOperation → Effect (Option Int32)
  | .push value => do
      Effect.push value
      return none
  | .pop => do
      return some (← Effect.pop)
  | .peek => do
      return some (← Effect.inspectStack OperandStack.peek)
  | .openFrame count => do
      Effect.onStack (·.openFrame count)
      return none
  | .closeFrame => do
      return some (← Effect.onStack OperandStack.closeFrame)
  | .load offset => do
      return some (← Effect.inspectStack (·.load offset))
  | .store offset value => do
      Effect.onStack (·.store offset value)
      return none

/-- The innermost frame does not have what the operation asks for. -/
def IsRefused (stack : OperandStack) : StackOperation → Prop
  | .push _ => False
  | .pop | .peek => stack.frameSize = 0
  | .openFrame count => stack.frameSize < count
  | .closeFrame => stack.frameCount = 1 ∨ stack.frameSize = 0
  | .load offset | .store offset _ => stack.frameSize ≤ offset

/-- How an operation that succeeds changes the stack. -/
inductive Acts : StackOperation → OperandStack → OperandStack → Prop where
  | looks {operation : StackOperation} {stack : OperandStack} : Acts operation stack stack
  | pushes {value : Int32} {stack : OperandStack} : Acts (.push value) stack (stack.push value)
  | pops {value : Int32} {stack rest : OperandStack} :
      stack.pop = (.ok value, rest) → Acts .pop stack rest
  | opens {count : Nat} {stack inner : OperandStack} :
      stack.openFrame count = (.ok (), inner) → Acts (.openFrame count) stack inner
  | closes {result : Int32} {stack outer : OperandStack} :
      stack.closeFrame = (.ok result, outer) → Acts .closeFrame stack outer
  | stores {offset : Nat} {value : Int32} {stack after : OperandStack} :
      stack.store offset value = (.ok (), after) → Acts (.store offset value) stack after

end StackOperation

namespace OperandStack

/-- Carries out an operation.  The stack is the one that is left, also by a failure. -/
def perform (stack : OperandStack) (operation : StackOperation) :
    Except Fault (Option Int32) × OperandStack :=
  match operation.effect.run { stack } with
  | .ok value state => (.ok value, state.stack)
  | .error fault state => (.error fault, state.stack)

/-- Carries out operations one after another, whether or not they fail. -/
def performAll (stack : OperandStack) : List StackOperation → OperandStack
  | [] => stack
  | operation :: rest => (stack.perform operation).2.performAll rest

/-- Where the frame ends that has so many frames up to it: at the base of the next one, or at the
top. -/
def frameEnd (stack : OperandStack) (count : Nat) : Nat :=
  stack.bases[count]?.getD stack.values.size

theorem pop_eq_error_iff {stack : OperandStack} :
    (∃ fault, stack.pop.1 = .error fault) ↔ stack.frameSize = 0 := by
  unfold pop frameSize
  split
  · next occupied => simp [Nat.sub_eq_zero_iff_le, occupied]
  · next empty => simp [Nat.sub_eq_zero_of_le (Nat.le_of_not_lt empty)]

theorem peek_eq_error_iff {stack : OperandStack} :
    (∃ fault, stack.peek = .error fault) ↔ stack.frameSize = 0 := by
  unfold peek frameSize
  split
  · next occupied => simp [Nat.sub_eq_zero_iff_le, occupied]
  · next empty => simp [Nat.sub_eq_zero_of_le (Nat.le_of_not_lt empty)]

theorem load_eq_error_iff {stack : OperandStack} {offset : Nat} :
    (∃ fault, stack.load offset = .error fault) ↔ stack.frameSize ≤ offset := by
  rw [← Nat.not_lt, lt_frameSize_iff]
  unfold load
  split
  · next within => simp [within]
  · next outside => simp [outside]

theorem store_eq_error_iff {stack : OperandStack} {offset : Nat} {value : Int32} :
    (∃ fault, (stack.store offset value).1 = .error fault) ↔ stack.frameSize ≤ offset := by
  rw [← Nat.not_lt, lt_frameSize_iff]
  unfold store
  split
  · next within => simp [within]
  · next outside => simp [outside]

theorem openFrame_eq_error_iff {stack : OperandStack} {count : Nat} :
    (∃ fault, (stack.openFrame count).1 = .error fault) ↔ stack.frameSize < count := by
  unfold openFrame
  split
  · next tooLarge => simp [tooLarge]
  · next fits => simp [fits]

theorem closeFrame_eq_error_iff {stack : OperandStack} :
    (∃ fault, stack.closeFrame.1 = .error fault) ↔
      stack.frameCount = 1 ∨ stack.frameSize = 0 := by
  rw [← pop_eq_error_iff]
  unfold closeFrame frameCount
  cases stack.callers with
  | nil => simp
  | cons caller callers =>
      obtain ⟨result, popped⟩ := stack.pop
      cases result with
      | error fault => simp
      | ok value => simp

end OperandStack

namespace StackOperation

open Effect

variable {state : State}

/-- What became of an operation: it was refused and has changed nothing, or it has acted. -/
inductive Ends (operation : StackOperation) (state : State) :
    EStateM.Result Fault State (Option Int32) → Prop where
  | refused {fault : Fault} :
      operation.IsRefused state.stack → Ends operation state (.error fault state)
  | done {value : Option Int32} {stack : OperandStack} :
      ¬ operation.IsRefused state.stack → operation.Acts state.stack stack →
      Ends operation state (.ok value { state with stack })

theorem ends_onStack {α : Type} {operation : StackOperation}
    {perform : OperandStack → Except Fault α × OperandStack} {given : α → Option Int32}
    (atomic : OperandStack.Atomic perform)
    (refused : (∃ fault, (perform state.stack).1 = .error fault) ↔
      operation.IsRefused state.stack)
    (acts : ∀ {value after}, perform state.stack = (.ok value, after) →
      operation.Acts state.stack after) :
    Ends operation state (EStateM.run (do return given (← onStack perform)) state) := by
  cases performed : perform state.stack with
  | mk result after =>
      rw [performed] at refused
      cases result with
      | error fault =>
          obtain rfl := atomic state.stack after fault performed
          rw [EStateM.run_bind, (run_onStack_eq_error atomic).mpr ⟨performed, rfl⟩]
          exact .refused (refused.mp ⟨fault, rfl⟩)
      | ok value =>
          rw [EStateM.run_bind, run_onStack_eq_ok.mpr ⟨after, performed, rfl⟩]
          exact .done (by simp [← refused]) (acts performed)

theorem ends_inspectStack {operation : StackOperation} {look : OperandStack → Except Fault Int32}
    (refused : (∃ fault, look state.stack = .error fault) ↔ operation.IsRefused state.stack) :
    Ends operation state (EStateM.run (do return some (← inspectStack look)) state) := by
  cases seen : look state.stack with
  | error fault =>
      rw [EStateM.run_bind, run_inspectStack_eq_error.mpr ⟨seen, rfl⟩]
      exact .refused (refused.mp ⟨fault, seen⟩)
  | ok value =>
      rw [EStateM.run_bind, run_inspectStack_eq_ok.mpr ⟨seen, rfl⟩]
      exact .done (by simp [← refused, seen]) .looks

/-- Every operation is refused exactly where the innermost frame does not have what it asks for. -/
theorem ends_effect (operation : StackOperation) (state : State) :
    Ends operation state (operation.effect.run state) := by
  cases operation with
  | push value => exact .done id .pushes
  | pop => exact ends_onStack OperandStack.atomic_pop OperandStack.pop_eq_error_iff .pops
  | peek => exact ends_inspectStack OperandStack.peek_eq_error_iff
  | openFrame count =>
      exact ends_onStack (OperandStack.atomic_openFrame count) OperandStack.openFrame_eq_error_iff
        .opens
  | closeFrame =>
      exact ends_onStack OperandStack.atomic_closeFrame OperandStack.closeFrame_eq_error_iff
        .closes
  | load offset => exact ends_inspectStack OperandStack.load_eq_error_iff
  | store offset value =>
      exact ends_onStack (OperandStack.atomic_store offset value) OperandStack.store_eq_error_iff
        .stores

theorem Acts.wellFormed {operation : StackOperation} {stack after : OperandStack}
    (acts : operation.Acts stack after) (wellFormed : stack.WellFormed) : after.WellFormed := by
  cases acts with
  | looks => exact wellFormed
  | pushes => exact (OperandStack.FrameLocal.push _ _).wellFormed wellFormed
  | pops popped => exact (OperandStack.Truncated.pop popped).frameLocal.wellFormed wellFormed
  | opens opened => exact wellFormed.openFrame opened
  | closes closed => exact wellFormed.closeFrame closed
  | stores stored => exact (OperandStack.FrameLocal.store stored).wellFormed wellFormed

end StackOperation

namespace OperandStack

/-- An operation is refused and leaves the stack as it was, or it acts on it. -/
theorem perform_cases (stack : OperandStack) (operation : StackOperation) :
    (operation.IsRefused stack ∧ ∃ fault, stack.perform operation = (.error fault, stack)) ∨
    (¬ operation.IsRefused stack ∧ ∃ value after, stack.perform operation = (.ok value, after) ∧
      operation.Acts stack after) := by
  have ends := operation.ends_effect { stack }
  unfold perform
  generalize operation.effect.run { stack } = result at ends
  cases ends with
  | refused isRefused => exact .inl ⟨isRefused, _, rfl⟩
  | done notRefused acts => exact .inr ⟨notRefused, _, _, rfl, acts⟩

theorem acts_perform (stack : OperandStack) (operation : StackOperation) :
    operation.Acts stack (stack.perform operation).2 := by
  rcases stack.perform_cases operation with ⟨-, fault, performed⟩ |
    ⟨-, value, after, performed, acts⟩
  · rw [performed]
    exact .looks
  · rw [performed]
    exact acts

theorem WellFormed.performAll {stack : OperandStack} (wellFormed : stack.WellFormed)
    (operations : List StackOperation) : (stack.performAll operations).WellFormed := by
  induction operations generalizing stack with
  | nil => exact wellFormed
  | cons operation operations ih => exact ih ((stack.acts_perform operation).wellFormed wellFormed)

/-- No difference of sizes is cut off at zero, and every slot and slice lies on the stack. -/
structure InRange (stack : OperandStack) : Prop where
  frameSize : stack.base + stack.frameSize = stack.values.size
  openFrame : ∀ count ≤ stack.frameSize, count ≤ stack.values.size
  slot : ∀ offset < stack.frameSize, stack.base + offset < stack.values.size
  frame : stack.base + stack.frame.length = stack.values.size
  groups : ∀ index start, stack.bases[index]? = some start →
    start ≤ stack.frameEnd (index + 1) ∧ stack.frameEnd (index + 1) ≤ stack.values.size ∧
      stack.groups[index]? =
        some ((stack.values.toList.take (stack.frameEnd (index + 1))).drop start)

theorem getElem?_groupsFrom (values : List Int32) (bases : List Nat) (index : Nat) :
    (groupsFrom values bases)[index]? =
      bases[index]?.map fun start =>
        (values.take (bases[index + 1]?.getD values.length)).drop start := by
  induction bases generalizing index with
  | nil => rfl
  | cons start rest ih =>
      cases rest with
      | nil => cases index <;> simp [groupsFrom]
      | cons next rest =>
          cases index with
          | zero => rfl
          | succ index =>
              rw [groupsFrom, List.getElem?_cons_succ, List.getElem?_cons_succ, ih]
              rfl

namespace WellFormed

variable {stack : OperandStack}

theorem base_le_base (wellFormed : stack.WellFormed) {start : Nat}
    (member : start ∈ stack.bases) : start ≤ stack.base := by
  rw [bases, List.mem_reverse, List.mem_cons] at member
  rcases member with innermost | caller
  · exact Nat.le_of_eq innermost
  · exact wellFormed.le_base caller

theorem le_frameEnd (wellFormed : stack.WellFormed) {index start : Nat}
    (isBase : stack.bases[index]? = some start) :
    start ≤ stack.frameEnd (index + 1) ∧ stack.frameEnd (index + 1) ≤ stack.values.size := by
  have within := wellFormed.within
  unfold frameEnd
  cases isNext : stack.bases[index + 1]? with
  | none =>
      have startLe := wellFormed.base_le_base (List.mem_of_getElem? isBase)
      exact ⟨Nat.le_trans startLe within, Nat.le_refl _⟩
  | some next =>
      have nextLe := wellFormed.base_le_base (List.mem_of_getElem? isNext)
      obtain ⟨inside, rfl⟩ := List.getElem?_eq_some_iff.mp isBase
      obtain ⟨nextInside, rfl⟩ := List.getElem?_eq_some_iff.mp isNext
      have ascends := List.pairwise_iff_getElem.mp wellFormed.ascending index (index + 1) inside
        nextInside (Nat.lt_succ_self index)
      exact ⟨ascends, Nat.le_trans nextLe within⟩

theorem inRange (wellFormed : stack.WellFormed) : stack.InRange := by
  have within := wellFormed.within
  have size : stack.base + stack.frameSize = stack.values.size := Nat.add_sub_cancel' within
  refine ⟨size, ?_, ?_, ?_, ?_⟩
  · intro count fits
    omega
  · intro offset inside
    omega
  · simpa [frame, frameSize] using size
  · intro index start isBase
    obtain ⟨startLe, endLe⟩ := wellFormed.le_frameEnd isBase
    refine ⟨startLe, endLe, ?_⟩
    rw [groups, getElem?_groupsFrom, isBase]
    rfl

end WellFormed

/-- Frames stay in order and a refusal changes nothing.  After any operations on an empty stack
there is a frame, the first base is zero, the bases ascend, and the last of them is at most the
number of values, so that everything looked up is in range.  Each further operation is refused
exactly where the innermost frame does not have what it asks for; it then leaves values and bases
as they were, and otherwise it succeeds. -/
theorem frames_in_order (operations : List StackOperation) :
    let stack := ({} : OperandStack).performAll operations
    0 < stack.frameCount ∧ stack.bases.length = stack.frameCount ∧
    stack.bases.getLast? = some stack.base ∧ stack.WellFormed ∧ stack.InRange ∧
    ∀ operation,
      (operation.IsRefused stack ∧ ∃ fault, stack.perform operation = (.error fault, stack)) ∨
      (¬ operation.IsRefused stack ∧ ∃ value after,
        stack.perform operation = (.ok value, after)) := by
  intro stack
  have wellFormed : stack.WellFormed := WellFormed.empty.performAll operations
  refine ⟨Nat.succ_pos _, ?_, ?_, wellFormed, wellFormed.inRange, ?_⟩
  · simp [bases, frameCount]
  · simp [bases_eq]
  · intro operation
    rcases stack.perform_cases operation with refused | ⟨notRefused, value, after, performed, -⟩
    · exact .inl refused
    · exact .inr ⟨notRefused, value, after, performed⟩

end OperandStack

end StackDebugger
