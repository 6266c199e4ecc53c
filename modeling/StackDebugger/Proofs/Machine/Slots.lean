import StackDebugger.Proofs.Machine.Execution

/-!
# Slots that instructions take

An instruction takes values from the top of its frame before it puts any there.  `leaves` is the
number of slots below those that it takes: a slot there is the same before and after it.  Where an
instruction names a slot, that slot is in the frame once the instruction has succeeded.
-/

namespace StackDebugger

namespace OperandStack

variable {stack : OperandStack} {offset : Nat} {value : Int32}

theorem frameSize_le_push (stack : OperandStack) (value : Int32) :
    stack.frameSize ≤ (stack.push value).frameSize := by
  simp only [frameSize, push_values, push_base, Array.size_push]
  omega

/-- A value that was pushed stands on top of its frame. -/
theorem topOffset_push_lt (within : stack.base ≤ stack.values.size) (value : Int32) :
    (stack.push value).topOffset < (stack.push value).frameSize := by
  simp only [topOffset, frameSize, push_values, push_base, Array.size_push]
  omega

theorem frameSize_pop {rest : OperandStack} (popped : stack.pop = (.ok value, rest)) :
    rest.frameSize + 1 = stack.frameSize := by
  obtain ⟨occupied, rfl⟩ := eq_of_pop popped
  simp only [frameSize, Array.size_pop]
  omega

theorem frameSize_store {after : OperandStack}
    (stored : stack.store offset value = (.ok (), after)) :
    after.frameSize = stack.frameSize := by
  obtain ⟨-, rfl⟩ := eq_of_store stored
  simp only [frameSize, Array.size_set]

theorem lt_frameSize_of_store {after : OperandStack}
    (stored : stack.store offset value = (.ok (), after)) : offset < after.frameSize := by
  obtain ⟨within, -⟩ := eq_of_store stored
  rw [frameSize_store stored]
  exact lt_frameSize_iff.mpr within

theorem lt_frameSize_of_load (loaded : stack.load offset = .ok value) :
    offset < stack.frameSize := by
  unfold load at loaded
  split at loaded
  · next within => exact lt_frameSize_iff.mpr within
  · contradiction

theorem exists_load (inFrame : offset < stack.frameSize) :
    ∃ value, stack.load offset = .ok value := by
  rw [load, dif_pos (lt_frameSize_iff.mp inFrame)]
  exact ⟨_, rfl⟩

end OperandStack

namespace Effect

theorem frameSize_of_pop {before after : State} {value : Int32}
    (popped : pop.run before = .ok value after) :
    after.stack.frameSize + 1 = before.stack.frameSize := by
  obtain ⟨stack, taken, rfl⟩ := run_onStack_eq_ok.mp popped
  exact OperandStack.frameSize_pop taken

theorem frameSize_of_popMany {count : Nat} {before after : State} {value : Unit}
    (popped : (popMany count).run before = .ok value after) :
    after.stack.frameSize + count = before.stack.frameSize := by
  induction count generalizing before with
  | zero =>
      obtain rfl : before = after := by simpa [popMany] using popped
      rfl
  | succ count ih =>
      rw [popMany, discard_bind] at popped
      obtain ⟨_, middle, first, rest⟩ := run_bind_eq_ok.mp popped
      have one := frameSize_of_pop first
      have others := ih rest
      omega

end Effect

namespace Instruction

/-- Whether an instruction stays in its call and its frame, wherever it goes on. -/
def staysInFrame : Instruction Jump → Bool
  | .args _ | .call _ | .ret _ => false
  | _ => true

theorem staysInFrame_of_isLocal {instruction : Instruction Jump} (isLocal : instruction.isLocal) :
    instruction.staysInFrame := by
  cases instruction with
  | args | call | ret | goto => contradiction
  | _ => rfl

/-- How many slots of a frame of a given size lie below those that an instruction takes.  What an
`ARGS` takes goes to the frame that it opens. -/
def leaves (size : Nat) : Instruction Jump → Nat
  | .store _ _ | .falseBranch _ | .write => size - 1
  | .bop _ => size - 2
  | .pop count | .args count => size - count
  | _ => size

/-- The variable that an instruction names, with its slot, when it has left a stack behind. -/
def namedSlot? (stack : OperandStack) : Instruction Jump → Option (String × Nat)
  | .lit _ (some name) => some (name, stack.topOffset)
  | .load offset (some name) | .store offset (some name) => some (name, offset)
  | _ => none

variable {instruction : Instruction Jump} {before after : State}

/-- The slots below those that an instruction takes are still there when it has succeeded. -/
theorem leaves_le_frameSize (stays : instruction.staysInFrame)
    (executed : instruction.execute.run before = .ok () after) :
    instruction.leaves before.stack.frameSize ≤ after.stack.frameSize := by
  cases instruction with
  | lit number name =>
      obtain ⟨-, rfl⟩ := EStateM.Result.ok.inj executed
      exact OperandStack.frameSize_le_push _ _
  | load offset name =>
      obtain ⟨found, middle, inspected, pushed⟩ := Effect.run_bind_eq_ok.mp executed
      obtain ⟨-, rfl⟩ := Effect.run_inspectStack_eq_ok.mp inspected
      obtain ⟨-, rfl⟩ := EStateM.Result.ok.inj pushed
      exact OperandStack.frameSize_le_push _ _
  | store offset name =>
      obtain ⟨found, middle, popped, stored⟩ := Effect.run_bind_eq_ok.mp executed
      obtain ⟨stack, isStored, rfl⟩ := Effect.run_onStack_eq_ok.mp stored
      have taken := Effect.frameSize_of_pop popped
      have same := OperandStack.frameSize_store isStored
      simp only [leaves]
      omega
  | bop operator =>
      obtain ⟨right, middle, rightPopped, rest⟩ := Effect.run_bind_eq_ok.mp executed
      obtain ⟨left, lower, leftPopped, combined⟩ := Effect.run_bind_eq_ok.mp rest
      have first := Effect.frameSize_of_pop rightPopped
      have second := Effect.frameSize_of_pop leftPopped
      cases evaluated : operator.eval? left right with
      | none => simp [evaluated] at combined
      | some result =>
          simp only [evaluated] at combined
          obtain ⟨-, rfl⟩ := EStateM.Result.ok.inj combined
          have more := lower.stack.frameSize_le_push result
          simp only [leaves]
          omega
  | falseBranch destination =>
      obtain ⟨condition, middle, popped, branched⟩ := Effect.run_bind_eq_ok.mp executed
      have taken := Effect.frameSize_of_pop popped
      have same : after.stack = middle.stack := by
        split at branched
        · obtain ⟨-, rfl⟩ := EStateM.Result.ok.inj branched
          rfl
        · obtain ⟨-, rfl⟩ := EStateM.Result.ok.inj branched
          rfl
      simp only [leaves, same]
      omega
  | pop count =>
      have taken := Effect.frameSize_of_popMany executed
      simp only [leaves]
      omega
  | read =>
      obtain ⟨number, middle, isRead, pushed⟩ := Effect.run_bind_eq_ok.mp executed
      obtain ⟨terminal, rfl⟩ := Effect.run_readInteger_eq_ok isRead
      obtain ⟨-, rfl⟩ := EStateM.Result.ok.inj pushed
      exact OperandStack.frameSize_le_push _ _
  | write =>
      obtain ⟨number, middle, popped, written⟩ := Effect.run_bind_eq_ok.mp executed
      obtain ⟨-, rfl⟩ := EStateM.Result.ok.inj written
      have taken := Effect.frameSize_of_pop popped
      change before.stack.frameSize - 1 ≤ middle.stack.frameSize
      omega
  | dump mode =>
      cases mode with
      | now | on | off =>
          obtain ⟨-, rfl⟩ := EStateM.Result.ok.inj executed
          exact Nat.le_refl _
  | goto destination | halt | label name | line number | function name first last
  | formal name offset =>
      obtain ⟨-, rfl⟩ := EStateM.Result.ok.inj executed
      exact Nat.le_refl _
  | args count | call destination | ret owner => contradiction

/-- A slot that an instruction names is in the frame when the instruction has succeeded. -/
theorem namedSlot?_lt_frameSize {name : String} {offset : Nat}
    (within : before.stack.base ≤ before.stack.values.size)
    (executed : instruction.execute.run before = .ok () after)
    (named : instruction.namedSlot? after.stack = some (name, offset)) :
    offset < after.stack.frameSize := by
  unfold namedSlot? at named
  split at named
  · obtain ⟨-, rfl⟩ := EStateM.Result.ok.inj executed
    obtain ⟨-, rfl⟩ := Prod.mk.inj (Option.some.inj named)
    exact OperandStack.topOffset_push_lt within _
  · obtain ⟨-, rfl⟩ := Prod.mk.inj (Option.some.inj named)
    obtain ⟨found, middle, inspected, pushed⟩ := Effect.run_bind_eq_ok.mp executed
    obtain ⟨loaded, rfl⟩ := Effect.run_inspectStack_eq_ok.mp inspected
    obtain ⟨-, rfl⟩ := EStateM.Result.ok.inj pushed
    exact Nat.lt_of_lt_of_le (OperandStack.lt_frameSize_of_load loaded)
      (OperandStack.frameSize_le_push _ _)
  · obtain ⟨-, rfl⟩ := Prod.mk.inj (Option.some.inj named)
    obtain ⟨found, middle, popped, stored⟩ := Effect.run_bind_eq_ok.mp executed
    obtain ⟨stack, isStored, rfl⟩ := Effect.run_onStack_eq_ok.mp stored
    exact OperandStack.lt_frameSize_of_store isStored
  · contradiction

end Instruction

end StackDebugger
