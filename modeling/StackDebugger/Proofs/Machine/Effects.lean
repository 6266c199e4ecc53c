import StackDebugger.Machine.State
import StackDebugger.Proofs.Machine.Frames

/-!
# Effects that succeed and effects that fail

A sequence of effects succeeds when each of them does, and fails where the
first of them fails.  For every basic effect this module says what state a
success and a failure leave behind, so that the effect of an instruction can be
taken apart step by step.
-/

namespace StackDebugger

namespace Effect

variable {α β : Type}

theorem run_bind_eq_ok {ε σ : Type} {effect : EStateM ε σ α} {next : α → EStateM ε σ β}
    {before after : σ} {value : β} :
    (effect >>= next).run before = .ok value after ↔
      ∃ found middle, effect.run before = .ok found middle ∧
        (next found).run middle = .ok value after := by
  rw [EStateM.run_bind]
  cases effect.run before with
  | ok found middle => simp
  | error fault middle => simp

theorem run_bind_eq_error {ε σ : Type} {effect : EStateM ε σ α} {next : α → EStateM ε σ β}
    {before after : σ} {fault : ε} :
    (effect >>= next).run before = .error fault after ↔
      effect.run before = .error fault after ∨
        ∃ found middle, effect.run before = .ok found middle ∧
          (next found).run middle = .error fault after := by
  rw [EStateM.run_bind]
  cases effect.run before with
  | ok found middle => simp
  | error fault middle => simp

theorem discard_bind {ε σ : Type} (effect : EStateM ε σ α) (next : PUnit → EStateM ε σ β) :
    (discard effect >>= next) = effect >>= fun _ => next () := by
  funext state
  change EStateM.bind (EStateM.map _ effect) next state = EStateM.bind effect _ state
  simp only [EStateM.bind, EStateM.map]
  cases effect state with
  | ok value after => rfl
  | error fault after => rfl

@[simp] theorem run_push (value : Int32) (state : State) :
    (push value).run state = .ok () { state with stack := state.stack.push value } := rfl

@[simp] theorem run_jump (address : Nat) (state : State) :
    (jump address).run state = .ok () { state with pc := address } := rfl

@[simp] theorem run_writeLine (text : String) (state : State) :
    (writeLine text).run state = .ok () (state.writeLine text) := rfl

@[simp] theorem run_showStack (state : State) :
    showStack.run state = .ok () (state.writeLine state.stack.render) := rfl

theorem run_onStack_eq_ok {operation : OperandStack → Except Fault α × OperandStack}
    {before after : State} {value : α} :
    (onStack operation).run before = .ok value after ↔
      ∃ stack, operation before.stack = (.ok value, stack) ∧ after = { before with stack } := by
  simp only [onStack, EStateM.run]
  obtain ⟨result, stack⟩ := operation before.stack
  cases result with
  | error fault => simp
  | ok found => simp [and_assoc, eq_comm]

theorem run_onStack_eq_error {operation : OperandStack → Except Fault α × OperandStack}
    (atomic : OperandStack.Atomic operation) {before after : State} {fault : Fault} :
    (onStack operation).run before = .error fault after ↔
      operation before.stack = (.error fault, before.stack) ∧ after = before := by
  simp only [onStack, EStateM.run]
  cases performed : operation before.stack with
  | mk result stack =>
      cases result with
      | ok found => simp
      | error reason =>
          obtain rfl := atomic before.stack stack reason performed
          simp only [EStateM.Result.error.injEq, Prod.mk.injEq, Except.error.injEq, and_true]
          exact and_congr_right fun _ => eq_comm

theorem run_inspectStack_eq_ok {operation : OperandStack → Except Fault Int32}
    {before after : State} {value : Int32} :
    (inspectStack operation).run before = .ok value after ↔
      operation before.stack = .ok value ∧ after = before := by
  simp only [inspectStack, EStateM.run]
  cases operation before.stack with
  | error fault => simp
  | ok found => simp [eq_comm]

theorem run_inspectStack_eq_error {operation : OperandStack → Except Fault Int32}
    {before after : State} {fault : Fault} :
    (inspectStack operation).run before = .error fault after ↔
      operation before.stack = .error fault ∧ after = before := by
  simp only [inspectStack, EStateM.run]
  cases operation before.stack with
  | error fault => simp [eq_comm]
  | ok found => simp

theorem run_pop_eq_ok {before after : State} {value : Int32}
    (popped : pop.run before = .ok value after) :
    ∃ stack, before.stack.Truncated stack ∧ after = { before with stack } := by
  obtain ⟨stack, taken, rfl⟩ := run_onStack_eq_ok.mp popped
  exact ⟨stack, .pop taken, rfl⟩

theorem run_pop_eq_error {before after : State} {fault : Fault}
    (failed : pop.run before = .error fault after) : after = before :=
  ((run_onStack_eq_error OperandStack.atomic_pop).mp failed).2

theorem run_popMany_eq_ok {count : Nat} {before after : State} {value : Unit}
    (popped : (popMany count).run before = .ok value after) :
    ∃ stack, before.stack.Truncated stack ∧ after = { before with stack } := by
  induction count generalizing before with
  | zero =>
      obtain rfl : before = after := by simpa [popMany] using popped
      exact ⟨before.stack, .refl _, rfl⟩
  | succ count ih =>
      rw [popMany, discard_bind] at popped
      obtain ⟨_, middle, first, rest⟩ := run_bind_eq_ok.mp popped
      obtain ⟨stack, dropped, rfl⟩ := run_pop_eq_ok first
      obtain ⟨lower, droppedMore, rfl⟩ := ih rest
      exact ⟨lower, dropped.trans droppedMore, rfl⟩

theorem run_popMany_eq_error {count : Nat} {before after : State} {fault : Fault}
    (failed : (popMany count).run before = .error fault after) :
    ∃ stack, before.stack.Truncated stack ∧ after = { before with stack } := by
  induction count generalizing before with
  | zero => simp [popMany] at failed
  | succ count ih =>
      rw [popMany, discard_bind] at failed
      rcases run_bind_eq_error.mp failed with unpopped | ⟨_, middle, first, rest⟩
      · obtain rfl := run_pop_eq_error unpopped
        exact ⟨_, .refl _, rfl⟩
      · obtain ⟨stack, dropped, rfl⟩ := run_pop_eq_ok first
        obtain ⟨lower, droppedMore, rfl⟩ := ih rest
        exact ⟨lower, dropped.trans droppedMore, rfl⟩

theorem run_readInteger_eq_ok {before after : State} {value : Int32}
    (isRead : readInteger.run before = .ok value after) :
    ∃ terminal, after = { before with terminal } := by
  simp only [readInteger, EStateM.run] at isRead
  split at isRead
  · obtain ⟨-, rfl⟩ := EStateM.Result.ok.inj isRead
    exact ⟨_, rfl⟩
  · contradiction

theorem run_readInteger_eq_error {before after : State} {fault : Fault}
    (unread : readInteger.run before = .error fault after) :
    ∃ terminal, after = { before with terminal } := by
  simp only [readInteger, EStateM.run] at unread
  split at unread
  · contradiction
  · obtain ⟨-, rfl⟩ := EStateM.Result.error.inj unread
    exact ⟨_, rfl⟩

end Effect

end StackDebugger
