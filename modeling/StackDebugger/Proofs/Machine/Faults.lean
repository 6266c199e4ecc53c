import StackDebugger.Proofs.Machine.Execution

/-!
# Where a frame cannot be closed

Every fault comes from an operation of its own.  `Effect.Spares` says that an
effect never raises a given fault; it is kept by putting effects together.  The
fault of closing the outermost frame is spared by every instruction but a return
with a single frame and a pending call.
-/

namespace StackDebugger

namespace Effect

variable {α β : Type} {fault : Fault}

/-- The effect never raises the fault. -/
def Spares (fault : Fault) (effect : Effect α) : Prop :=
  ∀ before after : State, effect.run before ≠ .error fault after

theorem spares_pure (value : α) : Spares fault (pure value) := by
  intro before after failed
  simp at failed

theorem spares_modify (change : State → State) : Spares fault (modify change) := by
  intro before after failed
  simp at failed

theorem spares_throw {raised : Fault} (other : raised ≠ fault) :
    Spares fault (throw raised : Effect α) := by
  intro before after failed
  exact other (EStateM.Result.error.inj failed).1

theorem spares_bind {effect : Effect α} {next : α → Effect β} (first : Spares fault effect)
    (later : ∀ value, Spares fault (next value)) : Spares fault (effect >>= next) := by
  intro before after failed
  rcases run_bind_eq_error.mp failed with failedFirst | ⟨value, middle, -, failedLater⟩
  · exact first before after failedFirst
  · exact later value middle after failedLater

theorem spares_onStack {operation : OperandStack → Except Fault α × OperandStack}
    (spared : ∀ stack, (operation stack).1 ≠ .error fault) : Spares fault (onStack operation) := by
  intro before after failed
  have sparedHere := spared before.stack
  simp only [onStack, EStateM.run] at failed
  split at failed
  · contradiction
  · next raised stack performed =>
      obtain ⟨rfl, -⟩ := EStateM.Result.error.inj failed
      rw [performed] at sparedHere
      exact sparedHere rfl

theorem spares_inspectStack {operation : OperandStack → Except Fault Int32}
    (spared : ∀ stack, operation stack ≠ .error fault) :
    Spares fault (inspectStack operation) := by
  intro before after failed
  exact spared _ (run_inspectStack_eq_error.mp failed).1

end Effect

theorem OperandStack.pop_ne_outermostFrame (stack : OperandStack) :
    stack.pop.1 ≠ .error .outermostFrame := by
  unfold pop
  split <;> simp

theorem OperandStack.peek_ne_outermostFrame (stack : OperandStack) :
    stack.peek ≠ .error .outermostFrame := by
  unfold peek
  split <;> simp

theorem OperandStack.callers_of_closeFrame {stack : OperandStack}
    (failed : stack.closeFrame.1 = .error .outermostFrame) : stack.callers = [] := by
  unfold closeFrame at failed
  split at failed
  · next outermost => exact outermost
  · split at failed
    · next fault popped unpopped =>
        obtain rfl := Except.error.inj failed
        exact absurd (congrArg Prod.fst unpopped) stack.pop_ne_outermostFrame
    · contradiction

theorem Terminal.readIntegerFrom_ne_outermostFrame (terminal : Terminal)
    (lines : List Text.RawLine) :
    (terminal.readIntegerFrom lines).1 ≠ .error .outermostFrame := by
  induction lines generalizing terminal with
  | nil => simp [readIntegerFrom]
  | cons line lines ih =>
      rw [readIntegerFrom]
      split
      · simp
      · split
        · simp
        · exact ih _

namespace Effect

theorem pop_spares_outermostFrame : Spares .outermostFrame pop :=
  spares_onStack OperandStack.pop_ne_outermostFrame

theorem popMany_spares_outermostFrame (count : Nat) : Spares .outermostFrame (popMany count) := by
  induction count with
  | zero => exact spares_pure ()
  | succ count ih =>
      simp only [popMany, discard_bind]
      exact spares_bind pop_spares_outermostFrame fun _ => ih

theorem readInteger_spares_outermostFrame : Spares .outermostFrame readInteger := by
  intro before after failed
  have read := before.terminal.readIntegerFrom_ne_outermostFrame before.terminal.input
  simp only [readInteger, EStateM.run] at failed
  split at failed
  · contradiction
  · next fault terminal isRead =>
      obtain ⟨rfl, -⟩ := EStateM.Result.error.inj failed
      exact read (congrArg Prod.fst isRead)

end Effect

theorem Instruction.spares_outermostFrame {instruction : Instruction Jump}
    (notReturn : ∀ owner, instruction ≠ .ret owner) :
    Effect.Spares .outermostFrame instruction.execute := by
  cases instruction with
  | ret owner => exact absurd rfl (notReturn owner)
  | load offset name =>
      refine Effect.spares_bind (Effect.spares_inspectStack ?_) fun _ => Effect.spares_modify _
      intro stack
      unfold OperandStack.load
      split <;> simp
  | store offset name =>
      refine Effect.spares_bind Effect.pop_spares_outermostFrame fun value =>
        Effect.spares_onStack ?_
      intro stack
      unfold OperandStack.store
      split <;> simp
  | args count =>
      have spared : ∀ stack : OperandStack, (stack.openFrame count).1 ≠ .error .outermostFrame := by
        intro stack
        unfold OperandStack.openFrame
        split <;> simp
      exact Effect.spares_onStack spared
  | bop operator =>
      refine Effect.spares_bind Effect.pop_spares_outermostFrame fun right =>
        Effect.spares_bind Effect.pop_spares_outermostFrame fun left => ?_
      cases operator.eval? left right with
      | some value => exact Effect.spares_modify _
      | none => exact Effect.spares_throw (by simp)
  | falseBranch destination =>
      refine Effect.spares_bind Effect.pop_spares_outermostFrame fun condition => ?_
      split
      · exact Effect.spares_modify _
      · exact Effect.spares_pure ()
  | pop count => exact Effect.popMany_spares_outermostFrame count
  | read =>
      exact Effect.spares_bind Effect.readInteger_spares_outermostFrame fun _ =>
        Effect.spares_modify _
  | write =>
      exact Effect.spares_bind Effect.pop_spares_outermostFrame fun _ => Effect.spares_modify _
  | dump mode =>
      cases mode with
      | now =>
          intro before after failed
          simp [execute] at failed
      | on | off => exact Effect.spares_modify _
  | lit value name => exact Effect.spares_modify _
  | call destination => exact Effect.spares_modify _
  | goto destination => exact Effect.spares_modify _
  | halt => exact Effect.spares_modify _
  | label name | line number | function name first last | formal name offset =>
      exact Effect.spares_pure ()

/-- The outermost frame is only ever closed by a return from a pending call. -/
theorem Instruction.ret_of_outermostFrame {instruction : Instruction Jump} {before after : State}
    (failed : instruction.execute.run before = .error .outermostFrame after) :
    (∃ owner, instruction = .ret owner) ∧ before.returns ≠ [] ∧ before.stack.callers = [] := by
  by_cases isReturn : ∃ owner, instruction = .ret owner
  · refine ⟨isReturn, ?_⟩
    obtain ⟨owner, rfl⟩ := isReturn
    cases isReturns : before.returns with
    | nil => simp [run_execute_ret_of_nil isReturns] at failed
    | cons address outer =>
        refine ⟨by simp, ?_⟩
        rw [run_execute_ret_of_cons isReturns] at failed
        rcases Effect.run_bind_eq_error.mp failed with unclosed | ⟨_, _, -, moved⟩
        · obtain ⟨unclosed, -⟩ :=
            (Effect.run_onStack_eq_error OperandStack.atomic_closeFrame).mp unclosed
          exact OperandStack.callers_of_closeFrame (congrArg Prod.fst unclosed)
        · simp at moved
  · have notReturn : ∀ owner, instruction ≠ .ret owner := fun owner same => isReturn ⟨owner, same⟩
    exact absurd failed (spares_outermostFrame notReturn before after)

end StackDebugger
