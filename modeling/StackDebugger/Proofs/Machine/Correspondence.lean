import StackDebugger.Proofs.Machine.Execution
import StackDebugger.Proofs.Program.Resolution

/-!
# Runs that differ in addresses only

Two states correspond under a renaming of addresses when one has the renamed
program counter and return addresses of the other, and everything else that an
instruction can see is the same.  Whether a run goes on is not compared: no
instruction asks for it.

Corresponding states stay so when each carries out its own copy of an
instruction, and the two either both succeed or both fail with the same fault.
Terminals are compared by any relation that a program cannot tell from equality.
-/

namespace StackDebugger

namespace Instruction

@[simp] theorem isDump_relocate (rename : Nat → Nat) (instruction : Instruction Jump) :
    (instruction.relocate rename).isDump = instruction.isDump := by
  cases instruction <;> rfl

end Instruction

/-- A relation between terminals that no program can tell from equality: the same
is read from both, and what is written goes to both. -/
structure Terminal.Indistinguishable (alike : Terminal → Terminal → Prop) : Prop where
  write : ∀ {left right : Terminal} (text : String), alike left right →
    alike (left.write text) (right.write text)
  read_fst : ∀ {left right : Terminal}, alike left right →
    left.readInteger.1 = right.readInteger.1
  read_snd : ∀ {left right : Terminal}, alike left right →
    alike left.readInteger.2 right.readInteger.2

theorem Terminal.Indistinguishable.eq : Terminal.Indistinguishable Eq :=
  ⟨fun text same => by rw [same], fun same => by rw [same], fun same => by rw [same]⟩

/-- The second state is the first one at renamed addresses. -/
structure State.Corresponds (rename : Nat → Nat) (alike : Terminal → Terminal → Prop)
    (state image : State) : Prop where
  pc : image.pc = rename state.pc
  returns : image.returns = state.returns.map rename
  stack : image.stack = state.stack
  dumping : image.dumping = state.dumping
  terminal : alike state.terminal image.terminal

namespace Effect

variable {α β : Type} {relation : State → State → Prop}

/-- Both ended in the same way, in related states. -/
inductive Alike (relation : State → State → Prop) :
    EStateM.Result Fault State α → EStateM.Result Fault State α → Prop where
  | ok {value : α} {left right : State} :
      relation left right → Alike relation (.ok value left) (.ok value right)
  | error {fault : Fault} {left right : State} :
      relation left right → Alike relation (.error fault left) (.error fault right)

/-- Two effects end in the same way whenever they start in related states. -/
def Simulates (relation : State → State → Prop) (left right : Effect α) : Prop :=
  ∀ {before image : State}, relation before image →
    Alike relation (left.run before) (right.run image)

theorem simulates_pure (value : α) :
    Simulates relation (pure value) (pure value) :=
  fun related => .ok related

theorem simulates_throw (fault : Fault) :
    Simulates relation (throw fault : Effect Unit) (throw fault) :=
  fun related => .error related

theorem simulates_modify {left right : State → State}
    (changed : ∀ {before image : State}, relation before image →
      relation (left before) (right image)) :
    Simulates relation (modify left) (modify right) :=
  fun related => .ok (changed related)

theorem simulates_bind {left right : Effect α} {leftNext rightNext : α → Effect β}
    (first : Simulates relation left right)
    (next : ∀ value, Simulates relation (leftNext value) (rightNext value)) :
    Simulates relation (left >>= leftNext) (right >>= rightNext) := by
  intro before image related
  have results := first related
  rw [EStateM.run_bind, EStateM.run_bind]
  generalize left.run before = leftResult at results ⊢
  generalize right.run image = rightResult at results ⊢
  cases results with
  | ok middle => exact next _ middle
  | error failed => exact .error failed

end Effect

section Corresponds

variable {rename : Nat → Nat} {alike : Terminal → Terminal → Prop}

namespace State.Corresponds

variable {state image : State}

theorem withStack (corresponds : Corresponds rename alike state image) (stack : OperandStack) :
    Corresponds rename alike { state with stack } { image with stack } :=
  { corresponds with stack := rfl }

theorem writeLine (indistinguishable : Terminal.Indistinguishable alike)
    (corresponds : Corresponds rename alike state image) (text : String) :
    Corresponds rename alike (state.writeLine text) (image.writeLine text) :=
  { corresponds with terminal := indistinguishable.write _ corresponds.terminal }

theorem shown (indistinguishable : Terminal.Indistinguishable alike)
    (instruction : Instruction Jump) (corresponds : Corresponds rename alike state image) :
    Corresponds rename alike (instruction.shown state)
      ((instruction.relocate rename).shown image) := by
  simp only [Instruction.shown, Instruction.symbolic_relocate, Instruction.isDump_relocate,
    corresponds.dumping, corresponds.stack]
  split
  · exact (corresponds.writeLine indistinguishable _).writeLine indistinguishable _
  · exact corresponds

end State.Corresponds

namespace Effect

theorem simulates_push (value : Int32) :
    Simulates (State.Corresponds rename alike) (push value) (push value) := by
  apply simulates_modify
  intro before image corresponds
  rw [corresponds.stack]
  exact corresponds.withStack _

theorem simulates_onStack {α : Type}
    (operation : OperandStack → Except Fault α × OperandStack) :
    Simulates (State.Corresponds rename alike) (onStack operation) (onStack operation) := by
  intro before image corresponds
  simp only [onStack, EStateM.run, corresponds.stack]
  split
  · exact .ok (corresponds.withStack _)
  · exact .error (corresponds.withStack _)

theorem simulates_inspectStack (operation : OperandStack → Except Fault Int32) :
    Simulates (State.Corresponds rename alike) (inspectStack operation)
      (inspectStack operation) := by
  intro before image corresponds
  simp only [inspectStack, EStateM.run, corresponds.stack]
  split
  · exact .ok corresponds
  · exact .error corresponds

theorem simulates_pop : Simulates (State.Corresponds rename alike) pop pop :=
  simulates_onStack _

theorem simulates_popMany (count : Nat) :
    Simulates (State.Corresponds rename alike) (popMany count) (popMany count) := by
  induction count with
  | zero => exact simulates_pure ()
  | succ count ih =>
      simp only [popMany, discard_bind]
      exact simulates_bind simulates_pop fun _ => ih

theorem simulates_readInteger (indistinguishable : Terminal.Indistinguishable alike) :
    Simulates (State.Corresponds rename alike) readInteger readInteger := by
  intro before image corresponds
  have sameRead := indistinguishable.read_fst corresponds.terminal
  have terminals := indistinguishable.read_snd corresponds.terminal
  simp only [readInteger, EStateM.run]
  generalize before.terminal.readInteger = left at sameRead terminals ⊢
  generalize image.terminal.readInteger = right at sameRead terminals ⊢
  obtain ⟨result, terminal⟩ := left
  obtain ⟨_, imageTerminal⟩ := right
  obtain rfl : result = _ := sameRead
  cases result with
  | ok value => exact .ok { corresponds with terminal := terminals }
  | error fault => exact .error { corresponds with terminal := terminals }

theorem simulates_writeLine (indistinguishable : Terminal.Indistinguishable alike)
    (text : String) :
    Simulates (State.Corresponds rename alike) (writeLine text) (writeLine text) :=
  simulates_modify fun corresponds => corresponds.writeLine indistinguishable text

theorem simulates_showStack (indistinguishable : Terminal.Indistinguishable alike) :
    Simulates (State.Corresponds rename alike) showStack showStack := by
  intro before image corresponds
  rw [run_showStack, run_showStack, corresponds.stack]
  exact .ok (corresponds.writeLine indistinguishable _)

theorem simulates_jump (address : Nat) :
    Simulates (State.Corresponds rename alike) (jump address) (jump (rename address)) :=
  simulates_modify fun corresponds => { corresponds with pc := rfl }

end Effect

/-- An instruction and its copy at renamed addresses end in the same way. -/
theorem Instruction.simulates_execute (indistinguishable : Terminal.Indistinguishable alike)
    (instruction : Instruction Jump) :
    Effect.Simulates (State.Corresponds rename alike) instruction.execute
      (instruction.relocate rename).execute := by
  cases instruction with
  | lit value name => exact Effect.simulates_push value
  | load offset name =>
      exact Effect.simulates_bind (Effect.simulates_inspectStack _) Effect.simulates_push
  | store offset name =>
      exact Effect.simulates_bind Effect.simulates_pop fun _ => Effect.simulates_onStack _
  | args count => exact Effect.simulates_onStack (·.openFrame count)
  | bop operator =>
      apply Effect.simulates_bind Effect.simulates_pop
      intro right
      apply Effect.simulates_bind Effect.simulates_pop
      intro left
      cases operator.eval? left right with
      | some value => exact Effect.simulates_push value
      | none => exact Effect.simulates_throw _
  | call destination =>
      apply Effect.simulates_modify
      intro before image corresponds
      refine { corresponds with pc := rfl, returns := ?_ }
      simp [corresponds.pc, corresponds.returns]
  | ret owner =>
      intro before image corresponds
      have renamed := corresponds.returns
      cases isReturns : before.returns with
      | nil =>
          rw [isReturns, List.map_nil] at renamed
          change Effect.Alike _ _ ((ret owner).execute.run image)
          rw [run_execute_ret_of_nil isReturns, run_execute_ret_of_nil renamed]
          exact .error corresponds
      | cons address outer =>
          rw [isReturns, List.map_cons] at renamed
          change Effect.Alike _ _ ((ret owner).execute.run image)
          rw [run_execute_ret_of_cons isReturns, run_execute_ret_of_cons renamed]
          refine Effect.simulates_bind (Effect.simulates_onStack _) (fun _ => ?_) corresponds
          exact Effect.simulates_modify fun corresponds =>
            { corresponds with pc := rfl, returns := rfl }
  | goto destination => exact Effect.simulates_jump _
  | falseBranch destination =>
      apply Effect.simulates_bind Effect.simulates_pop
      intro condition
      split
      · exact Effect.simulates_jump _
      · exact Effect.simulates_pure ()
  | label name => exact Effect.simulates_pure ()
  | halt => exact Effect.simulates_modify fun corresponds => { corresponds with }
  | pop count => exact Effect.simulates_popMany count
  | read =>
      exact Effect.simulates_bind (Effect.simulates_readInteger indistinguishable)
        Effect.simulates_push
  | write =>
      exact Effect.simulates_bind Effect.simulates_pop fun _ =>
        Effect.simulates_writeLine indistinguishable _
  | dump mode =>
      cases mode with
      | now => exact Effect.simulates_showStack indistinguishable
      | on => exact Effect.simulates_modify fun corresponds => { corresponds with dumping := rfl }
      | off => exact Effect.simulates_modify fun corresponds => { corresponds with dumping := rfl }
  | line number => exact Effect.simulates_pure ()
  | function name first last => exact Effect.simulates_pure ()
  | formal name offset => exact Effect.simulates_pure ()

/-- States of one program that correspond without renaming step in the same way. -/
theorem State.simulates_step (indistinguishable : Terminal.Indistinguishable alike)
    (program : Program) :
    Effect.Simulates (State.Corresponds id alike) (State.step program) (State.step program) := by
  intro before image corresponds
  have samePc : image.pc = before.pc := corresponds.pc
  cases fetched : program.fetch? before.pc with
  | none =>
      rw [State.run_step_of_none fetched, State.run_step_of_none (samePc ▸ fetched)]
      exact .ok { corresponds with }
  | some instruction =>
      have results := instruction.simulates_execute indistinguishable corresponds
      rw [instruction.relocate_id] at results
      rw [State.run_step_of_some fetched, State.run_step_of_some (samePc ▸ fetched)]
      generalize instruction.execute.run before = left at results ⊢
      generalize instruction.execute.run image = right at results ⊢
      cases results with
      | error failed => exact .error failed
      | ok executed =>
          have shown := executed.shown indistinguishable instruction
          rw [instruction.relocate_id] at shown
          refine .ok { shown with pc := ?_ }
          change _ + 1 = id (_ + 1)
          rw [shown.pc]
          rfl

end Corresponds

end StackDebugger
