import StackDebugger.Proofs.Debugger.CallStructure
import StackDebugger.Proofs.Program.Annotation

/-!
# Addresses stay in the code

Whatever is done with a loaded program, its next instruction is one of the
program's or the one just behind the last, and every pending call stands at a call
of the program.  `Position.InCode` is the invariant.  An instruction that succeeds
leaves the run at an instruction, so that moving on leads at most one behind the
end: a jump that is taken is at the label it names, and a return is at the call it
returns to.
-/

namespace StackDebugger

theorem Program.lt_size_of_fetch? {program : Program} {index : Nat}
    {instruction : Instruction Jump} (fetched : program.fetch? index = some instruction) :
    index < program.size :=
  (Array.getElem?_eq_some_iff.mp fetched).1

theorem Position.Executes.pc_eq {instruction : Instruction Jump} {start reached : Position}
    (executes : start.Executes instruction reached) (noJump : instruction.destination? = none)
    (notReturn : ∀ owner, instruction ≠ .ret owner) : reached.pc = start.pc := by
  cases executes with
  | stays _ _ | opens _ => rfl
  | jumps isJump _ =>
      rcases isJump with rfl | rfl
      · contradiction
      · contradiction
  | calls => contradiction
  | returns _ _ => exact absurd rfl (notReturn _)

theorem Position.Executes.returns_eq {owner : Option String} {start reached : Position}
    (executes : start.Executes (.ret owner) reached) :
    start.returns = reached.pc :: reached.returns := by
  cases executes with
  | stays isLocal _ => contradiction
  | jumps isJump _ => simp at isJump
  | returns isReturns _ => exact isReturns

namespace Instruction

/-- The jump that an instruction takes: a branch takes its own when zero is on top. -/
def jump? (instruction : Instruction Jump) (stack : OperandStack) : Option Jump :=
  match instruction with
  | .call destination | .goto destination => some destination
  | .falseBranch destination => if stack.peek = .ok 0 then some destination else none
  | _ => none

variable {instruction : Instruction Jump} {before after : State} {value : Unit}

theorem destination?_of_jump? {stack : OperandStack} {destination : Jump}
    (taken : instruction.jump? stack = some destination) :
    instruction.destination? = some destination := by
  cases instruction with
  | call target | goto target => exact taken
  | falseBranch target =>
      by_cases zero : stack.peek = .ok 0
      · simpa [jump?, zero, destination?] using taken
      · simp [jump?, zero] at taken
  | _ => simp [jump?] at taken

theorem pc_of_jump? {destination : Jump}
    (taken : instruction.jump? before.stack = some destination)
    (executed : instruction.execute.run before = .ok value after) :
    after.pc = destination.target := by
  cases instruction with
  | call target | goto target =>
      obtain rfl : target = destination := Option.some.inj taken
      obtain ⟨-, rfl⟩ := EStateM.Result.ok.inj executed
      rfl
  | falseBranch target =>
      by_cases zero : before.stack.peek = .ok 0
      · obtain rfl : target = destination := by simpa [jump?, zero] using taken
        obtain ⟨condition, middle, popped, branched⟩ := Effect.run_bind_eq_ok.mp executed
        obtain ⟨stack, isPopped, rfl⟩ := Effect.run_onStack_eq_ok.mp popped
        obtain rfl : condition = 0 := by
          rw [OperandStack.peek_of_pop isPopped] at zero
          exact Except.ok.inj zero
        obtain ⟨-, rfl⟩ := EStateM.Result.ok.inj branched
        rfl
      · simp [jump?, zero] at taken
  | _ => simp [jump?] at taken

/-- Without a jump that is taken and without a return, the run stays where it is. -/
theorem pc_of_jump?_eq_none (notTaken : instruction.jump? before.stack = none)
    (notReturn : ∀ owner, instruction ≠ .ret owner)
    (executed : instruction.execute.run before = .ok value after) : after.pc = before.pc := by
  have executes := (executes_of_execute_eq_ok executed).1
  cases instruction with
  | call target | goto target => simp [jump?] at notTaken
  | falseBranch target =>
      obtain ⟨condition, middle, popped, branched⟩ := Effect.run_bind_eq_ok.mp executed
      obtain ⟨stack, isPopped, rfl⟩ := Effect.run_onStack_eq_ok.mp popped
      have nonzero : condition ≠ 0 := by
        rintro rfl
        simp [jump?, OperandStack.peek_of_pop isPopped] at notTaken
      rw [if_neg nonzero] at branched
      obtain ⟨-, rfl⟩ := EStateM.Result.ok.inj branched
      rfl
  | _ => exact executes.pc_eq rfl notReturn

/-- An instruction of the debugger moves the run as its effect on the machine does. -/
theorem exists_execute_of_observe {debugger observed : Debugger}
    (isObserved : instruction.observe.run debugger = .ok value observed) :
    ∃ terminal executed,
      instruction.execute.run { debugger.state with terminal } = .ok () executed ∧
        observed.state.position = executed.position := by
  rw [run_observe] at isObserved
  cases isAnnounced : instruction.announceExit debugger with
  | error fault => simp [isAnnounced] at isObserved
  | ok announced =>
      obtain ⟨terminal, rfl⟩ := eq_of_announceExit isAnnounced
      simp only [isAnnounced, Debugger.state_withState, Debugger.withState_withState] at isObserved
      cases isExecuted : instruction.execute.run { debugger.state with terminal } with
      | error fault failed => simp [isExecuted] at isObserved
      | ok done executed =>
          obtain ⟨written, isWritten⟩ := instruction.exists_announceEntry_eq
            (instruction.note (debugger.withState executed))
          simp only [isExecuted, isWritten] at isObserved
          obtain ⟨-, rfl⟩ := EStateM.Result.ok.inj isObserved
          refine ⟨terminal, executed, isExecuted, ?_⟩
          exact instruction.position_interrupt debugger.breakpoints executed

end Instruction

namespace Position

/-- The next instruction is in the program or just behind it, and every pending call
is a call of the program. -/
structure InCode (program : Program) (position : Position) : Prop where
  pc_le : position.pc ≤ program.size
  pending : ∀ address ∈ position.returns, address < program.size ∧ program.CallAt address

variable {program : Program} {position next : Position}

/-- Where an instruction leads before the run moves on, there is an instruction. -/
theorem InCode.reached_lt {instruction : Instruction Jump} (inCode : InCode program position)
    (isResolved : program.IsResolved)
    (fetched : program.fetch? position.pc = some instruction)
    (executes : position.Executes instruction next) : next.pc < program.size := by
  cases executes with
  | stays _ _ | opens _ => exact Program.lt_size_of_fetch? fetched
  | @jumps _ destination _ _ isJump _ =>
      have named : instruction.destination? = some destination := by
        rcases isJump with rfl | rfl <;> rfl
      exact Program.lt_size_of_fetch? (isResolved.fetch?_target fetched named)
  | calls => exact Program.lt_size_of_fetch? (isResolved.fetch?_target fetched rfl)
  | returns isReturns _ =>
      apply (inCode.pending _ _).1
      simp [isReturns]

theorem InCode.advances (isResolved : program.IsResolved) (inCode : InCode program position)
    (advances : position.Advances program next) : InCode program next := by
  obtain ⟨instruction, reached, fetched, executes, rfl⟩ := advances
  constructor
  · exact inCode.reached_lt isResolved fetched executes
  · intro address member
    have callAt := executes.pending fetched (fun _ held => (inCode.pending _ held).2) address member
    obtain ⟨destination, isCall⟩ := callAt
    exact ⟨Program.lt_size_of_fetch? isCall, destination, isCall⟩

theorem InCode.initial (program : Program) : InCode program initial :=
  ⟨Nat.zero_le _, by simp [Position.initial]⟩

end Position

theorem Machine.Reachable.inCode {program : Program} {machine : Machine}
    (isResolved : program.IsResolved) (reachable : Machine.Reachable program machine) :
    machine.state.position.InCode program := by
  apply reachable.position_induction
  · exact .initial program
  · intro start finish before advanced
    exact before.advances isResolved advanced
  · intro start stack before _
    exact ⟨before.pc_le, before.pending⟩

theorem Debugger.Reachable.inCode {program : Program} {debugger : Debugger}
    (isResolved : program.IsResolved) (reachable : Debugger.Reachable program debugger) :
    debugger.state.position.InCode program := by
  let invariant (standing : Standing) : Prop := standing.position.InCode program
  suffices holds : invariant debugger.standing from holds
  apply reachable.standing_induction
  · exact Position.InCode.initial program
  · intro start finish before moved
    cases moved with
    | rests => exact before
    | carriesOut fetched executes =>
        exact Position.InCode.advances isResolved before ⟨_, _, fetched, executes, rfl⟩
  · intro start stack before _
    exact ⟨before.pc_le, before.pending⟩

/-- Operations on a machine lead from reachable machines to reachable ones. -/
theorem Machine.Reachable.proceed {program : Program} {machine final : Machine} {fuel : Nat}
    {result : Except Fault Unit} (reachable : Machine.Reachable program machine)
    (ended : machine.proceed fuel = some (result, final)) : Machine.Reachable program final := by
  induction fuel generalizing machine with
  | zero => simp [Machine.proceed] at ended
  | succ fuel ih =>
      rw [Machine.proceed] at ended
      split at ended
      · have stepped := reachable.step
        split at ended
        · next next isStep =>
            rw [isStep] at stepped
            exact ih stepped ended
        · next fault failed isStep =>
            rw [isStep] at stepped
            obtain ⟨-, rfl⟩ := Prod.mk.inj (Option.some.inj ended)
            exact stepped.halt
      · obtain ⟨-, rfl⟩ := Prod.mk.inj (Option.some.inj ended)
        exact reachable

/-- Where an instruction of a program has led, before the run moves on. -/
structure Program.Leads (program : Program) (instruction : Instruction Jump)
    (start reached : Position) : Prop where
  inside : reached.pc < program.size
  jumps : ∀ destination, instruction.jump? start.stack = some destination →
    reached.pc = destination.target ∧
      program.fetch? reached.pc = some (.label destination.label)
  returns : ∀ owner, instruction = .ret owner →
    start.returns = reached.pc :: reached.returns ∧ program.CallAt reached.pc
  otherwise : instruction.jump? start.stack = none → (∀ owner, instruction ≠ .ret owner) →
    reached.pc = start.pc

theorem Position.InCode.leads {program : Program} {instruction : Instruction Jump}
    {before after : State} {value : Unit} (inCode : before.position.InCode program)
    (isResolved : program.IsResolved) (fetched : program.fetch? before.pc = some instruction)
    (executed : instruction.execute.run before = .ok value after) :
    program.Leads instruction before.position after.position := by
  have executes := (Instruction.executes_of_execute_eq_ok executed).1
  refine ⟨inCode.reached_lt isResolved fetched executes, ?_, ?_, ?_⟩
  · intro destination taken
    have isTarget : after.position.pc = destination.target :=
      Instruction.pc_of_jump? taken executed
    rw [isTarget]
    exact ⟨rfl, isResolved.fetch?_target fetched (Instruction.destination?_of_jump? taken)⟩
  · rintro owner rfl
    have isReturns := executes.returns_eq
    refine ⟨isReturns, (inCode.pending _ ?_).2⟩
    rw [isReturns]
    exact List.mem_cons_self
  · intro notTaken notReturn
    exact Instruction.pc_of_jump?_eq_none notTaken notReturn executed

/-- Addresses stay in the code.  Wherever a machine or a debugger of a loaded program
can stand, the next instruction is in the program or just behind its end, and the
pending calls are calls of the program; and an instruction that succeeds leads to an
instruction of the program, which is the label it names if it takes a jump. -/
theorem Program.addresses_in_code {set : InstructionSet} {text : String}
    {loaded : LoadedProgram} (isLoaded : Program.load set text = .ok loaded) :
    (∀ machine, Machine.Reachable loaded.program machine →
      machine.state.position.InCode loaded.program ∧
      ∀ instruction after, loaded.program.fetch? machine.state.pc = some instruction →
        instruction.execute.run machine.state = .ok () after →
        loaded.program.Leads instruction machine.state.position after.position) ∧
    (∀ debugger, Debugger.Reachable loaded.program debugger →
      debugger.state.position.InCode loaded.program ∧
      ∀ instruction after, loaded.program.fetch? debugger.state.pc = some instruction →
        instruction.observe.run debugger = .ok () after →
        loaded.program.Leads instruction debugger.state.position after.state.position) := by
  have isResolved := Program.isResolved_of_load isLoaded
  constructor
  · intro machine reachable
    have inCode := reachable.inCode isResolved
    exact ⟨inCode, fun instruction after fetched => inCode.leads isResolved fetched⟩
  · intro debugger reachable
    have inCode := reachable.inCode isResolved
    refine ⟨inCode, ?_⟩
    intro instruction after fetched observed
    obtain ⟨terminal, executed, isExecuted, samePosition⟩ :=
      Instruction.exists_execute_of_observe observed
    rw [samePosition]
    let used : State := { debugger.state with terminal }
    have usedInCode : used.position.InCode loaded.program := inCode
    exact usedInCode.leads isResolved fetched isExecuted

/-- A program whose last jump leads to a label at its very end runs off that end and is
stepped once more. -/
theorem Program.addresses_in_code_pastEnd :
    let program : Program :=
      { code := #[.goto ⟨"main", 4⟩, .label "f", .lit 0 none, .ret none, .label "main", .args 0,
          .call ⟨"f", 1⟩, .falseBranch ⟨"end", 9⟩, .halt, .label "end"]
        labels := [("f", 1), ("main", 4), ("end", 9)] }
    Program.load .base ("GOTO main\nLABEL f\nLIT 0\nRETURN\nLABEL main\nARGS 0\nCALL f\n" ++
      "FALSEBRANCH end\nHALT\nLABEL end\n") = .ok { program, skipped := [] } ∧
    program.fetch? 4 = some (.label "main") ∧
    ∃ final, (Machine.create program {}).run 12 = some (.ok (), final) ∧
      final.step.2.state.pc = 10 ∧ final.step.2.state.position.InCode program := by
  intro program
  have isLoaded : Program.load .base
      ("GOTO main\nLABEL f\nLIT 0\nRETURN\nLABEL main\nARGS 0\nCALL f\n" ++
        "FALSEBRANCH end\nHALT\nLABEL end\n") = .ok { program, skipped := [] } := rfl
  obtain ⟨machines, -⟩ := Program.addresses_in_code isLoaded
  have created : Machine.Reachable program (Machine.create program {}) := .create {}
  have leads := (machines _ created).2 (.goto ⟨"main", 4⟩) _ rfl rfl
  obtain ⟨final, ended, atEnd⟩ : ∃ final,
      (Machine.create program {}).run 12 = some (.ok (), final) ∧
        final.step.2.state.pc = 10 := ⟨_, rfl, rfl⟩
  have reached := created.reset.start.proceed ended
  exact ⟨isLoaded, (leads.jumps ⟨"main", 4⟩ rfl).2, final, ended, atEnd,
    (machines _ reached.step).1⟩

end StackDebugger
