import StackDebugger.Proofs.Debugger.CallStructure
import StackDebugger.Proofs.Machine.Correspondence

/-!
# Tracing only observes

A traced session and the same session without tracing do the same: they stop and fail
at the same places and leave the same behind, except for the lines about calls and
returns in the output.  The two are compared instruction by instruction.  They part
only at a return from an empty frame, which fails in both: the traced run finds no
value to write about before any other check is made.
-/

namespace StackDebugger

namespace Program

/-- A name under which calls are traced: that of a function, or the one for none. -/
def IsCallee (program : Program) (name : String) : Prop :=
  name = Activation.nativeName ∨
    ∃ index first last, program.fetch? index = some (.function name first last)

/-- What is written about the call of a function or about a return from one. -/
inductive IsTraceLine (program : Program) : String → Prop where
  | entry (depth : Nat) {name : String} (arguments : List Int32) :
      program.IsCallee name →
      IsTraceLine program (String.ofList (List.replicate depth '-') ++ name ++ "(" ++
        OperandStack.renderValues arguments ++ ")")
  | exit (depth : Nat) {name : String} (value : Int32) :
      program.IsCallee name →
      IsTraceLine program (String.ofList (List.replicate depth '-') ++ "exit: " ++ name ++ ": " ++
        Decimal.ofInt32 value)

/-- The first text is the second one with trace lines put in. -/
inductive WithTrace (program : Program) : String → String → Prop where
  | refl (text : String) : WithTrace program text text
  | write {traced plain : String} (text : String) :
      WithTrace program traced plain → WithTrace program (traced ++ text) (plain ++ text)
  | trace {traced plain line : String} :
      program.IsTraceLine line → WithTrace program traced plain →
      WithTrace program (traced ++ (line ++ "\n")) plain

end Program

namespace Terminal

variable {program : Program} {traced plain : Terminal}

/-- The same is left to read, and the first has trace lines in its output. -/
structure Traces (program : Program) (traced plain : Terminal) : Prop where
  input : traced.input = plain.input
  output : program.WithTrace traced.output plain.output

theorem Traces.refl (program : Program) (terminal : Terminal) : Traces program terminal terminal :=
  ⟨rfl, .refl _⟩

theorem Traces.write (traces : Traces program traced plain) (text : String) :
    Traces program (traced.write text) (plain.write text) := by
  refine ⟨traces.input, ?_⟩
  rw [output_write, output_write]
  exact traces.output.write text

theorem Traces.trace {line : String} (traces : Traces program traced plain)
    (isTraceLine : program.IsTraceLine line) : Traces program (traced.writeLine line) plain := by
  refine ⟨traces.input, ?_⟩
  rw [writeLine, output_write]
  exact .trace isTraceLine traces.output

theorem Traces.prompted (traces : Traces program traced plain) (input : List Text.RawLine) :
    Traces program { traced.write readPrompt with input }
      { plain.write readPrompt with input } :=
  ⟨rfl, (traces.write readPrompt).output⟩

theorem Traces.readIntegerFrom (traces : Traces program traced plain)
    (lines : List Text.RawLine) :
    (traced.readIntegerFrom lines).1 = (plain.readIntegerFrom lines).1 ∧
      Traces program (traced.readIntegerFrom lines).2 (plain.readIntegerFrom lines).2 := by
  induction lines generalizing traced plain with
  | nil => exact ⟨rfl, traces.prompted []⟩
  | cons line rest ih =>
      rw [Terminal.readIntegerFrom, Terminal.readIntegerFrom]
      cases Utf8.decode? line with
      | none => exact ⟨rfl, traces.prompted rest⟩
      | some text =>
          simp only
          cases Decimal.int32? (Text.trim text) with
          | some value => exact ⟨rfl, traces.prompted rest⟩
          | none => exact ih ((traces.prompted rest).write (complaint (Text.trim text)))

/-- A program cannot tell whether it is traced. -/
theorem Indistinguishable.traces (program : Program) : Indistinguishable (Traces program) := by
  refine ⟨fun text traces => traces.write text, ?_, ?_⟩
  · intro traced plain traces
    rw [readInteger, readInteger, traces.input]
    exact (traces.readIntegerFrom plain.input).1
  · intro traced plain traces
    rw [readInteger, readInteger, traces.input]
    exact (traces.readIntegerFrom plain.input).2

end Terminal

namespace State

/-- The first state is the second one, with trace lines in the output. -/
inductive Traces (program : Program) : State → State → Prop where
  | intro {plain : State} {terminal : Terminal} :
      terminal.Traces program plain.terminal → Traces program { plain with terminal } plain

variable {program : Program} {traced plain : State}

theorem Traces.corresponds (traces : Traces program traced plain) :
    Corresponds id (Terminal.Traces program) traced plain := by
  obtain ⟨terminals⟩ := traces
  exact ⟨rfl, (List.map_id _).symm, rfl, rfl, terminals⟩

theorem Corresponds.traces
    (corresponds : Corresponds id (Terminal.Traces program) traced plain)
    (switches : traced.switches = plain.switches) : Traces program traced plain := by
  have same : traced = { plain with terminal := traced.terminal } := by
    have running : traced.running = plain.running := congrArg Switches.running switches
    have halted : traced.halted = plain.halted := congrArg Switches.halted switches
    have returns := corresponds.returns
    rw [List.map_id] at returns
    obtain ⟨pc, stack, _, _, _, dumping, terminal⟩ := traced
    simp_all [corresponds.pc, corresponds.stack, corresponds.dumping]
  rw [same]
  exact .intro corresponds.terminal

/-- Instructions do the same in a traced run, except for the output. -/
theorem Traces.execute (traces : Traces program traced plain)
    (instruction : Instruction Jump) :
    Effect.Alike (Traces program) (instruction.execute.run traced)
      (instruction.execute.run plain) := by
  have results := instruction.simulates_execute (.traces program) traces.corresponds
  rw [instruction.relocate_id] at results
  have switches : traced.switches = plain.switches := by
    obtain ⟨-⟩ := traces
    rfl
  generalize isTraced : instruction.execute.run traced = left at results ⊢
  generalize isPlain : instruction.execute.run plain = right at results ⊢
  cases results with
  | ok corresponds =>
      refine .ok (corresponds.traces ?_)
      rw [(Instruction.executes_of_execute_eq_ok isTraced).2,
        (Instruction.executes_of_execute_eq_ok isPlain).2, switches]
  | error corresponds =>
      refine .error (corresponds.traces ?_)
      obtain ⟨_, _, -, rfl⟩ := Instruction.eq_of_execute_eq_error isTraced
      obtain ⟨_, _, -, rfl⟩ := Instruction.eq_of_execute_eq_error isPlain
      exact switches

theorem Traces.writeLine (traces : Traces program traced plain) (text : String) :
    Traces program (traced.writeLine text) (plain.writeLine text) := by
  obtain ⟨terminals⟩ := traces
  exact @Traces.intro program (plain.writeLine text) _ (terminals.write _)

theorem Traces.shown (traces : Traces program traced plain) (instruction : Instruction Jump) :
    Traces program (instruction.shown traced) (instruction.shown plain) := by
  have corresponds := traces.corresponds
  unfold Instruction.shown
  rw [corresponds.dumping, corresponds.stack]
  split
  · exact (traces.writeLine _).writeLine _
  · exact traces

theorem Traces.advance (traces : Traces program traced plain) :
    Traces program traced.advance plain.advance := by
  obtain ⟨terminals⟩ := traces
  exact @Traces.intro program plain.advance _ terminals

theorem Traces.interrupt (traces : Traces program traced plain)
    (instruction : Instruction Jump) (breakpoints : Breakpoints) :
    Traces program (instruction.interrupt breakpoints traced)
      (instruction.interrupt breakpoints plain) := by
  obtain ⟨terminals⟩ := traces
  unfold Instruction.interrupt
  split
  · exact @Traces.intro program { plain with running := false } _ terminals
  · exact .intro terminals

end State

namespace ActivationStack

theorem current_mem (activations : ActivationStack) :
    activations.current ∈ activations.toList := by
  rcases activations with ⟨outermost, _ | ⟨innermost, around⟩⟩ <;> simp [current, toList]

theorem mem_modifyCurrent {activations : ActivationStack} {change : Activation → Activation}
    {activation : Activation} (member : activation ∈ (activations.modifyCurrent change).toList) :
    activation = change activations.current ∨ activation ∈ activations.toList := by
  rcases activations with ⟨outermost, _ | ⟨innermost, around⟩⟩ <;>
    simp only [modifyCurrent, toList, current, List.reverse_cons, List.mem_cons,
      List.mem_append, List.head?_cons, List.head?_nil, Option.getD] at member ⊢ <;> grind

end ActivationStack

namespace Program

/-- Every activation is traced under a name that the program knows. -/
def Names (program : Program) (activations : ActivationStack) : Prop :=
  ∀ activation ∈ activations.toList, program.IsCallee activation.displayName

variable {program : Program} {activations : ActivationStack}

theorem Names.modifyCurrent {change : Activation → Activation} (names : program.Names activations)
    (changed : program.IsCallee (change activations.current).displayName) :
    program.Names (activations.modifyCurrent change) := by
  intro activation member
  rcases ActivationStack.mem_modifyCurrent member with rfl | member
  · exact changed
  · exact names activation member

theorem Names.track {instruction : Instruction Jump} {index : Nat}
    (names : program.Names activations) (fetched : program.fetch? index = some instruction)
    (stack : OperandStack) : program.Names (instruction.track stack activations) := by
  have current := names _ activations.current_mem
  unfold Instruction.track
  split
  · intro activation member
    simp only [ActivationStack.toList, ActivationStack.push, List.reverse_cons, List.mem_cons,
      List.mem_append, List.not_mem_nil, or_false] at member
    rcases member with isOutermost | pending | rfl
    · exact names _ (by simp [ActivationStack.toList, isOutermost])
    · exact names _ (by simp [ActivationStack.toList, pending])
    · exact .inl rfl
  · intro activation member
    apply names
    simp only [ActivationStack.toList, ActivationStack.pop, List.mem_cons,
      List.mem_reverse] at member ⊢
    exact member.imp_right List.mem_of_mem_tail
  · exact names.modifyCurrent current
  · exact names.modifyCurrent current
  · exact names.modifyCurrent current
  · exact names.modifyCurrent current
  · exact names.modifyCurrent current
  · exact names.modifyCurrent (.inr ⟨_, _, _, fetched⟩)
  · exact names.modifyCurrent current
  · exact names

end Program

theorem Debugger.Reachable.names {program : Program} {debugger : Debugger}
    (reachable : Reachable program debugger) : program.Names debugger.activations := by
  let invariant (standing : Standing) : Prop := program.Names standing.activations
  suffices holds : invariant debugger.standing from holds
  refine standing_induction ?_ ?_ (fun before _ => before) reachable
  · intro activation member
    obtain rfl : activation = {} := by simpa [ActivationStack.toList] using member
    exact .inl rfl
  · intro start finish before moved
    cases moved with
    | rests => exact before
    | carriesOut fetched executes => exact Program.Names.track before fetched _

/-- The first check that fails when a program returns from an empty frame. -/
def State.returnFault (state : State) : Fault :=
  match state.returns, state.stack.callers with
  | [], _ => .returnWithoutCall
  | _ :: _, [] => .outermostFrame
  | _ :: _, _ :: _ => .stackUnderflow state.stack.base

theorem OperandStack.not_lt_of_frame_eq_nil {stack : OperandStack} (empty : stack.frame = []) :
    ¬ stack.base < stack.values.size := by
  have short := List.drop_eq_nil_iff.mp empty
  rw [Array.length_toList] at short
  omega

theorem Instruction.run_execute_ret_of_frame_eq_nil (owner : Option String) {state : State}
    (empty : state.stack.frame = []) :
    (ret owner).execute.run state = .error state.returnFault state := by
  have unpopped : state.stack.pop = (.error (.stackUnderflow state.stack.base), state.stack) :=
    dif_neg (OperandStack.not_lt_of_frame_eq_nil empty)
  unfold State.returnFault
  cases isReturns : state.returns with
  | nil => exact run_execute_ret_of_nil isReturns
  | cons address outer =>
      rw [run_execute_ret_of_cons isReturns]
      apply Effect.run_bind_eq_error.mpr
      refine .inl ((Effect.run_onStack_eq_error OperandStack.atomic_closeFrame).mpr ⟨?_, rfl⟩)
      unfold OperandStack.closeFrame
      cases state.stack.callers with
      | nil => rfl
      | cons caller callers => simp only [unpopped]

namespace Debugger

/-- The first debugger traces and the second one does not; otherwise they are the same,
except for trace lines in the output. -/
inductive Mirrors : Debugger → Debugger → Prop where
  | intro {plain : Debugger} {state : State} :
      plain.tracing = false → state.Traces plain.machine.program plain.state →
      Mirrors { plain.withState state with tracing := true } plain

/-- The next instruction returns, but there is no value to return. -/
def ReturnsNothing (debugger : Debugger) : Prop :=
  (∃ owner, debugger.machine.program.fetch? debugger.state.pc = some (.ret owner)) ∧
    debugger.state.stack.frame = []

/-- The faults with which the next instruction fails when it is traced and when it is not. -/
inductive FailsAlike (plain : Debugger) : Fault → Fault → Prop where
  | same (fault : Fault) : ¬ plain.ReturnsNothing → FailsAlike plain fault fault
  | nothingToTrace :
      plain.ReturnsNothing →
      FailsAlike plain (.stackUnderflow plain.state.stack.base) plain.state.returnFault

namespace Mirrors

variable {traced plain : Debugger} {instruction : Instruction Jump}

theorem startTracing {debugger : Debugger} (untraced : debugger.tracing = false) :
    Mirrors debugger.startTracing debugger :=
  @Mirrors.intro debugger debugger.state untraced (.intro (.refl _ _))

theorem isTracing (mirrors : Mirrors traced plain) : traced.tracing = true := by
  obtain ⟨-, -⟩ := mirrors
  rfl

theorem untraced (mirrors : Mirrors traced plain) : plain.tracing = false := by
  obtain ⟨untraced, -⟩ := mirrors
  exact untraced

theorem program_eq (mirrors : Mirrors traced plain) :
    traced.machine.program = plain.machine.program := by
  obtain ⟨-, -⟩ := mirrors
  rfl

theorem state (mirrors : Mirrors traced plain) :
    traced.state.Traces plain.machine.program plain.state := by
  obtain ⟨-, traces⟩ := mirrors
  exact traces

theorem withState {state plainState : State} (mirrors : Mirrors traced plain)
    (traces : state.Traces plain.machine.program plainState) :
    Mirrors (traced.withState state) (plain.withState plainState) := by
  obtain ⟨untraced, -⟩ := mirrors
  exact @Mirrors.intro (plain.withState plainState) state untraced traces

theorem writeLine {line : String} (mirrors : Mirrors traced plain)
    (isTraceLine : plain.machine.program.IsTraceLine line) :
    Mirrors (traced.writeLine line) plain := by
  obtain ⟨untraced, ⟨terminals⟩⟩ := mirrors
  exact @Mirrors.intro plain _ untraced (.intro (terminals.trace isTraceLine))

theorem note (mirrors : Mirrors traced plain) (instruction : Instruction Jump) :
    Mirrors (instruction.note traced) (instruction.note plain) := by
  obtain ⟨untraced, traces⟩ := mirrors
  have interrupted := traces.interrupt instruction plain.breakpoints
  obtain ⟨terminals⟩ := traces
  exact @Mirrors.intro (instruction.note plain) _ untraced interrupted

theorem announceEntry {index : Nat} (mirrors : Mirrors traced plain)
    (fetched : plain.machine.program.fetch? index = some instruction) :
    Mirrors (instruction.announceEntry traced) plain := by
  unfold Instruction.announceEntry
  split
  · split
    · exact mirrors.writeLine (.entry _ _ (.inr ⟨_, _, _, fetched⟩))
    · exact mirrors
  · exact mirrors

theorem announceExit (mirrors : Mirrors traced plain)
    (names : plain.machine.program.Names plain.activations)
    (fetched : plain.machine.program.fetch? plain.state.pc = some instruction)
    (traceable : ¬ plain.ReturnsNothing) :
    ∃ announced, instruction.announceExit traced = .ok announced ∧ Mirrors announced plain := by
  unfold Instruction.announceExit
  split
  · next owner =>
      have stack : traced.state.stack = plain.state.stack := mirrors.state.corresponds.stack.symm
      have current : traced.current = plain.current := by
        obtain ⟨-, -⟩ := mirrors
        rfl
      have occupied : plain.state.stack.base < plain.state.stack.values.size := by
        by_contra short
        apply traceable
        refine ⟨⟨owner, fetched⟩, List.drop_eq_nil_iff.mpr ?_⟩
        rw [Array.length_toList]
        omega
      rw [if_pos mirrors.isTracing, stack, OperandStack.peek, dif_pos occupied]
      refine ⟨_, rfl, mirrors.writeLine (.exit _ _ ?_)⟩
      rw [current]
      exact names _ plain.activations.current_mem
  · exact ⟨traced, rfl, mirrors⟩

/-- An instruction is carried out in both debuggers, or fails in both. -/
theorem carryOut (mirrors : Mirrors traced plain)
    (names : plain.machine.program.Names plain.activations)
    (fetched : plain.machine.program.fetch? plain.state.pc = some instruction) :
    (∃ next plainNext, (carryOut instruction).run traced = .ok () next ∧
      (Debugger.carryOut instruction).run plain = .ok () plainNext ∧ Mirrors next plainNext) ∨
    ∃ fault plainFault failed plainFailed,
      (Debugger.carryOut instruction).run traced = .error fault failed ∧
      (Debugger.carryOut instruction).run plain = .error plainFault plainFailed ∧
      Mirrors failed plainFailed ∧ FailsAlike plain fault plainFault := by
  rw [run_carryOut, run_carryOut, Instruction.run_observe, Instruction.run_observe,
    instruction.announceExit_of_untraced mirrors.untraced]
  -- The line about a return needs its value, and is written before the machine looks at
  -- the pending calls and frames.
  by_cases untraceable : plain.ReturnsNothing
  · obtain ⟨⟨owner, isReturn⟩, empty⟩ := untraceable
    obtain rfl : instruction = .ret owner := Option.some.inj (fetched.symm.trans isReturn)
    have unannounced : (Instruction.ret owner).announceExit traced =
        .error (.stackUnderflow plain.state.stack.base) := by
      have stack : traced.state.stack = plain.state.stack := mirrors.state.corresponds.stack.symm
      rw [Instruction.announceExit, if_pos mirrors.isTracing, stack, OperandStack.peek,
        dif_neg (OperandStack.not_lt_of_frame_eq_nil empty)]
      rfl
    simp only [unannounced, Instruction.run_execute_ret_of_frame_eq_nil owner empty]
    exact .inr ⟨_, _, _, _, rfl, rfl, mirrors, .nothingToTrace ⟨⟨owner, fetched⟩, empty⟩⟩
  · obtain ⟨announced, isAnnounced, still⟩ := mirrors.announceExit names fetched untraceable
    have results := still.state.execute instruction
    simp only [isAnnounced]
    generalize instruction.execute.run announced.state = result at results ⊢
    generalize instruction.execute.run plain.state = plainResult at results ⊢
    cases results with
    | error traces =>
        exact .inr ⟨_, _, _, _, rfl, rfl, still.withState traces, .same _ untraceable⟩
    | @ok _ executed plainExecuted traces =>
        let noted := instruction.note (plain.withState plainExecuted)
        have silent : instruction.announceEntry noted = noted :=
          instruction.announceEntry_of_untraced mirrors.untraced
        have written := ((still.withState traces).note instruction).announceEntry fetched
        simp only [silent, noted]
        refine .inl ⟨_, _, rfl, rfl, written.withState ?_⟩
        exact (written.state.shown instruction).advance

/-- Both debuggers go on, or both stop for the same reason. -/
theorem judge (mirrors : Mirrors traced plain) :
    (∃ next plainNext, traced.judge = .going next ∧ plain.judge = .going plainNext ∧
      Mirrors next plainNext) ∨
    ∃ stop next plainNext, traced.judge = .stopped (.ok stop) next ∧
      plain.judge = .stopped (.ok stop) plainNext ∧ Mirrors next plainNext := by
  obtain ⟨untraced, ⟨terminals⟩⟩ := mirrors
  cases done : plain.isDone with
  | true =>
      exact .inr ⟨.halted, _, _, judge_of_done done, judge_of_done done,
        .intro untraced (.intro terminals)⟩
  | false =>
      cases hit : plain.hit with
      | some line =>
          refine .inr ⟨.breakpoint line, _, _, judge_of_breakpoint done hit,
            judge_of_breakpoint done hit, ?_⟩
          exact @Mirrors.intro { plain with hit := none, mode := .untilBreakpoint } _ untraced
            (.intro terminals)
      | none =>
          cases complete : plain.mode.stopsAt plain.depth plain.currentLine with
          | true =>
              refine .inr ⟨.step, _, _, judge_of_step done hit complete,
                judge_of_step done hit complete, ?_⟩
              let paused : State := { plain.state with running := false }
              exact @Mirrors.intro { plain.withState paused with mode := .untilBreakpoint } _
                untraced (@State.Traces.intro _ paused _ terminals)
          | false =>
              exact .inl ⟨_, _, judge_eq_going_iff.mpr ⟨done, hit, complete, rfl⟩,
                judge_eq_going_iff.mpr ⟨done, hit, complete, rfl⟩,
                .intro untraced (.intro terminals)⟩

end Mirrors

/-- How two mirrored debuggers have ended a run: they stopped for the same reason, or they
failed at the same instruction. -/
inductive EndsAlike (traced plain : Debugger) : Outcome → Outcome → Prop where
  | stopped (stop : Stop) : EndsAlike traced plain (.ok stop) (.ok stop)
  | failed {before plainBefore : Debugger} {fault plainFault : Fault} :
      Mirrors before plainBefore →
      before.advance = .stopped (.error fault) traced →
      plainBefore.advance = .stopped (.error plainFault) plain →
      FailsAlike plainBefore fault plainFault →
      EndsAlike traced plain (.error fault) (.error plainFault)

/-- The results of two runs from mirrored debuggers. -/
def ResultsAlike (traced plain : Outcome × Debugger) : Prop :=
  Mirrors traced.2 plain.2 ∧ EndsAlike traced.2 plain.2 traced.1 plain.1

namespace Mirrors

variable {program : Program} {traced plain : Debugger}

theorem turnOff (mirrors : Mirrors traced plain) : Mirrors traced.turnOff plain.turnOff := by
  obtain ⟨untraced, ⟨terminals⟩⟩ := mirrors
  exact @Mirrors.intro plain.turnOff _ untraced
    (@State.Traces.intro _ plain.state.halt _ terminals)

/-- The next instruction leads both debuggers on, or ends both runs alike. -/
theorem advance (mirrors : Mirrors traced plain) (reachable : Reachable program plain) :
    (∃ next plainNext, traced.advance = .going next ∧ plain.advance = .going plainNext ∧
      Mirrors next plainNext) ∨
    ∃ result plainResult : Outcome × Debugger, traced.advance = .stopped result.1 result.2 ∧
      plain.advance = .stopped plainResult.1 plainResult.2 ∧ ResultsAlike result plainResult := by
  have samePc : traced.state.pc = plain.state.pc := mirrors.state.corresponds.pc.symm
  cases plainFetched : plain.machine.program.fetch? plain.state.pc with
  | none =>
      have fetched : traced.machine.program.fetch? traced.state.pc = none := by
        rw [mirrors.program_eq, samePc, plainFetched]
      exact .inr ⟨(_, _), (_, _), advance_of_end fetched, advance_of_end plainFetched,
        mirrors.turnOff, .stopped .halted⟩
  | some instruction =>
      have fetched : traced.machine.program.fetch? traced.state.pc = some instruction := by
        rw [mirrors.program_eq, samePc, plainFetched]
      have names : plain.machine.program.Names plain.activations := by
        rw [reachable.program_eq]
        exact reachable.names
      rcases mirrors.carryOut names plainFetched with
        ⟨next, plainNext, carried, plainCarried, still⟩ |
        ⟨fault, plainFault, failed, plainFailed, isFailed, plainIsFailed, still, alike⟩
      · rw [advance_of_carryOut carried fetched, advance_of_carryOut plainCarried plainFetched]
        rcases still.judge with going | ⟨stop, last, plainLast, stopped, plainStopped, still⟩
        · exact .inl going
        · exact .inr ⟨(_, _), (_, _), stopped, plainStopped, still, .stopped stop⟩
      · have isLast := advance_of_fault isFailed fetched
        have plainIsLast := advance_of_fault plainIsFailed plainFetched
        exact .inr ⟨(_, _), (_, _), isLast, plainIsLast, still.turnOff,
          .failed mirrors isLast plainIsLast alike⟩

theorem proceed (mirrors : Mirrors traced plain) (reachable : Reachable program plain)
    (going : plain.isDone = false) (fuel : Nat) :
    Option.Rel ResultsAlike (traced.proceed fuel) (plain.proceed fuel) := by
  induction fuel generalizing traced plain with
  | zero => exact .none
  | succ fuel ih =>
      have advanced := reachable.advance going
      rw [Debugger.proceed, Debugger.proceed]
      rcases mirrors.advance reachable with ⟨next, plainNext, isGoing, plainGoing, still⟩ |
        ⟨result, plainResult, isStopped, plainStopped, alike⟩
      · simp only [isGoing, plainGoing]
        rw [plainGoing] at advanced
        exact ih still advanced (isDone_of_advance_eq_going plainGoing)
      · simp only [isStopped, plainStopped]
        exact .some alike

theorem resume (mirrors : Mirrors traced plain) (reachable : Reachable program plain)
    (fuel : Nat) : Option.Rel ResultsAlike (traced.resume fuel) (plain.resume fuel) := by
  have sameDone : traced.isDone = plain.isDone := by
    obtain ⟨-, ⟨-⟩⟩ := mirrors
    rfl
  rw [Debugger.resume, Debugger.resume, sameDone]
  split
  · exact .some ⟨mirrors, .stopped .halted⟩
  · next going =>
      have notDone : plain.isDone = false := Bool.eq_false_iff.mpr going
      have running : Mirrors traced.setRunning plain.setRunning := by
        obtain ⟨untraced, ⟨terminals⟩⟩ := mirrors
        exact @Mirrors.intro plain.setRunning _ untraced
          (@State.Traces.intro _ { plain.state with running := true } _ terminals)
      exact running.proceed (reachable.setRunning notDone) notDone fuel

theorem adjust {adjustment : Adjustment} (mirrors : Mirrors traced plain)
    (other : adjustment ≠ .startTracing) :
    Mirrors (adjustment.apply traced) (adjustment.apply plain) := by
  cases adjustment with
  | startTracing => contradiction
  | turnOff => exact mirrors.turnOff
  | reset =>
      obtain ⟨untraced, ⟨terminals⟩⟩ := mirrors
      exact @Mirrors.intro plain.reset _ untraced
        (@State.Traces.intro _ plain.state.reset _ terminals)
  | armStepOver =>
      obtain ⟨untraced, ⟨terminals⟩⟩ := mirrors
      exact @Mirrors.intro plain.armStepOver _ untraced (.intro terminals)
  | armStepInto =>
      obtain ⟨untraced, ⟨terminals⟩⟩ := mirrors
      exact @Mirrors.intro plain.armStepInto _ untraced (.intro terminals)
  | armStepOut =>
      obtain ⟨untraced, ⟨terminals⟩⟩ := mirrors
      exact @Mirrors.intro plain.armStepOut _ untraced (.intro terminals)
  | setBreakpoint line =>
      obtain ⟨untraced, traces⟩ := mirrors
      exact @Mirrors.intro (plain.setBreakpoint line) _ untraced traces
  | clearBreakpoint line =>
      obtain ⟨untraced, traces⟩ := mirrors
      exact @Mirrors.intro (plain.clearBreakpoint line) _ untraced traces
  | clearBreakpoints =>
      obtain ⟨untraced, traces⟩ := mirrors
      exact @Mirrors.intro plain.clearBreakpoints _ untraced traces

end Mirrors

/-- What an operation has led to. -/
structure Moment where
  /-- How the run has ended, if the operation was one. -/
  outcome : Option Outcome
  debugger : Debugger

def perform (fuel : Nat) (debugger : Debugger) : Operation → Option Moment
  | .adjust adjustment => some { outcome := none, debugger := adjustment.apply debugger }
  | .resume =>
      (debugger.resume fuel).map fun (outcome, debugger) => { outcome := some outcome, debugger }

/-- All moments of a session, in their order. -/
def history (fuel : Nat) (debugger : Debugger) : List Operation → Option (List Moment)
  | [] => some []
  | operation :: rest =>
      match debugger.perform fuel operation with
      | none => none
      | some moment => (history fuel moment.debugger rest).map (moment :: ·)

/-- A moment of a session with tracing and the same moment without. -/
structure Moment.Alike (traced plain : Moment) : Prop where
  debugger : Mirrors traced.debugger plain.debugger
  outcome : Option.Rel (EndsAlike traced.debugger plain.debugger) traced.outcome plain.outcome

theorem Reachable.perform {program : Program} {debugger : Debugger} {fuel : Nat}
    {operation : Operation} {moment : Moment} (reachable : Reachable program debugger)
    (performed : debugger.perform fuel operation = some moment) :
    Reachable program moment.debugger := by
  cases operation with
  | adjust adjustment =>
      obtain rfl := Option.some.inj performed
      exact reachable.adjust adjustment
  | resume =>
      obtain ⟨⟨outcome, next⟩, resumed, rfl⟩ := Option.map_eq_some_iff.mp performed
      exact reachable.resume resumed

theorem Mirrors.perform {program : Program} {traced plain : Debugger} {operation : Operation}
    (mirrors : Mirrors traced plain) (reachable : Reachable program plain)
    (other : operation ≠ .adjust .startTracing) (fuel : Nat) :
    Option.Rel Moment.Alike (traced.perform fuel operation) (plain.perform fuel operation) := by
  cases operation with
  | adjust adjustment =>
      have notTracing : adjustment ≠ .startTracing := by
        rintro rfl
        exact other rfl
      exact .some ⟨mirrors.adjust notTracing, .none⟩
  | resume =>
      have resumed := mirrors.resume reachable fuel
      rw [Debugger.perform, Debugger.perform]
      generalize traced.resume fuel = result at resumed ⊢
      generalize plain.resume fuel = plainResult at resumed ⊢
      cases resumed with
      | none => exact .none
      | some alike => exact .some ⟨alike.1, .some alike.2⟩

theorem Mirrors.history {program : Program} {traced plain : Debugger}
    {operations : List Operation} (mirrors : Mirrors traced plain)
    (reachable : Reachable program plain) (others : .adjust .startTracing ∉ operations)
    (fuel : Nat) :
    Option.Rel (List.Forall₂ Moment.Alike) (traced.history fuel operations)
      (plain.history fuel operations) := by
  induction operations generalizing traced plain with
  | nil => exact .some .nil
  | cons operation operations ih =>
      obtain ⟨other, others⟩ := List.ne_and_not_mem_of_not_mem_cons others
      have performed := mirrors.perform reachable (Ne.symm other) fuel
      rw [Debugger.history, Debugger.history]
      generalize traced.perform fuel operation = result at performed ⊢
      generalize isPlain : plain.perform fuel operation = plainResult at performed ⊢
      cases performed with
      | none => exact .none
      | @some moment plainMoment alike =>
          have later := ih alike.debugger (reachable.perform isPlain) others
          simp only
          generalize moment.debugger.history fuel operations = moments at later ⊢
          generalize plainMoment.debugger.history fuel operations = plainMoments at later ⊢
          cases later with
          | none => exact .none
          | some later => exact .some (.cons alike later)

/-- Tracing is an observer.  When the trace is turned on at some point of a session, all
that follows is as it would have been without: runs end alike, and debuggers are the same
except for the trace lines that were written. -/
theorem tracing_observes {program : Program} {debugger : Debugger} {operations : List Operation}
    (reachable : Reachable program debugger) (untraced : debugger.tracing = false)
    (others : .adjust .startTracing ∉ operations) (fuel : Nat) :
    Option.Rel (List.Forall₂ Moment.Alike) (debugger.startTracing.history fuel operations)
      (debugger.history fuel operations) :=
  (Mirrors.startTracing untraced).history reachable others fuel

/-- A program that calls a function and then returns from its own emptied frame. -/
theorem tracing_observes_emptyFrame :
    let program : Program :=
      { code := #[.args 0, .call ⟨"f", 4⟩, .pop 1, .ret none, .label "f",
          .function "f" (some 1) (some 2), .lit 7 none, .ret none]
        labels := [("f", 4)] }
    let debugger := create program [] {}
    Option.Rel (List.Forall₂ Moment.Alike) (debugger.startTracing.history 9 [.resume])
      (debugger.history 9 [.resume]) ∧
    (debugger.startTracing.history 9 [.resume]).map (·.map fun moment =>
        (moment.outcome, moment.debugger.state.terminal.output)) =
      some [(some (.error (.stackUnderflow 0)), "-f()\n-exit: f: 7\n")] ∧
    (debugger.history 9 [.resume]).map (·.map fun moment =>
        (moment.outcome, moment.debugger.state.terminal.output)) =
      some [(some (.error .returnWithoutCall), "")] := by
  refine ⟨tracing_observes (.create [] {}) rfl (by decide) 9, ?_⟩
  decide +kernel

end Debugger

end StackDebugger
