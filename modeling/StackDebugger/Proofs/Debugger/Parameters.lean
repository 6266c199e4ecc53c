import StackDebugger.Proofs.Debugger.CallStructure
import StackDebugger.Proofs.Debugger.FirstStop
import StackDebugger.Proofs.Dictionary

/-!
# Parameters name the arguments

A call opens a frame over its arguments and an activation without variables.  A parameter without
an offset is bound to the slot behind those of the variables that there are.  So the parameters at
the beginning of a function are bound to the arguments in their order, if their names are distinct,
wherever the run is stopped between them.
-/

namespace StackDebugger

/-- The beginning of a function: lines, functions, and the parameters of these names in their
order, without offsets. -/
inductive Prologue : List String → List (Instruction Jump) → Prop where
  | nil : Prologue [] []
  | line {number : Option Nat} {names : List String} {block : List (Instruction Jump)} :
      Prologue names block → Prologue names (.line number :: block)
  | function {name : String} {first last : Option Nat} {names : List String}
      {block : List (Instruction Jump)} :
      Prologue names block → Prologue names (.function name first last :: block)
  | formal {name : String} {names : List String} {block : List (Instruction Jump)} :
      Prologue names block → Prologue (name :: names) (.formal name none :: block)

/-- A call with so many arguments stands at an address, and the block behind its label. -/
structure Program.CallsInto (program : Program) (address count : Nat) (destination : Jump)
    (block : List (Instruction Jump)) : Prop where
  args : program.fetch? address = some (.args count)
  call : program.fetch? (address + 1) = some (.call destination)
  label : program.fetch? destination.target = some (.label destination.label)
  block : ∀ index instruction, block[index]? = some instruction →
    program.fetch? (destination.target + 1 + index) = some instruction

namespace Debugger

/-- The debuggers that sessions lead to and runs pass through when so many instructions were
carried out, unless the debugger is reset. -/
inductive Ahead (start : Debugger) : Nat → Debugger → Prop where
  | refl : Ahead start 0 start
  | adjust {count : Nat} {debugger : Debugger} {adjustment : Adjustment} :
      Ahead start count debugger → adjustment ≠ .reset →
      Ahead start count (adjustment.apply debugger)
  | setRunning {count : Nat} {debugger : Debugger} :
      Ahead start count debugger → debugger.isDone = false →
      Ahead start count debugger.setRunning
  | advance {count : Nat} {debugger : Debugger} :
      Ahead start count debugger → debugger.isDone = false →
      Ahead start (count + 1) debugger.advance.debugger

theorem exists_ahead_of_session {start final : Debugger} {fuel : Nat}
    {operations : List Operation} {outcomes : List Outcome} (kept : .adjust .reset ∉ operations)
    (ended : start.session fuel operations = some (outcomes, final)) :
    ∃ passed, Ahead start passed final := by
  let holds (debugger : Debugger) : Prop := ∃ passed, Ahead start passed debugger
  suffices reached : holds final from reached
  refine session_invariant ?_ ?_ ?_ ⟨0, .refl⟩ ended
  · rintro debugger ⟨passed, ahead⟩ going
    exact ⟨passed, ahead.setRunning going⟩
  · rintro debugger ⟨passed, ahead⟩ going
    exact ⟨passed + 1, ahead.advance going⟩
  · rintro debugger adjustment member ⟨passed, ahead⟩
    refine ⟨passed, ahead.adjust ?_⟩
    rintro rfl
    exact kept member

/-- An instruction that has its effect on the machine moves the run accordingly. -/
theorem exists_run_carryOut {instruction : Instruction Jump} {debugger : Debugger}
    {executed : State} (silent : instruction.announceExit debugger = .ok debugger)
    (isExecuted : instruction.execute.run debugger.state = .ok () executed) :
    ∃ next, (carryOut instruction).run debugger = .ok () next ∧
      next.standing =
        { position := { executed.position with pc := executed.pc + 1 }
          activations := instruction.track executed.stack debugger.activations } := by
  let observed := instruction.announceEntry (instruction.note (debugger.withState executed))
  have carried : (carryOut instruction).run debugger =
      .ok () (observed.withState (instruction.shown observed.state).advance) := by
    rw [run_carryOut, Instruction.run_observe, silent]
    simp only [isExecuted]
    rfl
  obtain ⟨terminal, isObserved⟩ := instruction.exists_announceEntry_eq
    (instruction.note (debugger.withState executed))
  have activations : observed.activations =
      instruction.track executed.stack debugger.activations :=
    congrArg Debugger.activations isObserved
  have position : observed.state.position = executed.position := by
    refine (congrArg (fun debugger : Debugger => debugger.state.position) isObserved).trans ?_
    exact instruction.position_interrupt debugger.breakpoints executed
  refine ⟨_, carried, ?_⟩
  change Standing.mk (instruction.shown observed.state).advance.position observed.activations = _
  rw [State.position_advance, Instruction.position_shown, position, activations]
  rfl

/-- The next instruction does not fail, it leads there, and the program is not over by it. -/
structure Passes (debugger : Debugger) (reached : Standing) : Prop where
  unfailed : debugger.advance.fault? = none
  isDone : debugger.advance.debugger.isDone = debugger.isDone
  standing : debugger.advance.debugger.standing = reached

theorem passes_of_execute {instruction : Instruction Jump} {debugger : Debugger}
    {executed : State} (silent : instruction.announceExit debugger = .ok debugger)
    (notHalt : instruction ≠ .halt)
    (fetched : debugger.machine.program.fetch? debugger.state.pc = some instruction)
    (isExecuted : instruction.execute.run debugger.state = .ok () executed) :
    debugger.Passes
      { position := { executed.position with pc := executed.pc + 1 }
        activations := instruction.track executed.stack debugger.activations } := by
  obtain ⟨next, carried, isStanding⟩ := exists_run_carryOut silent isExecuted
  have advanced := advance_of_carryOut carried fetched
  refine ⟨?_, ?_, ?_⟩
  · rw [advanced]
    exact fault?_judge next
  · obtain ⟨running, hit, mode, judged⟩ := next.exists_judge_debugger_eq
    rw [advanced, judged]
    exact (carriedOut_of_run_eq_ok carried).isDone_of_ne_halt notHalt
  · rw [advanced, standing_judge]
    exact isStanding

/-- An annotation leaves the machine alone. -/
theorem passes_of_isDebugOnly {instruction : Instruction Jump} {debugger : Debugger}
    (annotates : instruction.isDebugOnly = true)
    (fetched : debugger.machine.program.fetch? debugger.state.pc = some instruction) :
    debugger.Passes
      { position := { debugger.state.position with pc := debugger.state.pc + 1 }
        activations := instruction.track debugger.state.stack debugger.activations } := by
  cases instruction with
  | line number => exact passes_of_execute rfl (by simp) fetched rfl
  | function name first last => exact passes_of_execute rfl (by simp) fetched rfl
  | formal name offset => exact passes_of_execute rfl (by simp) fetched rfl
  | lit | load | store | args | bop | call | ret | goto | falseBranch | label | halt | pop
  | read | write | dump => contradiction

theorem passes_args {debugger : Debugger} {count : Nat} {inner : OperandStack}
    (fetched : debugger.machine.program.fetch? debugger.state.pc = some (.args count))
    (opened : debugger.state.stack.openFrame count = (.ok (), inner)) :
    debugger.Passes
      { position := { debugger.state.position with pc := debugger.state.pc + 1, stack := inner }
        activations := debugger.activations } := by
  have executed : (Instruction.args count).execute.run debugger.state =
      .ok () { debugger.state with stack := inner } := by
    rw [Instruction.execute, Effect.run_onStack_eq_ok]
    exact ⟨inner, opened, rfl⟩
  exact passes_of_execute rfl (by simp) fetched executed

theorem passes_call {debugger : Debugger} {destination : Jump}
    (fetched : debugger.machine.program.fetch? debugger.state.pc = some (.call destination)) :
    debugger.Passes
      { position :=
          { pc := destination.target + 1
            returns := debugger.state.pc :: debugger.state.returns
            stack := debugger.state.stack }
        activations := debugger.activations.push } :=
  passes_of_execute rfl (by simp) fetched rfl

/-- A call is next that can open its frame, and the function begins with annotations. -/
structure AtCall (start : Debugger) (count : Nat) (inner : OperandStack) (destination : Jump)
    (block : List (Instruction Jump)) : Prop where
  calls : start.machine.program.CallsInto start.state.pc count destination block
  opened : start.state.stack.openFrame count = (.ok (), inner)
  annotates : ∀ instruction ∈ block, instruction.isDebugOnly = true

/-- Where the run stands when so many instructions of the call were carried out: it opens the
frame, goes behind the label, and passes the block. -/
def inCall (start : Debugger) (inner : OperandStack) (destination : Jump)
    (block : List (Instruction Jump)) : Nat → Standing
  | 0 => start.standing
  | 1 =>
      { position := { start.state.position with pc := start.state.pc + 1, stack := inner }
        activations := start.activations }
  | passed + 2 =>
      { position :=
          { pc := destination.target + 1 + passed
            returns := (start.state.pc + 1) :: start.state.returns
            stack := inner }
        activations := (block.take passed).foldl
          (fun activations instruction => instruction.track inner activations)
          start.activations.push }

namespace AtCall

variable {start debugger : Debugger} {count passed : Nat} {inner : OperandStack}
  {destination : Jump} {block : List (Instruction Jump)}

/-- One instruction of the call leads to the next one. -/
theorem passes (atCall : AtCall start count inner destination block)
    (program : debugger.machine.program = start.machine.program)
    (stands : debugger.standing = start.inCall inner destination block passed)
    (within : passed < block.length + 2) :
    debugger.Passes (start.inCall inner destination block (passed + 1)) := by
  obtain ⟨position, activations⟩ := Standing.mk.inj stands
  match passed with
  | 0 =>
      obtain ⟨pc, returns, stack⟩ := Position.mk.inj position
      have fetched : debugger.machine.program.fetch? debugger.state.pc = some (.args count) := by
        rw [program, pc]
        exact atCall.calls.args
      have opened : debugger.state.stack.openFrame count = (.ok (), inner) := by
        rw [stack]
        exact atCall.opened
      have passes := passes_args fetched opened
      rw [position, pc, activations] at passes
      exact passes
  | 1 =>
      obtain ⟨pc, returns, stack⟩ := Position.mk.inj position
      have fetched : debugger.machine.program.fetch? debugger.state.pc =
          some (.call destination) := by
        rw [program, pc]
        exact atCall.calls.call
      have passes := passes_call fetched
      rw [pc, returns, stack, activations] at passes
      exact passes
  | passed + 2 =>
      obtain ⟨pc, returns, stack⟩ := Position.mk.inj position
      have inside : passed < block.length := by omega
      have isNext : block[passed]? = some block[passed] := List.getElem?_eq_getElem inside
      have fetched : debugger.machine.program.fetch? debugger.state.pc = some block[passed] := by
        rw [program, pc]
        exact atCall.calls.block passed _ isNext
      have passes := passes_of_isDebugOnly (atCall.annotates _ (List.getElem_mem inside)) fetched
      rw [position, pc, stack, activations] at passes
      rw [inCall, List.take_add_one, isNext, Option.toList_some, List.foldl_concat]
      exact passes

/-- Wherever the run is stopped in between, it goes through the call. -/
theorem standing_of_ahead (atCall : AtCall start count inner destination block)
    (ahead : Ahead start passed debugger) (within : passed ≤ block.length + 2) :
    debugger.machine.program = start.machine.program ∧
      debugger.standing = start.inCall inner destination block passed := by
  induction ahead with
  | refl => exact ⟨rfl, rfl⟩
  | @adjust passed debugger adjustment _ notReset ih =>
      obtain ⟨program, stands⟩ := ih within
      rw [standing_adjust notReset]
      refine ⟨?_, stands⟩
      cases adjustment <;> exact program
  | setRunning _ _ ih => exact ih within
  | @advance passed debugger _ _ ih =>
      obtain ⟨program, stands⟩ := ih (by omega)
      rw [program_advance]
      exact ⟨program, (atCall.passes program stands within).standing⟩

end AtCall

end Debugger

namespace Prologue

variable {names : List String} {block : List (Instruction Jump)}

theorem isDebugOnly (prologue : Prologue names block) :
    ∀ instruction ∈ block, instruction.isDebugOnly = true := by
  induction prologue with
  | nil => simp
  | line _ ih | function _ ih | formal _ ih => exact List.forall_mem_cons.mpr ⟨rfl, ih⟩

/-- The names are bound to slots from zero on, in the innermost activation only. -/
theorem exists_foldl_track_eq (prologue : Prologue names block) (stack : OperandStack)
    (caller : ActivationStack) {activation : Activation} {bound : List String}
    (isBound : activation.bindings = Dictionary.ofPairs bound.zipIdx)
    (distinct : (bound ++ names).Nodup) :
    ∃ entered : Activation,
      block.foldl (fun activations instruction => instruction.track stack activations)
          { caller with calls := activation :: caller.calls } =
        { caller with calls := entered :: caller.calls } ∧
      entered.bindings = Dictionary.ofPairs (bound ++ names).zipIdx := by
  induction prologue generalizing activation bound with
  | nil =>
      rw [List.append_nil]
      exact ⟨activation, rfl, isBound⟩
  | @line number names block _ ih =>
      cases number with
      | none => exact ih isBound distinct
      | some number => exact @ih (activation.reachLine number) bound isBound distinct
  | @function name first last names block _ ih =>
      exact @ih (activation.enterFunction name first last) bound isBound distinct
  | @formal name names block _ ih =>
      have distinctBefore : (bound.zipIdx.map Prod.fst).Nodup := by
        rw [List.zipIdx_map_fst]
        exact (List.nodup_append.mp distinct).1
      have length : activation.bindings.length = bound.length := by
        rw [isBound, (Dictionary.perm_ofPairs distinctBefore).length_eq, List.length_zipIdx]
      have isBoundToo : (activation.bind name activation.bindings.length).bindings =
          Dictionary.ofPairs (bound ++ [name]).zipIdx := by
        rw [Activation.bind, length, isBound, List.zipIdx_append, Nat.zero_add]
        exact (Dictionary.ofPairs_concat bound.zipIdx (name, bound.length)).symm
      rw [List.append_cons] at distinct ⊢
      exact ih isBoundToo distinct

end Prologue

namespace OperandStack

variable {stack inner : OperandStack} {arguments : List Int32}

theorem exists_openFrame (onTop : arguments <:+ stack.frame) :
    ∃ inner, stack.openFrame arguments.length = (.ok (), inner) := by
  have fits : arguments.length ≤ stack.frameSize := by
    simpa [frame, frameSize] using onTop.length_le
  rw [openFrame, if_neg (Nat.not_lt.mpr fits)]
  exact ⟨_, rfl⟩

/-- The slots of a new frame hold the values it was opened over. -/
theorem load_of_openFrame {index : Nat} {value : Int32} (onTop : arguments <:+ stack.frame)
    (opened : stack.openFrame arguments.length = (.ok (), inner))
    (isArgument : arguments[index]? = some value) : inner.load index = .ok value := by
  obtain ⟨-, rfl⟩ := eq_of_openFrame opened
  obtain ⟨beneath, split⟩ := onTop.trans (List.drop_suffix _ _)
  have size : beneath.length + arguments.length = stack.values.size := by
    simpa using congrArg List.length split
  apply load_of_getElem?
  change stack.values[stack.values.size - arguments.length + index]? = some value
  rw [← size, Nat.add_sub_cancel, ← Array.getElem?_toList, ← split,
    List.getElem?_append_right (Nat.le_add_right _ _), Nat.add_sub_cancel_left]
  exact isArgument

end OperandStack

namespace Debugger

/-- The variables are those of the given names, with the given values in their order. -/
structure HoldsArguments (debugger : Debugger) (names : List String) (arguments : List Int32) :
    Prop where
  value : ∀ (index : Nat) name value, names[index]? = some name → arguments[index]? = some value →
    debugger.variableValue? name = some value
  sorted : debugger.current.variableNames.Pairwise (· < ·)
  all : debugger.current.variableNames.Perm names
  others : ∀ name, name ∉ names → debugger.variableValue? name = none

theorem holdsArguments_of_bindings {debugger : Debugger} {names : List String}
    {arguments : List Int32} (distinct : names.Nodup)
    (isBound : debugger.current.bindings = Dictionary.ofPairs names.zipIdx)
    (loads : ∀ (index : Nat) value, arguments[index]? = some value →
      debugger.state.stack.load index = .ok value) :
    debugger.HoldsArguments names arguments := by
  have ascending : debugger.current.bindings.Ascending := by
    rw [isBound]
    exact Dictionary.ascending_ofPairs _
  have perm : debugger.current.bindings.Perm names.zipIdx := by
    rw [isBound]
    apply Dictionary.perm_ofPairs
    rw [List.zipIdx_map_fst]
    exact distinct
  have all : debugger.current.variableNames.Perm names := by
    have permNames := perm.map Prod.fst
    rw [List.zipIdx_map_fst] at permNames
    exact permNames
  refine ⟨?_, List.pairwise_map.mpr ascending, all, ?_⟩
  · intro index name value isName isArgument
    have member : (name, index) ∈ debugger.current.bindings :=
      perm.mem_iff.mpr (List.mk_mem_zipIdx_iff_getElem?.mpr isName)
    have offset : debugger.current.offsetOf? name = some index :=
      Dictionary.lookup_eq_some_of_mem ascending member
    rw [variableValue?, offset]
    simp only [loads index value isArgument]
    rfl
  · intro name absent
    have unbound : debugger.current.offsetOf? name = none := by
      rw [Activation.offsetOf?, List.lookup_eq_none_iff]
      intro binding member
      have different : name ≠ binding.1 := by
        rintro rfl
        exact absent (all.mem_iff.mp (List.mem_map_of_mem member))
      simpa using different
    rw [variableValue?, unbound]

/-- Parameters name the arguments.  Let a call with these arguments on top of the frame be next,
of a function that begins with lines, functions and the parameters in their order, and let their
names be distinct.  Whatever sessions are held from there on, no instruction of the call and of
this block fails or ends the program.  When they have been carried out, the variables are the
parameters in ascending order, each has the value of its argument, no other name has a value, and
beneath the new activation all are as they were. -/
theorem parameters_name_arguments {start : Debugger} {names : List String}
    {arguments : List Int32} {destination : Jump} {block : List (Instruction Jump)}
    (distinct : names.Nodup) (sameLength : names.length = arguments.length)
    (onTop : arguments <:+ start.state.stack.frame)
    (calls : start.machine.program.CallsInto start.state.pc names.length destination block)
    (prologue : Prologue names block) :
    (∀ fuel operations outcomes final, .adjust .reset ∉ operations →
      start.session fuel operations = some (outcomes, final) →
      ∃ passed, Ahead start passed final) ∧
    (∀ passed debugger, Ahead start passed debugger → passed < block.length + 2 →
      debugger.advance.fault? = none ∧
      debugger.advance.debugger.isDone = debugger.isDone) ∧
    ∀ debugger, Ahead start (block.length + 2) debugger →
      debugger.HoldsArguments names arguments ∧
      debugger.depth = start.depth + 1 ∧ debugger.activations.pop = start.activations := by
  obtain ⟨inner, opened⟩ := OperandStack.exists_openFrame onTop
  have atCall : AtCall start names.length inner destination block :=
    ⟨calls, by rw [sameLength]; exact opened, prologue.isDebugOnly⟩
  refine ⟨?_, ?_, ?_⟩
  · intro fuel operations outcomes final kept ended
    exact exists_ahead_of_session kept ended
  · intro passed debugger ahead within
    obtain ⟨program, stands⟩ := atCall.standing_of_ahead ahead (Nat.le_of_lt within)
    have passes := atCall.passes program stands within
    exact ⟨passes.unfailed, passes.isDone⟩
  · intro debugger ahead
    obtain ⟨-, stands⟩ := atCall.standing_of_ahead ahead (Nat.le_refl _)
    obtain ⟨position, activations⟩ := Standing.mk.inj stands
    have fresh : ({} : Activation).bindings = Dictionary.ofPairs ([] : List String).zipIdx := rfl
    obtain ⟨entered, isEntered, isBound⟩ :=
      prologue.exists_foldl_track_eq inner start.activations fresh distinct
    have isStack : debugger.state.stack = inner := (Position.mk.inj position).2.2
    have isActivations : debugger.activations =
        { start.activations with calls := entered :: start.activations.calls } := by
      rw [activations, List.take_length]
      exact isEntered
    refine ⟨?_, ?_, ?_⟩
    · apply holdsArguments_of_bindings distinct
      · rw [current, isActivations]
        exact isBound
      · intro index value isArgument
        rw [isStack]
        exact OperandStack.load_of_openFrame onTop opened isArgument
    · rw [depth, isActivations]
      rfl
    · rw [isActivations]
      rfl

/-- A run that is stopped at a breakpoint between two parameters. -/
theorem parameters_name_arguments_stopped :
    let program : Program :=
      { code := #[.lit 5 none, .lit 7 none, .args 2, .call ⟨"f", 5⟩, .halt, .label "f",
          .function "f" (some 1) (some 3), .formal "y" none, .line (some 2), .formal "x" none,
          .ret none]
        labels := [("f", 5)] }
    let start := (create program [] {}).advance.debugger.advance.debugger
    ∃ stopped, start.session 9 [.adjust (.setBreakpoint 2), .resume] =
        some ([.ok (.breakpoint 2)], stopped) ∧
      Ahead start 5 stopped ∧
      stopped.current.variableNames = ["y"] ∧
      let final := stopped.setRunning.advance.debugger
      final.HoldsArguments ["y", "x"] [5, 7] ∧ final.current.variableNames = ["x", "y"] ∧
      final.activations.pop = start.activations := by
  intro program start
  let block : List (Instruction Jump) :=
    [.function "f" (some 1) (some 3), .formal "y" none, .line (some 2), .formal "x" none]
  have isProgram : start.machine.program = program := by decide +kernel
  have isAddress : start.state.pc = 2 := by decide +kernel
  have calls : start.machine.program.CallsInto start.state.pc 2 ⟨"f", 5⟩ block := by
    rw [isProgram, isAddress]
    refine ⟨rfl, rfl, rfl, ?_⟩
    intro index instruction isNext
    match index with
    | 0 | 1 | 2 | 3 => exact isNext
    | index + 4 => simp [block] at isNext
  have prologue : Prologue ["y", "x"] block := .function (.formal (.line (.formal .nil)))
  have onTop : [5, 7] <:+ start.state.stack.frame := ⟨[], by decide +kernel⟩
  have distinct : ["y", "x"].Nodup := by decide
  obtain ⟨-, -, named⟩ := @parameters_name_arguments start ["y", "x"] [5, 7] ⟨"f", 5⟩ block
    distinct rfl onTop calls prologue
  have aheadArmed : Ahead start 0 (start.setBreakpoint 2) :=
    @Ahead.adjust start 0 start (.setBreakpoint 2) .refl (by decide)
  let stopped := (start.setBreakpoint 2).setRunning.advance.debugger.advance.debugger
    |>.advance.debugger.advance.debugger.advance.debugger
  have ahead : Ahead start 5 stopped :=
    aheadArmed |>.setRunning (by decide +kernel) |>.advance (by decide +kernel)
      |>.advance (by decide +kernel) |>.advance (by decide +kernel)
      |>.advance (by decide +kernel) |>.advance (by decide +kernel)
  have aheadFinal : Ahead start 6 stopped.setRunning.advance.debugger :=
    (ahead.setRunning (by decide +kernel)).advance (by decide +kernel)
  obtain ⟨holds, -, caller⟩ := named _ aheadFinal
  exact ⟨stopped, by decide +kernel, ahead, by decide +kernel, holds, by decide +kernel, caller⟩

end Debugger

end StackDebugger
