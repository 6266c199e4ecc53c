import Mathlib.Logic.Relation
import StackDebugger.Proofs.Debugger.Stepping
import StackDebugger.Proofs.Dictionary
import StackDebugger.Proofs.Machine.Slots

/-!
# Variables and their slots

A variable is bound to a slot of its frame.  A `POP` forgets the variables of the slots that it
takes.  Every other instruction that takes a slot leaves the variables that are bound to it, so
that they are listed without a value, or with one that was put there for something else.

`Debugger.Orphans` holds of an instruction that does so.  Without it the variables of every
activation stay in their frames: `Standing.HoldsSlots` is the invariant, for one variable at a
time.  It says nothing of the innermost frame between an `ARGS` and its `CALL`, but there no run
stops.
-/

namespace StackDebugger

/-- No instruction is a `FORMAL`. -/
def Program.IsFormalFree (program : Program) : Prop :=
  ∀ index parameter slot, program.fetch? index ≠ some (.formal parameter slot)

namespace Activation

variable {activation : Activation} {name : String} {offset : Nat}

theorem exists_offsetOf? (listed : name ∈ activation.variableNames) :
    ∃ offset, activation.offsetOf? name = some offset := by
  obtain ⟨binding, member, rfl⟩ := List.mem_map.mp listed
  have found : (activation.offsetOf? binding.1).isSome :=
    List.lookup_isSome_iff.mpr ⟨binding, member, beq_self_eq_true _⟩
  exact Option.isSome_iff_exists.mp found

theorem offsetOf?_bind (activation : Activation) (bound name : String) (slot : Nat) :
    (activation.bind bound slot).offsetOf? name =
      if name = bound then some slot else activation.offsetOf? name :=
  Dictionary.lookup_insert name bound slot activation.bindings

theorem eq_or_of_offsetOf?_bind {bound : String} {slot : Nat}
    (isBound : (activation.bind bound slot).offsetOf? name = some offset) :
    some (bound, slot) = some (name, offset) ∨ activation.offsetOf? name = some offset := by
  rw [offsetOf?_bind] at isBound
  split at isBound
  · next equal =>
      rw [equal, Option.some.inj isBound]
      exact .inl rfl
  · exact .inr isBound

theorem lt_of_offsetOf?_forgetFrom {size : Nat}
    (isBound : (activation.forgetFrom size).offsetOf? name = some offset) : offset < size := by
  obtain ⟨before, after, parts, -⟩ := List.lookup_eq_some_iff.mp isBound
  have member : (name, offset) ∈ activation.bindings.within size := by
    change (name, offset) ∈ (activation.forgetFrom size).bindings
    rw [parts]
    exact List.mem_append_right before List.mem_cons_self
  simpa using (List.mem_filter.mp member).2

end Activation

namespace Instruction

variable {instruction : Instruction Jump} {stack : OperandStack} {activations : ActivationStack}
  {name : String} {offset : Nat}

/-- When an instruction has left a stack behind, a variable is bound to the slot that the
instruction names, or it was spared by a `POP`, or it is bound as before. -/
theorem offsetOf?_track (stays : instruction.staysInFrame)
    (notFormal : ∀ parameter slot, instruction ≠ .formal parameter slot)
    (isBound : (instruction.track stack activations).current.offsetOf? name = some offset) :
    instruction.namedSlot? stack = some (name, offset) ∨
      (∃ count, instruction = .pop count ∧ offset < stack.frameSize) ∨
      activations.current.offsetOf? name = some offset := by
  cases instruction with
  | lit value annotation | load slot annotation | store slot annotation =>
      cases annotation with
      | none => exact .inr (.inr isBound)
      | some bound =>
          rw [track, ActivationStack.current_modifyCurrent] at isBound
          exact (Activation.eq_or_of_offsetOf?_bind isBound).imp_right .inr
  | pop count =>
      rw [track, ActivationStack.current_modifyCurrent] at isBound
      exact .inr (.inl ⟨count, rfl, Activation.lt_of_offsetOf?_forgetFrom isBound⟩)
  | line number =>
      cases number with
      | none => exact .inr (.inr isBound)
      | some number =>
          rw [track, ActivationStack.current_modifyCurrent] at isBound
          exact .inr (.inr isBound)
  | function name first last =>
      rw [track, ActivationStack.current_modifyCurrent] at isBound
      exact .inr (.inr isBound)
  | formal parameter slot => exact absurd rfl (notFormal parameter slot)
  | bop operator | goto destination | falseBranch destination | label name | halt | read | write
  | dump mode => exact .inr (.inr isBound)
  | args count | call destination | ret owner => contradiction

/-- Only the innermost activation changes. -/
theorem records_track (stays : instruction.staysInFrame) (stack : OperandStack)
    (activations : ActivationStack) :
    (instruction.track stack activations).records.tail = activations.records.tail ∧
      (instruction.track stack activations).depth = activations.depth := by
  have changes : ∃ change, instruction.track stack activations =
      activations.modifyCurrent change := by
    cases isLocal : instruction.isLocal with
    | true => exact exists_track_eq_modifyCurrent isLocal stack activations
    | false =>
        cases instruction with
        | goto destination => exact ⟨id, activations.modifyCurrent_id.symm⟩
        | _ => contradiction
  obtain ⟨change, tracked⟩ := changes
  rw [tracked, ActivationStack.records_modifyCurrent, ActivationStack.depth_modifyCurrent]
  exact ⟨rfl, rfl⟩

/-- Only a `POP` and a `STORE` that names the variable have a hand in a variable whose slot they
take. -/
theorem offsetOf?_track_of_taken {size : Nat} (taken : instruction.leaves size ≤ offset)
    (inFrame : offset < size) (notPop : ∀ count, instruction ≠ .pop count)
    (notStore : ∀ slot, instruction ≠ .store slot (some name)) :
    (instruction.track stack activations).current.offsetOf? name =
      activations.current.offsetOf? name := by
  cases instruction with
  | store slot annotation =>
      cases annotation with
      | none => rfl
      | some bound =>
          have different : name ≠ bound := by
            rintro rfl
            exact notStore slot rfl
          rw [track, ActivationStack.current_modifyCurrent, Activation.offsetOf?_bind,
            if_neg different]
  | pop count => exact absurd rfl (notPop count)
  | bop operator | args count | falseBranch destination | write => rfl
  | lit | load | call | ret | goto | label | halt | read | dump | line | function | formal =>
      exact absurd inFrame (Nat.not_lt.mpr taken)

end Instruction

/-- Each of the activations binds the variable to a slot of its frame, if it binds it, apart from
slots that are excused at its level.  Activations and the bases of their frames are given innermost
first, with the end of the innermost frame. -/
def SlotsWithin (name : String) (excused : Nat → Nat → Prop) :
    Nat → List Nat → List Activation → Prop
  | top, base :: bases, record :: records =>
      (∀ offset, record.offsetOf? name = some offset →
        base + offset < top ∨ excused (records.length + 1) offset) ∧
      SlotsWithin name excused base bases records
  | _, _, _ => True

theorem slotsWithin_records {name : String} {excused : Nat → Nat → Prop} {top base : Nat}
    {bases : List Nat} {activations : ActivationStack} :
    SlotsWithin name excused top (base :: bases) activations.records ↔
      (∀ offset, activations.current.offsetOf? name = some offset →
        base + offset < top ∨ excused activations.depth offset) ∧
      SlotsWithin name excused base bases activations.records.tail := by
  have level : activations.records.tail.length + 1 = activations.depth := by
    rw [← activations.length_records, activations.records_eq_cons]
    rfl
  rw [← level, activations.records_eq_cons]
  rfl

/-- The innermost frame may end higher up, and more may be excused. -/
theorem SlotsWithin.weaken {name : String} {excused others : Nat → Nat → Prop} {top higher : Nat}
    {bases : List Nat} {records : List Activation}
    (within : SlotsWithin name excused top bases records) (higherUp : top ≤ higher)
    (excuses : ∀ level ≤ records.length, ∀ offset, excused level offset → others level offset) :
    SlotsWithin name others higher bases records := by
  induction records generalizing top higher bases with
  | nil =>
      cases bases with
      | nil => trivial
      | cons base bases => trivial
  | cons record records ih =>
      cases bases with
      | nil => trivial
      | cons base bases =>
          refine ⟨?_, ih within.2 (Nat.le_refl base) ?_⟩
          · intro offset isBound
            exact (within.1 offset isBound).imp (Nat.lt_of_lt_of_le · higherUp)
              (excuses _ (Nat.le_refl _) offset)
          · intro level inside
            exact excuses level (Nat.le_succ_of_le inside)

namespace Standing

/-- Wherever the variable is listed, its slot is in the frame, unless it is excused.  Between an
`ARGS` and its `CALL` the innermost frame has no activation yet. -/
structure HoldsSlots (program : Program) (name : String) (excused : Nat → Nat → Prop)
    (standing : Standing) : Prop where
  atCall : program.CallAt standing.position.pc →
    SlotsWithin name excused standing.position.stack.base standing.position.stack.callers
      standing.activations.records
  elsewhere : ¬ program.CallAt standing.position.pc →
    SlotsWithin name excused standing.position.stack.values.size
      (standing.position.stack.base :: standing.position.stack.callers)
      standing.activations.records

namespace HoldsSlots

variable {program : Program} {name : String} {excused others : Nat → Nat → Prop}

theorem initial (program : Program) (name : String) (excused : Nat → Nat → Prop) :
    HoldsSlots program name excused { position := .initial, activations := {} } := by
  constructor
  · intro _
    trivial
  · intro _
    exact ⟨by simp [Activation.offsetOf?], trivial⟩

theorem lt_frameSize_or_excused {standing : Standing} {offset : Nat}
    (holds : HoldsSlots program name excused standing)
    (notCall : ¬ program.CallAt standing.position.pc)
    (isBound : standing.activations.current.offsetOf? name = some offset) :
    offset < standing.position.stack.frameSize ∨ excused standing.activations.depth offset :=
  ((slotsWithin_records.mp (holds.elsewhere notCall)).1 offset isBound).imp_left
    OperandStack.lt_frameSize_iff.mpr

theorem weaken {standing : Standing} (holds : HoldsSlots program name excused standing)
    (excuses : ∀ level ≤ standing.activations.depth, ∀ offset,
      excused level offset → others level offset) :
    HoldsSlots program name others standing := by
  rw [← ActivationStack.length_records] at excuses
  constructor
  · intro callAt
    exact (holds.atCall callAt).weaken (Nat.le_refl _) excuses
  · intro notCall
    exact (holds.elsewhere notCall).weaken (Nat.le_refl _) excuses

variable {start : Standing} {instruction : Instruction Jump} {reached : Position}

/-- An instruction that stays in its frame is about the innermost activation only. -/
theorem inFrame (holds : HoldsSlots program name excused start)
    (fetched : program.fetch? start.position.pc = some instruction)
    (stays : instruction.staysInFrame) (kept : start.position.stack.FrameLocal reached.stack)
    (notBehind : ¬ program.CallAt (reached.pc + 1))
    (excuses : ∀ level ≤ start.activations.depth, ∀ offset,
      excused level offset → others level offset)
    (inFrame : ∀ offset,
      (instruction.track reached.stack start.activations).current.offsetOf? name = some offset →
      offset < reached.stack.frameSize ∨ others start.activations.depth offset) :
    HoldsSlots program name others
      { position := { reached with pc := reached.pc + 1 }
        activations := instruction.track reached.stack start.activations } := by
  have notHere : ¬ program.CallAt start.position.pc := by
    apply Program.not_callAt_of_fetch? fetched
    rintro destination rfl
    contradiction
  obtain ⟨around, level⟩ := instruction.records_track stays reached.stack start.activations
  refine ⟨fun callAt => absurd callAt notBehind, ?_⟩
  intro _
  refine slotsWithin_records.mpr ⟨?_, ?_⟩
  · intro offset isBound
    rw [level]
    exact (inFrame offset isBound).imp_left OperandStack.lt_frameSize_iff.mp
  · have beneath := (slotsWithin_records.mp ((holds.weaken excuses).elsewhere notHere)).2
    rw [around, kept.base, kept.callers]
    exact beneath

/-- An instruction keeps the variable in every frame whose slots it spares or excuses. -/
theorem carriesOut (holds : HoldsSlots program name excused start)
    (isResolved : program.IsResolved) (pairs : program.PairsCalls)
    (level : start.activations.depth = start.position.returns.length + 1)
    (pending : ∀ address ∈ start.position.returns, program.CallAt address)
    (fetched : program.fetch? start.position.pc = some instruction)
    (executes : start.position.Executes instruction reached)
    (excuses : ∀ level ≤ (instruction.track reached.stack start.activations).depth, ∀ offset,
      excused level offset → others level offset)
    (inFrame : instruction.staysInFrame → ∀ offset,
      (instruction.track reached.stack start.activations).current.offsetOf? name = some offset →
      offset < reached.stack.frameSize ∨ others start.activations.depth offset)
    (beforeCall : ∀ count, instruction = .args count → ∀ offset,
      start.activations.current.offsetOf? name = some offset →
      offset < start.position.stack.frameSize - count ∨ others start.activations.depth offset) :
    HoldsSlots program name others
      { position := { reached with pc := reached.pc + 1 }
        activations := instruction.track reached.stack start.activations } := by
  have notBehind := executes.not_callAt isResolved pairs fetched pending
  have staying (stays : instruction.staysInFrame)
      (kept : start.position.stack.FrameLocal reached.stack) :
      HoldsSlots program name others
        { position := { reached with pc := reached.pc + 1 }
          activations := instruction.track reached.stack start.activations } := by
    rw [(instruction.records_track stays reached.stack start.activations).2] at excuses
    refine holds.inFrame fetched stays kept (notBehind ?_) excuses (inFrame stays)
    rintro count rfl
    contradiction
  cases executes with
  | stays isLocal kept => exact staying (Instruction.staysInFrame_of_isLocal isLocal) kept
  | jumps isJump kept =>
      refine staying ?_ kept
      rcases isJump with rfl | rfl
      · rfl
      · rfl
  | @opens count _ _ opened =>
      have notHere := Program.not_callAt_of_fetch? fetched (by simp)
      obtain ⟨fits, rfl⟩ := OperandStack.eq_of_openFrame opened
      have within := slotsWithin_records.mp ((holds.weaken excuses).elsewhere notHere)
      refine ⟨?_, fun notCall => absurd (pairs.call_of_args _ ⟨_, fetched⟩) notCall⟩
      intro _
      refine slotsWithin_records.mpr ⟨?_, within.2⟩
      intro offset isBound
      refine (beforeCall count rfl offset isBound).imp_left ?_
      intro spared
      change start.position.stack.base + offset < start.position.stack.values.size - count
      simp only [OperandStack.frameSize] at spared
      omega
  | calls =>
      have within := holds.atCall ⟨_, fetched⟩
      refine ⟨fun callAt => absurd callAt (notBehind (by simp)), ?_⟩
      intro _
      refine ⟨by simp [Activation.offsetOf?], within.weaken (Nat.le_refl _) ?_⟩
      intro level inside
      rw [ActivationStack.length_records] at inside
      exact excuses level (Nat.le_succ_of_le inside)
  | @returns owner _ address outer result stack isReturns closed =>
      have notHere := Program.not_callAt_of_fetch? fetched (by simp)
      have inCall : 1 < start.activations.depth := by
        rw [level, isReturns]
        simp
      obtain ⟨caller, callers, isCallers, -, occupied, rfl⟩ := OperandStack.eq_of_closeFrame closed
      have within := (slotsWithin_records.mp (holds.elsewhere notHere)).2
      rw [isCallers] at within
      refine ⟨fun callAt => absurd callAt (notBehind (by simp)), ?_⟩
      intro _
      change SlotsWithin name others _ _ start.activations.pop.records
      rw [← ActivationStack.records_pop inCall] at within
      refine within.weaken ?_ ?_
      · -- the result stands where the closed frame began
        simp only [Array.take_eq_extract, Array.size_push, Array.size_extract]
        omega
      · rw [ActivationStack.length_records]
        exact excuses

end HoldsSlots

end Standing

namespace Debugger

variable {program : Program} {debugger next final : Debugger} {instruction : Instruction Jump}
  {name : String} {level offset : Nat}

/-- The next instruction succeeds and takes this slot from the innermost frame. -/
structure TakesSlot (debugger : Debugger) (instruction : Instruction Jump) (offset : Nat) :
    Prop where
  going : debugger.isDone = false
  fetched : debugger.machine.program.fetch? debugger.state.pc = some instruction
  succeeds : debugger.advance.fault? = none
  inFrame : offset < debugger.state.stack.frameSize
  taken : instruction.leaves debugger.state.stack.frameSize ≤ offset

/-- The next instruction takes the slot of a variable and leaves the variable bound to it. -/
def Orphans (debugger : Debugger) (name : String) (offset : Nat) : Prop :=
  ∃ instruction, debugger.TakesSlot instruction offset ∧
    debugger.current.offsetOf? name = some offset ∧
    debugger.advance.debugger.current.offsetOf? name = some offset

/-- One move of a session that does not return from the call at this level. -/
def StaysInCall (level : Nat) (debugger next : Debugger) : Prop :=
  Continues debugger next ∧ level ≤ next.depth

/-- In the activation that is now at this level, an instruction has taken the slot of the variable
and has left the variable bound to it. -/
def OrphanedAt (program : Program) (name : String) (debugger : Debugger) (level offset : Nat) :
    Prop :=
  ∃ earlier, Reachable program earlier ∧ earlier.depth = level ∧ earlier.Orphans name offset ∧
    Relation.ReflTransGen (StaysInCall level) earlier.advance.debugger debugger

/-- The variable is bound to a slot of the innermost frame, so that it has a value. -/
def HasSlot (debugger : Debugger) (name : String) : Prop :=
  ∃ offset value, debugger.current.offsetOf? name = some offset ∧
    offset < debugger.state.stack.frameSize ∧ debugger.variableValue? name = some value

theorem hasSlot_of_lt (isBound : debugger.current.offsetOf? name = some offset)
    (inFrame : offset < debugger.state.stack.frameSize) : debugger.HasSlot name := by
  obtain ⟨value, loaded⟩ := OperandStack.exists_load inFrame
  refine ⟨offset, value, isBound, inFrame, ?_⟩
  rw [variableValue?, isBound]
  simp only [loaded]
  rfl

theorem OrphanedAt.continues (continues : Continues debugger next)
    (inCall : level ≤ next.depth) (orphaned : OrphanedAt program name debugger level offset) :
    OrphanedAt program name next level offset := by
  obtain ⟨earlier, reachable, isLevel, orphans, since⟩ := orphaned
  exact ⟨earlier, reachable, isLevel, orphans, since.tail ⟨continues, inCall⟩⟩

theorem standing_advance (carried : (carryOut instruction).run debugger = .ok () next)
    (fetched : debugger.machine.program.fetch? debugger.state.pc = some instruction) :
    debugger.advance.debugger.standing = next.standing ∧ debugger.advance.fault? = none := by
  rw [advance_of_carryOut carried fetched]
  exact ⟨standing_judge next, fault?_judge next⟩

theorem exists_carried_of_unfailed
    (fetched : debugger.machine.program.fetch? debugger.state.pc = some instruction)
    (succeeds : debugger.advance.fault? = none) :
    ∃ next, (carryOut instruction).run debugger = .ok () next := by
  cases carried : (carryOut instruction).run debugger with
  | ok value next => exact ⟨next, rfl⟩
  | error fault failed => simp [advance_of_fault carried fetched, Progress.fault?] at succeeds

/-- The effect on the machine behind an instruction that is carried out, as far as the stack
goes. -/
theorem exists_execute_of_carried (carried : (carryOut instruction).run debugger = .ok () next) :
    ∃ before after : State, before.stack = debugger.state.stack ∧ after.stack = next.state.stack ∧
      instruction.execute.run before = .ok () after := by
  obtain ⟨terminal, executed, written, isExecuted, rfl⟩ := exists_execute_of_run_eq_ok carried
  have position := (instruction.position_shown
    { instruction.interrupt debugger.breakpoints executed with terminal := written }).trans
    (instruction.position_interrupt debugger.breakpoints executed)
  exact ⟨{ debugger.state with terminal }, executed, rfl, congrArg Position.stack position.symm,
    isExecuted⟩

/-- Behind an instruction a variable is in the frame, unless it is still bound to a slot that the
instruction does not leave. -/
theorem lt_frameSize_or_taken
    (within : debugger.state.stack.base ≤ debugger.state.stack.values.size)
    (stays : instruction.staysInFrame)
    (notFormal : ∀ parameter slot, instruction ≠ .formal parameter slot)
    (carried : (carryOut instruction).run debugger = .ok () next)
    (isBound : next.current.offsetOf? name = some offset) :
    offset < next.state.stack.frameSize ∨
      (debugger.current.offsetOf? name = some offset ∧
        instruction.leaves debugger.state.stack.frameSize ≤ offset) := by
  obtain ⟨before, after, isBefore, isAfter, executed⟩ := exists_execute_of_carried carried
  have left := Instruction.leaves_le_frameSize stays executed
  rw [current, (carriedOut_of_run_eq_ok carried).activations, ← isAfter] at isBound
  rw [← isAfter, ← isBefore]
  rw [← isBefore] at within
  rcases Instruction.offsetOf?_track stays notFormal isBound with named | ⟨-, -, inFrame⟩ | asBefore
  · exact .inl (Instruction.namedSlot?_lt_frameSize within executed named)
  · exact .inl inFrame
  · rcases Nat.lt_or_ge offset (instruction.leaves before.stack.frameSize) with isLeft | taken
    · exact .inl (Nat.lt_of_lt_of_le isLeft left)
    · exact .inr ⟨asBefore, taken⟩

/-- An instruction that takes the slot of a variable and leaves the variable bound to it orphans the
variable, unless that has happened before. -/
theorem Reachable.orphanedAt_of_taken (reachable : Reachable program debugger)
    (holds : debugger.standing.HoldsSlots program name (OrphanedAt program name debugger))
    (going : debugger.isDone = false) (notCall : ¬ program.CallAt debugger.state.pc)
    (fetched : debugger.machine.program.fetch? debugger.state.pc = some instruction)
    (succeeds : debugger.advance.fault? = none)
    (taken : instruction.leaves debugger.state.stack.frameSize ≤ offset)
    (sameDepth : debugger.advance.debugger.depth = debugger.depth)
    (isBound : debugger.current.offsetOf? name = some offset)
    (stillBound : debugger.advance.debugger.current.offsetOf? name = some offset) :
    OrphanedAt program name debugger.advance.debugger debugger.depth offset := by
  rcases holds.lt_frameSize_or_excused notCall isBound with inFrame | orphaned
  · have takes : debugger.TakesSlot instruction offset :=
      ⟨going, fetched, succeeds, inFrame, taken⟩
    exact ⟨debugger, reachable, rfl, ⟨instruction, takes, isBound, stillBound⟩, .refl⟩
  · exact OrphanedAt.continues (.advance going succeeds) (Nat.le_of_eq sameDepth.symm) orphaned

/-- An instruction keeps a variable in its frame or orphans it. -/
theorem Reachable.holdsSlots_of_carried (isResolved : program.IsResolved)
    (pairs : program.PairsCalls)
    (isFormalFree : program.IsFormalFree)
    (reachable : Reachable program debugger) (going : debugger.isDone = false)
    (fetched : debugger.machine.program.fetch? debugger.state.pc = some instruction)
    (carried : (carryOut instruction).run debugger = .ok () next)
    (holds : debugger.standing.HoldsSlots program name (OrphanedAt program name debugger)) :
    debugger.advance.debugger.standing.HoldsSlots program name
      (OrphanedAt program name debugger.advance.debugger) := by
  have aligned := reachable.aligned isResolved pairs
  have isNext : program.fetch? debugger.state.pc = some instruction := by
    rw [← reachable.program_eq]
    exact fetched
  obtain ⟨behind, succeeds⟩ := standing_advance carried fetched
  obtain ⟨reached, executes, isStanding⟩ := (carriedOut_of_run_eq_ok carried).exists_standing_eq
  obtain ⟨position, activations⟩ := Standing.mk.inj isStanding
  have stack : next.state.stack = reached.stack := congrArg Position.stack position
  have isTracked : debugger.advance.debugger.activations =
      instruction.track reached.stack debugger.activations :=
    (Standing.mk.inj behind).2.trans activations
  rw [behind, isStanding]
  refine holds.carriesOut isResolved pairs reachable.depth_eq aligned.pending isNext executes
    ?_ ?_ ?_
  · intro level inside offset orphaned
    refine orphaned.continues (.advance going succeeds) ?_
    rw [depth, isTracked]
    exact inside
  · intro stays offset isBound
    have notFormal (parameter : String) (slot : Option Nat) :
        instruction ≠ .formal parameter slot := by
      rintro rfl
      exact isFormalFree _ parameter slot isNext
    have notCall : ¬ program.CallAt debugger.state.pc := by
      apply Program.not_callAt_of_fetch? isNext
      rintro destination rfl
      contradiction
    have sameDepth : debugger.advance.debugger.depth = debugger.depth := by
      rw [depth, isTracked]
      exact (instruction.records_track stays reached.stack debugger.activations).2
    have boundNext : next.current.offsetOf? name = some offset := by
      rw [current, activations]
      exact isBound
    have boundBehind : debugger.advance.debugger.current.offsetOf? name = some offset := by
      rw [current, isTracked]
      exact isBound
    rw [← stack]
    refine (lt_frameSize_or_taken aligned.wellFormed.within stays notFormal carried
      boundNext).imp_right ?_
    rintro ⟨boundBefore, taken⟩
    exact reachable.orphanedAt_of_taken holds going notCall fetched succeeds taken sameDepth
      boundBefore boundBehind
  · rintro count rfl offset isBound
    have boundBehind : debugger.advance.debugger.current.offsetOf? name = some offset := by
      rw [current, isTracked]
      exact isBound
    refine (Nat.lt_or_ge offset _).imp_right ?_
    intro taken
    exact reachable.orphanedAt_of_taken holds going
      (Program.not_callAt_of_fetch? isNext (by simp)) fetched succeeds taken
      (by rw [depth, isTracked]; rfl) isBound boundBehind

/-- A variable is in its frame wherever it is listed, unless it was orphaned in the same call. -/
theorem Reachable.holdsSlots (isResolved : program.IsResolved) (pairs : program.PairsCalls)
    (isFormalFree : program.IsFormalFree)
    (reachable : Reachable program debugger) (name : String) :
    debugger.isDone = false →
      debugger.standing.HoldsSlots program name (OrphanedAt program name debugger) := by
  induction reachable with
  | create source terminal => exact fun _ => .initial program name _
  | @adjust debugger adjustment _ ih =>
      intro going
      by_cases isReset : adjustment = .reset
      · subst isReset
        exact .initial program name _
      · have wasGoing : debugger.isDone = false := by
          cases adjustment with
          | reset | turnOff => contradiction
          | _ => exact going
        have isStanding := standing_adjust isReset debugger
        rw [isStanding]
        apply (ih wasGoing).weaken
        intro level inside offset orphaned
        refine orphaned.continues (.adjust isReset) ?_
        rw [depth, (Standing.mk.inj isStanding).2]
        exact inside
  | setRunning _ _ ih =>
      intro going
      apply (ih going).weaken
      intro level inside offset orphaned
      exact orphaned.continues (.setRunning going) inside
  | @advance debugger reachable going ih =>
      intro stillGoing
      obtain ⟨instruction, next, fetched, carried, -⟩ := exists_carried_of_going stillGoing
      exact reachable.holdsSlots_of_carried isResolved pairs isFormalFree going fetched carried
        (ih going)

theorem stopsAt_judge (going : debugger.judge.debugger.isDone = false) :
    debugger.judge.debugger.mode.stopsAt debugger.judge.debugger.depth
      debugger.judge.debugger.currentLine = false := by
  unfold judge at going ⊢
  split
  · next done => simp [done, Progress.debugger] at going
  · split
    · rfl
    · split
      · rfl
      · next unfinished => exact Bool.eq_false_iff.mpr unfinished

/-- No step that is armed is complete before an instruction has been carried out. -/
theorem Reachable.stopsAt_eq_false (reachable : Reachable program debugger) :
    debugger.isDone = false →
      debugger.mode.stopsAt debugger.depth debugger.currentLine = false := by
  induction reachable with
  | create source terminal => exact fun _ => rfl
  | @adjust debugger adjustment _ ih =>
      intro going
      cases adjustment with
      | reset => rfl
      | turnOff => contradiction
      | armStepOver | armStepInto | armStepOut =>
          simp [Adjustment.apply, armStepOver, armStepInto, armStepOut, RunMode.stopsAt,
            Snapshot.isPassed, snapshot, isLaterLine_irrefl, depth, currentLine, current]
      | setBreakpoint line | clearBreakpoint line | clearBreakpoints | startTracing =>
          exact ih going
  | setRunning _ _ ih => exact ih
  | @advance debugger _ _ _ =>
      intro stillGoing
      obtain ⟨instruction, next, -, -, advanced⟩ := exists_carried_of_going stillGoing
      rw [advanced] at stillGoing ⊢
      exact stopsAt_judge stillGoing

/-- No run stops between an `ARGS` and its `CALL`, where the innermost frame has no activation. -/
theorem Reachable.not_callAt_of_stopped {outcome : Outcome} (isResolved : program.IsResolved)
    (pairs : program.PairsCalls) (reachable : Reachable program debugger)
    (going : debugger.isDone = false) (stopped : debugger.advance = .stopped outcome final)
    (stillGoing : final.isDone = false) : ¬ program.CallAt final.state.pc := by
  have isFinal : debugger.advance.debugger = final := by
    rw [stopped]
    rfl
  rw [← isFinal] at stillGoing
  obtain ⟨instruction, next, fetched, carried, advanced⟩ := exists_carried_of_going stillGoing
  have carriedOut := carriedOut_of_run_eq_ok carried
  have notArgs (count : Nat) : instruction ≠ .args count := by
    rintro rfl
    have nextGoing : next.isDone = false := (carriedOut.isDone_of_ne_halt (by simp)).trans going
    have unhit : next.hit = none := carriedOut.hit_eq reachable.hit_eq_none
    have unfinished : next.mode.stopsAt next.depth next.currentLine = false := by
      rw [carriedOut.mode, depth, currentLine, current, carriedOut.activations]
      exact reachable.stopsAt_eq_false going
    rw [stopped, judge_eq_going_iff.mpr ⟨nextGoing, unhit, unfinished, rfl⟩] at advanced
    contradiction
  obtain ⟨reached, executes, position⟩ := carriedOut.position
  have isAddress : final.state.pc = reached.pc + 1 := by
    rw [← isFinal]
    obtain ⟨behind, -⟩ := standing_advance carried fetched
    exact congrArg Position.pc ((Standing.mk.inj behind).1.trans position)
  rw [reachable.program_eq] at fetched
  rw [isAddress]
  exact executes.not_callAt isResolved pairs fetched
    (reachable.aligned isResolved pairs).pending notArgs

/-- Where a run has stopped, each variable that is listed has its slot, unless it was orphaned. -/
theorem Reachable.hasSlot_or_orphaned {fuel : Nat} {stop : Stop} (isResolved : program.IsResolved)
    (pairs : program.PairsCalls)
    (isFormalFree : program.IsFormalFree)
    (reachable : Reachable program debugger)
    (ended : debugger.resume fuel = some (.ok stop, final)) (notOver : stop ≠ .halted)
    (listed : name ∈ final.current.variableNames) :
    final.HasSlot name ∨
      ∃ offset, final.current.offsetOf? name = some offset ∧
        OrphanedAt program name final final.depth offset := by
  have wasGoing : debugger.isDone = false := by
    by_contra done
    rw [resume_of_done (by simpa using done)] at ended
    obtain ⟨isHalted, -⟩ := Prod.mk.inj (Option.some.inj ended)
    exact notOver (Except.ok.inj isHalted).symm
  obtain ⟨last, isLast, lastGoing, stopped⟩ := reachable.exists_stopped_of_resume wasGoing ended
  have going : final.isDone = false := by
    rw [Debugger.resume, if_neg (by simp [wasGoing])] at ended
    have leaves := leaves_of_proceed ended
    cases stop with
    | breakpoint line => exact leaves.1
    | step => exact leaves.1
    | halted => contradiction
  have notCall := isLast.not_callAt_of_stopped isResolved pairs lastGoing stopped going
  have isReached : Reachable program final := reachable.resume ended
  obtain ⟨offset, isBound⟩ := Activation.exists_offsetOf? listed
  have holds := isReached.holdsSlots isResolved pairs isFormalFree name going
  exact (holds.lt_frameSize_or_excused notCall isBound).imp (hasSlot_of_lt isBound)
    fun orphaned => ⟨offset, isBound, orphaned⟩

/-- Behind a `POP` every variable that is listed has its slot. -/
theorem hasSlot_of_pop {count : Nat}
    (fetched : debugger.machine.program.fetch? debugger.state.pc = some (.pop count))
    (succeeds : debugger.advance.fault? = none)
    (listed : name ∈ debugger.advance.debugger.current.variableNames) :
    debugger.advance.debugger.HasSlot name := by
  obtain ⟨next, carried⟩ := exists_carried_of_unfailed fetched succeeds
  obtain ⟨behind, -⟩ := standing_advance carried fetched
  obtain ⟨position, activations⟩ := Standing.mk.inj behind
  obtain ⟨offset, isBound⟩ := Activation.exists_offsetOf? listed
  refine hasSlot_of_lt isBound ?_
  have stack : debugger.advance.debugger.state.stack = next.state.stack :=
    congrArg Position.stack position
  rw [current, activations, (carriedOut_of_run_eq_ok carried).activations, Instruction.track,
    ActivationStack.current_modifyCurrent] at isBound
  rw [stack]
  exact Activation.lt_of_offsetOf?_forgetFrom isBound

/-- Any other instruction orphans the variables whose slots it takes, except one that it names
anew. -/
theorem TakesSlot.orphans (takes : debugger.TakesSlot instruction offset)
    (isBound : debugger.current.offsetOf? name = some offset)
    (notPop : ∀ count, instruction ≠ .pop count)
    (notStore : ∀ slot, instruction ≠ .store slot (some name)) :
    debugger.Orphans name offset := by
  obtain ⟨next, carried⟩ := exists_carried_of_unfailed takes.fetched takes.succeeds
  obtain ⟨behind, -⟩ := standing_advance carried takes.fetched
  refine ⟨instruction, takes, isBound, ?_⟩
  rw [current, (Standing.mk.inj behind).2, (carriedOut_of_run_eq_ok carried).activations,
    Instruction.offsetOf?_track_of_taken takes.taken takes.inFrame notPop notStore]
  exact isBound

/-- What becomes of a variable with its slot.  Let calls be paired in a resolved program without
`FORMAL`.  Where a run has stopped at a breakpoint or for a step, each variable that is listed is
bound to a slot of the frame and has a value, unless in the same call an instruction has taken this
very slot and has left the variable bound to it.  Behind a `POP` there is no such variable; every
other instruction that takes the slot of a variable leaves the variable behind, except a `STORE`
that names it anew. -/
theorem variables_outlive_slots (isResolved : program.IsResolved) (pairs : program.PairsCalls)
    (isFormalFree : program.IsFormalFree) :
    (∀ debugger fuel stop final, Reachable program debugger →
      debugger.resume fuel = some (.ok stop, final) → stop ≠ .halted →
      ∀ name ∈ final.current.variableNames,
        final.HasSlot name ∨
          ∃ offset, final.current.offsetOf? name = some offset ∧
            OrphanedAt program name final final.depth offset) ∧
    (∀ debugger count, Reachable program debugger →
      program.fetch? debugger.state.pc = some (.pop count) → debugger.advance.fault? = none →
      ∀ name ∈ debugger.advance.debugger.current.variableNames,
        debugger.advance.debugger.HasSlot name) ∧
    ∀ debugger instruction offset name, Reachable program debugger →
      debugger.TakesSlot instruction offset → debugger.current.offsetOf? name = some offset →
      (∀ count, instruction ≠ .pop count) → (∀ slot, instruction ≠ .store slot (some name)) →
      debugger.Orphans name offset := by
  refine ⟨?_, ?_, ?_⟩
  · intro debugger fuel stop final reachable ended notOver name listed
    exact reachable.hasSlot_or_orphaned isResolved pairs isFormalFree ended notOver listed
  · intro debugger count reachable fetched succeeds name listed
    rw [← reachable.program_eq] at fetched
    exact hasSlot_of_pop fetched succeeds listed
  · intro debugger instruction offset name _ takes isBound notPop notStore
    exact takes.orphans isBound notPop notStore

/-- A `POP` of a temporary spares both variables, and a `WRITE` orphans the upper one. -/
theorem variables_outlive_slots_written :
    let program : Program :=
      { code := #[.lit 5 (some "x"), .lit 6 (some "y"), .lit 8 none, .pop 1, .write,
          .line (some 1), .halt] }
    ∃ final,
      ((create program [] {}).setBreakpoint 1).resume 9 = some (.ok (.breakpoint 1), final) ∧
      final.current.variableNames = ["x", "y"] ∧ final.variableValue? "x" = some 5 ∧
      final.variableValue? "y" = none ∧ OrphanedAt program "y" final 1 1 := by
  intro program
  have isResolved : program.IsResolved :=
    ⟨[.lit 5 (some "x"), .lit 6 (some "y"), .lit 8 none, .pop 1, .write, .line (some 1), .halt],
      rfl⟩
  have isFormalFree : program.IsFormalFree := by
    intro index parameter slot fetched
    simpa [program] using Array.mem_of_getElem? fetched
  let start := (create program [] {}).setBreakpoint 1
  let final := (fun debugger => debugger.advance.debugger)^[6] start.setRunning
  have reachable : Reachable program start := .adjust (.setBreakpoint 1) (.create [] {})
  have ended : start.resume 9 = some (.ok (.breakpoint 1), final) := by decide +kernel
  have names : final.current.variableNames = ["x", "y"] := by decide +kernel
  have noValue : final.variableValue? "y" = none := by decide +kernel
  have isBound : final.current.offsetOf? "y" = some 1 := by decide +kernel
  have level : final.depth = 1 := by decide +kernel
  refine ⟨final, ended, names, by decide +kernel, noValue, ?_⟩
  rcases (variables_outlive_slots isResolved (by decide) isFormalFree).1 start 9 _ final reachable
    ended (by simp) "y" (by simp [names]) with
    ⟨_, value, -, -, isValue⟩ | ⟨offset, alsoBound, orphaned⟩
  · simp [noValue] at isValue
  · obtain rfl : 1 = offset := Option.some.inj (isBound.symm.trans alsoBound)
    rw [level] at orphaned
    exact orphaned

/-- A variable is still listed when its slot has been written, and shows the next value that is put
there. -/
theorem written_variable_listed :
    let program : Program :=
      { code := #[.lit 5 (some "x"), .write, .line (some 1), .lit 7 none, .line (some 2), .halt] }
    program.IsResolved ∧ program.PairsCalls ∧ program.IsFormalFree ∧
    ∃ first second,
      (create program [] {}).session 9
        [.adjust (.setBreakpoint 1), .adjust (.setBreakpoint 2), .resume] =
          some ([.ok (.breakpoint 1)], first) ∧
      first.current.variableNames = ["x"] ∧ first.current.offsetOf? "x" = some 0 ∧
      first.state.stack.frameSize = 0 ∧ first.variableValue? "x" = none ∧
      first.resume 9 = some (.ok (.breakpoint 2), second) ∧
      second.current.variableNames = ["x"] ∧ second.variableValue? "x" = some 7 := by
  intro program
  have isResolved : program.IsResolved :=
    ⟨[.lit 5 (some "x"), .write, .line (some 1), .lit 7 none, .line (some 2), .halt], rfl⟩
  have isFormalFree : program.IsFormalFree := by
    intro index parameter slot fetched
    simpa [program] using Array.mem_of_getElem? fetched
  exact ⟨isResolved, by decide, isFormalFree, _, _, rfl, rfl, rfl, rfl, rfl, rfl, rfl, rfl⟩

end Debugger

end StackDebugger
