import StackDebugger.Proofs.Debugger.CallStructure
import StackDebugger.Proofs.Debugger.FirstStop

/-!
# Steps end in the activation they were armed in

A step is judged by depths and lines alone.  As long as it is not complete, the call in which
it was armed has not returned: its activation lies between those of its callers, which nothing
touches, and those of the calls made since, and its line changes only by a `LINE` that it carries
out itself.  So a step out ends in the caller, and a step over there or on a later line of the
same call, whatever has been called and has returned in between.
-/

namespace StackDebugger

namespace ActivationStack

def records (stack : ActivationStack) : List Activation :=
  stack.calls ++ [stack.outermost]

theorem toList_eq_reverse (stack : ActivationStack) : stack.toList = stack.records.reverse := by
  simp [toList, records]

@[simp] theorem length_records (stack : ActivationStack) : stack.records.length = stack.depth := by
  simp [records, depth]

theorem records_eq_cons (stack : ActivationStack) :
    stack.records = stack.current :: stack.records.tail := by
  rcases stack with ⟨outermost, _ | ⟨innermost, around⟩⟩ <;> rfl

theorem records_push (stack : ActivationStack) : stack.push.records = {} :: stack.records := rfl

theorem records_modifyCurrent (stack : ActivationStack) (change : Activation → Activation) :
    (stack.modifyCurrent change).records = change stack.current :: stack.records.tail := by
  rcases stack with ⟨outermost, _ | ⟨innermost, around⟩⟩ <;> rfl

theorem records_pop {stack : ActivationStack} (inCall : 1 < stack.depth) :
    stack.pop.records = stack.records.tail := by
  rcases stack with ⟨outermost, _ | ⟨innermost, around⟩⟩
  · simp [depth] at inCall
  · rfl

theorem toList_take (stack : ActivationStack) :
    stack.toList.take (stack.depth - 1) = stack.records.tail.reverse := by
  have length : stack.records.tail.reverse.length = stack.depth - 1 := by simp
  rw [toList_eq_reverse, records_eq_cons, List.reverse_cons, List.tail_cons, ← length,
    List.take_left]

end ActivationStack

namespace Instruction

variable {instruction : Instruction Jump}

/-- The innermost activation is on the line that the instruction marks, or where it was. -/
theorem currentLine_track (isLocal : instruction.isLocal) (stack : OperandStack)
    (activations : ActivationStack) :
    (instruction.track stack activations).current.currentLine =
        activations.current.currentLine ∨
      ∃ line, instruction = .line (some line) ∧
        (instruction.track stack activations).current.currentLine = some line := by
  cases instruction with
  | args count | call destination | ret owner | goto destination => contradiction
  | line number =>
      cases number with
      | none => exact .inl rfl
      | some number => exact .inr ⟨number, rfl, by simp [track, Activation.reachLine]⟩
  | lit value name | load offset name | store offset name =>
      cases name with
      | none => exact .inl rfl
      | some name => simp [track, Activation.bind]
  | pop count => simp [track, Activation.forgetFrom]
  | function name first last => simp [track, Activation.enterFunction]
  | formal name offset => simp [track, Activation.bind]
  | bop operator | falseBranch destination | label name | halt | read | write | dump mode =>
      exact .inl rfl

/-- An instruction stays in its call, where it can move the line, or makes a call, or returns
from one. -/
theorem track_cases {start reached : Position} (executes : start.Executes instruction reached)
    (stack : OperandStack) (activations : ActivationStack) :
    (reached.returns = start.returns ∧
      (instruction.track stack activations).records.tail = activations.records.tail ∧
      ((instruction.track stack activations).current.currentLine =
          activations.current.currentLine ∨
        ∃ line, instruction = .line (some line) ∧
          (instruction.track stack activations).current.currentLine = some line)) ∨
    (reached.returns = start.pc :: start.returns ∧
      instruction.track stack activations = activations.push) ∨
    (start.returns = reached.pc :: reached.returns ∧
      instruction.track stack activations = activations.pop) := by
  cases executes with
  | stays isLocal kept =>
      refine .inl ⟨rfl, ?_, currentLine_track isLocal stack activations⟩
      obtain ⟨change, tracked⟩ := exists_track_eq_modifyCurrent isLocal stack activations
      rw [tracked, ActivationStack.records_modifyCurrent]
      rfl
  | jumps isJump kept =>
      rcases isJump with rfl | rfl
      · exact .inl ⟨rfl, rfl, .inl rfl⟩
      · exact .inl ⟨rfl, rfl, .inl rfl⟩
  | opens opened => exact .inl ⟨rfl, rfl, .inl rfl⟩
  | calls => exact .inr (.inl ⟨rfl, rfl⟩)
  | returns isReturns closed => exact .inr (.inr ⟨isReturns, rfl⟩)

end Instruction

namespace Standing

/-- The call that was active at `start` has not returned: `record` is its activation, over those
of its callers and under one for every call made since. -/
structure Lingers (start standing : Standing) (above : List Activation) (record : Activation) :
    Prop where
  returns : ∃ addresses, addresses.length = above.length ∧
    standing.position.returns = addresses ++ start.position.returns
  records : standing.activations.records = above ++ record :: start.activations.records.tail

/-- The call that was active at `start` has just returned. -/
structure Returns (start standing : Standing) : Prop where
  address : ∃ address, start.position.returns = address :: standing.position.returns ∧
    standing.position.pc = address + 1
  records : standing.activations.records = start.activations.records.tail

/-- What an instruction leads to while the call that was active at `start` lingers: the call
lingers on, on its line or on one that the instruction marks, or it returns. -/
inductive Ensues (start : Standing) (instruction : Instruction Jump) (above : List Activation)
    (record : Activation) (next : Standing) : Prop where
  | lingers {newer : List Activation} {changed : Activation} :
      start.Lingers next newer changed → changed.currentLine = record.currentLine →
      Ensues start instruction above record next
  | marks {changed : Activation} {line : Nat} :
      above = [] → instruction = .line (some line) → start.Lingers next [] changed →
      changed.currentLine = some line → Ensues start instruction above record next
  | returns : start.Returns next → Ensues start instruction above record next

variable {instruction : Instruction Jump} {start standing next : Standing}
  {above : List Activation} {record : Activation}

theorem Returns.depth_lt (returns : Returns start standing) :
    standing.activations.depth < start.activations.depth := by
  have length := congrArg List.length returns.records
  have positive := congrArg List.length start.activations.records_eq_cons
  simp only [ActivationStack.length_records, List.length_cons] at length positive
  omega

theorem Lingers.refl (start : Standing) : start.Lingers start [] start.activations.current where
  returns := ⟨[], rfl, rfl⟩
  records := start.activations.records_eq_cons

namespace Lingers

theorem suffix (lingers : Lingers start standing above record) :
    start.position.returns <:+ standing.position.returns := by
  obtain ⟨addresses, -, isReturns⟩ := lingers.returns
  exact ⟨addresses, isReturns.symm⟩

theorem depth_eq (lingers : Lingers start standing above record) :
    standing.activations.depth = above.length + start.activations.depth := by
  have length := congrArg List.length lingers.records
  have positive := congrArg List.length start.activations.records_eq_cons
  simp only [ActivationStack.length_records, List.length_append, List.length_cons]
    at length positive
  omega

theorem current_eq (lingers : Lingers start standing [] record) :
    standing.activations.current = record := by
  have records := lingers.records
  rw [standing.activations.records_eq_cons] at records
  exact (List.cons.inj records).1

theorem returns_eq (lingers : Lingers start standing [] record) :
    standing.position.returns = start.position.returns := by
  obtain ⟨addresses, length, isReturns⟩ := lingers.returns
  obtain rfl := List.eq_nil_of_length_eq_zero length
  exact isReturns

theorem stays (lingers : Lingers start standing above record)
    (sameReturns : next.position.returns = standing.position.returns)
    (sameTail : next.activations.records.tail = standing.activations.records.tail)
    (lineKept : next.activations.current.currentLine = standing.activations.current.currentLine ∨
      ∃ line, instruction = .line (some line) ∧
        next.activations.current.currentLine = some line) :
    start.Ensues instruction above record next := by
  obtain ⟨addresses, length, isReturns⟩ := lingers.returns
  have nextReturns := sameReturns.trans isReturns
  have nextRecords := next.activations.records_eq_cons
  rw [sameTail, lingers.records] at nextRecords
  cases above with
  | nil =>
      have still : start.Lingers next [] next.activations.current :=
        ⟨⟨addresses, length, nextReturns⟩, nextRecords⟩
      rw [lingers.current_eq] at lineKept
      rcases lineKept with same | ⟨line, isLine, marked⟩
      · exact .lingers still same
      · exact .marks rfl isLine still marked
  | cons innermost above =>
      have still : start.Lingers next (next.activations.current :: above) record :=
        ⟨⟨addresses, length, nextReturns⟩, nextRecords⟩
      exact .lingers still rfl

theorem calls (lingers : Lingers start standing above record)
    (pushed : next.position.returns = standing.position.pc :: standing.position.returns)
    (isPush : next.activations = standing.activations.push) :
    start.Lingers next ({} :: above) record := by
  obtain ⟨addresses, length, isReturns⟩ := lingers.returns
  refine ⟨⟨standing.position.pc :: addresses, ?_, ?_⟩, ?_⟩
  · rw [List.length_cons, List.length_cons, length]
  · rw [pushed, isReturns, List.cons_append]
  · rw [isPush, ActivationStack.records_push, lingers.records, List.cons_append]

theorem pops {address : Nat} (level : start.activations.depth = start.position.returns.length + 1)
    (lingers : Lingers start standing above record)
    (popped : standing.position.returns = address :: next.position.returns)
    (isPc : next.position.pc = address + 1)
    (isPop : next.activations = standing.activations.pop) :
    start.Ensues instruction above record next := by
  obtain ⟨addresses, length, isReturns⟩ := lingers.returns
  have nextRecords : next.activations.records = standing.activations.records.tail := by
    have pending := congrArg List.length (isReturns.symm.trans popped)
    have depth := lingers.depth_eq
    simp only [List.length_append, List.length_cons] at pending
    rw [isPop]
    exact ActivationStack.records_pop (by omega)
  rw [lingers.records] at nextRecords
  rw [isReturns] at popped
  cases addresses with
  | nil =>
      obtain rfl := List.eq_nil_of_length_eq_zero length.symm
      exact .returns ⟨⟨address, popped, isPc⟩, nextRecords⟩
  | cons innermost addresses =>
      obtain ⟨-, isOuter⟩ := List.cons.inj popped
      cases above with
      | nil => contradiction
      | cons inner above =>
          have still : start.Lingers next above record :=
            ⟨⟨addresses, Nat.succ.inj length, isOuter.symm⟩, nextRecords⟩
          exact .lingers still rfl

/-- Until the call returns, an instruction leaves its callers alone and moves its line only
if it is a `LINE` of this very call. -/
theorem carriesOut {reached : Position}
    (level : start.activations.depth = start.position.returns.length + 1)
    (lingers : Lingers start standing above record)
    (executes : standing.position.Executes instruction reached) (stack : OperandStack) :
    start.Ensues instruction above record
      { position := { reached with pc := reached.pc + 1 }
        activations := instruction.track stack standing.activations } := by
  rcases Instruction.track_cases executes stack standing.activations with
    ⟨sameReturns, sameTail, lineKept⟩ | ⟨pushed, isPush⟩ | ⟨popped, isPop⟩
  · exact lingers.stays sameReturns sameTail lineKept
  · exact .lingers (lingers.calls pushed isPush) rfl
  · exact lingers.pops level popped rfl isPop

end Lingers

end Standing

theorem isLaterLine_irrefl (line : Option Nat) : isLaterLine line line = false := by
  cases line with
  | none => rfl
  | some line => simp [isLaterLine]

namespace Debugger

/-- The call that was active has returned: the run is behind it, in the caller, and all
activations but that of the call are as they were. -/
structure ReturnedFrom (start final : Debugger) : Prop where
  depth : 2 ≤ start.depth
  address : ∃ address, start.state.returns = address :: final.state.returns ∧
    final.state.pc = address + 1
  activations : final.activations.toList = start.activations.toList.take (start.depth - 1)

/-- The call that was active has reached a later line with the last of `count + 1`
instructions, and has not returned in between. -/
structure MovedTo (start : Debugger) (count line : Nat) (final : Debugger) : Prop where
  returns : final.state.returns = start.state.returns
  callers : final.activations.toList.take (start.depth - 1) =
    start.activations.toList.take (start.depth - 1)
  marked : ∃ before reached, start.after? count = some before ∧
    before.state.returns = start.state.returns ∧
    start.last? (count + 1) = some ⟨.line (some line), .ok () reached⟩
  stayed : ∀ earlier ≤ count, ∃ passed, start.after? earlier = some passed ∧
    start.state.returns <:+ passed.state.returns
  isLater : isLaterLine (some line) start.currentLine

variable {program : Program} {start debugger next final : Debugger}
  {instruction : Instruction Jump}

/-- A run with a step armed that is not complete yet. -/
structure Steps (start debugger : Debugger) (above : List Activation) (record : Activation) :
    Prop where
  mode : debugger.mode = start.mode
  lingers : start.standing.Lingers debugger.standing above record
  line : start.mode = .stepOver start.snapshot →
    isLaterLine record.currentLine start.currentLine = false

/-- The step that is armed is over once the call has returned. -/
def EndsOnReturn (start : Debugger) : Prop :=
  start.mode = .stepOver start.snapshot ∨ start.mode = .stepOut start.snapshot

theorem Steps.refl (start : Debugger) : start.Steps start [] start.current where
  mode := rfl
  lingers := .refl start.standing
  line _ := isLaterLine_irrefl _

theorem stopsAt_of_depth_lt (ends : start.EndsOnReturn) (sameMode : next.mode = start.mode)
    (shallower : next.depth < start.depth) :
    next.mode.stopsAt next.depth next.currentLine = true := by
  rw [sameMode]
  rcases ends with isOver | isOut
  · rw [isOver]
    simp [RunMode.stopsAt, Snapshot.isPassed, snapshot, shallower]
  · rw [isOut]
    simp [RunMode.stopsAt, snapshot, shallower]

/-- A step over is complete in its own call where that has reached a later line. -/
theorem stopsAt_of_depth_eq (sameMode : next.mode = start.mode)
    (isOver : start.mode = .stepOver start.snapshot) (sameDepth : next.depth = start.depth) :
    next.mode.stopsAt next.depth next.currentLine =
      isLaterLine next.currentLine start.currentLine := by
  rw [sameMode, isOver]
  simp [RunMode.stopsAt, Snapshot.isPassed, snapshot, sameDepth]

namespace Steps

variable {above : List Activation} {record : Activation}

theorem carriesOut (level : start.depth = start.state.returns.length + 1)
    (steps : start.Steps debugger above record)
    (tried : debugger.attempt? = some ⟨instruction, .ok () next⟩) :
    next.mode = start.mode ∧ start.standing.Ensues instruction above record next.standing := by
  have carriedOut := carriedOut_of_run_eq_ok (run_carryOut_of_attempt? tried).2
  obtain ⟨reached, executes, isStanding⟩ := carriedOut.exists_standing_eq
  have sameLevel : start.standing.activations.depth =
      start.standing.position.returns.length + 1 := level
  rw [isStanding]
  exact ⟨carriedOut.mode.trans steps.mode,
    steps.lingers.carriesOut sameLevel executes reached.stack⟩

theorem passes (level : start.depth = start.state.returns.length + 1)
    (ends : start.EndsOnReturn) (steps : start.Steps debugger above record)
    (tried : debugger.attempt? = some ⟨instruction, .ok () next⟩)
    (incomplete : next.mode.stopsAt next.depth next.currentLine = false) :
    ∃ newer changed, start.Steps next newer changed := by
  obtain ⟨sameMode, ensues⟩ := steps.carriesOut level tried
  cases ensues with
  | lingers lingers sameLine =>
      refine ⟨_, _, sameMode, lingers, ?_⟩
      intro isOver
      rw [sameLine]
      exact steps.line isOver
  | marks inCall isLine lingers marked =>
      refine ⟨_, _, sameMode, lingers, ?_⟩
      intro isOver
      have sameDepth : next.depth = start.depth := lingers.depth_eq.trans (Nat.zero_add _)
      rw [← lingers.current_eq]
      exact (stopsAt_of_depth_eq sameMode isOver sameDepth).symm.trans incomplete
  | returns returned =>
      have complete := stopsAt_of_depth_lt ends sameMode returned.depth_lt
      rw [incomplete] at complete
      contradiction

/-- Where the call lingers, only a step over is complete, and only on a later line. -/
theorem isLater_of_lingers {newer : List Activation} {changed : Activation}
    (ends : start.EndsOnReturn) (sameMode : next.mode = start.mode)
    (lingers : start.standing.Lingers next.standing newer changed)
    (complete : next.mode.stopsAt next.depth next.currentLine = true) :
    start.mode = .stepOver start.snapshot ∧
      isLaterLine changed.currentLine start.currentLine := by
  have depth : next.depth = newer.length + start.depth := lingers.depth_eq
  rw [sameMode] at complete
  rcases ends with isOver | isOut
  · have passed : next.depth < start.depth ∨
        next.depth = start.depth ∧ isLaterLine next.currentLine start.currentLine := by
      simpa [isOver, RunMode.stopsAt, Snapshot.isPassed, snapshot] using complete
    obtain ⟨sameDepth, isLater⟩ := passed.resolve_left (by omega)
    obtain rfl : newer = [] := List.eq_nil_of_length_eq_zero (by omega)
    rw [← lingers.current_eq]
    exact ⟨isOver, isLater⟩
  · have shallower : next.depth < start.depth := by
      simpa [isOut, RunMode.stopsAt, snapshot] using complete
    omega

/-- The instruction that completes a step returns from the call, or marks a later line in it
while a step over is armed. -/
theorem completes (level : start.depth = start.state.returns.length + 1)
    (ends : start.EndsOnReturn) (steps : start.Steps debugger above record)
    (tried : debugger.attempt? = some ⟨instruction, .ok () next⟩)
    (complete : next.mode.stopsAt next.depth next.currentLine = true) :
    start.standing.Returns next.standing ∨
      start.mode = .stepOver start.snapshot ∧ debugger.state.returns = start.state.returns ∧
        (∃ changed, start.standing.Lingers next.standing [] changed) ∧
        ∃ line, instruction = .line (some line) ∧ isLaterLine (some line) start.currentLine := by
  obtain ⟨sameMode, ensues⟩ := steps.carriesOut level tried
  cases ensues with
  | lingers lingers sameLine =>
      obtain ⟨isOver, isLater⟩ := isLater_of_lingers ends sameMode lingers complete
      rw [sameLine, steps.line isOver] at isLater
      contradiction
  | marks inCall isLine lingers marked =>
      obtain ⟨isOver, isLater⟩ := isLater_of_lingers ends sameMode lingers complete
      subst inCall
      rw [marked] at isLater
      exact .inr ⟨isOver, steps.lingers.returns_eq, ⟨_, lingers⟩, _, isLine, isLater⟩
  | returns returned => exact .inl returned

end Steps

/-- It is the last instruction that completes a step. -/
theorem StopsAfter.exists_of_step {stopCount : Nat}
    (stops : start.StopsAfter stopCount (.ok .step) final) :
    ∃ count instruction reached, stopCount = count + 1 ∧
      start.last? (count + 1) = some ⟨instruction, .ok () reached⟩ ∧
      reached.mode.stopsAt reached.depth reached.currentLine = true ∧
      final = reached.suspend := by
  rcases stop?_cases stops.stops with ⟨⟨instruction, result⟩, isLast, made⟩ |
    ⟨_, -, -, halted, -⟩
  · obtain ⟨positive, -⟩ := after?_of_last? isLast
    obtain ⟨count, rfl⟩ : ∃ count, stopCount = count + 1 := ⟨stopCount - 1, by omega⟩
    rcases Attempt.stop?_cases made with ⟨_, _, -, failed, -⟩ | ⟨reached, isReached, made⟩
    · contradiction
    · cases result with
      | error fault failed => contradiction
      | ok value next =>
          obtain rfl := Option.some.inj isReached
          rcases made with ⟨halted, -⟩ | ⟨_, broken, -⟩ | ⟨complete, -, isFinal⟩
          · simp at halted
          · simp at broken
          · exact ⟨count, instruction, next, rfl, isLast, complete, isFinal⟩
  · simp at halted

theorem returnedFrom_of_returns (level : start.depth = start.state.returns.length + 1)
    (returns : start.standing.Returns next.standing) : ReturnedFrom start next.suspend := by
  obtain ⟨address, isReturns, isPc⟩ := returns.address
  have pending : start.state.returns = address :: next.state.returns := isReturns
  refine ⟨?_, ⟨address, pending, isPc⟩, ?_⟩
  · rw [level, pending, List.length_cons]
    omega
  · rw [depth, start.activations.toList_take, ActivationStack.toList_eq_reverse]
    exact congrArg List.reverse returns.records

theorem toList_take_of_lingers {record : Activation}
    (lingers : start.standing.Lingers next.standing [] record) :
    next.activations.toList.take (start.depth - 1) =
      start.activations.toList.take (start.depth - 1) := by
  have sameDepth : next.activations.depth = start.activations.depth :=
    lingers.depth_eq.trans (Nat.zero_add _)
  have sameTail : next.activations.records.tail = start.activations.records.tail :=
    (congrArg List.tail lingers.records).trans rfl
  rw [depth, start.activations.toList_take, ← sameDepth, next.activations.toList_take, sameTail]

/-- A step that ends with its call ends there, or on a later line of the call if it is one
over a line. -/
theorem StopsAfter.returnedFrom_or_movedTo {stopCount : Nat}
    (level : start.depth = start.state.returns.length + 1) (ends : start.EndsOnReturn)
    (stops : start.StopsAfter stopCount (.ok .step) final) :
    ReturnedFrom start final ∨
      start.mode = .stepOver start.snapshot ∧
        ∃ count line, stopCount = count + 1 ∧ start.MovedTo count line final := by
  obtain ⟨count, instruction, reached, rfl, isLast, complete, rfl⟩ := stops.exists_of_step
  have passed {earlier : Nat} (isEarlier : earlier ≤ count) : ∃ debugger,
      start.after? earlier = some debugger ∧ ∃ above record, start.Steps debugger above record := by
    refine exists_after?_of_unstopped ⟨[], _, .refl start⟩ ?_
      fun before isBefore => stops.first before (by omega)
    rintro debugger next instruction ⟨above, record, steps⟩ tried incomplete
    exact steps.passes level ends tried incomplete
  obtain ⟨before, isBefore, above, record, steps⟩ := passed (Nat.le_refl count)
  have tried : before.attempt? = some ⟨instruction, .ok () reached⟩ := by
    rw [last?, isBefore] at isLast
    exact isLast
  rcases steps.completes level ends tried complete with
    returns | ⟨isOver, sameReturns, ⟨changed, lingers⟩, line, rfl, isLater⟩
  · exact .inl (returnedFrom_of_returns level returns)
  · refine .inr ⟨isOver, count, line, rfl, lingers.returns_eq, toList_take_of_lingers lingers,
      ⟨before, reached, isBefore, sameReturns, isLast⟩, ?_, isLater⟩
    intro earlier isEarlier
    obtain ⟨debugger, isAfter, _, _, steps⟩ := passed isEarlier
    exact ⟨debugger, isAfter, steps.lingers.suffix⟩

theorem Reachable.returnedFrom_or_movedTo {fuel : Nat} (reachable : Reachable program debugger)
    (going : debugger.isDone = false) (ends : debugger.EndsOnReturn)
    (ended : debugger.resume fuel = some (.ok .step, final)) :
    ReturnedFrom debugger final ∨
      debugger.mode = .stepOver debugger.snapshot ∧
        ∃ count line, debugger.setRunning.StopsAfter (count + 1) (.ok .step) final ∧
          debugger.setRunning.MovedTo count line final := by
  have level : debugger.setRunning.depth = debugger.setRunning.state.returns.length + 1 :=
    reachable.depth_eq
  have endsRunning : debugger.setRunning.EndsOnReturn := ends
  obtain ⟨_, stops⟩ :=
    (exists_resume_iff_stopsAfter going reachable.hit_eq_none).mp ⟨fuel, ended⟩
  rcases stops.returnedFrom_or_movedTo level endsRunning with ⟨depth, address, activations⟩ |
    ⟨isOver, count, line, rfl, moved⟩
  · exact .inl ⟨depth, address, activations⟩
  · exact .inr ⟨isOver, count, line, stops, moved⟩

/-- Steps end in the right activation.  A step out that is complete has left the call in which
it was armed for its caller.  A step over that is complete has done so as well, or has reached a
later line with a `LINE` of that very call, which has been pending or active all the time. -/
theorem steps_end_in_place (reachable : Reachable program debugger)
    (going : debugger.isDone = false) (fuel : Nat) :
    (∀ final, debugger.armStepOut.resume fuel = some (.ok .step, final) →
      ReturnedFrom debugger final) ∧
    ∀ final, debugger.armStepOver.resume fuel = some (.ok .step, final) →
      ReturnedFrom debugger final ∨
        ∃ count line, debugger.armStepOver.setRunning.StopsAfter (count + 1) (.ok .step) final ∧
          debugger.armStepOver.setRunning.MovedTo count line final := by
  constructor
  · intro final ended
    have armed : Reachable program debugger.armStepOut := reachable.adjust .armStepOut
    rcases armed.returnedFrom_or_movedTo going (.inr rfl) ended with
      ⟨depth, address, activations⟩ | ⟨isOver, -⟩
    · exact ⟨depth, address, activations⟩
    · contradiction
  · intro final ended
    have armed : Reachable program debugger.armStepOver := reachable.adjust .armStepOver
    rcases armed.returnedFrom_or_movedTo going (.inl rfl) ended with
      ⟨depth, address, activations⟩ | ⟨-, moved⟩
    · exact .inl ⟨depth, address, activations⟩
    · exact .inr moved

/-- A function that calls itself: a step over the inner call ends on the next line of the outer
one, and a step out in the caller of that. -/
theorem steps_end_in_place_recursive :
    let program : Program :=
      { code := #[.lit 1 none, .args 1, .call ⟨"f", 4⟩, .halt, .label "f", .line (some 6),
          .load 0 none, .falseBranch ⟨"out", 13⟩, .lit 0 none, .args 1, .call ⟨"f", 4⟩, .pop 1,
          .line (some 7), .label "out", .lit 9 none, .ret none]
        labels := [("f", 4), ("out", 13)] }
    let debugger : Debugger :=
      { create program [] {} with
        machine := ⟨program, { pc := 6, stack := ⟨#[1], 0, [0]⟩, returns := [2] }⟩
        activations := { calls := [{ currentLine := some 6 }] } }
    (create program [] {}).session 9
        [.adjust (.setBreakpoint 6), .resume, .adjust .clearBreakpoints] =
      some ([.ok (.breakpoint 6)], debugger) ∧
    (∃ later, debugger.armStepOver.resume 20 = some (.ok .step, later) ∧
      later.currentLine = some 7 ∧
      ∃ count line, debugger.armStepOver.setRunning.MovedTo count line later) ∧
    ∃ out, debugger.armStepOut.resume 20 = some (.ok .step, out) ∧ ReturnedFrom debugger out := by
  intro program debugger
  have ended : (create program [] {}).session 9
      [.adjust (.setBreakpoint 6), .resume, .adjust .clearBreakpoints] =
    some ([.ok (.breakpoint 6)], debugger) := by decide +kernel
  have reachable := (Reachable.create [] {}).session ended
  obtain ⟨steppedOut, steppedOver⟩ := steps_end_in_place reachable rfl 20
  have overResult : (debugger.armStepOver.resume 20).map (fun ended =>
      (ended.1, ended.2.currentLine, ended.2.state.returns)) = some (.ok .step, some 7, [2]) := by
    decide +kernel
  have outResult : (debugger.armStepOut.resume 20).map Prod.fst = some (.ok .step) := by
    decide +kernel
  obtain ⟨⟨_, later⟩, isOver, equal⟩ := Option.map_eq_some_iff.mp overResult
  obtain ⟨⟨_, out⟩, isOut, rfl⟩ := Option.map_eq_some_iff.mp outResult
  simp only [Prod.mk.injEq] at equal
  obtain ⟨rfl, line, inCall⟩ := equal
  refine ⟨ended, ⟨later, isOver, line, ?_⟩, out, isOut, steppedOut out isOut⟩
  rcases steppedOver later isOver with returned | ⟨count, number, -, moved⟩
  · obtain ⟨address, isReturns, -⟩ := returned.address
    rw [inCall] at isReturns
    have pending : [2] = [address, 2] := isReturns
    simp at pending
  · exact ⟨count, number, moved⟩

end Debugger

end StackDebugger
