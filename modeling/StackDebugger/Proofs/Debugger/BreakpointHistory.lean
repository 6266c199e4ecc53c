import StackDebugger.Proofs.Debugger.BreakpointStops

/-!
# Breakpoints follow from what was asked

Only lines that the program marks take a breakpoint.  Resets, runs and steps leave breakpoints
alone, so that a line carries one exactly if it took one and has not been asked to give it up since,
however long ago that was.  The lines are kept in strictly ascending order.
-/

namespace StackDebugger

theorem LineSet.ascending_insert {lines : LineSet} (ascending : lines.Pairwise (· < ·))
    (line : Nat) : (insert line lines).Pairwise (· < ·) := by
  induction lines with
  | nil => exact List.pairwise_singleton _ _
  | cons first rest ih =>
      have ⟨least, others⟩ := List.pairwise_cons.mp ascending
      rw [insert]
      split
      · next before =>
          refine List.pairwise_cons.mpr ⟨?_, ascending⟩
          intro other member
          rcases List.mem_cons.mp member with rfl | later
          · exact before
          · exact Nat.lt_trans before (least other later)
      · split
        · exact ascending
        · refine List.pairwise_cons.mpr ⟨?_, ih others⟩
          intro other member
          rcases mem_insert.mp member with rfl | later
          · omega
          · exact least other later

/-- The operation takes a breakpoint off a line. -/
def Operation.Disarms (line : Nat) : Operation → Prop
  | .adjust (.clearBreakpoint other) => other = line
  | .adjust .clearBreakpoints => True
  | _ => False

/-- The operations have set a breakpoint on a line, and none behind that has taken it off. -/
def Operation.LeaveSet (line : Nat) (operations : List Operation) : Prop :=
  ∃ before after, operations = before ++ .adjust (.setBreakpoint line) :: after ∧
    ∀ operation ∈ after, ¬ operation.Disarms line

namespace Operation

variable {line : Nat} {passed : List Operation}

/-- The last operation sets the breakpoint, or it leaves one that was set before it. -/
theorem leaveSet_concat {operation : Operation} :
    LeaveSet line (passed ++ [operation]) ↔
      operation = .adjust (.setBreakpoint line) ∨
        LeaveSet line passed ∧ ¬ operation.Disarms line := by
  constructor
  · rintro ⟨before, after, isSplit, kept⟩
    rcases after.eq_nil_or_concat with rfl | ⟨between, last, rfl⟩
    · obtain ⟨-, isLast⟩ := List.append_inj' isSplit rfl
      exact .inl (List.singleton_inj.mp isLast)
    · rw [List.concat_eq_append] at isSplit kept
      rw [← List.cons_append, ← List.append_assoc] at isSplit
      obtain ⟨isPassed, isLast⟩ := List.append_inj' isSplit rfl
      obtain rfl := List.singleton_inj.mp isLast
      obtain ⟨keptBetween, keptLast⟩ := List.forall_mem_append.mp kept
      exact .inr ⟨⟨before, between, isPassed, keptBetween⟩, keptLast _ List.mem_cons_self⟩
  · rintro (rfl | ⟨⟨before, after, rfl, kept⟩, keptLast⟩)
    · exact ⟨passed, [], rfl, by simp⟩
    · refine ⟨before, after ++ [operation], by simp, ?_⟩
      exact List.forall_mem_append.mpr ⟨kept, by simpa using keptLast⟩

end Operation

/-- The breakpoints that operations have left on the lines that a program marks. -/
structure Breakpoints.Follow (program : Program) (operations : List Operation)
    (breakpoints : Breakpoints) : Prop where
  valid : breakpoints.valid = program.markedLines
  ascending : breakpoints.armed.Pairwise (· < ·)
  armed : ∀ line, line ∈ breakpoints.armed ↔
    line ∈ program.markedLines ∧ Operation.LeaveSet line operations

namespace Breakpoints.Follow

variable {program : Program} {passed : List Operation} {breakpoints : Breakpoints}

theorem ofProgram (program : Program) : (Breakpoints.ofProgram program).Follow program [] := by
  refine ⟨rfl, List.Pairwise.nil, ?_⟩
  intro line
  simp [Breakpoints.ofProgram, Operation.LeaveSet]

/-- An operation that neither sets nor clears breakpoints is as good as none. -/
theorem unasked {operation : Operation} (follow : breakpoints.Follow program passed)
    (sets : ∀ line, operation ≠ .adjust (.setBreakpoint line))
    (clears : ∀ line, ¬ operation.Disarms line) :
    breakpoints.Follow program (passed ++ [operation]) := by
  refine ⟨follow.valid, follow.ascending, ?_⟩
  intro line
  rw [follow.armed, Operation.leaveSet_concat]
  simp [sets line, clears line]

theorem arm (follow : breakpoints.Follow program passed) (line : Nat) :
    (breakpoints.arm line).Follow program (passed ++ [.adjust (.setBreakpoint line)]) := by
  have asked {other : Nat} :
      Operation.LeaveSet other (passed ++ [.adjust (.setBreakpoint line)]) ↔
        other = line ∨ Operation.LeaveSet other passed := by
    rw [Operation.leaveSet_concat]
    simp [Operation.Disarms, eq_comm]
  have accepts : breakpoints.isValid line = true ↔ line ∈ program.markedLines := by
    rw [isValid, List.contains_iff_mem, follow.valid]
  unfold Breakpoints.arm
  split
  · next valid =>
      refine ⟨follow.valid, LineSet.ascending_insert follow.ascending line, ?_⟩
      intro other
      rw [LineSet.mem_insert, follow.armed, asked]
      constructor
      · rintro (rfl | ⟨marked, isSet⟩)
        · exact ⟨accepts.mp valid, .inl rfl⟩
        · exact ⟨marked, .inr isSet⟩
      · rintro ⟨marked, same | isSet⟩
        · exact .inl same
        · exact .inr ⟨marked, isSet⟩
  · next invalid =>
      refine ⟨follow.valid, follow.ascending, ?_⟩
      intro other
      rw [follow.armed, asked]
      constructor
      · rintro ⟨marked, isSet⟩
        exact ⟨marked, .inr isSet⟩
      · rintro ⟨marked, rfl | isSet⟩
        · exact absurd (accepts.mpr marked) invalid
        · exact ⟨marked, isSet⟩

theorem disarm (follow : breakpoints.Follow program passed) (line : Nat) :
    (breakpoints.disarm line).Follow program (passed ++ [.adjust (.clearBreakpoint line)]) := by
  refine ⟨follow.valid, follow.ascending.filter _, ?_⟩
  intro other
  rw [Breakpoints.disarm, LineSet.mem_erase, follow.armed, Operation.leaveSet_concat]
  simp [Operation.Disarms, and_assoc, eq_comm]

theorem clear (follow : breakpoints.Follow program passed) :
    breakpoints.clear.Follow program (passed ++ [.adjust .clearBreakpoints]) := by
  refine ⟨follow.valid, List.Pairwise.nil, ?_⟩
  intro other
  rw [Operation.leaveSet_concat]
  simp [Breakpoints.clear, Operation.Disarms]

theorem adjust {debugger : Debugger} (adjustment : Adjustment)
    (follow : debugger.breakpoints.Follow program passed) :
    (adjustment.apply debugger).breakpoints.Follow program (passed ++ [.adjust adjustment]) := by
  cases adjustment with
  | setBreakpoint line => exact follow.arm line
  | clearBreakpoint line => exact follow.disarm line
  | clearBreakpoints => exact follow.clear
  | reset | armStepOver | armStepInto | armStepOut | startTracing | turnOff =>
      exact follow.unasked (by simp) (fun _ => id)

end Breakpoints.Follow

namespace Debugger

theorem follow_session {program : Program} {source : List String} {terminal : Terminal}
    {fuel : Nat} {operations : List Operation} {outcomes : List Outcome} {debugger : Debugger}
    (ended : (create program source terminal).session fuel operations =
      some (outcomes, debugger)) : debugger.breakpoints.Follow program operations := by
  let holds (passed : List Operation) (debugger : Debugger) : Prop :=
    debugger.breakpoints.Follow program passed
  have reached : holds ([] ++ operations) debugger := by
    refine session_history .adjust ?_ (.ofProgram program) ended
    intro passed debugger next outcome follow resumed
    change next.breakpoints.Follow program _
    rw [breakpoints_of_resume resumed]
    exact Breakpoints.Follow.unasked follow (by simp) (fun _ => id)
  exact reached

/-- Breakpoints are what was asked for.  After any operations on a new debugger, a line takes a
breakpoint exactly if the program marks it, and asking for one on any other line changes nothing.
The lines with breakpoints ascend strictly, and they are the lines that took one with no operation
since that has taken it off. -/
theorem breakpoints_as_asked {program : Program} {source : List String} {terminal : Terminal}
    {fuel : Nat} {operations : List Operation} {outcomes : List Outcome} {debugger : Debugger}
    (ended : (create program source terminal).session fuel operations =
      some (outcomes, debugger)) :
    (∀ line, debugger.acceptsBreakpoint line = true ↔
      ∃ index, program.fetch? index = some (.line (some line))) ∧
    (∀ line, debugger.acceptsBreakpoint line = false →
      debugger.setBreakpoint line = debugger) ∧
    debugger.breakpoints.armed.Pairwise (· < ·) ∧
    ∀ line,
      (line ∈ debugger.breakpoints.armed ↔ debugger.breakpoints.isArmed line = true) ∧
      (debugger.breakpoints.isArmed line = true ↔
        ∃ before after, operations = before ++ .adjust (.setBreakpoint line) :: after ∧
          (∃ earlier passed, (create program source terminal).session fuel before =
            some (earlier, passed) ∧ passed.acceptsBreakpoint line = true) ∧
          ∀ operation ∈ after, ¬ operation.Disarms line) := by
  have follow := follow_session ended
  have accepts {before : List Operation} {earlier : List Outcome} {passed : Debugger}
      (ended : (create program source terminal).session fuel before = some (earlier, passed))
      (line : Nat) : passed.acceptsBreakpoint line = true ↔ line ∈ program.markedLines := by
    rw [acceptsBreakpoint, Breakpoints.isValid, List.contains_iff_mem, (follow_session ended).valid]
  refine ⟨?_, ?_, follow.ascending, ?_⟩
  · intro line
    rw [accepts ended, Program.mem_markedLines]
  · intro line refused
    have invalid : debugger.breakpoints.isValid line = false := refused
    simp [setBreakpoint, Breakpoints.arm, invalid]
  · intro line
    have isArmed : line ∈ debugger.breakpoints.armed ↔
        debugger.breakpoints.isArmed line = true := List.contains_iff_mem.symm
    refine ⟨isArmed, ?_⟩
    rw [← isArmed, follow.armed]
    constructor
    · rintro ⟨marked, before, after, rfl, kept⟩
      obtain ⟨earlier, passed, isBefore⟩ := exists_session_of_append ended
      exact ⟨before, after, rfl, ⟨earlier, passed, isBefore, (accepts isBefore line).mpr marked⟩,
        kept⟩
    · rintro ⟨before, after, isSplit, ⟨earlier, passed, isBefore, accepted⟩, kept⟩
      exact ⟨(accepts isBefore line).mp accepted, before, after, isSplit, kept⟩

/-- A breakpoint outlives a run and a reset, one that was cleared does not come back, and a line
that the program does not mark takes none. -/
theorem breakpoints_as_asked_cleared :
    let program : Program :=
      { code := #[.line none, .line (some 2), .line (some 0), .line (some 2), .halt] }
    let operations : List Operation :=
      [.adjust (.setBreakpoint 2), .adjust (.setBreakpoint 7), .adjust (.setBreakpoint 0), .resume,
        .adjust (.clearBreakpoint 2), .adjust .reset, .adjust .armStepOver]
    ∃ debugger,
      (create program [] {}).session 9 operations = some ([.ok (.breakpoint 2)], debugger) ∧
      debugger.breakpoints.armed = [0] ∧ debugger.setBreakpoint 7 = debugger ∧
      (∃ before after, operations = before ++ .adjust (.setBreakpoint 0) :: after ∧
        ∀ operation ∈ after, ¬ operation.Disarms 0) ∧
      ¬ ∃ index, program.fetch? index = some (.line (some 7)) := by
  intro program operations
  have ended : ∃ debugger,
      (create program [] {}).session 9 operations = some ([.ok (.breakpoint 2)], debugger) ∧
      debugger.breakpoints.armed = [0] ∧ debugger.breakpoints.isArmed 0 = true ∧
      debugger.acceptsBreakpoint 7 = false := ⟨_, rfl, rfl, rfl, rfl⟩
  obtain ⟨debugger, ended, armed, isArmed, refused⟩ := ended
  obtain ⟨accepts, unchanged, -, asked⟩ := breakpoints_as_asked ended
  obtain ⟨before, after, isSplit, -, kept⟩ := (asked 0).2.mp isArmed
  refine ⟨debugger, ended, armed, unchanged 7 refused, ⟨before, after, isSplit, kept⟩, ?_⟩
  rw [← accepts 7, refused]
  exact Bool.false_ne_true

end Debugger

end StackDebugger
