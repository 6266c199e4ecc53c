import StackDebugger.Proofs.Machine.StackOperations
import StackDebugger.Proofs.Text.Decimal
import StackDebugger.Proofs.Text.Words

/-!
# The display shows the whole stack

A stack is displayed as the values of its frames, one bracketed group for each frame.  The groups
are the values of the stack, cut at the bases, so that the bases can be counted off.  The text can
be read as groups in one way only: no value has a comma in it, and no group a space.  Hence nothing
of a stack is lost in its display.
-/

namespace StackDebugger

namespace OperandStack

theorem length_groupsFrom (values : List Int32) (bases : List Nat) :
    (groupsFrom values bases).length = bases.length := by
  fun_induction groupsFrom values bases with
  | case1 => rfl
  | case2 start => rfl
  | case3 start next rest ih => simp only [List.length_cons, ih]

theorem length_groups (stack : OperandStack) : stack.groups.length = stack.frameCount := by
  rw [groups, length_groupsFrom, bases, List.length_reverse]
  rfl

namespace WellFormed

variable {stack : OperandStack}

/-- The groups of the frames beneath a base are the values beneath it. -/
theorem flatten_take_groups (wellFormed : stack.WellFormed) {index start : Nat}
    (isBase : stack.bases[index]? = some start) :
    (stack.groups.take index).flatten = stack.values.toList.take start := by
  induction index generalizing start with
  | zero =>
      have outermost := wellFormed.outermost
      rw [List.head?_eq_getElem?, isBase] at outermost
      obtain rfl := Option.some.inj outermost
      rfl
  | succ index ih =>
      obtain ⟨inside, -⟩ := List.getElem?_eq_some_iff.mp isBase
      have isPrevious : stack.bases[index]? = some stack.bases[index] :=
        List.getElem?_eq_getElem (Nat.lt_of_succ_lt inside)
      obtain ⟨below, -, isGroup⟩ := wellFormed.inRange.groups index _ isPrevious
      have isEnd : stack.frameEnd (index + 1) = start := by
        rw [frameEnd, isBase]
        rfl
      rw [isEnd] at below isGroup
      have beneath : stack.values.toList.take stack.bases[index] =
          (stack.values.toList.take start).take stack.bases[index] := by
        rw [List.take_take, Nat.min_eq_left below]
      rw [List.take_add_one, isGroup, List.flatten_append, ih isPrevious, beneath]
      simp

theorem length_flatten_take_groups (wellFormed : stack.WellFormed) {index start : Nat}
    (isBase : stack.bases[index]? = some start) :
    (stack.groups.take index).flatten.length = start := by
  obtain ⟨below, within, -⟩ := wellFormed.inRange.groups index start isBase
  rw [wellFormed.flatten_take_groups isBase, List.length_take, Array.length_toList]
  exact Nat.min_eq_left (Nat.le_trans below within)

/-- The last group is the innermost frame. -/
theorem getElem?_groups_length_callers (wellFormed : stack.WellFormed) :
    stack.bases[stack.callers.length]? = some stack.base ∧
      stack.groups[stack.callers.length]? = some stack.frame := by
  have isBase : stack.bases[stack.callers.length]? = some stack.base := by simp [bases_eq]
  obtain ⟨-, -, isGroup⟩ := wellFormed.inRange.groups _ _ isBase
  have isEnd : stack.frameEnd (stack.callers.length + 1) = stack.values.size := by
    simp [frameEnd, bases_eq]
  rw [isEnd, List.take_of_length_le (Nat.le_of_eq Array.length_toList)] at isGroup
  exact ⟨isBase, isGroup⟩

theorem getLast?_groups (wellFormed : stack.WellFormed) :
    stack.groups.getLast? = some stack.frame := by
  rw [List.getLast?_eq_getElem?, length_groups]
  exact wellFormed.getElem?_groups_length_callers.2

/-- All groups together are all values. -/
theorem flatten_groups (wellFormed : stack.WellFormed) :
    stack.groups.flatten = stack.values.toList := by
  obtain ⟨isBase, isGroup⟩ := wellFormed.getElem?_groups_length_callers
  have parts : stack.groups =
      stack.groups.take stack.callers.length ++ [stack.frame] := by
    rw [← Option.toList_some, ← isGroup, ← List.take_add_one]
    exact (List.take_of_length_le (Nat.le_of_eq stack.length_groups)).symm
  rw [parts, List.flatten_append, wellFormed.flatten_take_groups isBase]
  simp [frame]

/-- The bases are where the groups start. -/
theorem bases_eq_map (wellFormed : stack.WellFormed) :
    stack.bases = (List.range stack.groups.length).map fun index =>
      (stack.groups.take index).flatten.length := by
  have length : stack.bases.length = stack.groups.length := by
    rw [groups, length_groupsFrom]
  refine List.ext_getElem (by simpa using length) ?_
  intro index inside _
  rw [List.getElem_map, List.getElem_range]
  exact (wellFormed.length_flatten_take_groups (List.getElem?_eq_getElem inside)).symm

end WellFormed

/-- The text of groups, each between brackets. -/
def display (groups : List (List Int32)) : String :=
  " ".intercalate (groups.map fun group => "[" ++ renderValues group ++ "]")

theorem render_eq_display (stack : OperandStack) : stack.render = display stack.groups := rfl

theorem toList_renderValues (values : List Int32) :
    (renderValues values).toList =
      [','].intercalate (values.map fun value => (Decimal.ofInt32 value).toList) := by
  rw [renderValues, String.toList_intercalate, List.map_map]
  rfl

theorem ofInt32_ne_nil (value : Int32) : (Decimal.ofInt32 value).toList ≠ [] := by
  rcases Decimal.toList_ofInt32 value with ⟨magnitude, -, isText⟩ | ⟨magnitude, -, isText⟩
  · rw [isText]
    exact Nat.toDigits_ne_nil
  · rw [isText]
    exact List.cons_ne_nil _ _

theorem renderValues_injective : Function.Injective renderValues := by
  intro first second same
  have sameText := congrArg String.toList same
  rw [toList_renderValues, toList_renderValues] at sameText
  refine Text.intercalate_map_injective ofInt32_ne_nil ?_ ?_ sameText
  · intro value comma
    exact absurd (Decimal.eq_minus_or_isDigit_of_mem comma) (by decide)
  · intro value other equal
    exact Decimal.ofInt32_injective (String.toList_inj.mp equal)

theorem space_not_mem_renderValues (values : List Int32) :
    ' ' ∉ (renderValues values).toList := by
  intro space
  rw [toList_renderValues] at space
  obtain isComma | ⟨part, member, inPart⟩ := Text.eq_or_exists_of_mem_intercalate space
  · contradiction
  · obtain ⟨value, -, rfl⟩ := List.mem_map.mp member
    exact absurd (Decimal.eq_minus_or_isDigit_of_mem inPart) (by decide)

theorem toList_display (groups : List (List Int32)) :
    (display groups).toList =
      [' '].intercalate
        (groups.map fun group => '[' :: ((renderValues group).toList ++ [']'])) := by
  rw [display, String.toList_intercalate, List.map_map]
  congr 1
  refine List.map_congr_left ?_
  intro group _
  simp

/-- A text is that of one sequence of groups at most. -/
theorem display_injective : Function.Injective display := by
  intro first second same
  have sameText := congrArg String.toList same
  rw [toList_display, toList_display] at sameText
  refine Text.intercalate_map_injective ?_ ?_ ?_ sameText
  · intro group
    exact List.cons_ne_nil _ _
  · intro group
    simp [space_not_mem_renderValues]
  · intro group other equal
    obtain ⟨-, equal⟩ := List.cons.inj equal
    obtain ⟨equal, -⟩ := List.append_inj' equal rfl
    exact renderValues_injective (String.toList_inj.mp equal)

/-- The display shows the whole stack.  After any operations on an empty stack, its text is that of
one sequence of groups only.  There is a group for every frame, outermost first: all groups together
are the values, the groups beneath a frame are the values beneath its base, and the last group is
the innermost frame.  Stacks with the same text have the same values and bases. -/
theorem whole_stack_displayed (operations : List StackOperation) :
    let stack := ({} : OperandStack).performAll operations
    (∀ groups, stack.render = display groups ↔ groups = stack.groups) ∧
    stack.groups.length = stack.frameCount ∧
    stack.groups.flatten = stack.values.toList ∧
    (∀ index start, stack.bases[index]? = some start →
      (stack.groups.take index).flatten = stack.values.toList.take start ∧
      (stack.groups.take index).flatten.length = start) ∧
    stack.groups.getLast? = some stack.frame ∧
    ∀ others,
      let other := ({} : OperandStack).performAll others
      stack.render = other.render → stack.values = other.values ∧ stack.bases = other.bases := by
  intro stack
  have wellFormed : stack.WellFormed := WellFormed.empty.performAll operations
  refine ⟨?_, stack.length_groups, wellFormed.flatten_groups, ?_, wellFormed.getLast?_groups, ?_⟩
  · intro groups
    rw [render_eq_display, display_injective.eq_iff, eq_comm]
  · intro index start isBase
    exact ⟨wellFormed.flatten_take_groups isBase, wellFormed.length_flatten_take_groups isBase⟩
  · intro others other sameText
    have otherWellFormed : other.WellFormed := WellFormed.empty.performAll others
    have sameGroups : stack.groups = other.groups := display_injective sameText
    constructor
    · apply Array.ext'
      rw [← wellFormed.flatten_groups, ← otherWellFormed.flatten_groups, sameGroups]
    · rw [wellFormed.bases_eq_map, otherWellFormed.bases_eq_map, sameGroups]

/-- Empty frames are shown as well, and two ways to one text lead to one stack. -/
theorem whole_stack_displayed_emptyFrames :
    let stack := ({} : OperandStack).performAll
      [.push 1, .push (-2), .openFrame 1, .openFrame 0]
    let other := ({} : OperandStack).performAll
      [.push 1, .openFrame 0, .push 7, .store 0 (-2), .pop, .push (-2), .openFrame 0]
    stack.bases[1]? = some 1 ∧ (stack.groups.take 1).flatten = [1] ∧
    stack.render = "[1] [-2] []" ∧ stack.render = other.render ∧
    stack.values = other.values ∧ stack.bases = other.bases := by
  intro stack other
  have isBase : stack.bases[1]? = some 1 := by decide
  have isText : stack.render = "[1] [-2] []" := by decide
  have sameText : stack.render = other.render := by decide
  obtain ⟨-, -, -, starts, -, lossless⟩ := whole_stack_displayed
    [.push 1, .push (-2), .openFrame 1, .openFrame 0]
  obtain ⟨sameValues, sameBases⟩ := lossless _ sameText
  exact ⟨isBase, (starts 1 1 isBase).1, isText, sameText, sameValues, sameBases⟩

end OperandStack

end StackDebugger
