import Mathlib.Data.Int.ModEq
import StackDebugger.Machine.Basic
import StackDebugger.Proofs.Machine.Effects

/-!
# Operators on machine integers

`exactValue` says what an operator gives on integers of any size.  On machine integers the value is
the one that is congruent to it modulo `2 ^ 32`, and only a division by zero has none.  The value is
exact unless the exact result is out of range: that is the case for one quotient only, and never for
the answer to a question.  A `BOP` puts the value in the place of its two operands.
-/

namespace StackDebugger

namespace Operator

/-- One if a condition holds and zero otherwise. -/
def indicator (condition : Prop) [Decidable condition] : Int :=
  if condition then 1 else 0

/-- What an operator gives on integers of any size.  A quotient is cut off toward zero. -/
def exactValue (left right : Int) : Operator → Int
  | .add => left + right
  | .sub => left - right
  | .mul => left * right
  | .div => left.tdiv right
  | .eq => indicator (left = right)
  | .ne => indicator (left ≠ right)
  | .lt => indicator (left < right)
  | .le => indicator (left ≤ right)
  | .gt => indicator (left > right)
  | .ge => indicator (left ≥ right)
  | .and => indicator (left ≠ 0 ∧ right ≠ 0)
  | .or => indicator (left ≠ 0 ∨ right ≠ 0)

/-- Whether an operator answers a question about its operands. -/
def isQuestion : Operator → Bool
  | .add | .sub | .mul | .div => false
  | .eq | .ne | .lt | .le | .gt | .ge | .and | .or => true

/-- The exact result is no machine integer. -/
def Overflows (operator : Operator) (left right : Int32) : Prop :=
  operator.exactValue left.toInt right.toInt < -2 ^ 31 ∨
    2 ^ 31 ≤ operator.exactValue left.toInt right.toInt

variable {operator : Operator} {left right value : Int32} {number : Int}

/-- Among the machine integers there is exactly one that is congruent to a given integer. -/
theorem modEq_iff_eq_ofInt : value.toInt ≡ number [ZMOD 2 ^ 32] ↔ value = Int32.ofInt number := by
  rw [← Int32.toInt_inj, Int32.toInt_ofInt]
  constructor
  · intro congruent
    calc value.toInt
      _ = value.toInt.bmod (2 ^ 32) := value.toInt_bmod.symm
      _ = (value.toInt % 2 ^ 32).bmod (2 ^ 32) := (Int.emod_bmod _ _).symm
      _ = (number % 2 ^ 32).bmod (2 ^ 32) := by rw [congruent]
      _ = number.bmod (2 ^ 32) := Int.emod_bmod _ _
  · intro isResidue
    rw [isResidue]
    exact Int.bmod_emod

/-- An integer is kept by a machine integer exactly if it is in range. -/
theorem toInt_ofInt_eq_iff :
    (Int32.ofInt number).toInt = number ↔ -2 ^ 31 ≤ number ∧ number < 2 ^ 31 := by
  constructor
  · intro kept
    rw [← kept]
    exact ⟨Int32.le_toInt _, Int32.toInt_lt _⟩
  · rintro ⟨lower, upper⟩
    exact Int32.toInt_ofInt_of_le lower upper

theorem eval?_eq_none_iff :
    operator.eval? left right = none ↔ operator = .div ∧ right = 0 := by
  cases operator with
  | div =>
      by_cases isZero : right = 0
      · simp [eval?, isZero]
      · simp [eval?, isZero]
  | _ => simp [eval?]

/-- A test that decides a condition gives its indicator. -/
theorem truth_eq_ofInt {test : Bool} {condition : Prop} [Decidable condition]
    (decides : test = true ↔ condition) : truth test = Int32.ofInt (indicator condition) := by
  by_cases holds : condition
  · rw [decides.mpr holds, indicator, if_pos holds]
    rfl
  · rw [Bool.eq_false_iff.mpr fun isTrue => holds (decides.mp isTrue), indicator, if_neg holds]
    rfl

/-- The value is the exact result, cut down to a machine integer. -/
theorem eval?_eq_some_ofInt (hasValue : ¬ (operator = .div ∧ right = 0)) :
    operator.eval? left right =
      some (Int32.ofInt (operator.exactValue left.toInt right.toInt)) := by
  cases operator with
  | add => rw [eval?, exactValue, Int32.ofInt_add, Int32.ofInt_toInt, Int32.ofInt_toInt]
  | sub => rw [eval?, exactValue, Int32.ofInt_sub, Int32.ofInt_toInt, Int32.ofInt_toInt]
  | mul => rw [eval?, exactValue, Int32.ofInt_mul, Int32.ofInt_toInt, Int32.ofInt_toInt]
  | div =>
      have nonzero : right ≠ 0 := fun isZero => hasValue ⟨rfl, isZero⟩
      rw [eval?, if_neg nonzero, exactValue, Int32.ofInt_tdiv left.minValue_le_toInt left.toInt_le
        right.minValue_le_toInt right.toInt_le, Int32.ofInt_toInt, Int32.ofInt_toInt]
  | eq => exact congrArg some (truth_eq_ofInt (by simp [Int32.toInt_inj]))
  | ne => exact congrArg some (truth_eq_ofInt (by simp [Int32.toInt_inj]))
  | lt => exact congrArg some (truth_eq_ofInt (by simp [Int32.lt_iff_toInt_lt]))
  | le => exact congrArg some (truth_eq_ofInt (by simp [Int32.le_iff_toInt_le]))
  | gt => exact congrArg some (truth_eq_ofInt (by simp [Int32.lt_iff_toInt_lt]))
  | ge => exact congrArg some (truth_eq_ofInt (by simp [Int32.le_iff_toInt_le]))
  | and => exact congrArg some (truth_eq_ofInt (by simp [← Int32.toInt_inj]))
  | or => exact congrArg some (truth_eq_ofInt (by simp [← Int32.toInt_inj]))

theorem eval?_eq_some_iff :
    operator.eval? left right = some value ↔
      ¬ (operator = .div ∧ right = 0) ∧
        value.toInt ≡ operator.exactValue left.toInt right.toInt [ZMOD 2 ^ 32] := by
  by_cases noValue : operator = .div ∧ right = 0
  · rw [eval?_eq_none_iff.mpr noValue]
    constructor
    · intro isSome
      contradiction
    · rintro ⟨hasValue, -⟩
      contradiction
  · rw [eval?_eq_some_ofInt noValue, modEq_iff_eq_ofInt, Option.some_inj, eq_comm,
      and_iff_right noValue]

theorem toInt_eq_exactValue_iff (isValue : operator.eval? left right = some value) :
    value.toInt = operator.exactValue left.toInt right.toInt ↔ ¬ operator.Overflows left right := by
  obtain ⟨-, congruent⟩ := eval?_eq_some_iff.mp isValue
  rw [modEq_iff_eq_ofInt.mp congruent, toInt_ofInt_eq_iff, Overflows, not_or, not_lt, not_le]

/-- The one quotient that is out of range is that of the least machine integer by minus one. -/
theorem div_overflows_iff :
    Operator.div.Overflows left right ↔ left = Int32.minValue ∧ right = -1 := by
  constructor
  · intro overflows
    by_contra other
    have isQuotient : (left / right).toInt = left.toInt.tdiv right.toInt := by
      rcases not_and_or.mp other with notLeast | notMinusOne
      · exact Int32.toInt_div_of_ne_left left right notLeast
      · exact Int32.toInt_div_of_ne_right left right notMinusOne
    have lower := (left / right).le_toInt
    have upper := (left / right).toInt_lt
    rw [isQuotient] at lower upper
    rcases overflows with below | above
    · exact Int.not_lt.mpr lower below
    · exact Int.not_lt.mpr above upper
  · rintro ⟨rfl, rfl⟩
    right
    decide

theorem indicator_eq (condition : Prop) [Decidable condition] :
    indicator condition = 0 ∨ indicator condition = 1 := by
  by_cases holds : condition
  · exact .inr (if_pos holds)
  · exact .inl (if_neg holds)

theorem exactValue_of_isQuestion (asks : operator.isQuestion) (left right : Int) :
    operator.exactValue left right = 0 ∨ operator.exactValue left right = 1 := by
  cases operator with
  | add | sub | mul | div => contradiction
  | eq | ne | lt | le | gt | ge | and | or => exact indicator_eq _

/-- A question has an answer, and the answer is zero or one. -/
theorem exists_answer (asks : operator.isQuestion) (left right : Int32) :
    ∃ answer, operator.eval? left right = some answer ∧ (answer = 0 ∨ answer = 1) ∧
      answer.toInt = operator.exactValue left.toInt right.toInt := by
  have hasValue : ¬ (operator = .div ∧ right = 0) := by
    rintro ⟨rfl, -⟩
    contradiction
  refine ⟨_, eval?_eq_some_ofInt hasValue, ?_⟩
  rcases exactValue_of_isQuestion asks left.toInt right.toInt with isZero | isOne
  · rw [isZero]
    decide
  · rw [isOne]
    decide

end Operator

namespace OperandStack

variable {stack : OperandStack} {value : Int32}

theorem base_lt_size_push (within : stack.base ≤ stack.values.size) (value : Int32) :
    (stack.push value).base < (stack.push value).values.size := by
  rw [push_base, push_values, Array.size_push]
  exact Nat.lt_succ_of_le within

/-- What was pushed on a frame is popped from it. -/
theorem pop_push (within : stack.base ≤ stack.values.size) (value : Int32) :
    (stack.push value).pop = (.ok value, stack) := by
  rw [pop, dif_pos (base_lt_size_push within value)]
  simp [push]

theorem frame_push (within : stack.base ≤ stack.values.size) (value : Int32) :
    (stack.push value).frame = stack.frame ++ [value] := by
  rw [frame, push_values, push_base, Array.toList_push]
  exact List.drop_append_of_le_length within

/-- The topmost value of a frame stands on a stack with the rest of the frame. -/
theorem exists_push_of_frame {below : List Int32} (isFrame : stack.frame = below ++ [value]) :
    ∃ rest : OperandStack, stack = rest.push value ∧ rest.frame = below ∧
      rest.base ≤ rest.values.size := by
  have within : stack.base ≤ stack.values.toList.length := by
    have size := congrArg List.length isFrame
    simp only [frame, List.length_drop, List.length_append, List.length_singleton] at size
    omega
  have isBeneath : (stack.values.toList.take stack.base).length = stack.base :=
    List.length_take_of_le within
  refine ⟨{ stack with values := (stack.values.toList.take stack.base ++ below).toArray },
    ?_, ?_, ?_⟩
  · have split : stack.values.toList = stack.values.toList.take stack.base ++ below ++ [value] := by
      rw [List.append_assoc, ← isFrame]
      exact (List.take_append_drop _ _).symm
    have isValues : stack.values =
        (stack.values.toList.take stack.base ++ below).toArray.push value := by
      apply Array.ext'
      rw [Array.toList_push]
      exact split
    exact congrArg (fun values => { stack with values }) isValues
  · exact List.drop_left' isBeneath
  · simp [isBeneath]

end OperandStack

namespace Instruction

variable {left right : Int32} {state : State} {rest : OperandStack}

/-- A `BOP` takes its right operand first, and a division by zero leaves both operands taken. -/
theorem run_execute_bop (operator : Operator) (isStack : state.stack = (rest.push left).push right)
    (within : rest.base ≤ rest.values.size) :
    (Instruction.bop operator).execute.run state =
      match operator.eval? left right with
      | some value => .ok () { state with stack := rest.push value }
      | none => .error .divisionByZero { state with stack := rest } := by
  have leftWithin : (rest.push left).base ≤ (rest.push left).values.size :=
    Nat.le_of_lt (OperandStack.base_lt_size_push within left)
  have rightPopped : Effect.pop.run state = .ok right { state with stack := rest.push left } := by
    apply Effect.run_onStack_eq_ok.mpr
    rw [isStack]
    exact ⟨_, OperandStack.pop_push leftWithin right, rfl⟩
  have leftPopped : Effect.pop.run { state with stack := rest.push left } =
      .ok left { state with stack := rest } :=
    Effect.run_onStack_eq_ok.mpr ⟨_, OperandStack.pop_push within left, rfl⟩
  rw [execute, EStateM.run_bind, rightPopped]
  simp only [EStateM.run_bind, leftPopped]
  cases operator.eval? left right with
  | some value => rfl
  | none => rfl

end Instruction

namespace Operator

/-- Arithmetic is exact modulo `2 ^ 32`.  An operator has no value only where it divides by zero;
otherwise its value is the one machine integer that is congruent to the exact result.  It differs
from the exact result only where that is no machine integer, which for quotients is the case at one
pair of operands.  Comparisons and logical operators answer zero or one as the integers do.  A `BOP`
over a frame with the two operands on top, the left one below the right one, puts the value in
their place and changes nothing else; a division by zero fails and has taken both. -/
theorem arithmetic_exact (operator : Operator) (left right : Int32) :
    (operator.eval? left right = none ↔ operator = .div ∧ right = 0) ∧
    (∀ value, operator.eval? left right = some value ↔
      ¬ (operator = .div ∧ right = 0) ∧
        value.toInt ≡ operator.exactValue left.toInt right.toInt [ZMOD 2 ^ 32]) ∧
    (∀ value, operator.eval? left right = some value →
      (value.toInt = operator.exactValue left.toInt right.toInt ↔
        ¬ operator.Overflows left right)) ∧
    (operator = .div → (operator.Overflows left right ↔ left = Int32.minValue ∧ right = -1)) ∧
    (operator.isQuestion → ∃ answer, operator.eval? left right = some answer ∧
      (answer = 0 ∨ answer = 1) ∧ answer.toInt = operator.exactValue left.toInt right.toInt) ∧
    ∀ (state : State) (below : List Int32), state.stack.frame = below ++ [left, right] →
      ∃ rest : OperandStack, state.stack = (rest.push left).push right ∧ rest.frame = below ∧
        (∀ value, operator.eval? left right = some value →
          (Instruction.bop operator).execute.run state =
            .ok () { state with stack := rest.push value } ∧
          (rest.push value).frame = below ++ [value]) ∧
        (operator.eval? left right = none →
          (Instruction.bop operator).execute.run state =
            .error .divisionByZero { state with stack := rest }) := by
  refine ⟨eval?_eq_none_iff, fun _ => eval?_eq_some_iff, fun _ => toInt_eq_exactValue_iff,
    ?_, ?_, ?_⟩
  · rintro rfl
    exact div_overflows_iff
  · intro asks
    exact exists_answer asks left right
  · intro state below isFrame
    rw [List.append_cons] at isFrame
    obtain ⟨upper, isStack, isUpperFrame, -⟩ := OperandStack.exists_push_of_frame isFrame
    obtain ⟨rest, rfl, isRestFrame, within⟩ := OperandStack.exists_push_of_frame isUpperFrame
    have runs := Instruction.run_execute_bop operator isStack within
    refine ⟨rest, isStack, isRestFrame, ?_, ?_⟩
    · intro value isValue
      rw [isValue] at runs
      rw [OperandStack.frame_push within, isRestFrame]
      exact ⟨runs, rfl⟩
    · intro noValue
      rw [noValue] at runs
      exact runs

/-- The quotient that wraps, in a frame over the values of a caller. -/
theorem arithmetic_exact_leastQuotient :
    let state : State :=
      { stack := { values := #[5, 6, Int32.minValue, -1], base := 1, callers := [0] } }
    Operator.div.eval? Int32.minValue (-1) = some Int32.minValue ∧
    Operator.div.Overflows Int32.minValue (-1) ∧
    Int32.minValue.toInt ≠ Operator.div.exactValue Int32.minValue.toInt (-1) ∧
    state.stack.frame = [6] ++ [Int32.minValue, -1] ∧
    ∃ rest : OperandStack, state.stack = (rest.push Int32.minValue).push (-1) ∧
      rest.frame = [6] ∧
      (Instruction.bop .div).execute.run state =
        .ok () { state with stack := rest.push Int32.minValue } ∧
      (rest.push Int32.minValue).frame = [6, Int32.minValue] := by
  intro state
  obtain ⟨-, values, exactly, quotients, -, runs⟩ := arithmetic_exact .div Int32.minValue (-1)
  have isValue : Operator.div.eval? Int32.minValue (-1) = some Int32.minValue :=
    (values Int32.minValue).mpr ⟨by decide, by decide⟩
  have overflows : Operator.div.Overflows Int32.minValue (-1) := (quotients rfl).mpr ⟨rfl, rfl⟩
  have isFrame : state.stack.frame = [6] ++ [Int32.minValue, -1] := by decide
  obtain ⟨rest, isStack, isRestFrame, isRun, -⟩ := runs state [6] isFrame
  exact ⟨isValue, overflows, fun isExact => (exactly _ isValue).mp isExact overflows, isFrame,
    rest, isStack, isRestFrame, isRun _ isValue⟩

end Operator

end StackDebugger
