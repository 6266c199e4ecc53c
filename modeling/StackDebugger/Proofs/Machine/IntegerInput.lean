import Mathlib.Logic.Function.Iterate
import StackDebugger.Machine.State
import StackDebugger.Proofs.Text.Utf8

/-!
# Integers are read line by line

A program that asks for integers is given those of the lines that are integers, in their order.
Each line is asked for once and is gone then, whether or not it was an integer; a line that was not
is complained about, and the next one is asked for.  When no line is left the input is closed, and
stays so.
-/

namespace StackDebugger

/-- A text and its lines, each with the line feed that ends it.  The last line may have none. -/
inductive Text.HasLines : List Char → List (List Char) → Prop where
  | nil : HasLines [] []
  | last {line : List Char} : line ≠ [] → '\n' ∉ line → HasLines line [line]
  | cons {line rest : List Char} {lines : List (List Char)} :
      '\n' ∉ line → HasLines rest lines →
      HasLines (line ++ '\n' :: rest) ((line ++ ['\n']) :: lines)

namespace Text

theorem exists_hasLines (text : List Char) : ∃ lines, HasLines text lines := by
  induction text with
  | nil => exact ⟨[], .nil⟩
  | cons c text ih =>
      obtain ⟨lines, hasLines⟩ := ih
      by_cases feed : c = '\n'
      · subst feed
        exact ⟨_, @HasLines.cons [] text lines (by simp) hasLines⟩
      · cases hasLines with
        | nil => exact ⟨_, .last (List.cons_ne_nil c []) (by simp [Ne.symm feed])⟩
        | last filled single =>
            exact ⟨_, .last (List.cons_ne_nil c text) (by simp [Ne.symm feed, single])⟩
        | @cons line rest lines single later =>
            have stillSingle : '\n' ∉ c :: line := by simp [Ne.symm feed, single]
            exact ⟨_, .cons stillSingle later⟩

theorem rawLinesAfter_append {line : List UInt8} (gathered rest : List UInt8)
    (noFeed : 10 ∉ line) :
    rawLinesAfter gathered (line ++ rest) = rawLinesAfter (line.reverse ++ gathered) rest := by
  induction line generalizing gathered with
  | nil => rfl
  | cons b line ih =>
      obtain ⟨differs, laterNoFeed⟩ := List.ne_and_not_mem_of_not_mem_cons noFeed
      rw [List.cons_append, rawLinesAfter, if_neg (Ne.symm differs), ih _ laterNoFeed]
      simp

/-- The raw lines of a text are its lines. -/
theorem HasLines.rawLines_encode {text : List Char} {lines : List (List Char)}
    (hasLines : HasLines text lines) :
    rawLines (Utf8.encode text) = lines.map Utf8.encode := by
  induction hasLines with
  | nil => rfl
  | @last line filled single =>
      have gathered := rawLinesAfter_append [] [] (Utf8.feed_not_mem_encode single)
      rw [List.append_nil, List.append_nil] at gathered
      have bytesFilled : Utf8.encode line ≠ [] := by
        intro empty
        have isDecoded := Utf8.decode?_encode line
        rw [empty, Utf8.decode?_nil] at isDecoded
        exact filled (Option.some.inj isDecoded).symm
      rw [rawLines, gathered]
      simp [rawLinesAfter, bytesFilled]
  | @cons line rest lines single later ih =>
      have isLine : Utf8.encode (line ++ '\n' :: rest) =
          Utf8.encode line ++ 10 :: Utf8.encode rest := Utf8.encode_append line ('\n' :: rest)
      rw [isLine, rawLines, rawLinesAfter_append [] _ (Utf8.feed_not_mem_encode single),
        rawLinesAfter, if_pos rfl, ← rawLines, ih, List.map_cons, Utf8.encode_append]
      simp
      rfl

theorem encode_flatten (lines : List (List Char)) :
    Utf8.encode lines.flatten = (lines.map Utf8.encode).flatten := by
  induction lines with
  | nil => rfl
  | cons line lines ih => rw [List.flatten_cons, Utf8.encode_append, ih, List.map_cons,
      List.flatten_cons]

end Text

namespace Terminal

/-- The integer on a line. -/
def lineInteger? (line : List Char) : Option Int32 :=
  Decimal.int32? (Text.trim line)

/-- What is written while a line is read: the prompt, and a complaint unless it is an integer. -/
def exchange (line : List Char) : String :=
  match lineInteger? line with
  | some _ => readPrompt
  | none => readPrompt ++ complaint (Text.trim line)

theorem readIntegerFrom_integer (terminal : Terminal) {line : List Char} {value : Int32}
    (isInteger : lineInteger? line = some value) (rest : List Text.RawLine) :
    terminal.readIntegerFrom (Utf8.encode line :: rest) =
      (.ok value, { terminal.write readPrompt with input := rest }) := by
  have isValue : Decimal.int32? (Text.trim line) = some value := isInteger
  simp only [readIntegerFrom, Utf8.decode?_encode, isValue]

theorem readIntegerFrom_other (terminal : Terminal) {line : List Char}
    (notInteger : lineInteger? line = none)
    (rest : List Text.RawLine) :
    terminal.readIntegerFrom (Utf8.encode line :: rest) =
      ({ terminal with input := rest }.write (exchange line)).readIntegerFrom rest := by
  have noValue : Decimal.int32? (Text.trim line) = none := notInteger
  simp only [readIntegerFrom, Utf8.decode?_encode, noValue, exchange, notInteger, write,
    String.append_assoc]

/-- What a call on some of the input leads to: its result, the lines that it leaves, and what it
writes. -/
structure Answers (terminal : Terminal) (input : List Text.RawLine)
    (result : Except Fault Int32) (left : List (List Char)) (written : String) : Prop where
  isResult : (terminal.readIntegerFrom input).1 = result
  isInput : (terminal.readIntegerFrom input).2.input = left.map Utf8.encode
  isOutput : (terminal.readIntegerFrom input).2.output = terminal.output ++ written

/-- A line that is not an integer is complained about, and the call goes on. -/
theorem Answers.other {line : List Char} {input : List Text.RawLine}
    {result : Except Fault Int32} {left : List (List Char)} {written : String}
    (notInteger : lineInteger? line = none)
    (later : ∀ terminal, Answers terminal input result left written) (terminal : Terminal) :
    terminal.Answers (Utf8.encode line :: input) result left (exchange line ++ written) := by
  have goesOn := terminal.readIntegerFrom_other notInteger input
  obtain ⟨isResult, isInput, isOutput⟩ := later ({ terminal with input }.write (exchange line))
  rw [← goesOn] at isResult isInput isOutput
  refine ⟨isResult, isInput, ?_⟩
  rw [isOutput, output_write, String.append_assoc]
  rfl

/-- A call reads through the first line that is an integer. -/
theorem answers_of_integer {skipped rest : List (List Char)} {line : List Char} {value : Int32}
    (others : ∀ line ∈ skipped, lineInteger? line = none)
    (isInteger : lineInteger? line = some value) (terminal : Terminal) :
    terminal.Answers ((skipped ++ line :: rest).map Utf8.encode) (.ok value) rest
      (String.join ((skipped ++ [line]).map exchange)) := by
  induction skipped generalizing terminal with
  | nil =>
      have isExchange : exchange line = readPrompt := by simp only [exchange, isInteger]
      have isRead := terminal.readIntegerFrom_integer isInteger (rest.map Utf8.encode)
      refine ⟨congrArg Prod.fst isRead, congrArg (·.2.input) isRead, ?_⟩
      refine (congrArg (·.2.output) isRead).trans ((terminal.output_write readPrompt).trans ?_)
      simp [isExchange]
  | cons first skipped ih =>
      obtain ⟨notInteger, laterOthers⟩ := List.forall_mem_cons.mp others
      rw [List.cons_append, List.map_cons, List.cons_append, List.map_cons, String.join_cons]
      exact .other notInteger (ih laterOthers) terminal

/-- Where no line is an integer, a call reads them all and finds the input closed. -/
theorem answers_of_closed {lines : List (List Char)}
    (others : ∀ line ∈ lines, lineInteger? line = none) (terminal : Terminal) :
    terminal.Answers (lines.map Utf8.encode) (.error .inputClosed) []
      (String.join (lines.map exchange) ++ readPrompt) := by
  induction lines generalizing terminal with
  | nil =>
      refine ⟨rfl, rfl, (terminal.output_write readPrompt).trans ?_⟩
      simp
  | cons line lines ih =>
      obtain ⟨notInteger, laterOthers⟩ := List.forall_mem_cons.mp others
      rw [List.map_cons, List.map_cons, String.join_cons, String.append_assoc]
      exact .other notInteger (ih laterOthers) terminal

/-- The integers on lines, in their order. -/
def integersOn (lines : List (List Char)) : List Int32 :=
  lines.filterMap lineInteger?

/-- So many calls have read some of the lines and left the others.  The calls that have found an
integer have read through its line and no further; a call that has found none has read on to the
end. -/
structure HasRead (start : Terminal) (lines : List (List Char)) (count : Nat)
    (reached : Terminal) (read left : List (List Char)) : Prop where
  parts : lines = read ++ left
  values : integersOn read = (integersOn lines).take count
  last : count ≤ (integersOn lines).length →
    ∀ line, read.getLast? = some line → (lineInteger? line).isSome
  closed : (integersOn lines).length < count → left = []
  input : reached.input = left.map Utf8.encode
  output : reached.output = start.output ++ String.join (read.map exchange) ++
    String.join (List.replicate (count - (integersOn lines).length) readPrompt)

namespace HasRead

variable {start reached : Terminal} {lines read left : List (List Char)} {count : Nat}

theorem refl (isInput : start.input = lines.map Utf8.encode) :
    start.HasRead lines 0 start [] lines where
  parts := rfl
  values := rfl
  last _ line isLast := by simp at isLast
  closed short := absurd short (Nat.not_lt_zero _)
  input := isInput
  output := by simp

theorem integersOn_left (hasRead : start.HasRead lines count reached read left) :
    integersOn left = (integersOn lines).drop count := by
  have all : integersOn lines = integersOn read ++ integersOn left := by
    rw [hasRead.parts]
    exact List.filterMap_append
  have cut := (integersOn lines).take_append_drop count
  rw [← hasRead.values] at cut
  exact (List.append_cancel_left (cut.trans all)).symm

/-- The next call gives the next integer. -/
theorem readInteger_of_value {value : Int32}
    (hasRead : start.HasRead lines count reached read left)
    (isValue : (integersOn lines)[count]? = some value) :
    reached.readInteger.1 = .ok value ∧
      ∃ further rest, start.HasRead lines (count + 1) reached.readInteger.2 further rest := by
  obtain ⟨inside, -⟩ := List.getElem?_eq_some_iff.mp isValue
  have isLeft : integersOn left = value :: (integersOn lines).drop (count + 1) := by
    rw [hasRead.integersOn_left, List.drop_eq_getElem?_toList_append, isValue]
    rfl
  obtain ⟨skipped, line, rest, rfl, others, isInteger, -⟩ := List.filterMap_eq_cons_iff.mp isLeft
  obtain ⟨isResult, isInput, isOutput⟩ := answers_of_integer others isInteger reached
  rw [← hasRead.input] at isResult isInput isOutput
  refine ⟨isResult, read ++ (skipped ++ [line]), rest, ?_, ?_, ?_, ?_, isInput, ?_⟩
  · rw [hasRead.parts]
    simp
  · have found : integersOn (skipped ++ [line]) = [value] := by
      simp [integersOn, List.filterMap_eq_nil_iff.mpr others, isInteger]
    rw [List.take_add_one, isValue, ← hasRead.values, Option.toList_some, ← found]
    exact List.filterMap_append
  · intro _ last isLast
    obtain rfl : line = last := by simpa using isLast
    rw [isInteger]
    rfl
  · intro short
    omega
  · have unclosed : count - (integersOn lines).length = 0 := by omega
    have stillUnclosed : count + 1 - (integersOn lines).length = 0 := by omega
    rw [readInteger, isOutput, hasRead.output, unclosed, stillUnclosed, List.map_append,
      String.join_append]
    simp [String.append_assoc]

/-- Where there is no integer any more, the next call finds the input closed. -/
theorem readInteger_of_closed (hasRead : start.HasRead lines count reached read left)
    (none : (integersOn lines).length ≤ count) :
    reached.readInteger.1 = .error .inputClosed ∧
      start.HasRead lines (count + 1) reached.readInteger.2 lines [] := by
  have isLeft : integersOn left = [] := by
    rw [hasRead.integersOn_left, List.drop_of_length_le none]
  obtain ⟨isResult, isInput, isOutput⟩ :=
    answers_of_closed (List.filterMap_eq_nil_iff.mp isLeft) reached
  rw [← hasRead.input] at isResult isInput isOutput
  refine ⟨isResult, ?_, ?_, ?_, ?_, isInput, ?_⟩
  · simp
  · exact (List.take_of_length_le (Nat.le_succ_of_le none)).symm
  · intro long
    omega
  · intro _
    rfl
  · have oneMore : count + 1 - (integersOn lines).length =
        (count - (integersOn lines).length) + 1 := by omega
    have isRead : String.join (lines.map exchange) =
        String.join (read.map exchange) ++ String.join (left.map exchange) := by
      rw [hasRead.parts, List.map_append, String.join_append]
    rw [readInteger, isOutput, hasRead.output, oneMore, List.replicate_succ', String.join_append,
      isRead]
    rcases Nat.eq_or_lt_of_le none with first | later
    · simp [first, String.append_assoc]
    · simp [hasRead.closed later, String.append_assoc]

theorem exists_iterate (isInput : start.input = lines.map Utf8.encode) (count : Nat) :
    ∃ read left,
      start.HasRead lines count ((fun terminal => terminal.readInteger.2)^[count] start)
        read left := by
  induction count with
  | zero => exact ⟨[], lines, .refl isInput⟩
  | succ count ih =>
      obtain ⟨read, left, hasRead⟩ := ih
      rw [Function.iterate_succ_apply']
      cases isNext : (integersOn lines)[count]? with
      | some value => exact (hasRead.readInteger_of_value isNext).2
      | none => exact ⟨lines, [], (hasRead.readInteger_of_closed (by simpa using isNext)).2⟩

end HasRead

/-- Integers are read in their order, each once.  Let the input of a terminal be the bytes of a
text.  The integers on its lines are what calls are given one after another; every later call finds
the input closed.  Calls that are given an integer have read through its line and no further, later
ones have read everything.  For every line that was read there is a prompt, and a complaint if the
line is not an integer; and there is one more prompt for every call that finds the input closed. -/
theorem integers_read_in_order (text : String) (terminal : Terminal) :
    let start := { terminal with input := Text.rawLines (Utf8.encode text.toList) }
    (∃ lines, Text.HasLines text.toList lines) ∧
    ∀ lines, Text.HasLines text.toList lines → ∀ count,
      let reached := (fun terminal : Terminal => terminal.readInteger.2)^[count] start
      (∀ value, (integersOn lines)[count]? = some value → reached.readInteger.1 = .ok value) ∧
      ((integersOn lines).length ≤ count → reached.readInteger.1 = .error .inputClosed) ∧
      ∃ read left, lines = read ++ left ∧
        integersOn read = (integersOn lines).take count ∧
        (count ≤ (integersOn lines).length →
          ∀ line, read.getLast? = some line → (lineInteger? line).isSome) ∧
        ((integersOn lines).length < count → left = []) ∧
        reached.input.flatten = Utf8.encode left.flatten ∧
        reached.output = start.output ++ String.join (read.map exchange) ++
          String.join (List.replicate (count - (integersOn lines).length) readPrompt) := by
  intro start
  refine ⟨Text.exists_hasLines text.toList, ?_⟩
  intro lines hasLines count reached
  have isInput : start.input = lines.map Utf8.encode := hasLines.rawLines_encode
  obtain ⟨read, left, hasRead⟩ := HasRead.exists_iterate isInput count
  refine ⟨?_, ?_, read, left, hasRead.parts, hasRead.values, hasRead.last, hasRead.closed, ?_,
    hasRead.output⟩
  · intro value isValue
    exact (hasRead.readInteger_of_value isValue).1
  · intro none
    exact (hasRead.readInteger_of_closed none).1
  · rw [hasRead.input, Text.encode_flatten]

/-- A line that is no integer, one with blanks around it, one that is too large, and a last line
without a line feed. -/
theorem integers_read_in_order_mixed :
    let lines := [['x', '\n'], [' ', '7', '\r', '\n'],
      ['2', '1', '4', '7', '4', '8', '3', '6', '4', '8', '\n'], ['-', '3']]
    let text := String.ofList lines.flatten
    let reached (count : Nat) : Terminal :=
      (fun terminal : Terminal => terminal.readInteger.2)^[count]
        { input := Text.rawLines (Utf8.encode text.toList) }
    Text.HasLines text.toList lines ∧ integersOn lines = [7, -3] ∧
    (reached 0).readInteger.1 = .ok 7 ∧ (reached 1).readInteger.1 = .ok (-3) ∧
    (reached 2).readInteger.1 = .error .inputClosed ∧ (reached 3).input.flatten = [] := by
  intro lines text reached
  have hasLines : Text.HasLines text.toList lines := by
    rw [String.toList_ofList]
    exact @Text.HasLines.cons ['x'] _ _ (by decide)
      (@Text.HasLines.cons [' ', '7', '\r'] _ _ (by decide)
        (@Text.HasLines.cons ['2', '1', '4', '7', '4', '8', '3', '6', '4', '8'] _ _ (by decide)
          (.last (List.cons_ne_nil _ _) (by decide))))
  have values : integersOn lines = [7, -3] := by decide
  have calls := (integers_read_in_order text {}).2 lines hasLines
  rw [values] at calls
  obtain ⟨-, -, read, left, -, -, -, all, isInput, -⟩ := calls 3
  rw [all (by decide)] at isInput
  exact ⟨hasLines, values, (calls 0).1 7 rfl, (calls 1).1 (-3) rfl,
    (calls 2).2.1 (Nat.le_refl 2), isInput⟩

end Terminal

end StackDebugger
