import StackDebugger.Text.Basic
import StackDebugger.Text.Utf8

/-!
# The operand stack

All values stand in one array; a frame begins at its base and ends where the
next frame begins.  Only the innermost frame is reachable: nothing is popped
beneath its base, and offsets count from it.  An operation that may fail gives
the stack that it leaves beside its result or its fault.
-/

namespace StackDebugger

/-- Why an instruction could not be carried out. -/
inductive Fault where
  /-- A value was taken from an empty frame. -/
  | stackUnderflow (base : Nat)
  | offsetOutOfFrame (offset size : Nat)
  | frameTooLarge (requested available : Nat)
  /-- A return with a single frame left. -/
  | outermostFrame
  | returnWithoutCall
  | divisionByZero
  | inputClosed
  /-- A line of input was not well-formed text. -/
  | malformedInput
  deriving DecidableEq, Repr

/-- What a fault says. -/
def Fault.message : Fault → String
  | .stackUnderflow base => "operand stack underflow (frame base " ++ toString base ++ ")"
  | .offsetOutOfFrame offset size =>
      "offset " ++ toString offset ++ " is outside the current frame of size " ++ toString size
  | .frameTooLarge requested available =>
      "cannot reserve a frame of " ++ toString requested ++ " slots, only " ++
        toString available ++ " available"
  | .outermostFrame => "cannot pop the outermost frame"
  | .returnWithoutCall => "RETURN executed with no pending call"
  | .divisionByZero => "division by zero"
  | .inputClosed => "program input closed while reading an integer"
  | .malformedInput => "i/o error: " ++ Utf8.malformedMessage

/-- Values, with the base of the innermost frame and the bases of the frames
around it, innermost first. -/
structure OperandStack where
  values : Array Int32 := #[]
  base : Nat := 0
  callers : List Nat := []
  deriving DecidableEq, Repr

namespace OperandStack

/-- The bases of all frames, outermost first. -/
def bases (stack : OperandStack) : List Nat :=
  (stack.base :: stack.callers).reverse

/-- The number of frames. -/
def frameCount (stack : OperandStack) : Nat :=
  stack.callers.length + 1

/-- The number of values in the innermost frame. -/
def frameSize (stack : OperandStack) : Nat :=
  stack.values.size - stack.base

/-- The offset of the topmost value, or zero in an empty frame. -/
def topOffset (stack : OperandStack) : Nat :=
  stack.frameSize - 1

/-- The values of the innermost frame. -/
def frame (stack : OperandStack) : List Int32 :=
  stack.values.toList.drop stack.base

/-- Puts a value on top. -/
def push (stack : OperandStack) (value : Int32) : OperandStack :=
  { stack with values := stack.values.push value }

/-- Takes the topmost value of the innermost frame. -/
def pop (stack : OperandStack) : Except Fault Int32 × OperandStack :=
  if occupied : stack.base < stack.values.size then
    (.ok stack.values[stack.values.size - 1], { stack with values := stack.values.pop })
  else (.error (.stackUnderflow stack.base), stack)

/-- The topmost value of the innermost frame. -/
def peek (stack : OperandStack) : Except Fault Int32 :=
  if occupied : stack.base < stack.values.size then
    .ok stack.values[stack.values.size - 1]
  else .error (.stackUnderflow stack.base)

/-- Opens a frame over the topmost values of the innermost one. -/
def openFrame (stack : OperandStack) (count : Nat) : Except Fault Unit × OperandStack :=
  if stack.frameSize < count then (.error (.frameTooLarge count stack.frameSize), stack)
  else
    (.ok (),
      { stack with
        base := stack.values.size - count
        callers := stack.base :: stack.callers })

/-- Closes the innermost frame and leaves its topmost value on the frame
around it. -/
def closeFrame (stack : OperandStack) : Except Fault Int32 × OperandStack :=
  match stack.callers with
  | [] => (.error .outermostFrame, stack)
  | caller :: callers =>
      match stack.pop with
      | (.error fault, popped) => (.error fault, popped)
      | (.ok result, popped) =>
          (.ok result,
            { values := (popped.values.take popped.base).push result
              base := caller
              callers })

/-- The value at an offset of the innermost frame. -/
def load (stack : OperandStack) (offset : Nat) : Except Fault Int32 :=
  if within : stack.base + offset < stack.values.size then
    .ok stack.values[stack.base + offset]
  else .error (.offsetOutOfFrame offset stack.frameSize)

/-- Replaces the value at an offset of the innermost frame. -/
def store (stack : OperandStack) (offset : Nat) (value : Int32) :
    Except Fault Unit × OperandStack :=
  if within : stack.base + offset < stack.values.size then
    (.ok (), { stack with values := stack.values.set (stack.base + offset) value within })
  else (.error (.offsetOutOfFrame offset stack.frameSize), stack)

/-- The values of frames with the given bases, each up to the next base and
the last up to the top. -/
def groupsFrom (values : List Int32) : List Nat → List (List Int32)
  | [] => []
  | [start] => [values.drop start]
  | start :: next :: rest => (values.take next).drop start :: groupsFrom values (next :: rest)

/-- The values of every frame, outermost first. -/
def groups (stack : OperandStack) : List (List Int32) :=
  groupsFrom stack.values.toList stack.bases

/-- Values separated by commas. -/
def renderValues (values : List Int32) : String :=
  ",".intercalate (values.map Decimal.ofInt32)

/-- One bracketed group for each frame, outermost first. -/
def render (stack : OperandStack) : String :=
  " ".intercalate (stack.groups.map fun group => "[" ++ renderValues group ++ "]")

@[simp] theorem push_base (stack : OperandStack) (value : Int32) :
    (stack.push value).base = stack.base := rfl

@[simp] theorem push_callers (stack : OperandStack) (value : Int32) :
    (stack.push value).callers = stack.callers := rfl

@[simp] theorem push_values (stack : OperandStack) (value : Int32) :
    (stack.push value).values = stack.values.push value := rfl

end OperandStack

end StackDebugger
