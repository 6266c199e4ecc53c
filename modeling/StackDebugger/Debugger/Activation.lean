import StackDebugger.Collections

/-!
# Activations

The debugger keeps an activation for the outermost scope and for every
pending call: the function that runs, where in the source it is, and which
slots of its frame hold named variables.
-/

namespace StackDebugger

/-- Names of variables with the offsets of their slots. -/
abbrev Bindings := Dictionary Nat

namespace Bindings

/-- Keeps the bindings whose slots lie in a frame of a given size. -/
def within (size : Nat) (bindings : Bindings) : Bindings :=
  bindings.filter fun binding => binding.2 < size

/-- Places a binding before the first one with a larger offset. -/
def insertByOffset (binding : String × Nat) : Bindings → Bindings
  | [] => [binding]
  | first :: rest =>
      if binding.2 < first.2 then binding :: first :: rest
      else first :: insertByOffset binding rest

/-- The bindings in ascending order of their offsets. -/
def byOffset (bindings : Bindings) : Bindings :=
  bindings.foldl (fun sorted binding => insertByOffset binding sorted) []

end Bindings

/-- What is known about one call. -/
structure Activation where
  function : Option String := none
  firstLine : Option Nat := none
  lastLine : Option Nat := none
  currentLine : Option Nat := none
  bindings : Bindings := []
  deriving DecidableEq, Repr

namespace Activation

/-- How a function without a name is called. -/
def nativeName : String :=
  "<native>"

/-- A line number, or a dash for none. -/
def lineOrDash : Option Nat → String
  | none => "-"
  | some line => toString line

/-- Names the function and its first and last line. -/
def enterFunction (activation : Activation) (name : String) (first last : Option Nat) :
    Activation :=
  { activation with function := some name, firstLine := first, lastLine := last }

/-- Moves to a source line. -/
def reachLine (activation : Activation) (line : Nat) : Activation :=
  { activation with currentLine := some line }

/-- Binds a variable to a slot. -/
def bind (activation : Activation) (name : String) (offset : Nat) : Activation :=
  { activation with bindings := Dictionary.insert name offset activation.bindings }

/-- Drops the variables whose slots are no longer in a frame of a given
size. -/
def forgetFrom (activation : Activation) (size : Nat) : Activation :=
  { activation with bindings := activation.bindings.within size }

/-- The slot of a variable. -/
def offsetOf? (activation : Activation) (name : String) : Option Nat :=
  activation.bindings.lookup name

/-- The names of the variables, ascending. -/
def variableNames (activation : Activation) : List String :=
  activation.bindings.map Prod.fst

/-- The name of the function, or the name for a function without one. -/
def displayName (activation : Activation) : String :=
  activation.function.getD nativeName

/-- Whether no function has been entered yet. -/
def isAnonymous (activation : Activation) : Bool :=
  activation.function.isNone

/-- Whether a function without source lines has been entered. -/
def isNative (activation : Activation) : Bool :=
  activation.function.isSome && activation.firstLine.isNone

/-- One line about the activation, with its variables in the order of their
slots. -/
def render (activation : Activation) : String :=
  let listed := activation.bindings.byOffset.map fun (name, offset) =>
    name ++ ":" ++ toString offset
  activation.displayName ++ "(" ++ lineOrDash activation.firstLine ++ "-" ++
    lineOrDash activation.lastLine ++ ") @" ++ lineOrDash activation.currentLine ++ " \x7b" ++
    ", ".intercalate listed ++ "\x7d"

end Activation

/-- The activations of all pending calls, innermost first, on top of the one
of the outermost scope, which is always there. -/
structure ActivationStack where
  outermost : Activation := {}
  calls : List Activation := []
  deriving DecidableEq, Repr

namespace ActivationStack

/-- All activations, outermost first. -/
def toList (stack : ActivationStack) : List Activation :=
  stack.outermost :: stack.calls.reverse

/-- The number of activations. -/
def depth (stack : ActivationStack) : Nat :=
  stack.calls.length + 1

/-- The innermost activation. -/
def current (stack : ActivationStack) : Activation :=
  stack.calls.head?.getD stack.outermost

/-- Changes the innermost activation. -/
def modifyCurrent (change : Activation → Activation) (stack : ActivationStack) :
    ActivationStack :=
  match stack.calls with
  | [] => { stack with outermost := change stack.outermost }
  | innermost :: around => { stack with calls := change innermost :: around }

/-- Adds the activation of a new call. -/
def push (stack : ActivationStack) : ActivationStack :=
  { stack with calls := {} :: stack.calls }

/-- Removes the activation of the innermost call; the outermost one stays. -/
def pop (stack : ActivationStack) : ActivationStack :=
  { stack with calls := stack.calls.tail }

/-- The activation at a depth, where the outermost one has depth zero. -/
def get? (stack : ActivationStack) (position : Nat) : Option Activation :=
  stack.toList[position]?

@[simp] theorem depth_push (stack : ActivationStack) : stack.push.depth = stack.depth + 1 := rfl

@[simp] theorem pop_push (stack : ActivationStack) : stack.push.pop = stack := rfl

@[simp] theorem current_push (stack : ActivationStack) : stack.push.current = {} := rfl

@[simp] theorem depth_modifyCurrent (stack : ActivationStack)
    (change : Activation → Activation) :
    (stack.modifyCurrent change).depth = stack.depth := by
  rcases stack with ⟨outermost, _ | ⟨innermost, around⟩⟩ <;> rfl

@[simp] theorem current_modifyCurrent (stack : ActivationStack)
    (change : Activation → Activation) :
    (stack.modifyCurrent change).current = change stack.current := by
  rcases stack with ⟨outermost, _ | ⟨innermost, around⟩⟩ <;> rfl

end ActivationStack

end StackDebugger
