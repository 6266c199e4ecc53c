import StackDebugger.Collections
import StackDebugger.Text.Shortest

/-!
# JSON values

The values that a debug client and the adapter exchange.  An object is a list of
members; in a canonical value the members of every object stand in strictly
ascending order of their names.  Values are written without any blank.  In
strings only the quote, the backslash and the control characters are escaped.
-/

namespace StackDebugger

/-- A number: an integer that fits in 64 bits with or without a sign, or else
a binary approximation. -/
inductive Json.Number where
  | integer (value : Int)
  | real (value : Float)
  deriving Repr

/-- A JSON value. -/
inductive Json where
  | null
  | bool (value : Bool)
  | number (value : Json.Number)
  | string (value : String)
  | array (items : List Json)
  | object (members : List (String × Json))
  deriving Repr

namespace Json

/-- A natural number as a value. -/
def nat (value : Nat) : Json :=
  .number (.integer value)

/-- An integer as a value. -/
def int (value : Int) : Json :=
  .number (.integer value)

/-- An object of the given members, in ascending order of their names. -/
def ofMembers (members : List (String × Json)) : Json :=
  .object (Dictionary.ofPairs members)

mutual

/-- Brings the members of every object into ascending order, of which the last
of each name counts. -/
def canonical : Json → Json
  | .array items => .array (canonicalItems items)
  | .object members => .object (Dictionary.ofPairs (canonicalMembers members))
  | other => other

/-- The items of an array, each made canonical. -/
def canonicalItems : List Json → List Json
  | [] => []
  | item :: rest => canonical item :: canonicalItems rest

/-- The members of an object in their given order, each value made
canonical. -/
def canonicalMembers : List (String × Json) → List (String × Json)
  | [] => []
  | (name, value) :: rest => (name, canonical value) :: canonicalMembers rest

end

/-- The value of a member; only objects have members. -/
def member? (name : String) : Json → Option Json
  | .object members => members.lookup name
  | _ => none

/-- The text of a string. -/
def string? : Json → Option String
  | .string value => some value
  | _ => none

/-- The truth value of a boolean. -/
def bool? : Json → Option Bool
  | .bool value => some value
  | _ => none

/-- The number of a non-negative integer. -/
def nat? : Json → Option Nat
  | .number (.integer (.ofNat value)) => some value
  | _ => none

/-- The items of an array. -/
def items? : Json → Option (List Json)
  | .array items => some items
  | _ => none

/-- A value that is present, where null counts as absent. -/
def present? : Json → Option Json
  | .null => none
  | value => some value

end Json

end StackDebugger

namespace StackDebugger.Json

/-- A digit of a four-digit escape. -/
def hexDigit (value : Nat) : Char :=
  Nat.digitChar (value % 16)

/-- How a character of a string is written. -/
def escape (c : Char) : List Char :=
  if c = '"' then ['\\', '"']
  else if c = '\\' then ['\\', '\\']
  else if 0x20 ≤ c.toNat then [c]
  else if c = '\n' then ['\\', 'n']
  else if c = '\r' then ['\\', 'r']
  else if c = '\t' then ['\\', 't']
  else if c.toNat = 0x08 then ['\\', 'b']
  else if c.toNat = 0x0C then ['\\', 'f']
  else ['\\', 'u', '0', '0', hexDigit (c.toNat / 16), hexDigit c.toNat]

/-- A string between quotes. -/
def quote (text : String) : List Char :=
  '"' :: (text.toList.flatMap escape ++ ['"'])

/-- The text of a number. -/
def Number.render : Number → List Char
  | .integer value => (toString value).toList
  | .real value => (Shortest.render value).toList

mutual

/-- The text of a value. -/
def render : Json → List Char
  | .null => ['n', 'u', 'l', 'l']
  | .bool true => ['t', 'r', 'u', 'e']
  | .bool false => ['f', 'a', 'l', 's', 'e']
  | .number value => value.render
  | .string text => quote text
  | .array items => '[' :: renderItems items
  | .object members => '\x7b' :: renderMembers members

/-- The items of an array that has been opened, and its end. -/
def renderItems : List Json → List Char
  | [] => [']']
  | [item] => render item ++ [']']
  | item :: next :: rest => render item ++ ',' :: renderItems (next :: rest)

/-- The members of an object that has been opened, and its end. -/
def renderMembers : List (String × Json) → List Char
  | [] => ['\x7d']
  | [(name, value)] => quote name ++ ':' :: (render value ++ ['\x7d'])
  | (name, value) :: next :: rest =>
      quote name ++ ':' :: (render value ++ ',' :: renderMembers (next :: rest))

end

/-- The text of a value as a string. -/
def text (value : Json) : String :=
  String.ofList value.render

end StackDebugger.Json
