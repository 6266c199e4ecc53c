import StackDebugger.Json.Parser
import StackDebugger.Json.Basic
import StackDebugger.Text.Utf8

/-!
# Messages

What a debug client and the adapter send each other: numbered requests,
responses and events, written as JSON objects.
-/

namespace StackDebugger

/-- What a message is about. -/
inductive Content where
  | request (command : String) (arguments : Option Json)
  | response (requestSeq : Nat) (success : Bool) (command : String) (message : Option String)
      (body : Option Json)
  | event (name : String) (body : Option Json)
  deriving Repr

/-- A message with its number and the word for its kind. -/
structure Message where
  seq : Nat
  kind : String
  content : Content
  deriving Repr

namespace Message

/-- A numbered request. -/
def request (seq : Nat) (command : String) (arguments : Option Json) : Message :=
  { seq, kind := "request", content := .request command arguments }

/-- A member that is left out when there is no value. -/
def optionalMember (name : String) : Option Json → List (String × Json)
  | none => []
  | some value => [(name, value)]

/-- The members of a message that its content gives, in the order in which
they are written. -/
def contentMembers : Content → List (String × Json)
  | .request command arguments =>
      ("command", .string command) :: optionalMember "arguments" arguments
  | .response requestSeq success command message body =>
      [("request_seq", .nat requestSeq), ("success", .bool success),
        ("command", .string command)] ++
        optionalMember "message" (message.map Json.string) ++ optionalMember "body" body
  | .event name body => ("event", .string name) :: optionalMember "body" body

/-- The members of a message in the order in which they are written. -/
def members (message : Message) : List (String × Json) :=
  [("seq", .nat message.seq), ("type", .string message.kind)] ++ contentMembers message.content

/-- The text of a message. -/
def render (message : Message) : List Char :=
  (Json.object message.members).render

/-- All values that members give to a name, in order. -/
def valuesOf (name : String) (members : List (String × Json)) : List Json :=
  (members.filter fun member => member.1 == name).map Prod.snd

/-- The value of a name that stands there exactly once. -/
def once? (name : String) (members : List (String × Json)) : Option Json :=
  match valuesOf name members with
  | [value] => some value
  | _ => none

/-- The value of a name that stands there at most once, where null counts as
no value; repeated names are refused. -/
def optional? (name : String) (members : List (String × Json)) : Option (Option Json) :=
  match valuesOf name members with
  | [] => some none
  | [value] => some value.canonical.present?
  | _ => none

/-- The text that a name gives at most once; any other value is refused. -/
def optionalText? (name : String) (members : List (String × Json)) : Option (Option String) :=
  match optional? name members with
  | none => none
  | some none => some none
  | some (some value) => value.string?.map some

/-- Reads members as a request. -/
def requestContent? (members : List (String × Json)) : Option Content := do
  let command ← (← once? "command" members).string?
  let arguments ← optional? "arguments" members
  return .request command arguments

/-- Reads members as a response. -/
def responseContent? (members : List (String × Json)) : Option Content := do
  let requestSeq ← (← once? "request_seq" members).nat?
  let success ← (← once? "success" members).bool?
  let command ← (← once? "command" members).string?
  let message ← optionalText? "message" members
  let body ← optional? "body" members
  return .response requestSeq success command message body

/-- Reads members as an event. -/
def eventContent? (members : List (String × Json)) : Option Content := do
  let name ← (← once? "event" members).string?
  let body ← optional? "body" members
  return .event name body

/-- The first content that members fit: a request, a response, an event. -/
def content? (members : List (String × Json)) : Option Content :=
  match requestContent? members with
  | some content => some content
  | none =>
      match responseContent? members with
      | some content => some content
      | none => eventContent? members

/-- Reads a value as a message.  The number and the kind must stand there
exactly once. -/
def ofJson? : Json → Option Message
  | .object members => do
      let seq ← (← once? "seq" members).nat?
      let kind ← (← once? "type" members).string?
      let content ← content? members
      return { seq, kind, content }
  | _ => none

/-- The number of arrays and objects that may stand inside one another. -/
def depthLimit : Nat :=
  127

/-- Reads the body of a frame as a message. -/
def ofBytes? (body : List UInt8) : Option Message := do
  let text ← Utf8.decode? body
  ofJson? (← Json.parse? depthLimit text)

end Message

end StackDebugger
