import StackDebugger.Adapter.Message
import StackDebugger.Text.Basic

/-!
# Frames

A message travels as a frame: header lines, one of which gives the length of
the body in bytes, an empty line, and the body.  Bodies that are not messages
are passed over; a header that does not give the length breaks the stream.
-/

namespace StackDebugger

/-- Why a stream cannot be read on. -/
inductive FrameError where
  | badLength (text : String)
  | missingLength
  | tooLong (length : Nat)
  /-- A header line was not well-formed text. -/
  | malformedHeader
  /-- The stream ended inside a body. -/
  | truncated
  deriving DecidableEq, Repr

namespace Frame

/-- The longest body that is accepted. -/
def lengthLimit : Nat :=
  16 * 1024 * 1024

/-- The word before the length of a body. -/
def lengthHeader : String :=
  "Content-Length:"

end Frame

/-- What an error says. -/
def FrameError.message : FrameError → String
  | .badLength text => "bad Content-Length '" ++ text ++ "'"
  | .missingLength => "message without Content-Length"
  | .tooLong length =>
      "Content-Length " ++ toString length ++ " exceeds " ++ toString Frame.lengthLimit
  | .malformedHeader => Utf8.malformedMessage
  | .truncated => "failed to fill whole buffer"

namespace Frame

/-- The frame of a message. -/
def encode (message : Message) : List Char :=
  let body := message.render
  (lengthHeader ++ " " ++ toString (Utf8.encode body).length ++ "\r\n\r\n").toList ++ body

/-- What the header lines of a frame have said so far. -/
structure Header where
  seen : Bool := false
  length : Option Nat := none

/-- What a header line leads to. -/
inductive HeaderStep where
  | more (header : Header)
  /-- The empty line behind the header. -/
  | complete

/-- A header line without the carriage returns and line feeds at its end. -/
def stripEnding (line : List Char) : List Char :=
  (line.reverse.dropWhile fun c => c == '\r' || c == '\n').reverse

/-- Reads a header line.  Empty lines before the first header line are passed
over, and so are headers other than the length. -/
def readHeaderLine (header : Header) (line : Text.RawLine) : Except FrameError HeaderStep :=
  match Utf8.decode? line with
  | none => .error .malformedHeader
  | some text =>
      let content := stripEnding text
      if content.isEmpty then
        if header.seen then .ok .complete else .ok (.more header)
      else if lengthHeader.toList.isPrefixOf content then
        let value := Text.trim (content.drop lengthHeader.length)
        match Decimal.size? value with
        | some length => .ok (.more { seen := true, length := some length })
        | none => .error (.badLength (String.ofList value))
      else .ok (.more { header with seen := true })

/-- Reads header lines up to the empty one behind them, where the current
line began with the gathered bytes, kept last byte first.  Gives the length
and what follows, or nothing where the stream ends before. -/
def takeHeader (header : Header) (gathered : List UInt8) :
    List UInt8 → Except FrameError (Option (Option Nat × List UInt8))
  | [] =>
      if gathered.isEmpty then .ok none
      else
        match readHeaderLine header gathered.reverse with
        | .error failure => .error failure
        | .ok .complete => .ok (some (header.length, []))
        | .ok (.more _) => .ok none
  | b :: rest =>
      if b = 10 then
        match readHeaderLine header (b :: gathered).reverse with
        | .error failure => .error failure
        | .ok .complete => .ok (some (header.length, rest))
        | .ok (.more next) => takeHeader next [] rest
      else takeHeader header (b :: gathered) rest

/-- Takes the body of the first frame, or nothing where the stream ends before
the body begins. -/
def takeBody (stream : List UInt8) : Except FrameError (Option (List UInt8 × List UInt8)) :=
  match takeHeader {} [] stream with
  | .error failure => .error failure
  | .ok none => .ok none
  | .ok (some (none, _)) => .error .missingLength
  | .ok (some (some length, rest)) =>
      if lengthLimit < length then .error (.tooLong length)
      else if rest.length < length then .error .truncated
      else .ok (some (rest.take length, rest.drop length))

/-- The number of bytes that a stream lacks to the end of its first body, or
nothing while its header is not complete. -/
def lacking? (stream : List UInt8) : Option Nat :=
  match takeHeader {} [] stream with
  | .ok (some (some length, rest)) => some (length - rest.length)
  | _ => none

/-- Takes the first message of a stream among at most so many frames. -/
def takeMessageWithin : Nat → List UInt8 → Except FrameError (Option (Message × List UInt8))
  | 0, _ => .ok none
  | frames + 1, stream =>
      match takeBody stream with
      | .error failure => .error failure
      | .ok none => .ok none
      | .ok (some (body, rest)) =>
          match Message.ofBytes? body with
          | some message => .ok (some (message, rest))
          | none => takeMessageWithin frames rest

/-- Takes the first message of a stream, or nothing at its end.  Every frame
has bytes, which bounds their number. -/
def takeMessage (stream : List UInt8) : Except FrameError (Option (Message × List UInt8)) :=
  takeMessageWithin (stream.length + 1) stream

/-- Takes at most so many messages of a stream, with the error that stopped
it. -/
def takeMessagesWithin : Nat → List UInt8 → List Message × Option FrameError
  | 0, _ => ([], none)
  | count + 1, stream =>
      match takeMessage stream with
      | .error failure => ([], some failure)
      | .ok none => ([], none)
      | .ok (some (message, rest)) =>
          let (later, failure) := takeMessagesWithin count rest
          (message :: later, failure)

/-- All messages of a stream, with the error that stopped it. -/
def takeMessages (stream : List UInt8) : List Message × Option FrameError :=
  takeMessagesWithin (stream.length + 1) stream

end Frame

end StackDebugger
