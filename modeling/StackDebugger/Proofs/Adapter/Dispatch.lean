import Mathlib.Algebra.Ring.Nat
import StackDebugger.Adapter.Service
import StackDebugger.Proofs.Adapter.Framing
import StackDebugger.Proofs.Json.Reading

/-!
# What is acted on

The kind of a message is not read from the word that names it, but from the members that
it has, and a request is tried first.  Written events have none of a request's members, so
they are passed over.  Written responses name the command that they answer, and so they
are acted on as requests of that command without arguments.
-/

namespace StackDebugger

namespace Message

open Json

theorem rereadMembers?_cons {depth : Nat} {name : String} {value : Json}
    {rest reread : List (String × Json)}
    (isReread : rereadMembers? depth ((name, value) :: rest) = some reread) :
    ∃ first others, value.reread? depth = some first ∧
      rereadMembers? depth rest = some others ∧ reread = (name, first) :: others := by
  rw [rereadMembers?] at isReread
  split at isReread
  · next first others isFirst isOthers =>
      exact ⟨first, others, isFirst, isOthers, (Option.some.inj isReread).symm⟩
  · contradiction

/-- Reading what was written keeps names apart. -/
theorem rereadItems?_valuesOf {depth : Nat} {members reread : List (String × Json)}
    (isReread : rereadMembers? depth members = some reread) (name : String) :
    rereadItems? depth (valuesOf name members) = some (valuesOf name reread) := by
  induction members generalizing reread with
  | nil =>
      obtain rfl := Option.some.inj isReread
      rfl
  | cons member rest ih =>
      obtain ⟨first, others, isFirst, isOthers, rfl⟩ := rereadMembers?_cons isReread
      have ofRest := ih isOthers
      by_cases sameName : member.1 = name
      · simp_all [valuesOf, rereadItems?]
      · simp_all [valuesOf]

theorem valuesOf_eq_nil_of_reread {depth : Nat} {members reread : List (String × Json)}
    {name : String} (isReread : rereadMembers? depth members = some reread)
    (absent : valuesOf name members = []) : valuesOf name reread = [] := by
  have values := rereadItems?_valuesOf isReread name
  rw [absent] at values
  exact (Option.some.inj values).symm

theorem once?_of_reread {depth : Nat} {members reread : List (String × Json)} {name : String}
    {value : Json} (isReread : rereadMembers? depth members = some reread)
    (single : valuesOf name members = [value]) :
    once? name reread = value.reread? depth := by
  have values := rereadItems?_valuesOf isReread name
  rw [single, rereadItems?, rereadItems?] at values
  rw [once?]
  cases isRead : value.reread? depth with
  | none => simp [isRead] at values
  | some first =>
      rw [isRead] at values
      rw [← Option.some.inj values]

theorem once?_eq_none {members : List (String × Json)} {name : String}
    (absent : valuesOf name members = []) : once? name members = none := by
  rw [once?, absent]

theorem optional?_eq_none {members : List (String × Json)} {name : String}
    (absent : valuesOf name members = []) : optional? name members = some none := by
  rw [optional?, absent]

theorem ofBytes?_render (message : Message) :
    ofBytes? (Utf8.encode message.render) =
      (rereadMembers? 126 message.members).bind fun members => ofJson? (.object members) := by
  have isRead : parse? depthLimit message.render =
      (rereadMembers? 126 message.members).map .object := by
    rw [render, parse?_render]
    rfl
  rw [ofBytes?, Utf8.decode?_encode, Option.bind_eq_bind, Option.bind_some, isRead]
  cases rereadMembers? 126 message.members with
  | none => rfl
  | some members => rfl

theorem valuesOf_seq (message : Message) :
    valuesOf "seq" message.members = [.nat message.seq] := by
  obtain ⟨seq, kind, content⟩ := message
  rcases content with ⟨_, _ | _⟩ | ⟨_, _, _, _ | _, _ | _⟩ | ⟨_, _ | _⟩ <;> rfl

theorem valuesOf_type (message : Message) :
    valuesOf "type" message.members = [.string message.kind] := by
  obtain ⟨seq, kind, content⟩ := message
  rcases content with ⟨_, _ | _⟩ | ⟨_, _, _, _ | _, _ | _⟩ | ⟨_, _ | _⟩ <;> rfl

/-- The number that is read from a written number. -/
def rereadSeq? (seq : Nat) : Option Nat :=
  ((Json.nat seq).reread? 126).bind nat?

theorem ofJson?_of_reread {message : Message} {reread : List (String × Json)}
    (isReread : rereadMembers? 126 message.members = some reread) :
    ofJson? (.object reread) =
      (rereadSeq? message.seq).bind fun seq =>
        (content? reread).map fun content => { seq, kind := message.kind, content } := by
  rw [ofJson?, once?_of_reread isReread message.valuesOf_seq,
    once?_of_reread isReread message.valuesOf_type, rereadSeq?]
  simp only [Option.bind_eq_bind, Option.bind_assoc, Json.reread?, Option.bind_some, string?]
  cases content? reread with
  | none => rfl
  | some content => rfl

/-- An event is never read as anything else. -/
theorem content_of_event {message decoded : Message} {name : String} {body : Option Json}
    (isEvent : message.content = .event name body)
    (isDecoded : ofBytes? (Utf8.encode message.render) = some decoded) :
    ∃ name body, decoded.content = .event name body := by
  rw [ofBytes?_render, Option.bind_eq_some_iff] at isDecoded
  obtain ⟨reread, isReread, isDecoded⟩ := isDecoded
  have noCommand : valuesOf "command" message.members = [] := by
    rw [members, contentMembers.eq_def, isEvent]
    cases body with
    | none => rfl
    | some body => rfl
  have stillNone := once?_eq_none (valuesOf_eq_nil_of_reread isReread noCommand)
  have noRequest : requestContent? reread = none := by
    rw [requestContent?, stillNone]
    rfl
  have noResponse : responseContent? reread = none := by
    simp [responseContent?, stillNone]
  rw [ofJson?_of_reread isReread, content?, noRequest, noResponse, Option.bind_eq_some_iff]
    at isDecoded
  obtain ⟨seq, -, isDecoded⟩ := isDecoded
  obtain ⟨content, isContent, rfl⟩ := Option.map_eq_some_iff.mp isDecoded
  simp only [eventContent?, Option.bind_eq_bind, Option.bind_eq_some_iff] at isContent
  obtain ⟨_, -, name, -, body, -, isContent⟩ := isContent
  exact ⟨name, body, (Option.some.inj isContent).symm⟩

theorem content?_of_reread {message : Message} {command : String} {reread : List (String × Json)}
    (isReread : rereadMembers? 126 message.members = some reread)
    (named : valuesOf "command" message.members = [.string command])
    (bare : valuesOf "arguments" message.members = []) :
    content? reread = some (.request command none) := by
  have isCommand := once?_of_reread isReread named
  have isBare := optional?_eq_none (valuesOf_eq_nil_of_reread isReread bare)
  rw [content?, requestContent?, isCommand, isBare]
  rfl

theorem request_of_response {message decoded : Message} {requestSeq : Nat} {success : Bool}
    {command : String} {text : Option String} {body : Option Json}
    (isResponse : message.content = .response requestSeq success command text body)
    (isDecoded : ofBytes? (Utf8.encode message.render) = some decoded) :
    decoded.content = .request command none ∧
    ofBytes? (Utf8.encode (request message.seq command none).render) =
      some (request decoded.seq command none) := by
  rw [ofBytes?_render, Option.bind_eq_some_iff] at isDecoded
  obtain ⟨reread, isReread, isDecoded⟩ := isDecoded
  have named : valuesOf "command" message.members = [.string command] := by
    rw [members, contentMembers.eq_def, isResponse]
    rcases text, body with ⟨_ | _, _ | _⟩ <;> rfl
  have bare : valuesOf "arguments" message.members = [] := by
    rw [members, contentMembers.eq_def, isResponse]
    rcases text, body with ⟨_ | _, _ | _⟩ <;> rfl
  rw [ofJson?_of_reread isReread, content?_of_reread isReread named bare,
    Option.bind_eq_some_iff] at isDecoded
  obtain ⟨seq, isSeq, isDecoded⟩ := isDecoded
  obtain rfl := Option.some.inj isDecoded
  obtain ⟨value, isValue, -⟩ := Option.bind_eq_some_iff.mp isSeq
  have isRequest : rereadMembers? 126 (request message.seq command none).members =
      some [("seq", value), ("type", .string "request"), ("command", .string command)] := by
    simp [request, members, contentMembers, optionalMember, rereadMembers?, isValue, Json.reread?]
  refine ⟨rfl, ?_⟩
  rw [ofBytes?_render, isRequest, Option.bind_some, ofJson?_of_reread isRequest,
    content?_of_reread isRequest rfl rfl]
  change (rereadSeq? message.seq).bind _ = _
  rw [isSeq]
  rfl

/-- The bytes of a member in the text of an object, the sign behind it included. -/
def memberBytes (member : String × Json) : Nat :=
  (Utf8.encode (quote member.1)).length + (Utf8.encode member.2.render).length + 2

theorem length_encode_cons {c : Char} (short : c.utf8Size = 1) (text : List Char) :
    (Utf8.encode (c :: text)).length = (Utf8.encode text).length + 1 := by
  simp [Utf8.encode, short, Nat.add_comm]

theorem length_encode_renderMembers {members : List (String × Json)} (filled : members ≠ []) :
    (Utf8.encode (renderMembers members)).length = (members.map memberBytes).sum := by
  induction members with
  | nil => contradiction
  | cons member rest ih =>
      cases rest with
      | nil =>
          simp only [renderMembers, Utf8.encode_append, List.length_append, List.map_cons,
            length_encode_cons (show ':'.utf8Size = 1 from rfl),
            length_encode_cons (show '\x7d'.utf8Size = 1 from rfl),
            Utf8.encode_nil, List.length_nil, List.map_nil, List.sum_cons, List.sum_nil,
            memberBytes]
          omega
      | cons next rest =>
          have others := ih (List.cons_ne_nil _ _)
          simp only [renderMembers, Utf8.encode_append, List.length_append, List.map_cons,
            length_encode_cons (show ':'.utf8Size = 1 from rfl),
            length_encode_cons (show ','.utf8Size = 1 from rfl), List.sum_cons, others,
            memberBytes]
          omega

theorem length_encode_render (message : Message) :
    (Utf8.encode message.render).length = (message.members.map memberBytes).sum + 1 := by
  rw [render, Json.render, length_encode_cons rfl, length_encode_renderMembers]
  exact List.cons_ne_nil _ _

/-- A response is longer than the request that it answers, arguments apart. -/
theorem length_encode_request_le {message : Message} {requestSeq : Nat} {success : Bool}
    {command : String} {text : Option String} {body : Option Json}
    (isResponse : message.content = .response requestSeq success command text body) :
    (Utf8.encode (request message.seq command none).render).length ≤
      (Utf8.encode message.render).length := by
  -- The number of the answered request alone outweighs the longer word for the kind.
  have requestKind : memberBytes ("type", .string "request") = 17 := by decide
  have kindWord : (Utf8.encode (quote "type")).length = 6 := by decide
  have seqWord : (Utf8.encode (quote "request_seq")).length = 13 := by decide
  have kind : 8 ≤ memberBytes ("type", .string message.kind) := by
    rw [memberBytes, kindWord]
    omega
  have answered : 15 ≤ memberBytes ("request_seq", .nat requestSeq) := by
    rw [memberBytes, seqWord]
    omega
  rw [length_encode_render, length_encode_render]
  simp only [members, request, isResponse, contentMembers, optionalMember, List.map_append,
    List.map_cons, List.map_nil, List.sum_append, List.sum_cons, List.sum_nil, requestKind]
  omega

end Message

namespace Adapter

/-- Serves what follows a request, unless the client has gone. -/
def Handled.andThen (handled : Handled) (serveNext : Adapter → Option Served) : Option Served :=
  if handled.connected then
    (serveNext handled.adapter).map fun served =>
      { served with messages := handled.messages ++ served.messages }
  else some { adapter := handled.adapter, messages := handled.messages, failure := none }

theorem serveWithin_eq {fuel count other : Nat} {read : FileReader} {adapter : Adapter}
    {stream : List UInt8} (enough : stream.length < count) (alsoEnough : stream.length < other) :
    serveWithin fuel read count adapter stream = serveWithin fuel read other adapter stream := by
  induction count generalizing other adapter stream with
  | zero => contradiction
  | succ count ih =>
      obtain ⟨other, rfl⟩ : ∃ less, other = less + 1 := ⟨other - 1, by omega⟩
      rw [serveWithin, serveWithin]
      split
      · rfl
      · rfl
      · next taken =>
          have shorter := Frame.length_of_takeMessage taken
          split
          · rfl
          · rw [@ih other _ _ (by omega) (by omega)]

theorem serve_eq (fuel : Nat) (read : FileReader) (adapter : Adapter) (stream : List UInt8) :
    adapter.serve fuel read stream =
      match Frame.takeMessage stream with
      | .error failure => some { adapter, messages := [], failure := some failure }
      | .ok none => some { adapter, messages := [], failure := none }
      | .ok (some (message, rest)) =>
          (adapter.receive fuel read message).bind fun handled =>
            handled.andThen fun next => next.serve fuel read rest := by
  rw [serve, serveWithin]
  cases taken : Frame.takeMessage stream with
  | error failure => rfl
  | ok result =>
      cases result with
      | none => rfl
      | some result =>
          have shorter := Frame.length_of_takeMessage taken
          have sameLater : ∀ next, serveWithin fuel read stream.length next result.2 =
              next.serve fuel read result.2 := by
            intro next
            exact serveWithin_eq shorter (Nat.lt_succ_self _)
          simp only [sameLater]
          cases adapter.receive fuel read result.1 with
          | none => rfl
          | some handled => rfl

theorem serve_frame (fuel : Nat) (read : FileReader) (adapter : Adapter) (frame : Frame.Parts)
    (rest : List UInt8) :
    adapter.serve fuel read (frame.bytes ++ rest) =
      match Message.ofBytes? frame.body with
      | none => adapter.serve fuel read rest
      | some message =>
          (adapter.receive fuel read message).bind fun handled =>
            handled.andThen fun next => next.serve fuel read rest := by
  rw [serve_eq, Frame.takeMessage_frame]
  cases Message.ofBytes? frame.body with
  | none => exact (serve_eq fuel read adapter rest).symm
  | some message => rfl

/-- Streams that are served alike are so behind any frames. -/
theorem serve_frames {fuel : Nat} {read : FileReader} {stream other : List UInt8}
    (alike : ∀ adapter : Adapter, adapter.serve fuel read stream = adapter.serve fuel read other)
    (adapter : Adapter) (frames : List Frame.Parts) :
    adapter.serve fuel read (frames.flatMap Frame.Parts.bytes ++ stream) =
      adapter.serve fuel read (frames.flatMap Frame.Parts.bytes ++ other) := by
  induction frames generalizing adapter with
  | nil => exact alike adapter
  | cons frame frames ih =>
      simp only [List.flatMap_cons, List.append_assoc, serve_frame, ih]

theorem serve_message {message : Message}
    (fits : (Utf8.encode message.render).length ≤ Frame.lengthLimit) (fuel : Nat)
    (read : FileReader) (adapter : Adapter) (rest : List UInt8) :
    adapter.serve fuel read (Utf8.encode (Frame.encode message) ++ rest) =
      match Message.ofBytes? (Utf8.encode message.render) with
      | none => adapter.serve fuel read rest
      | some message =>
          (adapter.receive fuel read message).bind fun handled =>
            handled.andThen fun next => next.serve fuel read rest := by
  rw [← Frame.bytes_ofMessage message fits, serve_frame]
  rfl

theorem serve_event {message : Message} {name : String} {body : Option Json}
    (isEvent : message.content = .event name body)
    (fits : (Utf8.encode message.render).length ≤ Frame.lengthLimit) (fuel : Nat)
    (read : FileReader) (adapter : Adapter) (rest : List UInt8) :
    adapter.serve fuel read (Utf8.encode (Frame.encode message) ++ rest) =
      adapter.serve fuel read rest := by
  rw [serve_message fits]
  cases isDecoded : Message.ofBytes? (Utf8.encode message.render) with
  | none => rfl
  | some decoded =>
      obtain ⟨name, body, isContent⟩ := Message.content_of_event isEvent isDecoded
      simp [receive, isContent, Handled.andThen]

theorem serve_response {message : Message} {requestSeq : Nat} {success : Bool}
    {command : String} {text : Option String} {body : Option Json}
    (isResponse : message.content = .response requestSeq success command text body)
    (fits : (Utf8.encode message.render).length ≤ Frame.lengthLimit)
    (isMessage : (Message.ofBytes? (Utf8.encode message.render)).isSome) (fuel : Nat)
    (read : FileReader) (adapter : Adapter) (rest : List UInt8) :
    adapter.serve fuel read (Utf8.encode (Frame.encode message) ++ rest) =
      adapter.serve fuel read
        (Utf8.encode (Frame.encode (Message.request message.seq command none)) ++ rest) := by
  obtain ⟨decoded, isDecoded⟩ := Option.isSome_iff_exists.mp isMessage
  obtain ⟨isContent, isRequest⟩ := Message.request_of_response isResponse isDecoded
  have sameReceived : adapter.receive fuel read decoded =
      adapter.receive fuel read (Message.request decoded.seq command none) := by
    rw [receive, isContent]
    rfl
  rw [serve_message fits, isDecoded,
    serve_message (Nat.le_trans (Message.length_encode_request_le isResponse) fits), isRequest]
  simp only [sameReceived]

/-- A written event that stands between the frames of a stream makes no difference to what
is sent or to what is left in the end.  A written response is not passed over: it is served
as the request of the same number and command would be. -/
theorem served_as_written {message : Message}
    (fits : (Utf8.encode message.render).length ≤ Frame.lengthLimit) (fuel : Nat)
    (read : FileReader) (adapter : Adapter) (frames : List Frame.Parts) (rest : List UInt8) :
    (∀ name body, message.content = .event name body →
      adapter.serve fuel read
          (frames.flatMap Frame.Parts.bytes ++ (Utf8.encode (Frame.encode message) ++ rest)) =
        adapter.serve fuel read (frames.flatMap Frame.Parts.bytes ++ rest)) ∧
    ∀ requestSeq success command text body,
      message.content = .response requestSeq success command text body →
      (Message.ofBytes? (Utf8.encode message.render)).isSome →
      adapter.serve fuel read
          (frames.flatMap Frame.Parts.bytes ++ (Utf8.encode (Frame.encode message) ++ rest)) =
        adapter.serve fuel read (frames.flatMap Frame.Parts.bytes ++
          (Utf8.encode (Frame.encode (Message.request message.seq command none)) ++ rest)) := by
  constructor
  · intro name body isEvent
    apply serve_frames
    intro adapter
    exact serve_event isEvent fits fuel read adapter rest
  · intro requestSeq success command text body isResponse isMessage
    apply serve_frames
    intro adapter
    exact serve_response isResponse fits isMessage fuel read adapter rest

/-- The response to a `threads` request. -/
def threadsResponse : Message :=
  { seq := 1, kind := "response", content := .response 1 true "threads" none none }

/-- A response behind a request is answered as the request was. -/
theorem served_as_written_threads :
    let frame := Frame.Parts.ofMessage (Message.request 1 "threads" none) (by decide +kernel)
    let served := ({} : Adapter).serve 0 (fun _ => .error .notFound)
      ([frame].flatMap Frame.Parts.bytes ++ (Utf8.encode (Frame.encode threadsResponse) ++ []))
    served.map (fun served => served.messages.map Message.seq) = some [1, 2] := by
  intro frame served
  have fits : (Utf8.encode threadsResponse.render).length ≤ Frame.lengthLimit := by
    decide +kernel
  have isMessage : (Message.ofBytes? (Utf8.encode threadsResponse.render)).isSome := by
    decide +kernel
  have asRequest := (served_as_written fits 0 (fun _ => .error .notFound) {}
    [frame] []).2 _ _ _ _ _ rfl isMessage
  change (Adapter.serve _ _ _ _).map _ = _
  rw [asRequest]
  decide +kernel

/-- A response is not passed over: alone in a stream it is answered. -/
theorem response_answered :
    ¬ (({} : Adapter).serve 0 (fun _ => .error .notFound)
          (Utf8.encode (Frame.encode threadsResponse))).map (fun served => served.messages.length) =
      (({} : Adapter).serve 0 (fun _ => .error .notFound) []).map
        (fun served => served.messages.length) := by
  decide +kernel

end Adapter

end StackDebugger
