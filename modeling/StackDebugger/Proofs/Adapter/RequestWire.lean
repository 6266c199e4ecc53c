import StackDebugger.Proofs.Adapter.Dispatch
import StackDebugger.Proofs.Json.RoundTrip

/-!
# Requests survive the wire

A written request is taken from a stream as the same request: its number, its command and
its arguments are those that were written, and no byte behind it is touched.  The number
and the command are plain values, and so are arguments without binary numbers, so that
nothing is lost in the text; a frame then keeps the text together.
-/

namespace StackDebugger

namespace Message

open Json

/-- Whether arguments are absent, or plain and not null.  A null could not be told from no
arguments. -/
def ArePlainArguments (arguments : Option Json) : Prop :=
  ∀ value, arguments = some value → value ≠ .null ∧ value.IsPlain 126

section Request

variable {seq : Nat} {command : String} {arguments : Option Json}

theorem rereadMembers?_request (word : seq ≤ 0xFFFFFFFFFFFFFFFF)
    (plain : ArePlainArguments arguments) :
    rereadMembers? 126 (request seq command arguments).members =
      some (request seq command arguments).members := by
  apply rereadMembers?_of_forall
  intro member isMember
  apply IsPlain.reread?
  simp only [members, request, contentMembers, List.mem_append, List.mem_cons,
    List.not_mem_nil, or_false] at isMember
  rcases isMember with (rfl | rfl) | rfl | isArgument
  · exact .nat word
  · exact .string "request"
  · exact .string command
  · cases arguments with
    | none => contradiction
    | some value =>
        obtain rfl := List.mem_singleton.mp isArgument
        exact (plain value rfl).2

theorem present?_of_ne_null {value : Json} (present : value ≠ .null) :
    value.present? = some value := by
  cases value with
  | null => contradiction
  | bool _ | number _ | string _ | array _ | object _ => rfl

theorem content?_request (plain : ArePlainArguments arguments) :
    content? (request seq command arguments).members = some (.request command arguments) := by
  have isCommand : once? "command" (request seq command arguments).members =
      some (.string command) := by
    cases arguments with
    | none => rfl
    | some value => rfl
  have isArguments : optional? "arguments" (request seq command arguments).members =
      some arguments := by
    cases arguments with
    | none => rfl
    | some value =>
        have ⟨present, isPlain⟩ := plain value rfl
        change some value.canonical.present? = _
        rw [isPlain.canonical, present?_of_ne_null present]
  simp only [content?, requestContent?, isCommand, isArguments, Option.bind_eq_bind,
    Option.bind_some, string?]
  rfl

/-- The body of a written request is decoded to that request. -/
theorem ofBytes?_request (word : seq ≤ 0xFFFFFFFFFFFFFFFF)
    (plain : ArePlainArguments arguments) :
    ofBytes? (Utf8.encode (request seq command arguments).render) =
      some (request seq command arguments) := by
  have isReread := @rereadMembers?_request seq command arguments word plain
  have isSeq : rereadSeq? seq = some seq := by
    rw [rereadSeq?, (IsPlain.nat word).reread?]
    rfl
  rw [ofBytes?_render, isReread, Option.bind_some, ofJson?_of_reread isReread,
    content?_request plain]
  change (rereadSeq? seq).bind _ = _
  rw [isSeq]
  rfl

end Request

/-- Requests survive the wire.  A request with any number of 64 bits, any command and plain
arguments, whose body is not longer than a frame may hold, is taken from the front of a
stream as it was written, and all that follows it is left. -/
theorem request_read_back (seq : UInt64) (command : String) {arguments : Option Json}
    (plain : ArePlainArguments arguments)
    (fits : (Utf8.encode (request seq.toNat command arguments).render).length ≤
      Frame.lengthLimit) (rest : List UInt8) :
    Frame.takeMessage
        (Utf8.encode (Frame.encode (request seq.toNat command arguments)) ++ rest) =
      .ok (some (request seq.toNat command arguments, rest)) := by
  have word : seq.toNat ≤ 0xFFFFFFFFFFFFFFFF := Nat.le_of_lt_succ seq.toNat_lt
  have isRequest : ofBytes? (Frame.Parts.ofMessage _ fits).body =
      some (request seq.toNat command arguments) := ofBytes?_request word plain
  rw [← Frame.bytes_ofMessage _ fits, Frame.takeMessage_frame, isRequest]

/-- The ends of both ranges of integers, an escaped text and an empty array behind one
another in arguments that are nested. -/
theorem request_read_back_limits :
    let arguments : Json := .object
      [("limits", .array [.number (.integer (-0x8000000000000000)), .nat 0xFFFFFFFFFFFFFFFF]),
        ("program", .string "a\"\\\n\x00😀"), ("trace", .array [.null, .array []])]
    let message := request (0xFFFFFFFFFFFFFFFF : UInt64).toNat "la\tunch" (some arguments)
    ArePlainArguments (some arguments) ∧
    Frame.takeMessage (Utf8.encode (Frame.encode message)) = .ok (some (message, [])) := by
  intro arguments message
  have plain : ArePlainArguments (some arguments) := by
    rintro _ ⟨⟩
    refine ⟨by simp [arguments], .object (by decide) ?_⟩
    simp only [List.forall_mem_cons]
    refine ⟨.array ?_, .string _, .array ?_, by simp⟩
    · simp only [List.forall_mem_cons]
      exact ⟨.integer (by decide) (by decide), .nat (by decide), by simp⟩
    · simp only [List.forall_mem_cons]
      exact ⟨.null, .array (by simp), by simp⟩
  have fits : (Utf8.encode message.render).length ≤ Frame.lengthLimit := by
    decide +kernel
  have taken := request_read_back 0xFFFFFFFFFFFFFFFF "la\tunch" plain fits []
  rw [List.append_nil] at taken
  exact ⟨plain, taken⟩

end Message

end StackDebugger
