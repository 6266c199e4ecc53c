import Mathlib.Data.List.DropRight
import StackDebugger.Adapter.Frame
import StackDebugger.Proofs.Text.Decimal
import StackDebugger.Proofs.Text.Utf8

/-!
# Frames are taken apart where they were put together

A frame consists of blank lines, header lines of which the last length counts, one
more blank line, and a body.  Whatever the bodies hold, a stream of frames is divided
at exactly their boundaries: its messages are those of the bodies that hold one,
followed by the messages of what comes after.

The reader takes fuel from the length of the stream.  The equations for `takeMessage`
and `takeMessages` below hide it, since every frame has bytes.
-/

namespace StackDebugger

namespace Text

theorem trimEnd_append_of_blank {text blanks : List Char}
    (blank : ∀ c ∈ blanks, isBlank c = true) : trimEnd (text ++ blanks) = trimEnd text := by
  unfold trimEnd
  rw [List.reverse_append, List.dropWhile_append_of_pos]
  intro c member
  exact blank c (List.mem_reverse.mp member)

theorem trim_append_of_blank {text blanks : List Char}
    (blank : ∀ c ∈ blanks, isBlank c = true) : trim (text ++ blanks) = trim text := by
  unfold trim
  rw [List.dropWhile_append]
  split
  · next allBlank =>
      rw [List.isEmpty_iff.mp allBlank, List.dropWhile_eq_nil_iff.mpr blank]
  · exact trimEnd_append_of_blank blank

theorem trim_cons_of_blank {c : Char} (text : List Char) (blank : isBlank c = true) :
    trim (c :: text) = trim text := by
  rw [trim, List.dropWhile_cons_of_pos blank, trim]

theorem trim_of_no_blank {text : List Char} (visible : ∀ c ∈ text, isBlank c = false) :
    trim text = text := by
  have kept : ∀ {line : List Char}, (∀ c ∈ line, isBlank c = false) →
      line.dropWhile isBlank = line := by
    intro line visible
    cases line with
    | nil => rfl
    | cons c line =>
        apply List.dropWhile_cons_of_neg
        simp [visible c List.mem_cons_self]
  rw [trim, trimEnd, kept visible, kept, List.reverse_reverse]
  intro c member
  exact visible c (List.mem_reverse.mp member)

end Text

namespace Frame

/-- The bytes of a line of text. -/
def lineBytes (text : List Char) : List UInt8 :=
  Utf8.encode (text ++ ['\n'])

/-- A line of carriage returns only. -/
def blankLine (returns : Nat) : List UInt8 :=
  lineBytes (List.replicate returns '\r')

/-- The length that a header line announces: another header announces none. -/
inductive Announces : List Char → Option Nat → Prop where
  | length {value : List Char} {length : Nat} :
      Decimal.size? (Text.trim value) = some length →
      Announces (lengthHeader.toList ++ value) (some length)
  | other {line : List Char} : ¬ lengthHeader.toList <+: line → Announces line none

/-- A header line without its line feed. -/
structure HeaderLine where
  text : List Char
  length? : Option Nat
  announces : Announces text length?
  single : '\n' ∉ text
  /-- Something stands on the line. -/
  visible : ∃ c ∈ text, c ≠ '\r'

def HeaderLine.bytes (line : HeaderLine) : List UInt8 :=
  lineBytes line.text

def isEnding (c : Char) : Bool :=
  c == '\r' || c == '\n'

theorem isEnding_iff {c : Char} : isEnding c = true ↔ c = '\r' ∨ c = '\n' := by
  simp [isEnding]

theorem stripEnding_eq (line : List Char) : stripEnding line = line.rdropWhile isEnding := rfl

theorem stripEnding_concat (line : List Char) :
    stripEnding (line ++ ['\n']) = stripEnding line :=
  List.rdropWhile_concat_pos isEnding line '\n' rfl

theorem stripEnding_eq_nil_iff {line : List Char} :
    stripEnding line = [] ↔ ∀ c ∈ line, c = '\r' ∨ c = '\n' := by
  rw [stripEnding_eq, List.rdropWhile_eq_nil_iff]
  simp only [isEnding_iff]

/-- What stands before the last character that is no line ending is kept. -/
theorem stripEnding_append (front : List Char) {c : Char} (text : List Char)
    (kept : isEnding c = false) :
    stripEnding (front ++ c :: text) = front ++ c :: stripEnding text := by
  induction text using List.reverseRecOn with
  | nil => exact List.rdropWhile_concat_neg isEnding front c (by simp [kept])
  | append_singleton text last ih =>
      rw [stripEnding_eq] at ih ⊢
      rw [stripEnding_eq, ← List.cons_append, ← List.append_assoc, List.rdropWhile_concat,
        List.rdropWhile_concat, ih]
      split
      · rfl
      · simp

theorem trim_stripEnding (value : List Char) :
    Text.trim (stripEnding value) = Text.trim value := by
  have isValue : stripEnding value ++ value.rtakeWhile isEnding = value :=
    List.rdropWhile_append_rtakeWhile
  have blank : ∀ c ∈ value.rtakeWhile isEnding, Text.isBlank c = true := by
    intro c member
    rcases isEnding_iff.mp (List.mem_rtakeWhile_imp member) with rfl | rfl
    · rfl
    · rfl
  nth_rewrite 2 [← isValue]
  exact (Text.trim_append_of_blank blank).symm

theorem lineBytes_eq (text : List Char) : lineBytes text = Utf8.encode text ++ [10] := by
  rw [lineBytes, Utf8.encode_append]
  rfl

/-- A line of a stream is read at its line feed. -/
theorem takeHeader_line {text : List Char} (single : '\n' ∉ text) (header : Header)
    (rest : List UInt8) :
    takeHeader header [] (lineBytes text ++ rest) =
      match readHeaderLine header (lineBytes text) with
      | .error failure => .error failure
      | .ok .complete => .ok (some (header.length, rest))
      | .ok (.more next) => takeHeader next [] rest := by
  have gather : ∀ (line gathered : List UInt8), 10 ∉ line →
      takeHeader header gathered (line ++ 10 :: rest) =
        match readHeaderLine header (gathered.reverse ++ (line ++ [10])) with
        | .error failure => .error failure
        | .ok .complete => .ok (some (header.length, rest))
        | .ok (.more next) => takeHeader next [] rest := by
    intro line
    induction line with
    | nil =>
        intro gathered _
        rw [List.nil_append, takeHeader, if_pos rfl, List.reverse_cons]
        rfl
    | cons byte line ih =>
        intro gathered noFeed
        obtain ⟨other, noFeed⟩ := List.ne_and_not_mem_of_not_mem_cons noFeed
        rw [List.cons_append, takeHeader, if_neg (Ne.symm other), ih _ noFeed]
        simp
  rw [lineBytes_eq, List.append_assoc]
  exact gather (Utf8.encode text) [] (Utf8.feed_not_mem_encode single)

theorem readHeaderLine_blank (header : Header) (returns : Nat) :
    readHeaderLine header (blankLine returns) =
      if header.seen then .ok .complete else .ok (.more header) := by
  have blank : stripEnding (List.replicate returns '\r' ++ ['\n']) = [] := by
    rw [stripEnding_concat, stripEnding_eq_nil_iff]
    intro c member
    exact .inl (List.eq_of_mem_replicate member)
  simp only [readHeaderLine, blankLine, lineBytes, Utf8.decode?_encode, blank, List.isEmpty_nil,
    if_true]

/-- What a header says after one more line. -/
def Header.note (header : Header) (line : HeaderLine) : Header :=
  { seen := true, length := line.length?.or header.length }

theorem readHeaderLine_visible (header : Header) (line : HeaderLine) :
    readHeaderLine header line.bytes = .ok (.more (header.note line)) := by
  obtain ⟨text, length?, announces, single, c, member, visible⟩ := line
  have content : (stripEnding text).isEmpty = false := by
    rw [List.isEmpty_eq_false_iff]
    intro blank
    rcases stripEnding_eq_nil_iff.mp blank c member with rfl | rfl
    · exact visible rfl
    · exact single member
  simp only [readHeaderLine, HeaderLine.bytes, lineBytes, Utf8.decode?_encode, stripEnding_concat,
    content, Bool.false_eq_true, if_false]
  cases announces with
  | @length value length isLength =>
      have stripped : stripEnding (lengthHeader.toList ++ value) =
          lengthHeader.toList ++ stripEnding value :=
        stripEnding_append "Content-Length".toList value rfl
      have isPrefix : lengthHeader.toList.isPrefixOf
          (lengthHeader.toList ++ stripEnding value) = true :=
        List.isPrefixOf_iff_prefix.mpr (List.prefix_append _ _)
      have dropped : (lengthHeader.toList ++ stripEnding value).drop lengthHeader.length =
          stripEnding value :=
        List.drop_left
      simp only [stripped, isPrefix, if_true, dropped, trim_stripEnding, isLength]
      rfl
  | other foreign =>
      have noPrefix : lengthHeader.toList.isPrefixOf (stripEnding text) = false := by
        apply Bool.eq_false_iff.mpr
        intro isPrefix
        exact foreign ((List.isPrefixOf_iff_prefix.mp isPrefix).trans
          (List.rdropWhile_prefix isEnding text))
      simp only [noPrefix, Bool.false_eq_true, if_false]
      rfl

theorem takeHeader_gaps (gaps : List Nat) (rest : List UInt8) :
    takeHeader {} [] (gaps.flatMap blankLine ++ rest) = takeHeader {} [] rest := by
  induction gaps with
  | nil => rfl
  | cons returns gaps ih =>
      have single : '\n' ∉ List.replicate returns '\r' := by
        intro member
        exact absurd (List.eq_of_mem_replicate member) (by decide)
      rw [List.flatMap_cons, List.append_assoc, blankLine, takeHeader_line single, ← blankLine,
        readHeaderLine_blank]
      exact ih

theorem takeHeader_lines (header : Header) (lines : List HeaderLine) (rest : List UInt8) :
    takeHeader header [] (lines.flatMap HeaderLine.bytes ++ rest) =
      takeHeader (lines.foldl Header.note header) [] rest := by
  induction lines generalizing header with
  | nil => rfl
  | cons line lines ih =>
      rw [List.flatMap_cons, List.append_assoc, HeaderLine.bytes, takeHeader_line line.single,
        ← HeaderLine.bytes, readHeaderLine_visible]
      exact ih (header.note line)

theorem seen_foldl_note (header : Header) {lines : List HeaderLine} (filled : lines ≠ []) :
    (lines.foldl Header.note header).seen = true := by
  induction lines using List.reverseRecOn with
  | nil => contradiction
  | append_singleton lines line ih =>
      rw [List.foldl_concat]
      rfl

/-- The last length that was announced counts. -/
theorem length_foldl_note (header : Header) (lines : List HeaderLine) :
    (lines.foldl Header.note header).length =
      (lines.filterMap HeaderLine.length?).getLast?.or header.length := by
  induction lines using List.reverseRecOn with
  | nil => rfl
  | append_singleton lines line ih =>
      rw [List.foldl_concat, Header.note, ih, List.filterMap_append]
      cases isLength : line.length? with
      | none => simp [isLength]
      | some length => simp [isLength]

/-- A frame in its parts. -/
structure Parts where
  /-- The blank lines before the header, each with the number of its carriage returns. -/
  gaps : List Nat := []
  header : List HeaderLine
  /-- The carriage returns of the blank line behind the header. -/
  returns : Nat := 1
  body : List UInt8
  announced : (header.filterMap HeaderLine.length?).getLast? = some body.length
  fits : body.length ≤ lengthLimit

def Parts.bytes (parts : Parts) : List UInt8 :=
  parts.gaps.flatMap blankLine ++ (parts.header.flatMap HeaderLine.bytes ++
    (blankLine parts.returns ++ parts.body))

/-- A frame at the start of a stream is taken as a whole, and no more is. -/
theorem takeBody_frame (frame : Parts) (rest : List UInt8) :
    takeBody (frame.bytes ++ rest) = .ok (some (frame.body, rest)) := by
  obtain ⟨gaps, header, returns, body, announced, fits⟩ := frame
  have filled : header ≠ [] := by
    rintro rfl
    contradiction
  have single : '\n' ∉ List.replicate returns '\r' := by
    intro member
    exact absurd (List.eq_of_mem_replicate member) (by decide)
  have seen := seen_foldl_note {} filled
  have length := length_foldl_note {} header
  rw [announced] at length
  have taken : takeHeader {} [] (gaps.flatMap blankLine ++ (header.flatMap HeaderLine.bytes ++
      (blankLine returns ++ (body ++ rest)))) = .ok (some (some body.length, body ++ rest)) := by
    rw [takeHeader_gaps, takeHeader_lines, blankLine, takeHeader_line single, ← blankLine,
      readHeaderLine_blank, seen, length]
    rfl
  simp only [takeBody, Parts.bytes, List.append_assoc, taken]
  rw [if_neg (Nat.not_lt.mpr fits), if_neg (by simp), List.take_left, List.drop_left]

theorem length_of_takeHeader {header : Header} {gathered stream rest : List UInt8}
    {length : Option Nat} (taken : takeHeader header gathered stream = .ok (some (length, rest))) :
    rest.length < gathered.length + stream.length := by
  induction stream generalizing header gathered with
  | nil =>
      rw [takeHeader] at taken
      split at taken
      · simp at taken
      · next filled =>
          have positive : 0 < gathered.length := by
            apply List.length_pos_iff.mpr
            rintro rfl
            exact filled rfl
          split at taken
          · simp at taken
          · obtain ⟨-, rfl⟩ := Prod.mk.inj (Option.some.inj (Except.ok.inj taken))
            exact positive
          · simp at taken
  | cons byte stream ih =>
      rw [takeHeader] at taken
      split at taken
      · split at taken
        · simp at taken
        · obtain ⟨-, rfl⟩ := Prod.mk.inj (Option.some.inj (Except.ok.inj taken))
          simp only [List.length_cons]
          omega
        · have shorter := ih taken
          simp only [List.length_nil, List.length_cons] at shorter ⊢
          omega
      · have shorter := ih taken
        simp only [List.length_cons] at shorter ⊢
        omega

theorem length_of_takeBody {stream body rest : List UInt8}
    (taken : takeBody stream = .ok (some (body, rest))) : rest.length < stream.length := by
  unfold takeBody at taken
  split at taken
  · simp at taken
  · simp at taken
  · simp at taken
  · next isTaken =>
      have shorter := length_of_takeHeader isTaken
      split at taken
      · simp at taken
      · split at taken
        · simp at taken
        · obtain ⟨-, rfl⟩ := Prod.mk.inj (Option.some.inj (Except.ok.inj taken))
          simp only [List.length_nil, List.length_drop] at shorter ⊢
          omega

/-- Fuel beyond the length of the stream makes no difference. -/
theorem takeMessageWithin_eq {fuel other : Nat} {stream : List UInt8}
    (enough : stream.length < fuel) (alsoEnough : stream.length < other) :
    takeMessageWithin fuel stream = takeMessageWithin other stream := by
  induction fuel generalizing other stream with
  | zero => contradiction
  | succ fuel ih =>
      obtain ⟨other, rfl⟩ : ∃ less, other = less + 1 := ⟨other - 1, by omega⟩
      rw [takeMessageWithin, takeMessageWithin]
      split
      · rfl
      · rfl
      · next taken =>
          have shorter := length_of_takeBody taken
          split
          · rfl
          · exact ih (by omega) (by omega)

theorem takeMessage_eq (stream : List UInt8) :
    takeMessage stream =
      match takeBody stream with
      | .error failure => .error failure
      | .ok none => .ok none
      | .ok (some (body, rest)) =>
          match Message.ofBytes? body with
          | some message => .ok (some (message, rest))
          | none => takeMessage rest := by
  rw [takeMessage, takeMessageWithin]
  cases taken : takeBody stream with
  | error failure => rfl
  | ok result =>
      cases result with
      | none => rfl
      | some result =>
          have shorter := length_of_takeBody taken
          simp only
          cases Message.ofBytes? result.1 with
          | some message => rfl
          | none => exact takeMessageWithin_eq shorter (Nat.lt_succ_self _)

theorem length_of_takeMessage {stream rest : List UInt8} {message : Message}
    (taken : takeMessage stream = .ok (some (message, rest))) : rest.length < stream.length := by
  induction isLength : stream.length using Nat.strongRecOn generalizing stream with
  | ind length ih =>
      rw [takeMessage_eq] at taken
      split at taken
      · simp at taken
      · simp at taken
      · next isTaken =>
          have shorter := length_of_takeBody isTaken
          split at taken
          · obtain ⟨-, rfl⟩ := Prod.mk.inj (Option.some.inj (Except.ok.inj taken))
            omega
          · have further := ih _ (isLength ▸ shorter) taken rfl
            omega

theorem takeMessagesWithin_eq {fuel other : Nat} {stream : List UInt8}
    (enough : stream.length < fuel) (alsoEnough : stream.length < other) :
    takeMessagesWithin fuel stream = takeMessagesWithin other stream := by
  induction fuel generalizing other stream with
  | zero => contradiction
  | succ fuel ih =>
      obtain ⟨other, rfl⟩ : ∃ less, other = less + 1 := ⟨other - 1, by omega⟩
      rw [takeMessagesWithin, takeMessagesWithin]
      split
      · rfl
      · rfl
      · next taken =>
          have shorter := length_of_takeMessage taken
          rw [@ih other _ (by omega) (by omega)]

theorem takeMessages_eq (stream : List UInt8) :
    takeMessages stream =
      match takeMessage stream with
      | .error failure => ([], some failure)
      | .ok none => ([], none)
      | .ok (some (message, rest)) =>
          (message :: (takeMessages rest).1, (takeMessages rest).2) := by
  rw [takeMessages, takeMessagesWithin]
  cases taken : takeMessage stream with
  | error failure => rfl
  | ok result =>
      cases result with
      | none => rfl
      | some result =>
          have shorter := length_of_takeMessage taken
          have sameLater : takeMessagesWithin stream.length result.2 = takeMessages result.2 :=
            takeMessagesWithin_eq shorter (Nat.lt_succ_self _)
          simp only [sameLater]

theorem takeMessage_frame (frame : Parts) (rest : List UInt8) :
    takeMessage (frame.bytes ++ rest) =
      match Message.ofBytes? frame.body with
      | some message => .ok (some (message, rest))
      | none => takeMessage rest := by
  rw [takeMessage_eq, takeBody_frame]

theorem takeMessages_frame (frame : Parts) (rest : List UInt8) :
    takeMessages (frame.bytes ++ rest) =
      ((Message.ofBytes? frame.body).toList ++ (takeMessages rest).1, (takeMessages rest).2) := by
  rw [takeMessages_eq, takeMessage_frame]
  cases Message.ofBytes? frame.body with
  | some message => rfl
  | none =>
      simp only
      rw [← takeMessages_eq]
      rfl

/-- The line with which a written frame begins. -/
def writtenLine (length : Nat) (fits : length ≤ lengthLimit) : HeaderLine where
  text := lengthHeader.toList ++ ' ' :: (Nat.toDigits 10 length ++ ['\r'])
  length? := some length
  announces := by
    apply Announces.length
    have visible : ∀ c ∈ Nat.toDigits 10 length, Text.isBlank c = false := by
      intro c member
      exact Decimal.isBlank_of_isDigit (Decimal.isDigit_of_mem member)
    rw [Text.trim_cons_of_blank _ rfl, Text.trim_append_of_blank (by simp [Text.isBlank]),
      Text.trim_of_no_blank visible]
    exact Decimal.size?_toDigits (Nat.le_trans fits (by decide))
  single := by
    simp only [List.mem_append, List.mem_cons, List.not_mem_nil, or_false, not_or]
    refine ⟨by decide, by decide, ?_, by decide⟩
    intro member
    exact absurd (Decimal.isDigit_of_mem member) (by decide)
  visible := ⟨'C', List.mem_append_left _ (by decide), by decide⟩

/-- A written message is a frame. -/
def Parts.ofMessage (message : Message)
    (fits : (Utf8.encode message.render).length ≤ lengthLimit) : Parts where
  header := [writtenLine _ fits]
  body := Utf8.encode message.render
  announced := rfl
  fits

theorem bytes_ofMessage (message : Message)
    (fits : (Utf8.encode message.render).length ≤ lengthLimit) :
    (Parts.ofMessage message fits).bytes = Utf8.encode (encode message) := by
  have text : encode message =
      (writtenLine _ fits).text ++ ['\n'] ++ (List.replicate 1 '\r' ++ ['\n']) ++
        message.render := by
    simp [encode, writtenLine]
  rw [text, Utf8.encode_append, Utf8.encode_append]
  simp [Parts.bytes, Parts.ofMessage, HeaderLine.bytes, blankLine, lineBytes]

theorem takeMessages_encode {message : Message}
    (fits : (Utf8.encode message.render).length ≤ lengthLimit) (rest : List UInt8) :
    takeMessages (Utf8.encode (encode message) ++ rest) =
      ((Message.ofBytes? (Utf8.encode message.render)).toList ++ (takeMessages rest).1,
        (takeMessages rest).2) := by
  rw [← bytes_ofMessage message fits, takeMessages_frame]
  rfl

/-- Framing is compositional.  The messages of a stream of frames are those of the bodies
that hold one, in their order, followed by whatever the rest of the stream gives: its
messages, its end, or the error that breaks it.  This holds in particular of messages
that were written one after another. -/
theorem framing_compositional (rest : List UInt8) :
    (∀ frames : List Parts,
      takeMessages (frames.flatMap Parts.bytes ++ rest) =
        (frames.filterMap (fun frame => Message.ofBytes? frame.body) ++ (takeMessages rest).1,
          (takeMessages rest).2)) ∧
    ∀ messages : List Message,
      (∀ message ∈ messages, (Utf8.encode message.render).length ≤ lengthLimit) →
      takeMessages (messages.flatMap (fun message => Utf8.encode (encode message)) ++ rest) =
        (messages.filterMap (fun message => Message.ofBytes? (Utf8.encode message.render)) ++
          (takeMessages rest).1, (takeMessages rest).2) := by
  constructor
  · intro frames
    induction frames with
    | nil => rfl
    | cons frame frames ih =>
        rw [List.flatMap_cons, List.append_assoc, takeMessages_frame, ih, List.filterMap_cons]
        cases Message.ofBytes? frame.body with
        | none => rfl
        | some message => rfl
  · intro messages fits
    induction messages with
    | nil => rfl
    | cons message messages ih =>
        have ⟨first, others⟩ := List.forall_mem_cons.mp fits
        rw [List.flatMap_cons, List.append_assoc, takeMessages_encode first, ih others,
          List.filterMap_cons]
        cases Message.ofBytes? (Utf8.encode message.render) with
        | none => rfl
        | some message => rfl

/-- A request and an event before a frame that is cut short. -/
theorem framing_compositional_truncated :
    let messages : List Message :=
      [Message.request 1 "threads" none,
        { seq := 2, kind := "event", content := .event "stopped" (some (.string "\r\n\r\n")) }]
    let rest := Utf8.encode "Content-Length: 5\r\n\r\nab".toList
    let stream := messages.flatMap (fun message => Utf8.encode (encode message)) ++ rest
    (∀ message ∈ messages, (Utf8.encode message.render).length ≤ lengthLimit) ∧
    (takeMessages stream).1.map Message.seq = [1, 2] ∧
    (takeMessages stream).2 = some .truncated := by
  intro messages rest stream
  have fits : ∀ message ∈ messages, (Utf8.encode message.render).length ≤ lengthLimit := by
    decide +kernel
  have taken := (framing_compositional rest).2 messages fits
  refine ⟨fits, ?_, ?_⟩
  · rw [taken]
    decide +kernel
  · rw [taken]
    decide +kernel

end Frame

end StackDebugger
