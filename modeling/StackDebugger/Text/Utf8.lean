/-!
# UTF-8

Bytes are read as text only when they are well formed: every character in its
shortest form, no surrogate, nothing beyond the last code point, and no
character cut short.
-/

namespace StackDebugger.Utf8

/-- Whether a byte may follow the first byte of a character. -/
def isTail (byte : UInt8) : Bool :=
  0x80 ≤ byte && byte ≤ 0xBF

/-- The six bits that a following byte carries. -/
def tailBits (byte : UInt8) : Nat :=
  byte.toNat % 64

/-- The character of a code point, when the code point is a scalar value and
too large for a shorter form. -/
def scalar? (least code : Nat) : Option Char :=
  if least ≤ code ∧ code.isValidChar then some (Char.ofNat code) else none

/-- Decodes bytes behind characters already decoded, kept last character
first. -/
def decodeAfter (decoded : List Char) : List UInt8 → Option (List Char)
  | [] => some decoded.reverse
  | a :: rest =>
      if a ≤ 0x7F then decodeAfter (Char.ofNat a.toNat :: decoded) rest
      else if 0xC0 ≤ a && a ≤ 0xDF then
        match rest with
        | b :: rest =>
            if isTail b then
              match scalar? 0x80 (a.toNat % 32 * 64 + tailBits b) with
              | some c => decodeAfter (c :: decoded) rest
              | none => none
            else none
        | [] => none
      else if 0xE0 ≤ a && a ≤ 0xEF then
        match rest with
        | b :: c :: rest =>
            if isTail b && isTail c then
              match scalar? 0x800 (a.toNat % 16 * 4096 + tailBits b * 64 + tailBits c) with
              | some c => decodeAfter (c :: decoded) rest
              | none => none
            else none
        | _ => none
      else if 0xF0 ≤ a && a ≤ 0xF7 then
        match rest with
        | b :: c :: d :: rest =>
            if isTail b && isTail c && isTail d then
              match scalar? 0x10000
                  (a.toNat % 8 * 262144 + tailBits b * 4096 + tailBits c * 64 + tailBits d) with
              | some c => decodeAfter (c :: decoded) rest
              | none => none
            else none
        | _ => none
      else none

/-- The characters of well-formed bytes. -/
def decode? (bytes : List UInt8) : Option (List Char) :=
  decodeAfter [] bytes

/-- What is said of a stream whose bytes are not text. -/
def malformedMessage : String :=
  "stream did not contain valid UTF-8"

/-- The bytes of a text. -/
def encode (text : List Char) : List UInt8 :=
  text.flatMap String.utf8EncodeChar

@[simp] theorem decode?_nil : decode? [] = some [] := rfl

@[simp] theorem encode_nil : encode [] = [] := rfl

@[simp] theorem encode_append (first second : List Char) :
    encode (first ++ second) = encode first ++ encode second := by
  simp [encode]

end StackDebugger.Utf8
