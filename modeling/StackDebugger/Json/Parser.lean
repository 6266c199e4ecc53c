import StackDebugger.Json.Basic

/-!
# Reading JSON text

The reader accepts exactly one value with blanks around it.  Members are kept in
the order of the text, repeated names included.  Arrays and objects may be nested
only to a given depth.  A number without fraction and exponent that fits in 64
bits is an integer.  Every other one becomes a binary approximation: as many
leading digits as fit in 64 bits, multiplied or divided by one power of ten.  A
number beyond the largest binary number is not read at all.
-/

namespace StackDebugger.Json

/-- The parts of a number literal. -/
structure NumberLiteral where
  negative : Bool
  whole : List Char
  /-- The digits behind the point. -/
  fraction : List Char := []
  /-- The exponent, where one is written. -/
  exponent : Option Int := none

/-- Digits at the start of a text, at least one, and what follows them. -/
def takeDigits (text : List Char) : Option (List Char × List Char) :=
  match text.takeWhile Char.isDigit with
  | [] => none
  | digits => some (digits, text.dropWhile Char.isDigit)

/-- The digits behind a point, if there is a point. -/
def takeFraction : List Char → Option (List Char × List Char)
  | '.' :: rest => takeDigits rest
  | text => some ([], text)

/-- The exponent behind its mark, with an optional sign. -/
def takeExponentValue : List Char → Option (Int × List Char)
  | '-' :: rest => (takeDigits rest).map fun (digits, rest) =>
      (-(Nat.ofDigitChars 10 digits 0 : Int), rest)
  | '+' :: rest => (takeDigits rest).map fun (digits, rest) =>
      ((Nat.ofDigitChars 10 digits 0 : Int), rest)
  | text => (takeDigits text).map fun (digits, rest) =>
      ((Nat.ofDigitChars 10 digits 0 : Int), rest)

/-- The exponent, if there is an exponent mark. -/
def takeExponent : List Char → Option (Option Int × List Char)
  | 'e' :: rest => (takeExponentValue rest).map fun (value, rest) => (some value, rest)
  | 'E' :: rest => (takeExponentValue rest).map fun (value, rest) => (some value, rest)
  | text => some (none, text)

/-- The number literal at the start of a text, without its sign.  A zero may
not lead other digits. -/
def takeUnsigned (negative : Bool) (text : List Char) : Option (NumberLiteral × List Char) := do
  let (whole, rest) ← takeDigits text
  if whole.head? = some '0' ∧ 1 < whole.length then none else
    let (fraction, rest) ← takeFraction rest
    let (exponent, rest) ← takeExponent rest
    return ({ negative, whole, fraction, exponent }, rest)

/-- The number literal at the start of a text. -/
def takeNumber : List Char → Option (NumberLiteral × List Char)
  | '-' :: rest => takeUnsigned true rest
  | text => takeUnsigned false text

/-- The largest significand that is kept exactly: the largest 64-bit
number. -/
def significandLimit : Nat :=
  0xFFFFFFFFFFFFFFFF

/-- Appends digits to a significand for as long as it stays within 64 bits,
and counts the digits appended. -/
def appendDigits (significand : Nat) (count : Nat) : List Char → Nat × Nat
  | [] => (significand, count)
  | digit :: rest =>
      let extended := significand * 10 + (digit.toNat - '0'.toNat)
      if extended ≤ significandLimit then appendDigits extended (count + 1) rest
      else (significand, count)

/-- A power of ten as a binary number. -/
def powerOfTen (power : Nat) : Float :=
  Float.ofScientific 1 false power

/-- Divides by `10 ^ 308`, and then as often again as there are rounds left,
until the divisor is one power of ten that exists. -/
def divideByPower (value : Float) (power : Nat) : Nat → Float
  | 0 => value / powerOfTen power
  | rounds + 1 =>
      if power ≤ 308 then value / powerOfTen power
      else if value == 0 then value
      else divideByPower (value / powerOfTen 308) (power - 308) rounds

/-- The binary number near `significand * 10 ^ exponent`, unless that is
beyond the largest one. -/
def approximate? (significand : Nat) (exponent : Int) : Option Float :=
  let value := (UInt64.ofNat significand).toFloat
  match exponent with
  | .ofNat power =>
      if power ≤ 308 then
        let product := value * powerOfTen power
        if product.isInf then none else some product
      else if significand = 0 then some value
      else none
  | .negSucc below => some (divideByPower value (below + 1) ((below + 1) / 308 + 1))

/-- Exponents are counted in 32 bits, and counting stops at the ends. -/
def clampExponent (exponent : Int) : Int :=
  max (-0x80000000) (min 0x7FFFFFFF exponent)

/-- The value of a literal that is not an integer.  An exponent that 32 bits
cannot hold makes the number zero or too large, whatever its digits say. -/
def NumberLiteral.magnitude? (literal : NumberLiteral) : Option Float :=
  let (whole, kept) := appendDigits 0 0 literal.whole
  let (significand, places) := appendDigits whole 0 literal.fraction
  let shift : Int := (literal.whole.length - kept : Nat) - (places : Int)
  match literal.exponent with
  | none => approximate? significand shift
  | some exponent =>
      if exponent.natAbs ≤ 0x7FFFFFFF then
        approximate? significand (clampExponent (shift + exponent))
      else if significand ≠ 0 ∧ 0 < exponent then none
      else some 0

/-- The number that a literal denotes.  Minus zero is not an integer. -/
def NumberLiteral.value? (literal : NumberLiteral) : Option Number :=
  let (whole, kept) := appendDigits 0 0 literal.whole
  let integral := literal.fraction.isEmpty && literal.exponent.isNone &&
    kept == literal.whole.length
  if integral && !literal.negative then some (.integer whole)
  else if integral && 0 < whole && whole ≤ 0x8000000000000000 then some (.integer (-(whole : Int)))
  else literal.magnitude?.map fun magnitude =>
    .real (if literal.negative then -magnitude else magnitude)

/-- The blanks between tokens. -/
def isSpace (c : Char) : Bool :=
  c == ' ' || c == '\t' || c == '\n' || c == '\r'

/-- A text without the blanks before its first token. -/
def skipSpace (text : List Char) : List Char :=
  text.dropWhile isSpace

/-- The value of a hexadecimal digit. -/
def hexValue? (c : Char) : Option Nat :=
  if c.isDigit then some (c.toNat - '0'.toNat)
  else if 'a' ≤ c ∧ c ≤ 'f' then some (c.toNat - 'a'.toNat + 10)
  else if 'A' ≤ c ∧ c ≤ 'F' then some (c.toNat - 'A'.toNat + 10)
  else none

/-- The number that four hexadecimal digits denote. -/
def codeUnit? (a b c d : Char) : Option Nat := do
  return (((← hexValue? a) * 16 + (← hexValue? b)) * 16 + (← hexValue? c)) * 16 + (← hexValue? d)

/-- The first half of a surrogate pair. -/
def isHighSurrogate (unit : Nat) : Bool :=
  0xD800 ≤ unit && unit ≤ 0xDBFF

/-- The second half of a surrogate pair. -/
def isLowSurrogate (unit : Nat) : Bool :=
  0xDC00 ≤ unit && unit ≤ 0xDFFF

/-- The character that an escape of one letter stands for. -/
def unescape? (letter : Char) : Option Char :=
  if letter = '"' || letter = '\\' || letter = '/' then some letter
  else if letter = 'b' then some '\x08'
  else if letter = 'f' then some '\x0c'
  else if letter = 'n' then some '\n'
  else if letter = 'r' then some '\r'
  else if letter = 't' then some '\t'
  else none

/-- The rest of a string behind the characters already read, kept last
character first, and the text after its closing quote.  Escaped surrogates
must come in pairs. -/
def takeString (taken : List Char) : List Char → Option (String × List Char)
  | [] => none
  | c :: rest =>
      if c = '"' then some (String.ofList taken.reverse, rest)
      else if c = '\\' then
        match rest with
        | [] => none
        | letter :: rest =>
            if letter = 'u' then
              match rest with
              | a :: b :: c :: d :: rest =>
                  match codeUnit? a b c d with
                  | none => none
                  | some unit =>
                      if isHighSurrogate unit then
                        match rest with
                        | '\\' :: 'u' :: e :: f :: g :: h :: rest =>
                            match codeUnit? e f g h with
                            | none => none
                            | some low =>
                                if isLowSurrogate low then
                                  takeString (Char.ofNat (0x10000 + (unit - 0xD800) * 0x400 +
                                    (low - 0xDC00)) :: taken) rest
                                else none
                        | _ => none
                      else if isLowSurrogate unit then none
                      else takeString (Char.ofNat unit :: taken) rest
              | _ => none
            else
              match unescape? letter with
              | some letter => takeString (letter :: taken) rest
              | none => none
      else if c.toNat < 0x20 then none
      else takeString (c :: taken) rest

mutual

/-- The value at the start of a text, with at most `depth` containers inside
one another. -/
def takeValue (depth : Nat) : Nat → List Char → Option (Json × List Char)
  | 0, _ => none
  | fuel + 1, text =>
      match skipSpace text with
      | [] => none
      | 'n' :: 'u' :: 'l' :: 'l' :: rest => some (.null, rest)
      | 't' :: 'r' :: 'u' :: 'e' :: rest => some (.bool true, rest)
      | 'f' :: 'a' :: 'l' :: 's' :: 'e' :: rest => some (.bool false, rest)
      | '"' :: rest => (takeString [] rest).map fun (value, rest) => (.string value, rest)
      | '[' :: rest =>
          match depth with
          | 0 => none
          | depth + 1 =>
              match skipSpace rest with
              | ']' :: rest => some (.array [], rest)
              | rest => (takeItems depth [] fuel rest).map fun (items, rest) =>
                  (.array items, rest)
      | '\x7b' :: rest =>
          match depth with
          | 0 => none
          | depth + 1 =>
              match skipSpace rest with
              | '\x7d' :: rest => some (.object [], rest)
              | rest => (takeMembers depth [] fuel rest).map fun (members, rest) =>
                  (.object members, rest)
      | text => do
          let (literal, rest) ← takeNumber text
          let value ← literal.value?
          return (.number value, rest)

/-- The items of an array from the next one on, behind those already read,
kept last item first. -/
def takeItems (depth : Nat) (taken : List Json) : Nat → List Char → Option (List Json × List Char)
  | 0, _ => none
  | fuel + 1, text =>
      match takeValue depth fuel text with
      | none => none
      | some (item, rest) =>
          match skipSpace rest with
          | ',' :: rest => takeItems depth (item :: taken) fuel rest
          | ']' :: rest => some ((item :: taken).reverse, rest)
          | _ => none

/-- The members of an object from the next one on, behind those already read,
kept last member first. -/
def takeMembers (depth : Nat) (taken : List (String × Json)) :
    Nat → List Char → Option (List (String × Json) × List Char)
  | 0, _ => none
  | fuel + 1, text =>
      match skipSpace text with
      | '"' :: rest =>
          match takeString [] rest with
          | none => none
          | some (name, rest) =>
              match skipSpace rest with
              | ':' :: rest =>
                  match takeValue depth fuel rest with
                  | none => none
                  | some (value, rest) =>
                      match skipSpace rest with
                      | ',' :: rest => takeMembers depth ((name, value) :: taken) fuel rest
                      | '\x7d' :: rest => some (((name, value) :: taken).reverse, rest)
                      | _ => none
              | _ => none
      | _ => none

end

/-- The value that a text denotes, with at most `depth` containers inside one
another.  Every step consumes a character or follows one that did, which
bounds the number of steps. -/
def parse? (depth : Nat) (text : List Char) : Option Json :=
  match takeValue depth (2 * text.length + 1) text with
  | none => none
  | some (value, rest) => if (skipSpace rest).isEmpty then some value else none

end StackDebugger.Json
