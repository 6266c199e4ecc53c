import StackDebugger.Text.Utf8

/-!
# Text survives its bytes

Reading the bytes of a text gives the text back.  The bytes of one character are
recognised by the range of their first byte, so each length has a step lemma, and
no byte of a longer character is that of an ASCII one.
-/

namespace StackDebugger.Utf8

section Steps

variable {decoded : List Char} {rest : List UInt8} {lead second third fourth : UInt8} {c : Char}

theorem not_le_of_least {bound : UInt8} {least : Nat} (isLeast : least ≤ lead.toNat)
    (below : bound.toNat < least) : ¬ lead ≤ bound :=
  UInt8.not_le.mpr (UInt8.lt_iff_toNat_lt.mpr (Nat.lt_of_lt_of_le below isLeast))

theorem decodeAfter_one (short : lead.toNat ≤ 0x7F) :
    decodeAfter decoded (lead :: rest) = decodeAfter (Char.ofNat lead.toNat :: decoded) rest := by
  rw [decodeAfter.eq_def]
  exact if_pos (UInt8.le_iff_toNat_le.mpr short)

theorem decodeAfter_two (least : 0xC0 ≤ lead.toNat) (most : lead.toNat ≤ 0xDF)
    (tail : isTail second = true)
    (scalar : scalar? 0x80 (lead.toNat % 32 * 64 + tailBits second) = some c) :
    decodeAfter decoded (lead :: second :: rest) = decodeAfter (c :: decoded) rest := by
  have long : ¬ lead ≤ 0x7F := not_le_of_least least (by decide)
  have lower : 0xC0 ≤ lead := UInt8.le_iff_toNat_le.mpr least
  have upper : lead ≤ 0xDF := UInt8.le_iff_toNat_le.mpr most
  rw [decodeAfter.eq_def]
  simp only [long, lower, upper, tail, scalar, decide_true, Bool.and_self, if_true, if_false]

theorem decodeAfter_three (least : 0xE0 ≤ lead.toNat) (most : lead.toNat ≤ 0xEF)
    (tail : isTail second = true) (last : isTail third = true)
    (scalar : scalar? 0x800
      (lead.toNat % 16 * 4096 + tailBits second * 64 + tailBits third) = some c) :
    decodeAfter decoded (lead :: second :: third :: rest) = decodeAfter (c :: decoded) rest := by
  have long : ¬ lead ≤ 0x7F := not_le_of_least least (by decide)
  have longer : ¬ lead ≤ 0xDF := not_le_of_least least (by decide)
  have lower : 0xE0 ≤ lead := UInt8.le_iff_toNat_le.mpr least
  have upper : lead ≤ 0xEF := UInt8.le_iff_toNat_le.mpr most
  rw [decodeAfter.eq_def]
  simp only [long, longer, lower, upper, tail, last, scalar, decide_true, decide_false,
    Bool.and_self, Bool.and_false, if_true, if_false, Bool.false_eq_true]

theorem decodeAfter_four (least : 0xF0 ≤ lead.toNat) (most : lead.toNat ≤ 0xF7)
    (tail : isTail second = true) (next : isTail third = true) (last : isTail fourth = true)
    (scalar : scalar? 0x10000 (lead.toNat % 8 * 262144 + tailBits second * 4096 +
      tailBits third * 64 + tailBits fourth) = some c) :
    decodeAfter decoded (lead :: second :: third :: fourth :: rest) =
      decodeAfter (c :: decoded) rest := by
  have long : ¬ lead ≤ 0x7F := not_le_of_least least (by decide)
  have longer : ¬ lead ≤ 0xDF := not_le_of_least least (by decide)
  have longest : ¬ lead ≤ 0xEF := not_le_of_least least (by decide)
  have lower : 0xF0 ≤ lead := UInt8.le_iff_toNat_le.mpr least
  have upper : lead ≤ 0xF7 := UInt8.le_iff_toNat_le.mpr most
  rw [decodeAfter.eq_def]
  simp only [long, longer, longest, lower, upper, tail, next, last, scalar, decide_true,
    decide_false, Bool.and_self, Bool.and_false, if_true, if_false, Bool.false_eq_true]

end Steps

theorem toNat_ofNat {value : Nat} (small : value < 256) : (UInt8.ofNat value).toNat = value := by
  rw [UInt8.toNat_ofNat', Nat.mod_eq_of_lt small]

theorem isTail_ofNat {bits : Nat} (small : bits < 64) :
    isTail (UInt8.ofNat (bits + 128)) = true := by
  have value := toNat_ofNat (show bits + 128 < 256 by omega)
  simp only [isTail, Bool.and_eq_true, decide_eq_true_eq, UInt8.le_iff_toNat_le, value,
    UInt8.reduceToNat]
  omega

theorem tailBits_ofNat {bits : Nat} (small : bits < 64) :
    tailBits (UInt8.ofNat (bits + 128)) = bits := by
  rw [tailBits, toNat_ofNat (by omega)]
  omega

theorem scalar?_toNat (c : Char) {least code : Nat} (isCode : code = c.toNat)
    (shortest : least ≤ c.toNat) : scalar? least code = some c := by
  have valid : c.toNat.isValidChar := c.valid
  rw [isCode, scalar?, if_pos ⟨shortest, valid⟩, Char.ofNat_toNat]

theorem toNat_lt (c : Char) : c.toNat < 0x110000 := by
  have valid : c.toNat.isValidChar := c.valid
  rcases valid with below | ⟨-, above⟩ <;> omega

theorem decodeAfter_encodeChar (decoded : List Char) (c : Char) (rest : List UInt8) :
    decodeAfter decoded (String.utf8EncodeChar c ++ rest) = decodeAfter (c :: decoded) rest := by
  have bound := toNat_lt c
  unfold String.utf8EncodeChar
  simp only [← Char.toNat.eq_def]
  split
  · next short =>
      have value := toNat_ofNat (show c.toNat < 256 by omega)
      rw [List.singleton_append, decodeAfter_one (by omega), value, Char.ofNat_toNat]
  · split
    · have value := toNat_ofNat (show c.toNat / 64 % 32 + 192 < 256 by omega)
      apply decodeAfter_two
      · omega
      · omega
      · exact isTail_ofNat (by omega)
      · rw [value, tailBits_ofNat (by omega)]
        exact scalar?_toNat c (by omega) (by omega)
    · split
      · have value := toNat_ofNat (show c.toNat / 4096 % 16 + 224 < 256 by omega)
        apply decodeAfter_three
        · omega
        · omega
        · exact isTail_ofNat (by omega)
        · exact isTail_ofNat (by omega)
        · rw [value, tailBits_ofNat (by omega), tailBits_ofNat (by omega)]
          exact scalar?_toNat c (by omega) (by omega)
      · have value := toNat_ofNat (show c.toNat / 262144 % 8 + 240 < 256 by omega)
        apply decodeAfter_four
        · omega
        · omega
        · exact isTail_ofNat (by omega)
        · exact isTail_ofNat (by omega)
        · exact isTail_ofNat (by omega)
        · rw [value, tailBits_ofNat (by omega), tailBits_ofNat (by omega),
            tailBits_ofNat (by omega)]
          exact scalar?_toNat c (by omega) (by omega)

theorem decodeAfter_encode (decoded text : List Char) :
    decodeAfter decoded (encode text) = some (decoded.reverse ++ text) := by
  induction text generalizing decoded with
  | nil => simp [decodeAfter]
  | cons c text ih =>
      rw [encode, List.flatMap_cons, decodeAfter_encodeChar, ← encode, ih]
      simp

/-- The bytes of a text are read as that text. -/
@[simp] theorem decode?_encode (text : List Char) : decode? (encode text) = some text := by
  rw [decode?, decodeAfter_encode, List.reverse_nil, List.nil_append]

/-- An ASCII character is one byte, and no other character has that byte. -/
theorem mem_encodeChar_of_ascii {byte : UInt8} {c : Char} (ascii : byte.toNat ≤ 0x7F)
    (member : byte ∈ String.utf8EncodeChar c) : c.toNat = byte.toNat := by
  have bound := toNat_lt c
  have large : ∀ {value : Nat}, 0x80 ≤ value → value < 256 → byte ≠ UInt8.ofNat value := by
    rintro value least small rfl
    rw [toNat_ofNat small] at ascii
    omega
  unfold String.utf8EncodeChar at member
  simp only [← Char.toNat.eq_def] at member
  split at member
  · rw [List.mem_singleton.mp member, toNat_ofNat (by omega)]
  · split at member
    · simp only [List.mem_cons, List.not_mem_nil, or_false] at member
      rcases member with isByte | isByte
      · exact absurd isByte (large (by omega) (by omega))
      · exact absurd isByte (large (by omega) (by omega))
    · split at member
      · simp only [List.mem_cons, List.not_mem_nil, or_false] at member
        rcases member with isByte | isByte | isByte
        · exact absurd isByte (large (by omega) (by omega))
        · exact absurd isByte (large (by omega) (by omega))
        · exact absurd isByte (large (by omega) (by omega))
      · simp only [List.mem_cons, List.not_mem_nil, or_false] at member
        rcases member with isByte | isByte | isByte | isByte
        · exact absurd isByte (large (by omega) (by omega))
        · exact absurd isByte (large (by omega) (by omega))
        · exact absurd isByte (large (by omega) (by omega))
        · exact absurd isByte (large (by omega) (by omega))

theorem mem_encode_of_ascii {byte : UInt8} {text : List Char} (ascii : byte.toNat ≤ 0x7F)
    (member : byte ∈ encode text) : ∃ c ∈ text, c.toNat = byte.toNat := by
  obtain ⟨c, isChar, isByte⟩ := List.mem_flatMap.mp member
  exact ⟨c, isChar, mem_encodeChar_of_ascii ascii isByte⟩

theorem feed_not_mem_encode {text : List Char} (single : '\n' ∉ text) : 10 ∉ encode text := by
  intro member
  obtain ⟨c, isChar, isFeed⟩ := mem_encode_of_ascii (by decide) member
  have isNewline : c = '\n' := by
    apply Char.toNat_inj.mp
    exact isFeed
  exact single (isNewline ▸ isChar)

end StackDebugger.Utf8
