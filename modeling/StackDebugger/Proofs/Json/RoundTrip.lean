import StackDebugger.Proofs.Dictionary
import StackDebugger.Proofs.Json.Reading

/-!
# Values that are read back as they were written

Without binary numbers nothing is lost between writing and reading.  A plain value is
built from null, booleans, integers of 64 bits, strings, arrays and objects whose names
ascend.  The reader gives back exactly such a value, as long as it is not nested too
deeply, and finds nothing to reorder in it.
-/

namespace StackDebugger

namespace Json

theorem le_ofDigitChars (significand : Nat) (digits : List Char) :
    significand ≤ Nat.ofDigitChars 10 digits significand := by
  induction digits generalizing significand with
  | nil => exact Nat.le_refl _
  | cons digit digits ih =>
      have further := ih (10 * significand + (digit.toNat - '0'.toNat))
      rw [Nat.ofDigitChars_cons]
      omega

/-- Digits are appended to the end, unless they lead beyond 64 bits. -/
theorem appendDigits_eq {digits : List Char} {significand : Nat} (count : Nat)
    (fits : Nat.ofDigitChars 10 digits significand ≤ significandLimit) :
    appendDigits significand count digits =
      (Nat.ofDigitChars 10 digits significand, count + digits.length) := by
  induction digits generalizing significand count with
  | nil => rfl
  | cons digit digits ih =>
      rw [Nat.ofDigitChars_cons, Nat.mul_comm] at fits
      have extended : significand * 10 + (digit.toNat - '0'.toNat) ≤ significandLimit :=
        Nat.le_trans (le_ofDigitChars _ digits) fits
      rw [appendDigits, if_pos extended, ih (count + 1) fits, Nat.ofDigitChars_cons,
        Nat.mul_comm 10, List.length_cons, Nat.add_assoc, Nat.add_comm 1]

theorem appendDigits_toDigits {number : Nat} (fits : number ≤ significandLimit) :
    appendDigits 0 0 (Nat.toDigits 10 number) = (number, (Nat.toDigits 10 number).length) := by
  have isNumber : Nat.ofDigitChars 10 (Nat.toDigits 10 number) 0 = number :=
    Nat.ofDigitChars_toDigits (by decide) (by decide)
  rw [appendDigits_eq 0 (by rw [isNumber]; exact fits), isNumber, Nat.zero_add]

theorem takeUnsigned_toDigits (number : Nat) (negative : Bool) :
    takeUnsigned negative (Nat.toDigits 10 number) =
      some ({ negative, whole := Nat.toDigits 10 number }, []) := by
  have taken := @takeDigits_append _ [] (isDigits_toDigits number) (by simp)
  rw [List.append_nil] at taken
  have notLed : ¬ ((Nat.toDigits 10 number).head? = some '0' ∧
      1 < (Nat.toDigits 10 number).length) := by
    rintro ⟨isZero, long⟩
    have short := leads_toDigits isZero
    omega
  simp only [takeUnsigned, taken, Option.bind_eq_bind, Option.bind_some, notLed, if_false]
  rfl

theorem reread?_ofNat {number : Nat} (fits : number ≤ 0xFFFFFFFFFFFFFFFF) :
    (Number.integer (.ofNat number)).reread? = some (.integer (.ofNat number)) := by
  have taken : takeNumber (Nat.toDigits 10 number) =
      some ({ negative := false, whole := Nat.toDigits 10 number }, []) := by
    have isUnsigned := IsUnsigned.positional (isDigits_toDigits number) leads_toDigits .absent
    have unsigned := takeNumber_of_isUnsigned isUnsigned []
    rw [List.append_nil, List.append_nil] at unsigned
    rw [unsigned, takeUnsigned_toDigits]
  rw [Number.reread?, render_ofNat, taken, Option.bind_some, NumberLiteral.value?]
  simp only [appendDigits_toDigits fits]
  simp

theorem reread?_negSucc {number : Nat} (fits : number + 1 ≤ 0x8000000000000000) :
    (Number.integer (.negSucc number)).reread? = some (.integer (.negSucc number)) := by
  have taken : takeNumber ('-' :: Nat.toDigits 10 (number + 1)) =
      some ({ negative := true, whole := Nat.toDigits 10 (number + 1) }, []) :=
    takeUnsigned_toDigits (number + 1) true
  have small : number + 1 ≤ significandLimit := Nat.le_trans fits (by decide)
  have opposite : -((number + 1 : Nat) : Int) = .negSucc number := rfl
  rw [Number.reread?, render_negSucc, taken, Option.bind_some, NumberLiteral.value?]
  simp only [appendDigits_toDigits small, opposite]
  simp [fits]

/-- A value without binary numbers, with at most `depth` arrays and objects inside one
another.  Its integers have 64 bits, and the names of every object ascend. -/
inductive IsPlain : Nat → Json → Prop where
  | null {depth : Nat} : IsPlain depth .null
  | bool {depth : Nat} (value : Bool) : IsPlain depth (.bool value)
  | integer {depth : Nat} {value : Int} :
      -0x8000000000000000 ≤ value → value ≤ 0xFFFFFFFFFFFFFFFF →
      IsPlain depth (.number (.integer value))
  | string {depth : Nat} (value : String) : IsPlain depth (.string value)
  | array {depth : Nat} {items : List Json} :
      (∀ item ∈ items, IsPlain depth item) → IsPlain (depth + 1) (.array items)
  | object {depth : Nat} {members : List (String × Json)} :
      members.Pairwise (fun first second => first.1 < second.1) →
      (∀ member ∈ members, IsPlain depth member.2) → IsPlain (depth + 1) (.object members)

theorem IsPlain.nat {depth number : Nat} (fits : number ≤ 0xFFFFFFFFFFFFFFFF) :
    IsPlain depth (.nat number) :=
  .integer (by omega) (by omega)

theorem reread?_integer {value : Int} (lower : -0x8000000000000000 ≤ value)
    (upper : value ≤ 0xFFFFFFFFFFFFFFFF) :
    (Number.integer value).reread? = some (.integer value) := by
  cases value with
  | ofNat number => exact reread?_ofNat (Int.ofNat_le.mp upper)
  | negSucc number => exact reread?_negSucc (by omega)

theorem rereadItems?_of_forall {depth : Nat} {items : List Json}
    (unchanged : ∀ item ∈ items, item.reread? depth = some item) :
    rereadItems? depth items = some items := by
  induction items with
  | nil => rfl
  | cons item items ih =>
      have ⟨first, others⟩ := List.forall_mem_cons.mp unchanged
      rw [rereadItems?, first, ih others]

theorem rereadMembers?_of_forall {depth : Nat} {members : List (String × Json)}
    (unchanged : ∀ member ∈ members, member.2.reread? depth = some member.2) :
    rereadMembers? depth members = some members := by
  induction members with
  | nil => rfl
  | cons member members ih =>
      have ⟨first, others⟩ := List.forall_mem_cons.mp unchanged
      rw [rereadMembers?, first, ih others]

/-- A plain value is read back as it was written. -/
theorem IsPlain.reread? {depth : Nat} {value : Json} (plain : IsPlain depth value) :
    value.reread? depth = some value := by
  induction plain with
  | null => rfl
  | bool value => rfl
  | integer lower upper => rw [Json.reread?, reread?_integer lower upper, Option.map_some]
  | string value => rfl
  | array items ih => rw [Json.reread?, rereadItems?_of_forall ih, Option.map_some]
  | object ascending members ih => rw [Json.reread?, rereadMembers?_of_forall ih, Option.map_some]

theorem canonicalItems_of_forall {items : List Json}
    (unchanged : ∀ item ∈ items, item.canonical = item) : canonicalItems items = items := by
  induction items with
  | nil => rfl
  | cons item items ih =>
      have ⟨first, others⟩ := List.forall_mem_cons.mp unchanged
      rw [canonicalItems, first, ih others]

theorem canonicalMembers_of_forall {members : List (String × Json)}
    (unchanged : ∀ member ∈ members, member.2.canonical = member.2) :
    canonicalMembers members = members := by
  induction members with
  | nil => rfl
  | cons member members ih =>
      have ⟨first, others⟩ := List.forall_mem_cons.mp unchanged
      rw [canonicalMembers, first, ih others]

/-- There is nothing to reorder in a plain value. -/
theorem IsPlain.canonical {depth : Nat} {value : Json} (plain : IsPlain depth value) :
    value.canonical = value := by
  induction plain with
  | null => rfl
  | bool value => rfl
  | integer lower upper => rfl
  | string value => rfl
  | array items ih => rw [Json.canonical, canonicalItems_of_forall ih]
  | object ascending members ih =>
      rw [Json.canonical, canonicalMembers_of_forall ih, Dictionary.ofPairs_of_ascending ascending]

end Json

end StackDebugger
