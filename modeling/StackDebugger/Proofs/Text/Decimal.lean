import StackDebugger.Text.Basic

/-!
# Numbers are read back

The decimal text of a number denotes that number again, for every kind of number
that bytecode has and up to the limits of the kind.  No such text has a blank in it.
-/

namespace StackDebugger

namespace Decimal

theorem isDigit_of_mem {number : Nat} {c : Char} (member : c ∈ Nat.toDigits 10 number) :
    c.isDigit = true :=
  Nat.isDigit_of_mem_toDigits (by decide) (by decide) member

theorem isBlank_of_isDigit {c : Char} (digit : c.isDigit = true) : Text.isBlank c = false := by
  have bounds : 48 ≤ c.toNat ∧ c.toNat ≤ 57 := by
    simpa [Char.isDigit, UInt32.le_iff_toNat_le] using digit
  simp only [Text.isBlank, Bool.or_eq_false_iff, Bool.and_eq_false_iff, decide_eq_false_iff_not,
    beq_eq_false_iff_ne]
  omega

theorem toList_toString (number : Nat) : (toString number).toList = Nat.toDigits 10 number :=
  Nat.toList_repr

theorem toList_ofInt32 (value : Int32) :
    (∃ magnitude : Nat, value.toInt = magnitude ∧
      (ofInt32 value).toList = Nat.toDigits 10 magnitude) ∨
    ∃ magnitude : Nat, value.toInt = -(magnitude : Int) ∧
      (ofInt32 value).toList = '-' :: Nat.toDigits 10 magnitude := by
  unfold ofInt32
  cases value.toInt with
  | ofNat magnitude => exact .inl ⟨magnitude, rfl, toList_toString magnitude⟩
  | negSucc magnitude =>
      refine .inr ⟨magnitude + 1, rfl, ?_⟩
      change ("-" ++ (magnitude + 1).repr).toList = _
      rw [String.toList_append, Nat.toList_repr]
      rfl

theorem eq_minus_or_isDigit_of_mem {value : Int32} {c : Char}
    (member : c ∈ (ofInt32 value).toList) : c = '-' ∨ c.isDigit = true := by
  rcases toList_ofInt32 value with ⟨magnitude, -, isText⟩ | ⟨magnitude, -, isText⟩
  · rw [isText] at member
    exact .inr (isDigit_of_mem member)
  · rw [isText, List.mem_cons] at member
    exact member.imp_right isDigit_of_mem

theorem digits?_toDigits (number : Nat) : digits? (Nat.toDigits 10 number) = some number := by
  have filled : (Nat.toDigits 10 number).isEmpty = false :=
    List.isEmpty_eq_false_iff.mpr Nat.toDigits_ne_nil
  have all : (Nat.toDigits 10 number).all Char.isDigit = true :=
    List.all_eq_true.mpr fun c member => isDigit_of_mem member
  rw [digits?, filled, all, Nat.ofDigitChars_toDigits (by decide) (by decide)]
  rfl

theorem natural?_toDigits (number : Nat) : natural? (Nat.toDigits 10 number) = some number := by
  unfold natural?
  split
  · next isPlus =>
      have isDigit : '+'.isDigit = true := isDigit_of_mem (by rw [isPlus]; exact List.mem_cons_self)
      contradiction
  · exact digits?_toDigits number

theorem integer?_toDigits (number : Nat) :
    integer? (Nat.toDigits 10 number) = some (number : Int) := by
  unfold integer?
  split
  · next isMinus =>
      have isDigit : '-'.isDigit = true :=
        isDigit_of_mem (by rw [isMinus]; exact List.mem_cons_self)
      contradiction
  · rw [natural?_toDigits]
    rfl

theorem integer?_minus_toDigits (number : Nat) :
    integer? ('-' :: Nat.toDigits 10 number) = some (-(number : Int)) := by
  rw [integer?, digits?_toDigits]
  rfl

theorem size?_toDigits {number : Nat} (small : number ≤ 0xFFFFFFFFFFFFFFFF) :
    size? (Nat.toDigits 10 number) = some number := by
  rw [size?, natural?_toDigits]
  simp [small]

theorem le_of_size? {text : List Char} {number : Nat} (isRead : size? text = some number) :
    number ≤ 0xFFFFFFFFFFFFFFFF := by
  have small := (Option.filter_eq_some_iff.mp isRead).2
  simpa using small

theorem int32?_ofInt32 (value : Int32) : int32? (ofInt32 value).toList = some value := by
  have isRead : integer? (ofInt32 value).toList = some value.toInt := by
    rcases toList_ofInt32 value with ⟨magnitude, isValue, isText⟩ | ⟨magnitude, isValue, isText⟩
    · rw [isText, isValue, integer?_toDigits]
    · rw [isText, isValue, integer?_minus_toDigits]
  have low := value.le_toInt
  have high := value.toInt_lt
  have fits : (-0x80000000 ≤ value.toInt && value.toInt ≤ 0x7FFFFFFF) = true := by
    simp only [Bool.and_eq_true, decide_eq_true_eq]
    omega
  simp only [int32?, isRead, Option.filter, fits, if_true, Option.map_some, Int32.ofInt_toInt]

theorem ofInt32_injective : Function.Injective ofInt32 := by
  intro first second same
  have isRead := int32?_ofInt32 first
  rw [same, int32?_ofInt32] at isRead
  exact (Option.some.inj isRead).symm

theorem marker?_ofMarker {marker : Option Nat}
    (small : ∀ line, marker = some line → line ≤ 0x7FFFFFFFFFFFFFFF) :
    marker? (ofMarker marker).toList = some marker := by
  cases marker with
  | none => decide
  | some line =>
      have bound := small line rfl
      have fits : (-0x8000000000000000 ≤ (line : Int) && (line : Int) ≤ 0x7FFFFFFFFFFFFFFF) =
          true := by
        simp only [Bool.and_eq_true, decide_eq_true_eq]
        omega
      simp only [ofMarker, marker?, toList_toString, integer?_toDigits, Option.filter, fits,
        if_true, Option.map_some]
      simp

theorem le_of_marker? {text : List Char} {line : Nat} (isRead : marker? text = some (some line)) :
    line ≤ 0x7FFFFFFFFFFFFFFF := by
  obtain ⟨number, isNumber, isLine⟩ := Option.map_eq_some_iff.mp isRead
  have bounds := (Option.filter_eq_some_iff.mp isNumber).2
  simp only [Bool.and_eq_true, decide_eq_true_eq] at bounds
  split at isLine
  · contradiction
  · obtain rfl := Option.some.inj isLine
    omega

end Decimal

end StackDebugger
