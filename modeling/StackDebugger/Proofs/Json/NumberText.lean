import Mathlib.Data.List.Basic
import StackDebugger.Json.Parser

/-!
# The text of a number is a literal

Every number is written as one literal of the grammar that the reader follows, so that
the reader takes its whole text and nothing behind it.  For binary numbers this rests
on the digits found for them never being zero: zero rounds to no positive number.
-/

namespace StackDebugger

namespace Json

/-- At least one digit. -/
structure IsDigits (text : List Char) : Prop where
  filled : text ≠ []
  all : ∀ c ∈ text, c.isDigit = true

/-- Nothing behind a literal could belong to it. -/
def EndsLiteral (rest : List Char) : Prop :=
  ∀ c ∈ rest.head?, c.isDigit = false ∧ c ≠ '.' ∧ c ≠ 'e' ∧ c ≠ 'E'

inductive IsFraction : List Char → Prop where
  | absent : IsFraction []
  | digits {digits : List Char} : IsDigits digits → IsFraction ('.' :: digits)

inductive IsExponent : List Char → Prop where
  | absent : IsExponent []
  | signed {sign : Char} {digits : List Char} :
      sign = '-' ∨ sign = '+' → IsDigits digits → IsExponent ('e' :: sign :: digits)

/-- The text of a literal without its sign: a zero leads no other digits. -/
inductive IsUnsigned : List Char → Prop where
  | intro {whole fraction exponent : List Char} :
      IsDigits whole → (whole.head? = some '0' → whole.length ≤ 1) →
      IsFraction fraction → IsExponent exponent → IsUnsigned (whole ++ (fraction ++ exponent))

theorem IsUnsigned.positional {whole fraction : List Char} (isWhole : IsDigits whole)
    (noZero : whole.head? = some '0' → whole.length ≤ 1) (isFraction : IsFraction fraction) :
    IsUnsigned (whole ++ fraction) := by
  have literal := IsUnsigned.intro isWhole noZero isFraction .absent
  rwa [List.append_nil] at literal

theorem takeDigits_append {digits rest : List Char} (isDigits : IsDigits digits)
    (ends : ∀ c ∈ rest.head?, c.isDigit = false) :
    takeDigits (digits ++ rest) = some (digits, rest) := by
  have taken : (digits ++ rest).takeWhile Char.isDigit = digits := by
    rw [List.takeWhile_append_of_pos isDigits.all]
    cases rest with
    | nil => simp
    | cons c rest => simp [ends c rfl]
  have dropped : (digits ++ rest).dropWhile Char.isDigit = rest := by
    rw [List.dropWhile_append_of_pos isDigits.all]
    cases rest with
    | nil => rfl
    | cons c rest => simp [ends c rfl]
  rw [takeDigits, taken, dropped]
  cases digits with
  | nil => exact absurd rfl isDigits.filled
  | cons digit digits => rfl

theorem IsFraction.exists_taken {fraction : List Char} (isFraction : IsFraction fraction) :
    ∃ digits, ∀ rest : List Char, (∀ c ∈ rest.head?, c.isDigit = false ∧ c ≠ '.') →
      takeFraction (fraction ++ rest) = some (digits, rest) := by
  cases isFraction with
  | absent =>
      refine ⟨[], fun rest ends => ?_⟩
      rw [List.nil_append]
      unfold takeFraction
      split
      · exact absurd rfl (ends '.' rfl).2
      · rfl
  | @digits digits isDigits =>
      refine ⟨digits, fun rest ends => ?_⟩
      exact takeDigits_append isDigits fun c isHead => (ends c isHead).1

theorem IsExponent.exists_taken {exponent : List Char} (isExponent : IsExponent exponent) :
    ∃ value, ∀ rest : List Char, EndsLiteral rest →
      takeExponent (exponent ++ rest) = some (value, rest) := by
  cases isExponent with
  | absent =>
      refine ⟨none, fun rest ends => ?_⟩
      rw [List.nil_append]
      unfold takeExponent
      split
      · exact absurd rfl (ends 'e' rfl).2.2.1
      · exact absurd rfl (ends 'E' rfl).2.2.2
      · rfl
  | @signed sign digits isSign isDigits =>
      rcases isSign with rfl | rfl
      · refine ⟨some (-(Nat.ofDigitChars 10 digits 0 : Int)), fun rest ends => ?_⟩
        have taken := takeDigits_append isDigits fun c isHead => (ends c isHead).1
        simp only [List.cons_append, takeExponent, takeExponentValue, taken, Option.map_some]
      · refine ⟨some (Nat.ofDigitChars 10 digits 0 : Int), fun rest ends => ?_⟩
        have taken := takeDigits_append isDigits fun c isHead => (ends c isHead).1
        simp only [List.cons_append, takeExponent, takeExponentValue, taken, Option.map_some]

theorem IsUnsigned.exists_taken {text : List Char} (isUnsigned : IsUnsigned text)
    (negative : Bool) :
    ∃ literal, ∀ rest, EndsLiteral rest →
      takeUnsigned negative (text ++ rest) = some (literal, rest) := by
  obtain @⟨whole, fraction, exponent, isWhole, noZero, isFraction, isExponent⟩ := isUnsigned
  obtain ⟨fractionDigits, takesFraction⟩ := isFraction.exists_taken
  obtain ⟨value, takesExponent⟩ := isExponent.exists_taken
  refine ⟨⟨negative, whole, fractionDigits, value⟩, fun rest ends => ?_⟩
  have behindFraction : ∀ c ∈ (exponent ++ rest).head?, c.isDigit = false ∧ c ≠ '.' := by
    intro c isHead
    cases isExponent with
    | absent => exact ⟨(ends c isHead).1, (ends c isHead).2.1⟩
    | signed _ _ =>
        obtain rfl : 'e' = c := Option.some.inj isHead
        decide
  have behindWhole : ∀ c ∈ (fraction ++ (exponent ++ rest)).head?, c.isDigit = false := by
    intro c isHead
    cases isFraction with
    | absent => exact (behindFraction c isHead).1
    | digits _ =>
        obtain rfl : '.' = c := Option.some.inj isHead
        decide
  have wholeTaken := takeDigits_append isWhole behindWhole
  have notLed : ¬ (whole.head? = some '0' ∧ 1 < whole.length) := by
    rintro ⟨isZero, long⟩
    have short := noZero isZero
    omega
  simp only [takeUnsigned, List.append_assoc, wholeTaken, takesFraction _ behindFraction,
    takesExponent _ ends, Option.bind_eq_bind, Option.bind_some, notLed, if_false]
  rfl

theorem isDigits_toDigits (number : Nat) : IsDigits (Nat.toDigits 10 number) where
  filled := Nat.toDigits_ne_nil
  all _ member := Nat.isDigit_of_mem_toDigits (by decide) (by decide) member

theorem head?_toDigits {number : Nat} (positive : 0 < number) :
    (Nat.toDigits 10 number).head? ≠ some '0' := by
  induction number using Nat.strongRecOn with
  | ind number ih =>
      rw [Nat.toDigits_eq_if (by decide)]
      split
      · next small =>
          have cases : ∀ digit < 10, 0 < digit → Nat.digitChar digit ≠ '0' := by decide
          simpa using cases number small positive
      · next large =>
          have shorter := ih (number / 10) (by omega) (by omega)
          rw [List.head?_append_of_ne_nil _ Nat.toDigits_ne_nil]
          exact shorter

theorem leads_toDigits {number : Nat} (isZero : (Nat.toDigits 10 number).head? = some '0') :
    (Nat.toDigits 10 number).length ≤ 1 := by
  rcases Nat.eq_zero_or_pos number with rfl | positive
  · decide
  · exact absurd isZero (head?_toDigits positive)

end Json

namespace Shortest

open Json

theorem Binary.scale_quarter_pos (number : Binary) (power : Int) :
    0 < (number.scale power).quarter := by
  apply Nat.mul_pos
  · exact Nat.pow_pos (by decide)
  · exact Nat.pow_pos (by decide)

/-- Zero rounds to no positive number. -/
theorem Binary.accepts_zero {number : Binary} (positive : 0 < number.significand) (power : Int) :
    number.accepts power 0 = false := by
  have quarter := number.scale_quarter_pos power
  have low : 0 < (4 * number.significand - if number.narrowBelow then 1 else 2) *
      (number.scale power).quarter := by
    apply Nat.mul_pos _ quarter
    split <;> omega
  unfold accepts
  simp only [Nat.zero_mul]
  split
  · simp only [Bool.and_eq_false_iff, decide_eq_false_iff_not]
    omega
  · simp only [Bool.and_eq_false_iff, decide_eq_false_iff_not]
    omega

theorem Binary.pos_of_onGrid? {number : Binary} {power : Int} {digits : Nat}
    (positive : 0 < number.significand) (hit : number.onGrid? power = some digits) :
    0 < digits := by
  have lower : ∀ {candidate : Nat}, number.accepts power candidate = true → 0 < candidate := by
    intro candidate accepted
    apply Nat.pos_of_ne_zero
    rintro rfl
    rw [accepts_zero positive power] at accepted
    contradiction
  unfold onGrid? at hit
  simp only at hit
  split at hit
  · next accepted _ =>
      obtain rfl := Option.some.inj hit
      exact lower accepted
  · obtain rfl := Option.some.inj hit
    exact Nat.succ_pos _
  · contradiction
  · next accepted _ =>
      split at hit
      · obtain rfl := Option.some.inj hit
        exact lower accepted
      · obtain rfl := Option.some.inj hit
        exact Nat.succ_pos _
      · split at hit
        · obtain rfl := Option.some.inj hit
          exact lower accepted
        · obtain rfl := Option.some.inj hit
          exact Nat.succ_pos _

theorem Binary.search_pos {number : Binary} (positive : 0 < number.significand) (point : Int)
    (count tries : Nat) : 0 < (number.search point count tries).1 := by
  induction tries generalizing count with
  | zero => exact positive
  | succ tries ih =>
      rw [search]
      split
      · next hit => exact pos_of_onGrid? positive hit
      · exact ih (count + 1)

theorem stripZeros_pos {digits : Nat} (positive : 0 < digits) (tries : Nat) :
    0 < stripZeros tries digits := by
  induction tries generalizing digits with
  | zero => exact positive
  | succ tries ih =>
      rw [stripZeros]
      split
      · apply ih
        omega
      · exact positive

theorem Binary.shortest_pos {number : Binary} (positive : 0 < number.significand) :
    0 < number.shortest.digits :=
  stripZeros_pos (search_pos positive _ 1 17) 17

theorem isDigits_append {front back : List Char} (isDigits : IsDigits front)
    (digits : ∀ c ∈ back, c.isDigit = true) : IsDigits (front ++ back) where
  filled := by
    intro empty
    exact isDigits.filled (List.append_eq_nil_iff.mp empty).1
  all c member := by
    rcases List.mem_append.mp member with inFront | inBack
    · exact isDigits.all c inFront
    · exact digits c inBack

theorem isDigit_of_mem_replicate {count : Nat} {c : Char}
    (member : c ∈ List.replicate count '0') : c.isDigit = true := by
  obtain rfl := List.eq_of_mem_replicate member
  rfl

theorem isExponent_exponentText (exponent : Int) : IsExponent (exponentText exponent) := by
  apply IsExponent.signed
  · split
    · exact .inl rfl
    · exact .inr rfl
  · exact isDigits_toDigits exponent.natAbs

/-- A decimal that is not zero is laid out as a literal. -/
theorem Decimal.isUnsigned_render {decimal : Decimal} (positive : 0 < decimal.digits) :
    IsUnsigned decimal.render.toList := by
  have isDigits := isDigits_toDigits decimal.digits
  have noZero := head?_toDigits positive
  unfold Decimal.render
  simp only
  generalize Nat.toDigits 10 decimal.digits = digits at isDigits noZero ⊢
  have taken : ∀ {count : Nat}, 0 < count →
      IsDigits (digits.take count) ∧ (digits.take count).head? ≠ some '0' := by
    intro count some
    obtain ⟨digit, digits, rfl⟩ := List.exists_cons_of_ne_nil isDigits.filled
    obtain ⟨count, rfl⟩ : ∃ less, count = less + 1 := ⟨count - 1, by omega⟩
    refine ⟨⟨by simp, fun c member => isDigits.all c (List.mem_of_mem_take member)⟩, ?_⟩
    simpa using noZero
  split
  · -- All digits stand before the point.
    rw [String.toList_ofList]
    apply IsUnsigned.positional
    · exact isDigits_append isDigits fun c => isDigit_of_mem_replicate
    · intro isZero
      rw [List.head?_append_of_ne_nil _ isDigits.filled] at isZero
      exact absurd isZero noZero
    · exact .digits ⟨by simp, by simp⟩
  · next before =>
      split
      · -- The point stands among the digits.
        next within =>
          rw [String.toList_ofList]
          have ⟨whole, first⟩ := @taken decimal.point.toNat (by omega)
          have fraction : IsDigits (digits.drop decimal.point.toNat) := by
            refine ⟨?_, fun c member => isDigits.all c (List.mem_of_mem_drop member)⟩
            rw [Ne, List.drop_eq_nil_iff]
            omega
          exact .positional whole (fun isZero => absurd isZero first) (.digits fraction)
      · split
        · -- Zeros lead to the first digit.
          rw [String.toList_ofList]
          have fraction : IsDigits (List.replicate (-decimal.point).toNat '0' ++ digits) := by
            refine ⟨by simp [isDigits.filled], fun c member => ?_⟩
            rcases List.mem_append.mp member with inZeros | inDigits
            · exact isDigit_of_mem_replicate inZeros
            · exact isDigits.all c inDigits
          exact @IsUnsigned.positional ['0'] _ ⟨by simp, by simp⟩ (fun _ => by simp)
            (.digits fraction)
        · rw [String.toList_ofList, List.append_assoc]
          have ⟨whole, first⟩ := @taken 1 (by decide)
          apply IsUnsigned.intro whole (fun isZero => absurd isZero first)
          · split
            · exact .absent
            · next later =>
                refine .digits ⟨later, fun c member => isDigits.all c (List.mem_of_mem_drop member)⟩
          · exact isExponent_exponentText _

theorem exists_render_eq (value : Float) :
    ∃ text, IsUnsigned text ∧
      ((render value).toList = text ∨ (render value).toList = '-' :: text) := by
  have zero : IsUnsigned "0.0".toList :=
    @IsUnsigned.positional ['0'] ['.', '0'] ⟨by simp, by simp⟩ (fun _ => by simp)
      (.digits ⟨by simp, by simp⟩)
  unfold render
  simp only
  split
  · refine ⟨_, zero, ?_⟩
    split
    · exact .inr rfl
    · exact .inl rfl
  · next nonzero =>
      have positive := Nat.pos_of_ne_zero nonzero
      refine ⟨_, Decimal.isUnsigned_render (Binary.shortest_pos positive), ?_⟩
      split
      · exact .inr (String.toList_append ..)
      · exact .inl (by simp)

end Shortest

namespace Json

/-- What the reader makes of the text of a number. -/
def Number.reread? (number : Number) : Option Number :=
  (takeNumber number.render).bind fun taken => taken.1.value?

theorem takeNumber_of_isUnsigned {text : List Char} (isUnsigned : IsUnsigned text)
    (rest : List Char) : takeNumber (text ++ rest) = takeUnsigned false (text ++ rest) := by
  obtain @⟨whole, fraction, exponent, isWhole, -, -, -⟩ := isUnsigned
  obtain ⟨digit, whole, rfl⟩ := List.exists_cons_of_ne_nil isWhole.filled
  have isDigit := isWhole.all digit List.mem_cons_self
  unfold takeNumber
  split
  · next isMinus =>
      obtain ⟨rfl, -⟩ := List.cons.inj isMinus
      contradiction
  · rfl

theorem render_ofNat (number : Nat) :
    (Number.integer (.ofNat number)).render = Nat.toDigits 10 number := by
  change number.repr.toList = _
  exact Nat.toList_repr

theorem render_negSucc (number : Nat) :
    (Number.integer (.negSucc number)).render = '-' :: Nat.toDigits 10 (number + 1) := by
  change ("-" ++ (number + 1).repr).toList = _
  rw [String.toList_append, Nat.toList_repr]
  rfl

theorem Number.exists_render_eq (number : Number) :
    ∃ text, IsUnsigned text ∧ (number.render = text ∨ number.render = '-' :: text) := by
  cases number with
  | real value => exact Shortest.exists_render_eq value
  | integer value =>
      have isUnsigned := fun number : Nat =>
        IsUnsigned.positional (isDigits_toDigits number) leads_toDigits .absent
      cases value with
      | ofNat number =>
          refine ⟨_, isUnsigned number, .inl ?_⟩
          rw [List.append_nil]
          exact render_ofNat number
      | negSucc number =>
          refine ⟨_, isUnsigned (number + 1), .inr ?_⟩
          rw [List.append_nil]
          exact render_negSucc number

theorem Number.exists_head (number : Number) :
    ∃ c text, number.render = c :: text ∧ (c.isDigit = true ∨ c = '-') := by
  obtain ⟨text, isUnsigned, isText | isText⟩ := number.exists_render_eq
  · obtain @⟨whole, fraction, exponent, isWhole, -, -, -⟩ := isUnsigned
    obtain ⟨digit, whole, rfl⟩ := List.exists_cons_of_ne_nil isWhole.filled
    exact ⟨digit, _, isText, .inl (isWhole.all digit List.mem_cons_self)⟩
  · exact ⟨'-', text, isText, .inr rfl⟩

/-- The reader takes the text of a number and no more. -/
theorem Number.exists_taken (number : Number) :
    ∃ literal, number.reread? = literal.value? ∧ ∀ rest, EndsLiteral rest →
      takeNumber (number.render ++ rest) = some (literal, rest) := by
  have taken : ∃ literal, ∀ rest, EndsLiteral rest →
      takeNumber (number.render ++ rest) = some (literal, rest) := by
    obtain ⟨text, isUnsigned, isText | isText⟩ := number.exists_render_eq
    · obtain ⟨literal, takes⟩ := isUnsigned.exists_taken false
      refine ⟨literal, fun rest ends => ?_⟩
      rw [isText, takeNumber_of_isUnsigned isUnsigned, takes rest ends]
    · obtain ⟨literal, takes⟩ := isUnsigned.exists_taken true
      refine ⟨literal, fun rest ends => ?_⟩
      rw [isText]
      exact takes rest ends
  obtain ⟨literal, takes⟩ := taken
  refine ⟨literal, ?_, takes⟩
  have alone := takes [] (by simp [EndsLiteral])
  rw [List.append_nil] at alone
  rw [Number.reread?, alone]
  rfl

end Json

end StackDebugger
