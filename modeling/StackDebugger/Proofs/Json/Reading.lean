import Mathlib.Tactic.SplitIfs
import StackDebugger.Json.Parser
import StackDebugger.Proofs.Json.NumberText

/-!
# Reading what was written

The reader takes the text of a value and no more.  What it makes of the text is the
value itself, except for numbers that only a binary approximation can hold and for
values that are nested too deeply: `reread?` says which value is read, if one is.
-/

namespace StackDebugger.Json

section Strings

variable {taken rest : List Char}

theorem takeString_quote :
    takeString taken ('"' :: rest) = some (String.ofList taken.reverse, rest) := by
  rw [takeString.eq_def]
  rfl

theorem takeString_letter {letter c : Char} (noCode : letter ≠ 'u')
    (isEscape : unescape? letter = some c) :
    takeString taken ('\\' :: letter :: rest) = takeString (c :: taken) rest := by
  rw [takeString.eq_def]
  simp [noCode, isEscape]

theorem takeString_code {a b c d : Char} {unit : Nat} (isUnit : codeUnit? a b c d = some unit)
    (small : unit < 0xD800) :
    takeString taken ('\\' :: 'u' :: a :: b :: c :: d :: rest) =
      takeString (Char.ofNat unit :: taken) rest := by
  have notHigh : isHighSurrogate unit = false := by
    simp only [isHighSurrogate, Bool.and_eq_false_iff, decide_eq_false_iff_not]
    omega
  have notLow : isLowSurrogate unit = false := by
    simp only [isLowSurrogate, Bool.and_eq_false_iff, decide_eq_false_iff_not]
    omega
  rw [takeString.eq_def]
  simp [isUnit, notHigh, notLow]

theorem takeString_plain {c : Char} (noQuote : c ≠ '"') (noEscape : c ≠ '\\')
    (printable : 0x20 ≤ c.toNat) :
    takeString taken (c :: rest) = takeString (c :: taken) rest := by
  rw [takeString.eq_def]
  simp [noQuote, noEscape, Nat.not_lt.mpr printable]

theorem codeUnit?_hexDigit {code : Nat} (control : code < 0x20) :
    codeUnit? '0' '0' (hexDigit (code / 16)) (hexDigit code) = some code := by
  have cases : ∀ code < 0x20,
      codeUnit? '0' '0' (hexDigit (code / 16)) (hexDigit code) = some code := by decide
  exact cases code control

theorem takeString_escape (taken : List Char) (c : Char) (rest : List Char) :
    takeString taken (escape c ++ rest) = takeString (c :: taken) rest := by
  unfold escape
  split_ifs with isQuote isBackslash printable isFeed isReturn isTab isBackspace isFormFeed
  · subst isQuote
    exact takeString_letter (by decide) (by decide)
  · subst isBackslash
    exact takeString_letter (by decide) (by decide)
  · exact takeString_plain isQuote isBackslash printable
  · subst isFeed
    exact takeString_letter (by decide) (by decide)
  · subst isReturn
    exact takeString_letter (by decide) (by decide)
  · subst isTab
    exact takeString_letter (by decide) (by decide)
  · obtain rfl : c = '\x08' := Char.toNat_inj.mp isBackspace
    exact takeString_letter (by decide) (by decide)
  · obtain rfl : c = '\x0c' := Char.toNat_inj.mp isFormFeed
    exact takeString_letter (by decide) (by decide)
  · have control : c.toNat < 0x20 := Nat.not_le.mp printable
    refine (takeString_code (codeUnit?_hexDigit control) (by omega)).trans ?_
    rw [Char.ofNat_toNat]
    rfl

theorem takeString_escapes (taken text rest : List Char) :
    takeString taken (text.flatMap escape ++ '"' :: rest) =
      some (String.ofList (taken.reverse ++ text), rest) := by
  induction text generalizing taken with
  | nil => simp [takeString_quote]
  | cons c text ih =>
      rw [List.flatMap_cons, List.append_assoc, takeString_escape, ih]
      simp

/-- A string is read back from between its quotes. -/
theorem takeString_quoted (text : String) (rest : List Char) :
    ∃ inside, quote text ++ rest = '"' :: inside ∧ takeString [] inside = some (text, rest) := by
  refine ⟨text.toList.flatMap escape ++ '"' :: rest, by simp [quote], ?_⟩
  rw [takeString_escapes]
  simp

end Strings

mutual

/-- The value that is read from the text of a value, with at most `depth` containers inside
one another. -/
def reread? (depth : Nat) : Json → Option Json
  | .number value => value.reread?.map .number
  | .array items =>
      match depth with
      | 0 => none
      | depth + 1 => (rereadItems? depth items).map .array
  | .object members =>
      match depth with
      | 0 => none
      | depth + 1 => (rereadMembers? depth members).map .object
  | other => some other

def rereadItems? (depth : Nat) : List Json → Option (List Json)
  | [] => some []
  | item :: rest =>
      match reread? depth item, rereadItems? depth rest with
      | some item, some rest => some (item :: rest)
      | _, _ => none

def rereadMembers? (depth : Nat) : List (String × Json) → Option (List (String × Json))
  | [] => some []
  | (name, value) :: rest =>
      match reread? depth value, rereadMembers? depth rest with
      | some value, some rest => some ((name, value) :: rest)
      | _, _ => none

end

theorem skipSpace_of_head {text : List Char} (visible : ∀ c ∈ text.head?, isSpace c = false) :
    skipSpace text = text := by
  cases text with
  | nil => rfl
  | cons c text => simp [skipSpace, visible c rfl]

/-- What can stand at the start of the text of a value. -/
def isOpening (c : Char) : Bool :=
  c.isDigit || c == '-' || c == '"' || c == '[' || c == '\x7b' || c == 'n' || c == 't' || c == 'f'

theorem exists_head (value : Json) : ∃ c text, value.render = c :: text ∧ isOpening c = true := by
  cases value with
  | null => exact ⟨'n', _, rfl, rfl⟩
  | bool value =>
      cases value with
      | true => exact ⟨'t', _, rfl, rfl⟩
      | false => exact ⟨'f', _, rfl, rfl⟩
  | number value =>
      obtain ⟨c, text, isText, digit | rfl⟩ := value.exists_head
      · exact ⟨c, text, by rw [render, isText], by simp [isOpening, digit]⟩
      · exact ⟨'-', text, by rw [render, isText], rfl⟩
  | string text => exact ⟨'"', _, rfl, rfl⟩
  | array items => exact ⟨'[', _, by rw [render], rfl⟩
  | object members => exact ⟨'\x7b', _, by rw [render], rfl⟩

theorem isSpace_of_isOpening {c : Char} (opening : isOpening c = true) : isSpace c = false := by
  have notSpace : ∀ {space : Char}, isOpening space = false → c ≠ space := by
    rintro space notOpening rfl
    rw [opening] at notOpening
    contradiction
  have space : c ≠ ' ' := notSpace rfl
  have tab : c ≠ '\t' := notSpace rfl
  have feed : c ≠ '\n' := notSpace rfl
  have carriage : c ≠ '\r' := notSpace rfl
  simp [isSpace, space, tab, feed, carriage]

theorem takeValue_number {depth fuel : Nat} {c : Char} {text rest : List Char}
    {literal : NumberLiteral} (isStart : c.isDigit = true ∨ c = '-')
    (taken : takeNumber (c :: text) = some (literal, rest)) :
    takeValue depth (fuel + 1) (c :: text) =
      literal.value?.map fun value => (.number value, rest) := by
  have visible : skipSpace (c :: text) = c :: text := by
    apply skipSpace_of_head
    intro head isHead
    obtain rfl : c = head := Option.some.inj isHead
    apply isSpace_of_isOpening
    rcases isStart with digit | rfl
    · simp [isOpening, digit]
    · rfl
  have other : ∀ {first : Char}, first.isDigit = false → first ≠ '-' → c ≠ first := by
    rintro first noDigit noMinus rfl
    rcases isStart with digit | isMinus
    · rw [digit] at noDigit
      contradiction
    · exact noMinus isMinus
  rw [takeValue.eq_def]
  simp only [visible]
  split
  · contradiction
  · next isNull => exact absurd (List.cons.inj isNull).1 (other (by decide) (by decide))
  · next isTrue => exact absurd (List.cons.inj isTrue).1 (other (by decide) (by decide))
  · next isFalse => exact absurd (List.cons.inj isFalse).1 (other (by decide) (by decide))
  · next isString => exact absurd (List.cons.inj isString).1 (other (by decide) (by decide))
  · next isArray => exact absurd (List.cons.inj isArray).1 (other (by decide) (by decide))
  · next isObject => exact absurd (List.cons.inj isObject).1 (other (by decide) (by decide))
  · rw [taken, Option.bind_eq_bind, Option.bind_some]
    cases literal.value? with
    | none => rfl
    | some value => rfl

theorem takeValue_array {depth fuel : Nat} {c : Char} {text : List Char}
    (opening : isOpening c = true) :
    takeValue (depth + 1) (fuel + 1) ('[' :: c :: text) =
      (takeItems depth [] fuel (c :: text)).map fun (items, rest) => (.array items, rest) := by
  have visible : skipSpace (c :: text) = c :: text := by
    simp [skipSpace, isSpace_of_isOpening opening]
  have opened : skipSpace ('[' :: c :: text) = '[' :: c :: text := rfl
  rw [takeValue.eq_def]
  simp only [opened, visible]
  split
  · next isClosed =>
      obtain ⟨rfl, -⟩ := List.cons.inj isClosed
      contradiction
  · rfl

theorem takeValue_object {depth fuel : Nat} {text : List Char} :
    takeValue (depth + 1) (fuel + 1) ('\x7b' :: '"' :: text) =
      (takeMembers depth [] fuel ('"' :: text)).map fun (members, rest) =>
        (.object members, rest) := by
  rw [takeValue.eq_def]
  rfl

theorem takeMembers_quote {depth fuel : Nat} {taken : List (String × Json)} (name : String)
    (text : List Char) :
    takeMembers depth taken (fuel + 1) (quote name ++ ':' :: text) =
      match takeValue depth fuel text with
      | none => none
      | some (value, rest) =>
          match skipSpace rest with
          | ',' :: rest => takeMembers depth ((name, value) :: taken) fuel rest
          | '\x7d' :: rest => some (((name, value) :: taken).reverse, rest)
          | _ => none := by
  obtain ⟨inside, isInside, isName⟩ := takeString_quoted name (':' :: text)
  have visible : skipSpace ('"' :: inside) = '"' :: inside := rfl
  rw [isInside, takeMembers]
  simp only [visible, isName]
  rfl

theorem endsLiteral_cons {c : Char} (rest : List Char)
    (ends : c.isDigit = false ∧ c ≠ '.' ∧ c ≠ 'e' ∧ c ≠ 'E') : EndsLiteral (c :: rest) := by
  intro head isHead
  obtain rfl : c = head := Option.some.inj isHead
  exact ends

theorem exists_renderItems_eq (item : Json) (items : List Json) :
    ∃ c text, renderItems (item :: items) = c :: text ∧ isOpening c = true := by
  obtain ⟨c, text, isText, opening⟩ := item.exists_head
  cases items with
  | nil => exact ⟨c, _, by rw [renderItems, isText, List.cons_append], opening⟩
  | cons next items => exact ⟨c, _, by rw [renderItems, isText, List.cons_append], opening⟩

theorem exists_renderMembers_eq (member : String × Json) (members : List (String × Json)) :
    ∃ text, renderMembers (member :: members) = '"' :: text := by
  obtain ⟨name, value⟩ := member
  cases members with
  | nil => exact ⟨_, by rw [renderMembers, quote, List.cons_append]⟩
  | cons next members => exact ⟨_, by rw [renderMembers, quote, List.cons_append]⟩

mutual

theorem takeValue_render (value : Json) {depth fuel : Nat} {rest : List Char}
    (enough : value.render.length ≤ fuel) (ends : EndsLiteral rest) :
    takeValue depth fuel (value.render ++ rest) =
      (value.reread? depth).map fun value => (value, rest) := by
  obtain ⟨fuel, rfl⟩ : ∃ less, fuel = less + 1 := by
    obtain ⟨c, text, isText, -⟩ := value.exists_head
    rw [isText, List.length_cons] at enough
    exact ⟨fuel - 1, by omega⟩
  cases value with
  | null => rfl
  | bool value =>
      cases value with
      | true => rfl
      | false => rfl
  | number value =>
      obtain ⟨c, text, isText, isStart⟩ := value.exists_head
      obtain ⟨literal, isReread, takes⟩ := value.exists_taken
      have taken := takes rest ends
      rw [render, reread?, isReread, Option.map_map]
      rw [isText, List.cons_append] at taken ⊢
      exact takeValue_number isStart taken
  | string text =>
      obtain ⟨inside, isInside, taken⟩ := takeString_quoted text rest
      have visible : skipSpace ('"' :: inside) = '"' :: inside := rfl
      rw [render, isInside, takeValue.eq_def]
      simp only [visible, taken, Option.map_some]
      rfl
  | array items =>
      rw [render, List.length_cons] at enough
      rw [render, List.cons_append]
      cases depth with
      | zero => rfl
      | succ depth =>
          cases items with
          | nil => rfl
          | cons item items =>
              have taken := @takeItems_render (item :: items) depth fuel [] rest
                (List.cons_ne_nil item items) (by omega)
              obtain ⟨c, text, isText, opening⟩ := exists_renderItems_eq item items
              rw [isText, List.cons_append] at taken ⊢
              rw [takeValue_array opening, taken, reread?, Option.map_map, Option.map_map]
              rfl
  | object members =>
      rw [render, List.length_cons] at enough
      rw [render, List.cons_append]
      cases depth with
      | zero => rfl
      | succ depth =>
          cases members with
          | nil => rfl
          | cons member members =>
              have taken := @takeMembers_render (member :: members) depth fuel [] rest
                (List.cons_ne_nil member members) (by omega)
              obtain ⟨text, isText⟩ := exists_renderMembers_eq member members
              rw [isText, List.cons_append] at taken ⊢
              rw [takeValue_object, taken, reread?, Option.map_map, Option.map_map]
              rfl

theorem takeItems_render (items : List Json) {depth fuel : Nat} {taken : List Json}
    {rest : List Char} (filled : items ≠ []) (enough : (renderItems items).length ≤ fuel) :
    takeItems depth taken fuel (renderItems items ++ rest) =
      (rereadItems? depth items).map fun items => (taken.reverse ++ items, rest) := by
  cases items with
  | nil => contradiction
  | cons item items =>
      obtain ⟨fuel, rfl⟩ : ∃ less, fuel = less + 1 := by
        obtain ⟨c, text, isText, -⟩ := exists_renderItems_eq item items
        rw [isText, List.length_cons] at enough
        exact ⟨fuel - 1, by omega⟩
      cases items with
      | nil =>
          rw [renderItems, List.length_append, List.length_singleton] at enough
          have read := @takeValue_render item depth fuel (']' :: rest) (by omega)
            (endsLiteral_cons _ (by decide))
          rw [renderItems, List.append_assoc, List.singleton_append, takeItems, read, rereadItems?]
          cases reread? depth item with
          | none => rfl
          | some item =>
              change some ((item :: taken).reverse, rest) = _
              simp [rereadItems?]
      | cons next items =>
          rw [renderItems, List.length_append, List.length_cons] at enough
          have read := @takeValue_render item depth fuel
            (',' :: (renderItems (next :: items) ++ rest)) (by omega)
            (endsLiteral_cons _ (by decide))
          rw [renderItems, List.append_assoc, List.cons_append, takeItems, read, rereadItems?]
          cases reread? depth item with
          | none => rfl
          | some item =>
              have later := @takeItems_render (next :: items) depth fuel (item :: taken) rest
                (List.cons_ne_nil next items) (by omega)
              change takeItems depth (item :: taken) fuel (renderItems (next :: items) ++ rest) = _
              rw [later]
              cases rereadItems? depth (next :: items) with
              | none => rfl
              | some items => simp

theorem takeMembers_render (members : List (String × Json)) {depth fuel : Nat}
    {taken : List (String × Json)} {rest : List Char} (filled : members ≠ [])
    (enough : (renderMembers members).length ≤ fuel) :
    takeMembers depth taken fuel (renderMembers members ++ rest) =
      (rereadMembers? depth members).map fun members => (taken.reverse ++ members, rest) := by
  cases members with
  | nil => contradiction
  | cons member members =>
      obtain ⟨fuel, rfl⟩ : ∃ less, fuel = less + 1 := by
        obtain ⟨text, isText⟩ := exists_renderMembers_eq member members
        rw [isText, List.length_cons] at enough
        exact ⟨fuel - 1, by omega⟩
      obtain ⟨name, value⟩ := member
      cases members with
      | nil =>
          rw [renderMembers, List.length_append, List.length_cons, List.length_append] at enough
          have read := @takeValue_render value depth fuel ('\x7d' :: rest) (by omega)
            (endsLiteral_cons _ (by decide))
          rw [renderMembers, List.append_assoc, List.cons_append, List.append_assoc,
            List.singleton_append, takeMembers_quote, read, rereadMembers?]
          cases reread? depth value with
          | none => rfl
          | some value =>
              change some (((name, value) :: taken).reverse, rest) = _
              simp [rereadMembers?]
      | cons next members =>
          rw [renderMembers, List.length_append, List.length_cons, List.length_append,
            List.length_cons] at enough
          have read := @takeValue_render value depth fuel
            (',' :: (renderMembers (next :: members) ++ rest)) (by omega)
            (endsLiteral_cons _ (by decide))
          rw [renderMembers, List.append_assoc, List.cons_append, List.append_assoc,
            List.cons_append, takeMembers_quote, read, rereadMembers?]
          cases reread? depth value with
          | none => rfl
          | some value =>
              have later := @takeMembers_render (next :: members) depth fuel
                ((name, value) :: taken) rest (List.cons_ne_nil next members) (by omega)
              change takeMembers depth ((name, value) :: taken) fuel
                (renderMembers (next :: members) ++ rest) = _
              rw [later]
              cases rereadMembers? depth (next :: members) with
              | none => rfl
              | some members => simp

end

/-- What is read from the text of a value. -/
theorem parse?_render (depth : Nat) (value : Json) :
    parse? depth value.render = value.reread? depth := by
  have ends : EndsLiteral [] := by simp [EndsLiteral]
  have taken := @takeValue_render value depth (2 * value.render.length + 1) [] (by omega) ends
  rw [List.append_nil] at taken
  rw [parse?, taken]
  cases reread? depth value with
  | none => rfl
  | some value => rfl

end StackDebugger.Json
