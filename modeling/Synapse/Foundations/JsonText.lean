import Synapse.Foundations.Numerals

/-!
# JSON texts

Values, how they are written, and a parser for texts without white space between the
tokens, over bytes.  Strings are byte strings; besides the escapes of quote, backslash and
the usual control bytes the parser knows `\u` with four hexadecimal digits.  Whatever it
accepts is JSON.

A written value is read back, whatever follows it (`readBack_render`).

### A parser without white space

The parser accepts less than JSON: no white space between tokens.  For reading back what has
been written that is no loss, and it keeps the parser so small that its acceptance is
evidence: whatever it accepts is JSON, and what it returns is the value that is written there.
Numbers are kept as texts, valid by a field of their type (`Numeral`), so no arithmetic enters
and nothing depends on how a number is converted.

The proof follows the grammar.  A value is read back in front of any text that does not go on
with a numeral (`EndsNumeral`), which is the only place where the end of a value depends on
what follows it.
-/

namespace JsonText

open Numerals

/-! ## Numerals -/

/-- A decimal digit. -/
def isDigit (c : UInt8) : Bool := 0x30 ≤ c && c ≤ 0x39

/-- The bytes of numerals. -/
def isNumeralByte (c : UInt8) : Bool :=
  isDigit c || c = 0x2b || c = 0x2d || c = 0x2e || c = 0x45 || c = 0x65

/-- Some digits, and something else after them. -/
def digitsThen (rest : Text → Bool) (text : Text) : Bool :=
  text.takeWhile isDigit ≠ [] && rest (text.dropWhile isDigit)

/-- The text behind the sign of an exponent. -/
def dropSign : Text → Text
  | [] => []
  | c :: text => if c = 0x2b ∨ c = 0x2d then text else c :: text

/-- What may follow the digits of a number: nothing, or an exponent. -/
def isExponent : Text → Bool
  | [] => true
  | c :: text => (c = 0x45 || c = 0x65) && digitsThen List.isEmpty (dropSign text)

/-- The same with a fraction in front of the exponent. -/
def isFraction : Text → Bool
  | [] => true
  | c :: text => if c = 0x2e then digitsThen isExponent text else isExponent (c :: text)

/-- A digit after a zero in front. -/
def hasLeadingZero : Text → Bool
  | c :: d :: _ => c = 0x30 && isDigit d
  | _ => false

/-- The text behind the sign of a number. -/
def dropMinus : Text → Text
  | [] => []
  | c :: text => if c = 0x2d then text else c :: text

/-- The numbers of JSON. -/
def isNumeral (text : Text) : Bool :=
  !hasLeadingZero (dropMinus text) && digitsThen isFraction (dropMinus text)

/-- A number by its text, which is one. -/
structure Numeral where
  text : Text
  valid : isNumeral text = true

/-! ## Values -/

/-- The values of JSON that the texts here are made of. -/
inductive Value where
  | number (numeral : Numeral)
  | string (bytes : Text)
  | array (values : List Value)
  | object (members : List (Text × Value))

/-- A hexadecimal digit, in lower case. -/
def hexDigit (n : ℕ) : UInt8 := UInt8.ofNat (if n < 10 then 0x30 + n else 0x57 + n)

/-- A byte as it stands in a string. -/
def escapeByte (c : UInt8) : Text :=
  if c = 0x22 then [0x5c, 0x22]
  else if c = 0x5c then [0x5c, 0x5c]
  else if c = 0x0a then [0x5c, 0x6e]
  else if c = 0x0d then [0x5c, 0x72]
  else if c = 0x09 then [0x5c, 0x74]
  else if c < 0x20 then
    [0x5c, 0x75, 0x30, 0x30, hexDigit (c.toNat / 16), hexDigit (c.toNat % 16)]
  else [c]

/-- A string between quotes, its bytes escaped. -/
def quote (bytes : Text) : Text := 0x22 :: (bytes.flatMap escapeByte ++ [0x22])

/-- Texts with commas between them. -/
def separated : List Text → Text
  | [] => []
  | text :: texts => text ++ texts.flatMap fun text => 0x2c :: text

/-- A member of an object: key, colon, value. -/
def renderMember (key value : Text) : Text := quote key ++ 0x3a :: value

mutual

/-- How a value is written. -/
def render : Value → Text
  | .number numeral => numeral.text
  | .string bytes => quote bytes
  | .array values => 0x5b :: (separated (renderElements values) ++ [0x5d])
  | .object members => 0x7b :: (separated (renderMembers members) ++ [0x7d])

/-- The elements of an array, each by itself; `render` needs it for its recursion. -/
def renderElements : List Value → List Text
  | [] => []
  | value :: values => render value :: renderElements values

/-- The members of an object, each by itself. -/
def renderMembers : List (Text × Value) → List Text
  | [] => []
  | (key, value) :: members => renderMember key (render value) :: renderMembers members

end

/-- The elements are written one by one. -/
theorem renderElements_eq (values : List Value) :
    renderElements values = values.map render := by
  induction values with
  | nil => rfl
  | cons value values ih => rw [renderElements, ih, List.map_cons]

/-- The members are written one by one. -/
theorem renderMembers_eq (members : List (Text × Value)) :
    renderMembers members = members.map fun member => renderMember member.1 (render member.2) := by
  induction members with
  | nil => rfl
  | cons member members ih => rw [renderMembers, ih, List.map_cons]

theorem render_string (bytes : Text) : render (.string bytes) = quote bytes := rfl

/-- An array by the texts of its elements. -/
theorem render_array (values : List Value) :
    render (.array values) = 0x5b :: (separated (values.map render) ++ [0x5d]) := by
  rw [render, renderElements_eq]

/-- An object by the texts of its members. -/
theorem render_object (members : List (Text × Value)) :
    render (.object members) =
      0x7b :: (separated (members.map fun member => renderMember member.1 (render member.2)) ++
        [0x7d]) := by
  rw [render, renderMembers_eq]

/-! ## Reading -/

/-- What an escape stands for, after its backslash, and what follows it. -/
def parseEscape : Text → Option (UInt8 × Text)
  | 0x75 :: a :: b :: c :: d :: text => do
    let digits ← [a, b, c, d].mapM (digitValue 16)
    let code := ofDigits 16 digits
    if code < 0x80 then some (UInt8.ofNat code, text) else none
  | c :: text =>
    if c = 0x22 ∨ c = 0x5c then some (c, text)
    else if c = 0x6e then some (0x0a, text)
    else if c = 0x72 then some (0x0d, text)
    else if c = 0x74 then some (0x09, text)
    else none
  | [] => none

/-- One character of a string; control bytes have to be escaped. -/
def parseChar : Text → Option (UInt8 × Text)
  | [] => none
  | c :: text =>
    if c = 0x5c then parseEscape text else if c < 0x20 then none else some (c, text)

/-- The rest of a string, and what follows its closing quote. -/
def parseChars : ℕ → Text → Option (Text × Text)
  | 0, _ => none
  | _ + 1, [] => none
  | fuel + 1, c :: text =>
    if c = 0x22 then some ([], text)
    else do
      let (byte, rest) ← parseChar (c :: text)
      let (bytes, rest) ← parseChars fuel rest
      return (byte :: bytes, rest)

/-- A string, from its quote on. -/
def parseString : Text → Option (Text × Text)
  | [] => none
  | c :: text => if c = 0x22 then parseChars text.length text else none

/-- The longest text of bytes that occur in numbers, if it is one. -/
def parseNumeral (text : Text) : Option (Numeral × Text) :=
  if valid : isNumeral (text.takeWhile isNumeralByte) = true then
    some (⟨_, valid⟩, text.dropWhile isNumeralByte)
  else none

section items

variable {α : Type*} (item : Text → Option (α × Text)) (close : UInt8)

/-- The items after the first one, each with a comma in front, up to the closing byte. -/
def parseMore : ℕ → Text → Option (List α × Text)
  | 0, _ => none
  | _ + 1, [] => none
  | fuel + 1, c :: text =>
    if c = close then some ([], text)
    else if c = 0x2c then do
      let (value, rest) ← item text
      let (values, rest) ← parseMore fuel rest
      return (value :: values, rest)
    else none

/-- Items with commas between them, up to the closing byte. -/
def parseItems : Text → Option (List α × Text)
  | [] => none
  | c :: text =>
    if c = close then some ([], text)
    else do
      let (value, rest) ← item (c :: text)
      let (values, rest) ← parseMore item close rest.length rest
      return (value :: values, rest)

end items

/-- A key, a colon and a value. -/
def parseMember (value : Text → Option (Value × Text)) (text : Text) :
    Option ((Text × Value) × Text) := do
  let (key, rest) ← parseString text
  match rest with
  | 0x3a :: rest => (value rest).map fun (value, rest) => ((key, value), rest)
  | _ => none

/-- A value and what follows it; `fuel` bounds how deep values are nested. -/
def parseValue : ℕ → Text → Option (Value × Text)
  | 0, _ => none
  | _ + 1, [] => none
  | fuel + 1, c :: text =>
    if c = 0x22 then (parseString (c :: text)).map fun (bytes, rest) => (.string bytes, rest)
    else if c = 0x5b then
      (parseItems (parseValue fuel) 0x5d text).map fun (values, rest) => (.array values, rest)
    else if c = 0x7b then
      (parseItems (parseMember (parseValue fuel)) 0x7d text).map fun (members, rest) =>
        (.object members, rest)
    else (parseNumeral (c :: text)).map fun (numeral, rest) => (.number numeral, rest)

/-- The value that a whole text is. -/
def parse (text : Text) : Option Value :=
  match parseValue text.length text with
  | some (value, []) => some value
  | _ => none

/-! ## Strings are read back -/

/-- The digits that are written are those that are read. -/
theorem digitValue_hexDigit {d : ℕ} (hd : d < 16) : digitValue 16 (hexDigit d) = some d := by
  interval_cases d <;> rfl

/-- An escaped control byte is read back. -/
theorem parseEscape_control {c : UInt8} (h : c < 0x20) (rest : Text) :
    parseEscape (0x75 :: 0x30 :: 0x30 :: hexDigit (c.toNat / 16) :: hexDigit (c.toNat % 16) ::
      rest) = some (c, rest) := by
  have hc : c.toNat < 32 := h
  have hzero : digitValue 16 0x30 = some 0 := rfl
  have hdigits : [0x30, 0x30, hexDigit (c.toNat / 16), hexDigit (c.toNat % 16)].mapM
      (digitValue 16) = some [0, 0, c.toNat / 16, c.toNat % 16] := by
    simp [hzero, digitValue_hexDigit (show c.toNat / 16 < 16 by omega),
      digitValue_hexDigit (show c.toNat % 16 < 16 by omega)]
  have hcode : ofDigits 16 [0, 0, c.toNat / 16, c.toNat % 16] = c.toNat := by
    simp only [ofDigits, List.reverse_cons, List.reverse_nil, List.nil_append, List.cons_append,
      Nat.ofDigits_cons, Nat.ofDigits_nil]
    omega
  simp only [parseEscape, hdigits, Option.bind_eq_bind, Option.bind_some, hcode]
  rw [if_pos (by omega), UInt8.ofNat_toNat]

/-- **What the writer escapes is read back.** -/
theorem parseChar_escapeByte (c : UInt8) (rest : Text) :
    parseChar (escapeByte c ++ rest) = some (c, rest) := by
  unfold escapeByte
  split_ifs with hquote hslash hline hreturn htab hcontrol
  · rw [hquote]
    rfl
  · rw [hslash]
    rfl
  · rw [hline]
    rfl
  · rw [hreturn]
    rfl
  · rw [htab]
    rfl
  · exact parseEscape_control hcontrol rest
  · rw [List.cons_append, List.nil_append, parseChar, if_neg hslash, if_neg hcontrol]

/-- An escaped byte does not start with a quote. -/
theorem exists_escapeByte (c : UInt8) : ∃ d text, escapeByte c = d :: text ∧ d ≠ 0x22 := by
  unfold escapeByte
  split_ifs with hquote
  all_goals first
    | exact ⟨_, _, rfl, by decide⟩
    | exact ⟨_, _, rfl, hquote⟩

/-- So is every string, up to the quote behind it; by induction on the string. -/
theorem parseChars_escaped (bytes rest : Text) {fuel : ℕ} (h : bytes.length < fuel) :
    parseChars fuel (bytes.flatMap escapeByte ++ 0x22 :: rest) = some (bytes, rest) := by
  induction bytes generalizing fuel with
  | nil =>
      obtain ⟨fuel, rfl⟩ := Nat.exists_eq_add_of_lt h
      simp [parseChars]
  | cons c bytes ih =>
      obtain ⟨fuel, rfl⟩ : ∃ n, fuel = n + 1 := ⟨fuel - 1, by omega⟩
      obtain ⟨d, text, hd, hquote⟩ := exists_escapeByte c
      have hchar := parseChar_escapeByte c (bytes.flatMap escapeByte ++ 0x22 :: rest)
      rw [List.flatMap_cons, List.append_assoc]
      rw [hd] at hchar ⊢
      rw [List.cons_append] at hchar ⊢
      rw [parseChars, if_neg hquote, hchar]
      simp only [Option.bind_eq_bind, Option.bind_some]
      rw [ih (Nat.lt_of_succ_lt_succ h)]
      rfl

/-- Escapes only lengthen a string, so its fuel suffices. -/
theorem length_le_escaped (bytes : Text) : bytes.length ≤ (bytes.flatMap escapeByte).length := by
  induction bytes with
  | nil => exact le_rfl
  | cons c bytes ih =>
      obtain ⟨d, text, hd, -⟩ := exists_escapeByte c
      rw [List.flatMap_cons, List.length_append, hd, List.length_cons, List.length_cons]
      omega

/-- **A quoted string is read back, whatever its bytes.** -/
theorem parseString_quote (bytes rest : Text) :
    parseString (quote bytes ++ rest) = some (bytes, rest) := by
  have hlength := length_le_escaped bytes
  rw [quote, List.cons_append, List.append_assoc, List.cons_append, List.nil_append, parseString,
    if_pos rfl]
  refine parseChars_escaped bytes rest ?_
  rw [List.length_append, List.length_cons]
  omega

/-! ## Numerals are read back -/

/-- What may follow a value: no byte that could continue a numeral. -/
def EndsNumeral (rest : Text) : Prop := ∀ c ∈ rest.head?, isNumeralByte c = false

/-- Digits occur in numbers. -/
theorem isNumeralByte_of_isDigit {c : UInt8} (h : isDigit c = true) : isNumeralByte c = true := by
  simp [isNumeralByte, h]

/-- A text of digits and more is one of bytes of numbers if the rest is. -/
theorem forall_of_digitsThen {rest : Text → Bool} {text : Text}
    (hrest : ∀ text, rest text = true → ∀ c ∈ text, isNumeralByte c = true)
    (h : digitsThen rest text = true) : ∀ c ∈ text, isNumeralByte c = true := by
  intro c hc
  rw [← List.takeWhile_append_dropWhile (p := isDigit) (l := text), List.mem_append] at hc
  rcases hc with hc | hc
  · exact isNumeralByte_of_isDigit (List.mem_takeWhile_imp hc)
  · exact hrest _ (Bool.and_eq_true _ _ ▸ h).2 c hc

/-- A sign occurs in numbers. -/
theorem forall_of_dropSign {text : Text} (h : ∀ c ∈ dropSign text, isNumeralByte c = true) :
    ∀ c ∈ text, isNumeralByte c = true := by
  cases text with
  | nil => exact h
  | cons d text =>
      by_cases hd : d = 0x2b ∨ d = 0x2d
      · rw [dropSign, if_pos hd] at h
        refine List.forall_mem_cons.mpr ⟨?_, h⟩
        rcases hd with rfl | rfl <;> decide
      · rwa [dropSign, if_neg hd] at h

/-- The bytes of an exponent occur in numbers. -/
theorem forall_of_isExponent (text : Text) (h : isExponent text = true) :
    ∀ c ∈ text, isNumeralByte c = true := by
  cases text with
  | nil => exact fun c hc => absurd hc List.not_mem_nil
  | cons d text =>
      rw [isExponent, Bool.and_eq_true] at h
      refine List.forall_mem_cons.mpr ⟨?_, forall_of_dropSign (forall_of_digitsThen ?_ h.2)⟩
      · have hd := h.1
        simp only [Bool.or_eq_true, decide_eq_true_eq] at hd
        rcases hd with rfl | rfl <;> decide
      · intro text htext c hc
        rw [List.isEmpty_iff.mp htext] at hc
        exact absurd hc List.not_mem_nil

/-- Those of a fraction as well. -/
theorem forall_of_isFraction (text : Text) (h : isFraction text = true) :
    ∀ c ∈ text, isNumeralByte c = true := by
  cases text with
  | nil => exact fun c hc => absurd hc List.not_mem_nil
  | cons d text =>
      by_cases hd : d = 0x2e
      · rw [isFraction, if_pos hd] at h
        refine List.forall_mem_cons.mpr ⟨hd ▸ by decide, ?_⟩
        exact forall_of_digitsThen forall_of_isExponent h
      · rw [isFraction, if_neg hd] at h
        exact forall_of_isExponent _ h

/-- **A numeral is made of the bytes of numerals.** -/
theorem Numeral.forall_isNumeralByte (numeral : Numeral) :
    ∀ c ∈ numeral.text, isNumeralByte c = true := by
  have h := (Bool.and_eq_true _ _ ▸ numeral.valid).2
  have hall := forall_of_digitsThen forall_of_isFraction h
  cases htext : numeral.text with
  | nil => exact fun c hc => absurd hc List.not_mem_nil
  | cons d text =>
      rw [htext] at hall
      by_cases hd : d = 0x2d
      · rw [dropMinus, if_pos hd] at hall
        exact List.forall_mem_cons.mpr ⟨hd ▸ by decide, hall⟩
      · rwa [dropMinus, if_neg hd] at hall

/-- A number has a digit. -/
theorem Numeral.text_ne_nil (numeral : Numeral) : numeral.text ≠ [] := by
  intro h
  have hvalid := numeral.valid
  rw [h] at hvalid
  exact absurd hvalid (by decide)

/-- A number is read up to the first byte that cannot belong to one. -/
theorem parseNumeral_append (numeral : Numeral) {rest : Text} (hrest : EndsNumeral rest) :
    parseNumeral (numeral.text ++ rest) = some (numeral, rest) := by
  have hall := numeral.forall_isNumeralByte
  have htake : rest.takeWhile isNumeralByte = [] := by
    cases rest with
    | nil => rfl
    | cons c rest => rw [List.takeWhile_cons, hrest c rfl]; rfl
  have hdrop : rest.dropWhile isNumeralByte = rest := by
    cases rest with
    | nil => rfl
    | cons c rest => rw [List.dropWhile_cons, hrest c rfl]; rfl
  have htext : (numeral.text ++ rest).takeWhile isNumeralByte = numeral.text := by
    rw [List.takeWhile_append_of_pos hall, htake, List.append_nil]
  have hleft : (numeral.text ++ rest).dropWhile isNumeralByte = rest := by
    rw [List.dropWhile_append_of_pos hall, hdrop]
  have hvalid : isNumeral ((numeral.text ++ rest).takeWhile isNumeralByte) = true :=
    htext.symm ▸ numeral.valid
  rw [parseNumeral, dif_pos hvalid, hleft]
  simp only [htext]

/-! ## Values are read back -/

/-- The first byte of a written value says which kind of value it is. -/
def Opens (value : Value) (c : UInt8) : Prop :=
  match value with
  | .number _ => isNumeralByte c = true
  | .string _ => c = 0x22
  | .array _ => c = 0x5b
  | .object _ => c = 0x7b

/-- A value begins with a byte that says what kind of value it is. -/
theorem exists_render (value : Value) : ∃ c text, render value = c :: text ∧ Opens value c := by
  cases value with
  | number numeral =>
      obtain ⟨c, text, htext⟩ := List.exists_cons_of_ne_nil numeral.text_ne_nil
      refine ⟨c, text, htext, numeral.forall_isNumeralByte c ?_⟩
      rw [htext]
      exact List.mem_cons_self
  | string bytes => exact ⟨_, _, rfl, rfl⟩
  | array values => exact ⟨_, _, rfl, rfl⟩
  | object members => exact ⟨_, _, rfl, rfl⟩

/-- And that byte closes no array, so an array that is not empty is taken for one. -/
theorem Opens.ne_bracket {value : Value} {c : UInt8} (h : Opens value c) : c ≠ 0x5d := by
  rintro rfl
  cases value with
  | number _ => exact absurd h (by decide : ¬isNumeralByte 0x5d = true)
  | string _ => exact absurd h (by decide : (0x5d : UInt8) ≠ 0x22)
  | array _ => exact absurd h (by decide : (0x5d : UInt8) ≠ 0x5b)
  | object _ => exact absurd h (by decide : (0x5d : UInt8) ≠ 0x7b)

section items

variable {α : Type*} {item : Text → Option (α × Text)} {close : UInt8} {text : α → Text}

/-- A comma or the closing byte ends a number. -/
theorem endsNumeral_more {close : UInt8} (hclose : isNumeralByte close = false) (texts : List Text)
    (rest : Text) : EndsNumeral (texts.flatMap (fun text => 0x2c :: text) ++ close :: rest) := by
  intro c hc
  cases texts with
  | nil => exact Option.some.inj hc ▸ hclose
  | cons text texts => exact Option.some.inj hc ▸ by decide

/-- The elements behind the first one, each with a comma in front; by induction on them. -/
theorem parseMore_separated (hclose : isNumeralByte close = false) (hcomma : close ≠ 0x2c)
    {values : List α} (rest : Text)
    (hitem : ∀ value ∈ values, ∀ rest, EndsNumeral rest →
      item (text value ++ rest) = some (value, rest)) {fuel : ℕ} (h : values.length < fuel) :
    parseMore item close fuel
      ((values.map text).flatMap (fun text => 0x2c :: text) ++ close :: rest) =
        some (values, rest) := by
  induction values generalizing fuel with
  | nil =>
      obtain ⟨fuel, rfl⟩ := Nat.exists_eq_add_of_lt h
      simp [parseMore]
  | cons value values ih =>
      obtain ⟨fuel, rfl⟩ : ∃ n, fuel = n + 1 := ⟨fuel - 1, by omega⟩
      obtain ⟨hvalue, hvalues⟩ := List.forall_mem_cons.mp hitem
      rw [List.map_cons, List.flatMap_cons, List.append_assoc, List.cons_append, parseMore,
        if_neg (Ne.symm hcomma), if_pos rfl, hvalue _ (endsNumeral_more hclose _ _)]
      simp only [Option.bind_eq_bind, Option.bind_some]
      rw [ih hvalues (Nat.lt_of_succ_lt_succ h)]
      rfl

/-- **Items that are read back one by one are read back as a list.** -/
theorem parseItems_separated (hclose : isNumeralByte close = false) (hcomma : close ≠ 0x2c)
    {values : List α} (rest : Text)
    (hitem : ∀ value ∈ values, ∀ rest, EndsNumeral rest →
      item (text value ++ rest) = some (value, rest))
    (hopen : ∀ value ∈ values, ∃ c more, text value = c :: more ∧ c ≠ close) :
    parseItems item close (separated (values.map text) ++ close :: rest) =
      some (values, rest) := by
  cases values with
  | nil => rw [List.map_nil, separated, List.nil_append, parseItems, if_pos rfl]
  | cons value values =>
      obtain ⟨hvalue, hvalues⟩ := List.forall_mem_cons.mp hitem
      obtain ⟨c, more, htext, hc⟩ := hopen value List.mem_cons_self
      have hfirst := hvalue _ (endsNumeral_more hclose (values.map text) rest)
      rw [List.map_cons, separated, List.append_assoc]
      rw [htext, List.cons_append] at hfirst ⊢
      rw [parseItems, if_neg hc, hfirst]
      simp only [Option.bind_eq_bind, Option.bind_some]
      rw [parseMore_separated hclose hcomma rest hvalues ?_]
      · rfl
      · have hlength : values.length ≤
            ((values.map text).flatMap fun text => 0x2c :: text).length := by
          rw [List.length_flatMap, List.map_map]
          refine (List.length_map _).symm.le.trans (List.length_le_sum_of_one_le _ ?_)
          intro n hn
          obtain ⟨value, -, rfl⟩ := List.mem_map.mp hn
          exact Nat.succ_le_succ (Nat.zero_le _)
        rw [List.length_append, List.length_cons]
        omega

end items

/-- The value is read back from its text, whatever follows. -/
def ReadBack (value : Value) : Prop :=
  ∀ fuel rest, (render value).length ≤ fuel → EndsNumeral rest →
    parseValue fuel (render value ++ rest) = some (value, rest)

/-- A member is read back if its value is. -/
theorem parseMember_renderMember {value : Value} (hvalue : ReadBack value) (key : Text)
    {fuel : ℕ} (hfuel : (render value).length ≤ fuel) {rest : Text} (hrest : EndsNumeral rest) :
    parseMember (parseValue fuel) (renderMember key (render value) ++ rest) =
      some ((key, value), rest) := by
  rw [parseMember, renderMember, List.append_assoc, parseString_quote]
  simp only [Option.bind_eq_bind, Option.bind_some, List.cons_append]
  rw [hvalue fuel rest hfuel hrest]
  rfl

/-- An element is no longer than the list, so its fuel suffices. -/
theorem length_le_of_mem_separated {texts : List Text} {text : Text} (h : text ∈ texts) :
    text.length ≤ (separated texts).length := by
  cases texts with
  | nil => exact absurd h List.not_mem_nil
  | cons first texts =>
      rw [separated, List.length_append]
      rcases List.mem_cons.mp h with rfl | h
      · omega
      · have hsub := (List.sublist_flatten_of_mem
          (List.mem_map_of_mem (f := fun text => 0x2c :: text) h)).length_le
        rw [← List.flatMap_def, List.length_cons] at hsub
        omega

/-- The numbers. -/
theorem readBack_number (numeral : Numeral) : ReadBack (.number numeral) := by
  intro fuel rest hfuel hrest
  obtain ⟨c, text, htext, hc⟩ := exists_render (.number numeral)
  have hnumeral := parseNumeral_append numeral hrest
  rw [show numeral.text = c :: text from htext, List.cons_append] at hnumeral
  rw [htext] at hfuel ⊢
  obtain ⟨fuel, rfl⟩ := Nat.exists_eq_add_of_le' (Nat.le_of_add_left_le hfuel)
  have hquote : c ≠ 0x22 := by
    rintro rfl
    exact absurd hc (by decide : ¬isNumeralByte 0x22 = true)
  have hbracket : c ≠ 0x5b := by
    rintro rfl
    exact absurd hc (by decide : ¬isNumeralByte 0x5b = true)
  have hbrace : c ≠ 0x7b := by
    rintro rfl
    exact absurd hc (by decide : ¬isNumeralByte 0x7b = true)
  rw [List.cons_append, parseValue, if_neg hquote, if_neg hbracket, if_neg hbrace, hnumeral]
  rfl

/-- The strings. -/
theorem readBack_string (bytes : Text) : ReadBack (.string bytes) := by
  intro fuel rest hfuel _
  obtain ⟨fuel, rfl⟩ := Nat.exists_eq_add_of_le' (Nat.le_of_add_left_le hfuel)
  have hstring := parseString_quote bytes rest
  rw [quote, List.cons_append] at hstring
  rw [render, quote, List.cons_append, parseValue, if_pos rfl, hstring]
  rfl

/-- The arrays, if their elements are read back. -/
theorem readBack_array {values : List Value} (hvalues : ∀ value ∈ values, ReadBack value) :
    ReadBack (.array values) := by
  intro fuel rest hfuel _
  rw [render_array, List.length_cons, List.length_append] at hfuel
  obtain ⟨fuel, rfl⟩ := Nat.exists_eq_add_of_le' (Nat.le_of_add_left_le hfuel)
  have hitems : parseItems (parseValue fuel) 0x5d (separated (values.map render) ++ 0x5d :: rest) =
      some (values, rest) := parseItems_separated (by decide) (by decide) rest
    (by
      intro value hvalue rest hrest
      refine hvalues value hvalue fuel rest ?_ hrest
      have hlength := length_le_of_mem_separated (List.mem_map_of_mem (f := render) hvalue)
      omega)
    (by
      intro value _
      obtain ⟨c, text, htext, hc⟩ := exists_render value
      exact ⟨c, text, htext, hc.ne_bracket⟩)
  rw [render_array, List.cons_append, List.append_assoc, List.cons_append, List.nil_append,
    parseValue, if_neg (by decide), if_pos rfl, hitems]
  rfl

/-- The objects, if the values of their members are. -/
theorem readBack_object {members : List (Text × Value)}
    (hmembers : ∀ member ∈ members, ReadBack member.2) : ReadBack (.object members) := by
  intro fuel rest hfuel _
  rw [render_object, List.length_cons, List.length_append] at hfuel
  obtain ⟨fuel, rfl⟩ := Nat.exists_eq_add_of_le' (Nat.le_of_add_left_le hfuel)
  have hitems : parseItems (parseMember (parseValue fuel)) 0x7d
      (separated (members.map fun member => renderMember member.1 (render member.2)) ++
        0x7d :: rest) = some (members, rest) := parseItems_separated (by decide) (by decide) rest
    (by
      intro member hmember rest hrest
      refine parseMember_renderMember (hmembers member hmember) member.1 ?_ hrest
      have hlength := length_le_of_mem_separated
        (List.mem_map_of_mem (f := fun member => renderMember member.1 (render member.2)) hmember)
      rw [renderMember, List.length_append, List.length_cons] at hlength
      omega)
    (fun member _ => ⟨_, _, rfl, by decide⟩)
  rw [render_object, List.cons_append, List.append_assoc, List.cons_append, List.nil_append,
    parseValue, if_neg (by decide), if_neg (by decide), if_pos rfl, hitems]
  rfl

mutual

/-- Every value, by recursion along `render`. -/
theorem readBack_render : ∀ value, ReadBack value
  | .number numeral => readBack_number numeral
  | .string bytes => readBack_string bytes
  | .array values => readBack_array (readBack_elements values)
  | .object members => readBack_object (readBack_members members)

/-- The elements of an array, for the recursion of `readBack_render`. -/
theorem readBack_elements : ∀ values : List Value, ∀ value ∈ values, ReadBack value
  | [] => fun _ h => absurd h List.not_mem_nil
  | value :: values =>
    List.forall_mem_cons.mpr ⟨readBack_render value, readBack_elements values⟩

/-- The members of an object, for the same recursion. -/
theorem readBack_members : ∀ members : List (Text × Value), ∀ member ∈ members, ReadBack member.2
  | [] => fun _ h => absurd h List.not_mem_nil
  | (_, value) :: members =>
    List.forall_mem_cons.mpr ⟨readBack_render value, readBack_members members⟩

end

/-- **A written value is read back.** -/
theorem parse_render (value : Value) : parse (render value) = some value := by
  have h := readBack_render value (render value).length [] le_rfl
    (fun c hc => absurd hc (Option.not_mem_none c))
  rw [List.append_nil] at h
  rw [parse, h]

/-! ## Printed integers -/

/-- The ten digits. -/
theorem isDigit_digit {d : ℕ} (hd : d < 10) : isDigit (UInt8.ofNat (0x30 + d)) = true := by
  interval_cases d <;> rfl

/-- No printed number but zero starts with a zero. -/
theorem eq_nil_of_decimalDigits {n : ℕ} {digits : List ℕ} (h : decimalDigits n = 0 :: digits) :
    digits = [] := by
  unfold decimalDigits at h
  split at h
  · exact (List.cons.inj h).2.symm
  · rename_i hn
    have hlast : (Nat.digits 10 n).getLast? = some 0 := by
      rw [← List.head?_reverse, h]
      rfl
    have hne : Nat.digits 10 n ≠ [] := by rwa [ne_eq, Nat.digits_eq_nil_iff_eq_zero]
    rw [List.getLast?_eq_some_getLast hne, Option.some_inj] at hlast
    exact absurd hlast (Nat.getLast_digit_ne_zero 10 hn)

/-- Decimals are written without a zero in front. -/
theorem hasLeadingZero_decimal (n : ℕ) : hasLeadingZero (decimal n) = false := by
  have hlt : ∀ d ∈ decimalDigits n, d < 10 := fun d => decimalDigits_lt
  have hzero := @eq_nil_of_decimalDigits n
  unfold decimal
  generalize decimalDigits n = digits at hlt hzero
  rcases digits with _ | ⟨d, _ | ⟨e, digits⟩⟩
  · rfl
  · rfl
  · have hd : d < 10 := hlt d List.mem_cons_self
    have hne : d ≠ 0 := by
      rintro rfl
      exact absurd (hzero rfl) (List.cons_ne_nil _ _)
    have hbyte : UInt8.ofNat (0x30 + d) ≠ 0x30 := by
      interval_cases d <;> first | exact absurd rfl hne | decide
    rw [List.map_cons, List.map_cons, hasLeadingZero, decide_eq_false hbyte, Bool.false_and]

/-- **A printed integer is a numeral.** -/
theorem isNumeral_decimal (n : ℕ) : isNumeral (decimal n) = true := by
  have hall : ∀ c ∈ decimal n, isDigit c = true := by
    intro c hc
    obtain ⟨d, hd, rfl⟩ := exists_digit_of_mem_decimal hc
    exact isDigit_digit hd
  have hminus : dropMinus (decimal n) = decimal n := by
    cases h : decimal n with
    | nil => rfl
    | cons c text =>
        have hc : c ≠ 0x2d := by
          rintro rfl
          exact absurd (hall 0x2d (h ▸ List.mem_cons_self)) (by decide)
        rw [dropMinus, if_neg hc]
  rw [isNumeral, hminus, hasLeadingZero_decimal, digitsThen,
    List.takeWhile_eq_self_iff.mpr hall, List.dropWhile_eq_nil_iff.mpr hall]
  simp [decimal_ne_nil, isFraction]

/-- An integer as a numeral. -/
def Numeral.ofNat (n : ℕ) : Numeral := ⟨decimal n, isNumeral_decimal n⟩

/-! ## Looking things up -/

/-- A step from a value to one that it contains. -/
inductive Step where
  | key (name : Text)
  | index (i : ℕ)

/-- One step into a value, the first member of its name or the element at its index. -/
def Step.get : Step → Value → Option Value
  | .key name, .object members => (members.find? fun member => member.1 = name).map Prod.snd
  | .index i, .array values => values[i]?
  | _, _ => none

namespace Value

/-- The value at the end of a path. -/
def at? : List Step → Value → Option Value
  | [], value => some value
  | step :: path, value => (step.get value).bind (at? path)

/-- The integer that a value stands for. -/
def natural : Value → Option ℕ
  | number numeral => wholeUnsigned numeral.text
  | _ => none

/-- The integers stand at the ends of their paths. -/
def Reads (value : Value) (integers : List (List Step × ℕ)) : Prop :=
  ∀ entry ∈ integers, (value.at? entry.1).bind natural = some entry.2

/-- A counter that is written as a number is read as itself. -/
theorem natural_ofNat (n : ℕ) : (number (.ofNat n)).natural = some n := wholeUnsigned_decimal n

variable {value inner : Value} {first rest : List (List Step × ℕ)}

@[simp] theorem reads_nil : value.Reads [] := fun _ h => absurd h List.not_mem_nil

/-- Expectations about a value can be met in parts. -/
theorem reads_append : value.Reads (first ++ rest) ↔ value.Reads first ∧ value.Reads rest :=
  List.forall_mem_append

/-- One expectation and the others. -/
@[simp] theorem reads_cons {path : List Step} {n : ℕ} :
    value.Reads ((path, n) :: rest) ↔
      (value.at? path).bind natural = some n ∧ value.Reads rest := List.forall_mem_cons

/-- Integers of a contained value, one step further away. -/
theorem Reads.inside {step : Step} (h : inner.Reads first) (hstep : step.get value = some inner) :
    value.Reads (first.map fun entry => (step :: entry.1, entry.2)) := by
  intro entry hentry
  obtain ⟨entry, hmem, rfl⟩ := List.mem_map.mp hentry
  have hget : value.at? (step :: entry.1) = inner.at? entry.1 := by
    rw [at?, hstep, Option.bind_some]
  rw [hget]
  exact h entry hmem

end Value

end JsonText
