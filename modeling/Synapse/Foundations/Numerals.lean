import Mathlib

/-!
# Numbers in text

What `std::stoul` and `std::stof` read from a text, in the C locale, and the
binary32 numbers.

A conversion skips white space, reads the longest numeral that stands there and
does not look at the rest; it fails if no numeral stands there or if the number is
out of range.  Both are given by a scanner that also returns what is left, so that
one can say that a text *is* a numeral (`wholeUnsigned`, `isWholeFloating`).

The standard leaves two things to the platform: the width of `unsigned long`, and
which numbers below the normal range are reported as out of range.
-/

namespace Numerals

/-- A byte string. -/
abbrev Text := List UInt8

/-- The bytes of an ASCII literal. -/
def ascii (s : String) : Text := s.toList.map Char.toUInt8

/-! ## Binary32 -/

structure Binary32 where
  bits : UInt32
  deriving DecidableEq, Repr

namespace Binary32

/-- All but the sign bit.  The magnitudes are ordered like the numbers they are the
magnitudes of. -/
def magnitude (x : Binary32) : ℕ := x.bits.toNat % 2 ^ 31

def isNaN (x : Binary32) : Bool := 0x7f800000 < x.magnitude

/-- The magnitude with its sign. -/
def key (x : Binary32) : ℤ := if x.bits.toNat < 2 ^ 31 then x.magnitude else -x.magnitude

/-- `x < y`, false if one of them is a NaN. -/
def lt (x y : Binary32) : Bool := !x.isNaN && !y.isNaN && decide (x.key < y.key)

/-- `x <= y`, false if one of them is a NaN. -/
def le (x y : Binary32) : Bool := !x.isNaN && !y.isNaN && decide (x.key ≤ y.key)

def signed (negative : Bool) (magnitude : ℕ) : Binary32 :=
  ⟨UInt32.ofNat (if negative then 2 ^ 31 + magnitude else magnitude)⟩

/-- The magnitude of infinity. -/
def infinityMagnitude : ℕ := 0x7f800000

/-- Division to nearest, ties to even. -/
def divNearest (n d : ℕ) : ℕ :=
  if 2 * (n % d) > d ∨ 2 * (n % d) = d ∧ n / d % 2 = 1 then n / d + 1 else n / d

/-- The magnitude nearest to `num / den`, with ties to even.  The exponent is not
bounded here: numbers that are too large get a magnitude from infinity on.

In units of the smallest positive number, `q` is the quotient rounded down and
`shift` the number of its binary digits beyond 24. -/
def roundMagnitude (num den : ℕ) : ℕ :=
  let scaled := num * 2 ^ 149
  let shift := (scaled / den).log2 - 23
  shift * 2 ^ 23 + divNearest scaled (den * 2 ^ shift)

/-- The literal `num / den`. -/
def ofRatio (num den : ℕ) : Binary32 := signed false (roundMagnitude num den)

def zero : Binary32 := ⟨0⟩

def one : Binary32 := ofRatio 1 1

example : (ofRatio 1 100).bits = 0x3c23d70a := by decide

theorem not_le_of_lt {x y : Binary32} (h : x.lt y = true) : y.le x = false := by
  simp only [lt, Bool.and_eq_true, decide_eq_true_iff] at h
  simp [le, h.2]

theorem not_lt_of_le {x y : Binary32} (h : x.le y = true) : y.lt x = false := by
  simp only [le, Bool.and_eq_true, decide_eq_true_iff] at h
  simp [lt, h.2]

end Binary32

/-! ## Scanning -/

def isSpace (c : UInt8) : Bool := c = 0x20 || (0x09 ≤ c && c ≤ 0x0d)

/-- The value of a digit of the given base, at most 16. -/
def digitValue (base : ℕ) (c : UInt8) : Option ℕ :=
  let value :=
    if 0x30 ≤ c ∧ c ≤ 0x39 then c.toNat - 0x30
    else if 0x61 ≤ c ∧ c ≤ 0x66 then c.toNat - 0x61 + 10
    else if 0x41 ≤ c ∧ c ≤ 0x46 then c.toNat - 0x41 + 10
    else base
  if value < base then some value else none

/-- The digits a text starts with, and the rest. -/
def takeDigits (base : ℕ) : Text → List ℕ × Text
  | [] => ([], [])
  | c :: text =>
      match digitValue base c with
      | some value => (value :: (takeDigits base text).1, (takeDigits base text).2)
      | none => ([], c :: text)

/-- The number of digits written from the highest on. -/
def ofDigits (base : ℕ) (digits : List ℕ) : ℕ := Nat.ofDigits base digits.reverse

/-- A sign, if there is one: whether it is a minus, and the rest. -/
def takeSign : Text → Bool × Text
  | [] => (false, [])
  | c :: text =>
      if c = 0x2d then (true, text) else if c = 0x2b then (false, text) else (false, c :: text)

/-- The text without a word in front, whatever the case of its letters. -/
def dropWord (word : String) (text : Text) : Option Text :=
  let lower (c : UInt8) := if 0x41 ≤ c ∧ c ≤ 0x5a then c + 0x20 else c
  if (text.take word.length).map lower = ascii word then some (text.drop word.length) else none

/-! ## Platforms -/

inductive ConversionError where
  | invalidArgument
  | outOfRange
  deriving DecidableEq, Repr

/-- What the standard leaves open. -/
structure Platform where
  ulongBits : ℕ
  /-- `unsigned long` has at least 32 bits. -/
  le_ulongBits : 32 ≤ ulongBits
  /-- Whether a positive number below the normal range is reported. -/
  reportsUnderflow : ℚ → Bool

/-- 64 bits, and no small number reported. -/
def Platform.quiet64 : Platform where
  ulongBits := 64
  le_ulongBits := by decide
  reportsUnderflow _ := false

/-! ## Unsigned numbers -/

/-- An integer numeral: its sign, its digits' number, and the rest of the text. -/
structure Integer where
  negative : Bool
  number : ℕ
  rest : Text
  deriving DecidableEq, Repr

def scanInteger (text : Text) : Option Integer :=
  let (negative, body) := takeSign (text.dropWhile isSpace)
  match takeDigits 10 body with
  | ([], _) => none
  | (digits, rest) => some ⟨negative, ofDigits 10 digits, rest⟩

/-- `std::stoul(text)`.  A minus is accepted and negates in `unsigned long`. -/
def stoul (platform : Platform) (text : Text) : Except ConversionError ℕ :=
  match scanInteger text with
  | none => .error .invalidArgument
  | some n =>
      if n.number < 2 ^ platform.ulongBits then
        .ok (if n.negative then (2 ^ platform.ulongBits - n.number) % 2 ^ platform.ulongBits
          else n.number)
      else .error .outOfRange

/-- The text is one unsigned number and nothing else. -/
def wholeUnsigned (text : Text) : Option ℕ :=
  match scanInteger text with
  | some ⟨false, number, []⟩ => some number
  | _ => none

theorem stoul_of_wholeUnsigned (platform : Platform) {text : Text} {n : ℕ}
    (h : wholeUnsigned text = some n) (hn : n < 2 ^ platform.ulongBits) :
    stoul platform text = .ok n := by
  unfold wholeUnsigned at h
  split at h
  · rename_i number hscan
    obtain rfl := Option.some_injective _ h
    rw [stoul, hscan]
    exact if_pos hn
  · cases h

/-! ### Printing -/

/-- The digits of a number, from the highest on. -/
def decimalDigits (n : ℕ) : List ℕ := if n = 0 then [0] else (Nat.digits 10 n).reverse

/-- A number as `operator<<` prints it. -/
def decimal (n : ℕ) : Text := (decimalDigits n).map fun d => UInt8.ofNat (0x30 + d)

theorem ofDigits_decimalDigits (n : ℕ) : ofDigits 10 (decimalDigits n) = n := by
  unfold decimalDigits
  split
  · rename_i hn
    rw [hn]
    rfl
  · rw [ofDigits, List.reverse_reverse, Nat.ofDigits_digits]

theorem decimalDigits_lt {n d : ℕ} (h : d ∈ decimalDigits n) : d < 10 := by
  unfold decimalDigits at h
  split at h
  · rw [List.mem_singleton.mp h]
    decide
  · exact Nat.digits_lt_base (by decide) (List.mem_reverse.mp h)

theorem decimalDigits_ne_nil (n : ℕ) : decimalDigits n ≠ [] := by
  unfold decimalDigits
  split
  · exact List.cons_ne_nil _ _
  · rename_i hn
    rwa [ne_eq, List.reverse_eq_nil_iff, Nat.digits_eq_nil_iff_eq_zero]

theorem digitValue_digit {d : ℕ} (hd : d < 10) :
    digitValue 10 (UInt8.ofNat (0x30 + d)) = some d := by
  interval_cases d <;> rfl

theorem takeDigits_digits {digits : List ℕ} (h : ∀ d ∈ digits, d < 10) :
    takeDigits 10 (digits.map fun d => UInt8.ofNat (0x30 + d)) = (digits, []) := by
  induction digits with
  | nil => rfl
  | cons d digits ih =>
      obtain ⟨hd, hdigits⟩ := List.forall_mem_cons.mp h
      rw [List.map_cons, takeDigits, digitValue_digit hd, ih hdigits]

/-- Neither white space nor a sign. -/
theorem digit_plain {d : ℕ} (hd : d < 10) (text : Text) :
    (UInt8.ofNat (0x30 + d) :: text).dropWhile isSpace = UInt8.ofNat (0x30 + d) :: text ∧
      takeSign (UInt8.ofNat (0x30 + d) :: text) = (false, UInt8.ofNat (0x30 + d) :: text) := by
  interval_cases d <;> exact ⟨rfl, rfl⟩

/-- **A printed number is read back.** -/
theorem scanInteger_decimal (n : ℕ) : scanInteger (decimal n) = some ⟨false, n, []⟩ := by
  have hdigits := takeDigits_digits fun d hd => decimalDigits_lt (n := n) hd
  have hlt : ∀ d ∈ decimalDigits n, d < 10 := fun d => decimalDigits_lt
  have hvalue := ofDigits_decimalDigits n
  unfold decimal scanInteger
  cases hn : decimalDigits n with
  | nil => exact absurd hn (decimalDigits_ne_nil n)
  | cons d digits =>
      rw [hn] at hdigits hlt hvalue
      obtain ⟨hspace, hsign⟩ := digit_plain (hlt d List.mem_cons_self)
        (digits.map fun d => UInt8.ofNat (0x30 + d))
      rw [List.map_cons] at hdigits ⊢
      rw [hspace, hsign]
      simp only [hdigits, hvalue]

theorem decimal_ne_nil (n : ℕ) : decimal n ≠ [] :=
  fun h => decimalDigits_ne_nil n (List.map_eq_nil_iff.mp h)

/-- The bytes of a printed number are those of digits. -/
theorem exists_digit_of_mem_decimal {n : ℕ} {c : UInt8} (h : c ∈ decimal n) :
    ∃ d < 10, c = UInt8.ofNat (0x30 + d) := by
  obtain ⟨d, hd, rfl⟩ := List.mem_map.mp h
  exact ⟨d, decimalDigits_lt hd, rfl⟩

theorem wholeUnsigned_decimal (n : ℕ) : wholeUnsigned (decimal n) = some n := by
  rw [wholeUnsigned, scanInteger_decimal]

/-! ## Real numbers -/

/-- The number a numeral stands for, without its sign. -/
inductive Magnitude where
  | finite (num den : ℕ)
  | infinity
  | nan
  deriving DecidableEq, Repr

/-- The digits of a mantissa with a point among, before or after them: the number
of the digits, how many stand after the point, and the rest. -/
def scanMantissa (base : ℕ) (text : Text) : Option (ℕ × ℕ × Text) :=
  let (whole, rest) := takeDigits base text
  let (fraction, rest') := match rest with
    | [] => ([], [])
    | c :: tail => if c = 0x2e then takeDigits base tail else ([], c :: tail)
  if whole = [] ∧ fraction = [] then none
  else some (ofDigits base (whole ++ fraction), fraction.length, rest')

/-- An exponent after its mark, and the rest; 0 if there is none. -/
def takeExponent (mark : String) (text : Text) : ℤ × Text :=
  match dropWord mark text with
  | none => (0, text)
  | some tail =>
      match takeDigits 10 (takeSign tail).2 with
      | ([], _) => (0, text)
      | (digits, rest) =>
          (if (takeSign tail).1 then -ofDigits 10 digits else ofDigits 10 digits, rest)

/-- `mantissa * radix ^ exponent`. -/
def scaled (mantissa radix : ℕ) (exponent : ℤ) : Magnitude :=
  .finite (mantissa * radix ^ exponent.toNat) (radix ^ (-exponent).toNat)

/-- A hexadecimal or a decimal numeral.  A bare `0x` is the numeral 0. -/
def scanFinite (text : Text) : Option (Magnitude × Text) :=
  match (dropWord "0x" text).bind (scanMantissa 16) with
  | some (mantissa, places, rest) =>
      let (exponent, rest') := takeExponent "p" rest
      some (scaled mantissa 2 (exponent - 4 * places), rest')
  | none =>
      (scanMantissa 10 text).map fun (mantissa, places, rest) =>
        let (exponent, rest') := takeExponent "e" rest
        (scaled mantissa 10 (exponent - places), rest')

/-- The text after the parenthesis that may follow `nan`. -/
def dropPayload (text : Text) : Text :=
  let inPayload (c : UInt8) : Bool :=
    (0x30 ≤ c && c ≤ 0x39) || (0x41 ≤ c && c ≤ 0x5a) || (0x61 ≤ c && c ≤ 0x7a) || c = 0x5f
  match text with
  | [] => []
  | c :: tail =>
      match tail.dropWhile inPayload with
      | [] => c :: tail
      | d :: rest => if c = 0x28 ∧ d = 0x29 then rest else c :: tail

def scanMagnitude (text : Text) : Option (Magnitude × Text) :=
  match dropWord "inf" text with
  | some rest => some (.infinity, (dropWord "inity" rest).getD rest)
  | none =>
      match dropWord "nan" text with
      | some rest => some (.nan, dropPayload rest)
      | none => scanFinite text

/-- A numeral: its sign, its magnitude, and the rest of the text. -/
structure Floating where
  negative : Bool
  magnitude : Magnitude
  rest : Text
  deriving DecidableEq, Repr

def scanFloating (text : Text) : Option Floating :=
  let (negative, body) := takeSign (text.dropWhile isSpace)
  (scanMagnitude body).map fun (magnitude, rest) => ⟨negative, magnitude, rest⟩

/-- `std::stof(text)`. -/
def stof (platform : Platform) (text : Text) : Except ConversionError Binary32 :=
  match scanFloating text with
  | none => .error .invalidArgument
  | some ⟨negative, .infinity, _⟩ => .ok (.signed negative Binary32.infinityMagnitude)
  | some ⟨negative, .nan, _⟩ => .ok (.signed negative 0x7fc00000)
  | some ⟨negative, .finite num den, _⟩ =>
      if Binary32.roundMagnitude num den ≥ Binary32.infinityMagnitude then .error .outOfRange
      else if 0 < num ∧ num * 2 ^ 126 < den ∧ platform.reportsUnderflow (num / den) then
        .error .outOfRange
      else .ok (.signed negative (Binary32.roundMagnitude num den))

/-- The text is one numeral and nothing else. -/
def isWholeFloating (text : Text) : Bool :=
  match scanFloating text with
  | some ⟨_, _, []⟩ => true
  | _ => false

end Numerals
