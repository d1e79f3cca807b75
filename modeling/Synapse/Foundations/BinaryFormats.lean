import Synapse.Foundations.Numerals

/-!
# Quotients in binary formats

Numbers of a binary interchange format by their bits, integers converted to one, and
quotients of converted integers.  All but the sign bit of a number is its magnitude, and the
magnitudes are ordered like the numbers they are the magnitudes of; those from
`infinity` on are no numbers.

A quotient of integers below a power of two is finite (`quotient_lt_infinity`), and so is
what is widened from a smaller format (`round_lt_infinity`).

### Magnitudes

Dropping the sign, the numbers of a format are natural numbers in the order of their bits, so
finiteness is a comparison and conversions are arithmetic on naturals.  A quotient is rounded
once, to the nearest representable number; ties are rounded as the hardware does.  The two
formats of the code are instances of one record, and widening goes through the value.
-/

namespace Numerals

/-- The stored digits of a mantissa, the smallest positive number `2 ^ -unit`, and the
magnitude of infinity. -/
structure BinaryFormat where
  fraction : ℕ
  unit : ℕ
  infinity : ℕ
  fraction_le_unit : fraction ≤ unit

/-- Single precision. -/
def binary32 : BinaryFormat where
  fraction := 23
  unit := 149
  infinity := 0x7f800000
  fraction_le_unit := by decide

/-- Double precision. -/
def binary64 : BinaryFormat where
  fraction := 52
  unit := 1074
  infinity := 0x7ff0000000000000
  fraction_le_unit := by decide

namespace BinaryFormat

open Binary32 (divNearest)

variable (format : BinaryFormat)

/-- The magnitude nearest to `num / den`, with ties to even; from infinity on if the number
is too large. -/
def round (num den : ℕ) : ℕ :=
  let scaled := num * 2 ^ format.unit
  let shift := (scaled / den).log2 - format.fraction
  shift * 2 ^ format.fraction + divNearest scaled (den * 2 ^ shift)

/-- The integer that `n` is converted to. -/
def integer (n : ℕ) : ℕ :=
  let shift := n.log2 - format.fraction
  divNearest n (2 ^ shift) * 2 ^ shift

/-- The magnitude of the quotient of two integers that are converted first. -/
def quotient (n d : ℕ) : ℕ := format.round (format.integer n) (format.integer d)

/-- A number in units of the smallest positive one. -/
def units (magnitude : ℕ) : ℕ :=
  if magnitude < 2 ^ format.fraction then magnitude
  else (2 ^ format.fraction + magnitude % 2 ^ format.fraction) *
    2 ^ (magnitude / 2 ^ format.fraction - 1)

example : binary32.round 1 100 = Binary32.roundMagnitude 1 100 := by decide

/-! ## Bounds -/

/-- The nearest integer is at most one above the quotient's floor. -/
theorem divNearest_le (n d : ℕ) : divNearest n d ≤ n / d + 1 := by
  unfold divNearest
  split <;> omega

/-- And not below it. -/
theorem le_divNearest (n d : ℕ) : n / d ≤ divNearest n d := by
  unfold divNearest
  split <;> omega

/-- The digits that are kept of a quotient. -/
theorem div_shift_lt (n f : ℕ) : n / 2 ^ (n.log2 - f) < 2 ^ (f + 1) := by
  refine (Nat.div_lt_iff_lt_mul (Nat.two_pow_pos _)).mpr ?_
  rw [← pow_add]
  exact Nat.lt_log2_self.trans_le (Nat.pow_le_pow_right Nat.two_pos (by omega))

/-- There is room for all numbers below `2 ^ k`. -/
def Holds (k : ℕ) : Prop :=
  (format.unit - format.fraction + k + 3) * 2 ^ format.fraction ≤ format.infinity

instance (k : ℕ) : Decidable (format.Holds k) := Nat.decLe _ _

variable {format}

/-- **Numbers that are not too large are finite.** -/
theorem round_lt_infinity {num den k : ℕ} (hden : 0 < den) (h : num < den * 2 ^ k)
    (hk : format.Holds k) : format.round num den < format.infinity := by
  have hquotient : num * 2 ^ format.unit / den < 2 ^ (format.unit + k) := by
    refine (Nat.div_lt_iff_lt_mul hden).mpr ?_
    calc num * 2 ^ format.unit < den * 2 ^ k * 2 ^ format.unit :=
          Nat.mul_lt_mul_of_pos_right h (Nat.two_pow_pos _)
      _ = 2 ^ (format.unit + k) * den := by ring
  unfold round
  generalize hscaled : num * 2 ^ format.unit = scaled at hquotient ⊢
  have hshift : (scaled / den).log2 - format.fraction + 2 <
      format.unit - format.fraction + k + 3 := by
    have hunit := format.fraction_le_unit
    rcases Nat.eq_zero_or_pos (scaled / den) with hzero | hpos
    · rw [hzero, Nat.log2_zero]
      omega
    · have hlog := (Nat.log2_lt hpos.ne').mpr hquotient
      omega
  have hdigits : divNearest scaled (den * 2 ^ ((scaled / den).log2 - format.fraction)) ≤
      2 ^ (format.fraction + 1) := by
    refine (divNearest_le _ _).trans ?_
    rw [← Nat.div_div_eq_div_mul]
    exact div_shift_lt _ _
  calc ((scaled / den).log2 - format.fraction) * 2 ^ format.fraction +
        divNearest scaled (den * 2 ^ ((scaled / den).log2 - format.fraction))
      ≤ ((scaled / den).log2 - format.fraction + 2) * 2 ^ format.fraction := by
        rw [add_mul, ← pow_succ']
        exact Nat.add_le_add_left hdigits _
    _ < (format.unit - format.fraction + k + 3) * 2 ^ format.fraction :=
        Nat.mul_lt_mul_of_pos_right hshift (Nat.two_pow_pos _)
    _ ≤ format.infinity := hk

/-- The power of two under a number. -/
theorem two_pow_shift_le {n : ℕ} (hn : 0 < n) (f : ℕ) : 2 ^ (n.log2 - f) ≤ n :=
  (Nat.pow_le_pow_right Nat.two_pos (Nat.sub_le _ _)).trans (Nat.log2_self_le hn.ne')

/-- Conversion at most doubles. -/
theorem integer_le (n : ℕ) : format.integer n ≤ 2 * n := by
  rcases Nat.eq_zero_or_pos n with rfl | hn
  · rw [integer, divNearest, Nat.zero_mod, Nat.zero_div]
    simp
  · calc divNearest n (2 ^ (n.log2 - format.fraction)) * 2 ^ (n.log2 - format.fraction)
        ≤ (n / 2 ^ (n.log2 - format.fraction) + 1) * 2 ^ (n.log2 - format.fraction) :=
          Nat.mul_le_mul_right _ (divNearest_le _ _)
      _ ≤ 2 * n := by
          rw [add_mul, one_mul, two_mul]
          exact Nat.add_le_add (Nat.div_mul_le_self _ _) (two_pow_shift_le hn _)

/-- Positive integers stay positive. -/
theorem integer_pos {n : ℕ} (hn : 0 < n) : 0 < format.integer n := by
  refine Nat.mul_pos (Nat.lt_of_lt_of_le ?_ (le_divNearest _ _)) (Nat.two_pow_pos _)
  exact Nat.div_pos (two_pow_shift_le hn _) (Nat.two_pow_pos _)

/-- **Quotients of integers are finite.** -/
theorem quotient_lt_infinity {n d k : ℕ} (hd : 0 < d) (hn : n < 2 ^ k)
    (hk : format.Holds (k + 1)) : format.quotient n d < format.infinity := by
  refine round_lt_infinity (integer_pos hd) ?_ hk
  calc format.integer n ≤ 2 * n := integer_le n
    _ < 2 ^ (k + 1) := by
        rw [pow_succ']
        exact Nat.mul_lt_mul_of_pos_left hn Nat.two_pos
    _ ≤ format.integer d * 2 ^ (k + 1) := Nat.le_mul_of_pos_left _ (integer_pos hd)

/-- A magnitude of a known exponent bounds the number. -/
theorem units_lt {magnitude e : ℕ} (h : magnitude < (e + 2) * 2 ^ format.fraction) :
    format.units magnitude < 2 ^ (format.fraction + 1 + e) := by
  unfold units
  split
  · rename_i hsmall
    exact hsmall.trans_le (Nat.pow_le_pow_right Nat.two_pos (by omega))
  · have hexponent : magnitude / 2 ^ format.fraction < e + 2 :=
      (Nat.div_lt_iff_lt_mul (Nat.two_pow_pos _)).mpr h
    rw [pow_add]
    refine Nat.mul_lt_mul_of_lt_of_le ?_ (Nat.pow_le_pow_right Nat.two_pos (by omega))
      (Nat.two_pow_pos _)
    rw [pow_succ', two_mul]
    exact Nat.add_lt_add_left (Nat.mod_lt _ (Nat.two_pow_pos _)) _

end BinaryFormat

/-! ## Binary64 -/

/-- A double by its bits. -/
structure Binary64 where
  bits : UInt64
  deriving DecidableEq, Repr

namespace Binary64

/-- The bits without the sign. -/
def magnitude (x : Binary64) : ℕ := x.bits.toNat % 2 ^ 63

/-- Below infinity. -/
def isFinite (x : Binary64) : Bool := x.magnitude < binary64.infinity

/-- Above infinity. -/
def isNaN (x : Binary64) : Bool := binary64.infinity < x.magnitude

/-- Numbers are ordered by their magnitudes, and negative ones the other way. -/
def key (x : Binary64) : ℤ := if x.bits.toNat < 2 ^ 63 then x.magnitude else -x.magnitude

/-- `x < y`, which is false of a NaN. -/
def lt (x y : Binary64) : Bool := !x.isNaN && !y.isNaN && decide (x.key < y.key)

/-- A number from its sign and its magnitude. -/
def signed (negative : Bool) (magnitude : ℕ) : Binary64 :=
  ⟨UInt64.ofNat (if negative then 2 ^ 63 + magnitude else magnitude)⟩

/-- Zero. -/
def zero : Binary64 := ⟨0⟩

/-- One. -/
def one : Binary64 := signed false 0x3ff0000000000000

/-- `static_cast<double>(n) / d` of two integers. -/
def quotient (n d : ℕ) : Binary64 := signed false (binary64.quotient n d)

/-- The sign does not matter. -/
theorem isFinite_signed {negative : Bool} {magnitude : ℕ} (h : magnitude < binary64.infinity) :
    (signed negative magnitude).isFinite = true := by
  have hmagnitude : (signed negative magnitude).magnitude = magnitude := by
    have hlt : magnitude < 0x7ff0000000000000 := h
    unfold signed Binary64.magnitude
    rw [UInt64.toNat_ofNat']
    split <;> omega
  exact decide_eq_true (hmagnitude.symm ▸ h)

/-- Quotients of words are finite. -/
theorem isFinite_quotient {n d : ℕ} (hd : 0 < d) (hn : n < 2 ^ 64) :
    (quotient n d).isFinite = true :=
  isFinite_signed (BinaryFormat.quotient_lt_infinity hd hn (by decide))

end Binary64

namespace Binary32

/-- The same of floats. -/
def isFinite (x : Binary32) : Bool := x.magnitude < infinityMagnitude

/-- `static_cast<float>(n) / static_cast<float>(d)` of two integers. -/
def quotient (n d : ℕ) : Binary32 := signed false (binary32.quotient n d)

/-- The same number as a double; a NaN keeps its payload. -/
def toDouble (x : Binary32) : Binary64 :=
  let negative : Bool := 2 ^ 31 ≤ x.bits.toNat
  if x.magnitude < infinityMagnitude then
    .signed negative (binary64.round (binary32.units x.magnitude) (2 ^ binary32.unit))
  else .signed negative (binary64.infinity + (x.magnitude - infinityMagnitude) * 2 ^ 29)

/-- The sign does not matter for floats either. -/
theorem isFinite_signed {negative : Bool} {magnitude : ℕ} (h : magnitude < infinityMagnitude) :
    (signed negative magnitude).isFinite = true := by
  have hmagnitude : (signed negative magnitude).magnitude = magnitude := by
    have hlt : magnitude < 0x7f800000 := h
    unfold signed Binary32.magnitude
    rw [UInt32.toNat_ofNat']
    split <;> omega
  exact decide_eq_true (hmagnitude.symm ▸ h)

/-- Quotients of words are finite as floats. -/
theorem isFinite_quotient {n d : ℕ} (hd : 0 < d) (hn : n < 2 ^ 64) :
    (quotient n d).isFinite = true :=
  isFinite_signed (BinaryFormat.quotient_lt_infinity hd hn (by decide))

/-- A finite float is a finite double. -/
theorem isFinite_toDouble {x : Binary32} (h : x.isFinite = true) : x.toDouble.isFinite = true := by
  have hlt : x.magnitude < infinityMagnitude := of_decide_eq_true h
  have hmagnitude : x.magnitude < (253 + 2) * 2 ^ binary32.fraction := hlt
  have hunits := BinaryFormat.units_lt hmagnitude
  have hexponent : binary32.fraction + 1 + 253 = binary32.unit + 128 := rfl
  rw [toDouble, if_pos hlt]
  refine Binary64.isFinite_signed (BinaryFormat.round_lt_infinity (Nat.two_pow_pos _) ?_
    (by decide : binary64.Holds 128))
  rw [← pow_add, ← hexponent]
  exact hunits

end Binary32

end Numerals
