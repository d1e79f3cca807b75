import Synapse.Foundations.BinaryFormats

/-!
# Nearest numbers

In units of the smallest positive number of a format, what a quotient is rounded to is an
integer, `nearest`.  Rounding keeps the order of numbers (`nearest_mono`), it keeps integers
with few digits (`nearest_mul`), and a number moves by half a unit of its last digit at most.

So where the last digit is worth a half at most, numbers that are one apart do not round to
numbers with the same integer part (`lt_nearest_div`).

### Everything in units

A float is a natural number of units, so that no rational and no real enters: a quotient
`n / d` is rounded to `nearest n d`, which is `divNearest` at the exponent that the size of
the quotient gives (`shift`).  Bounds are stated doubled, `2 * … ≤ 2 * … + …`, for half a unit
is what rounding may be off by, and stated for the numerators, for the divisor is always
known.

The step from one exponent to the next is the only delicate place: there the numbers of both
exponents meet, at the power of two (`divNearest_shift_le`, `two_pow_le_divNearest_shift`),
and this is what makes the rounding monotone across it.
-/

namespace Numerals

namespace BinaryFormat

open Binary32 (divNearest)

/-! ## Division to nearest -/

section divNearest

variable {n n' d : ℕ}

/-- The nearest integer lies at most one half above the quotient. -/
theorem two_mul_divNearest_le (n d : ℕ) : 2 * divNearest n d * d ≤ 2 * n + d := by
  have hdiv : n / d * d + n % d = n := Nat.div_add_mod' n d
  unfold divNearest
  split
  · have hexpand : 2 * (n / d + 1) * d = 2 * (n / d * d) + 2 * d := by ring
    omega
  · have hexpand : 2 * (n / d) * d = 2 * (n / d * d) := by ring
    omega

/-- And at most one half below it. -/
theorem two_mul_le_divNearest (n : ℕ) (hd : 0 < d) : 2 * n ≤ 2 * divNearest n d * d + d := by
  have hdiv : n / d * d + n % d = n := Nat.div_add_mod' n d
  have hmod := Nat.mod_lt n hd
  unfold divNearest
  split
  · have hexpand : 2 * (n / d + 1) * d = 2 * (n / d * d) + 2 * d := by ring
    omega
  · have hexpand : 2 * (n / d) * d = 2 * (n / d * d) := by ring
    omega

/-- Ties go to the even number. -/
theorem le_divNearest_of_even {k : ℕ} (hd : 0 < d) (hk : 2 ∣ k) (h : 2 * k * d ≤ 2 * n + d) :
    k ≤ divNearest n d := by
  have hdiv : n / d * d + n % d = n := Nat.div_add_mod' n d
  have hmod := Nat.mod_lt n hd
  rcases Nat.lt_or_ge (n / d) k with hlt | hge
  · obtain ⟨j, rfl⟩ := Nat.exists_eq_add_of_lt hlt
    have hexpand : 2 * (n / d + j + 1) * d = 2 * (n / d * d) + 2 * (j * d) + 2 * d := by ring
    have hj : j = 0 := by
      by_contra hpos
      have hmul : d ≤ j * d := Nat.le_mul_of_pos_left d (Nat.pos_of_ne_zero hpos)
      omega
    subst hj
    unfold divNearest
    rw [if_pos (by omega)]
  · exact hge.trans (le_divNearest n d)

/-- Rounding to an integer keeps the order. -/
theorem divNearest_mono (d : ℕ) (h : n ≤ n') : divNearest n d ≤ divNearest n' d := by
  rcases (Nat.div_le_div_right h : n / d ≤ n' / d).lt_or_eq with hlt | heq
  · exact (divNearest_le n d).trans (Nat.le_trans hlt (le_divNearest n' d))
  · have hdiv : n / d * d + n % d = n := Nat.div_add_mod' n d
    have hdiv' : n' / d * d + n' % d = n' := Nat.div_add_mod' n' d
    rw [← heq] at hdiv'
    unfold divNearest
    rw [← heq]
    split <;> split <;> omega

/-- An integer is its own nearest one. -/
theorem divNearest_mul (k : ℕ) (hd : 0 < d) : divNearest (k * d) d = k := by
  unfold divNearest
  rw [Nat.mul_mod_left, Nat.mul_div_cancel k hd, if_neg (by omega)]

end divNearest

/-! ## Rounding -/

variable (format : BinaryFormat)

/-- The exponent of the last digit that is kept of `n / d`. -/
def shift (n d : ℕ) : ℕ := (n / d).log2 - format.fraction

/-- The number nearest to `n / d`, where the smallest positive number is 1. -/
def nearest (n d : ℕ) : ℕ :=
  divNearest n (d * 2 ^ format.shift n d) * 2 ^ format.shift n d

variable {format} {n n' d : ℕ}

/-- An integer of the format is a quotient with the divisor 1. -/
theorem integer_eq_nearest (n : ℕ) : format.integer n = format.nearest n 1 := by
  rw [nearest, shift, Nat.div_one, Nat.one_mul]
  rfl

/-- The digits in front of the last one that is kept. -/
theorem two_pow_le_div_shift (h : 0 < format.shift n d) :
    2 ^ format.fraction ≤ n / d / 2 ^ format.shift n d := by
  have hne : n / d ≠ 0 := by
    intro hzero
    rw [shift, hzero, Nat.log2_zero] at h
    omega
  refine (Nat.le_div_iff_mul_le (Nat.two_pow_pos _)).mpr ?_
  rw [← pow_add]
  refine (Nat.pow_le_pow_right Nat.two_pos ?_).trans (Nat.log2_self_le hne)
  unfold shift at h ⊢
  omega

/-- At its exponent a quotient has no more digits than the format, except for the next power
of two. -/
theorem divNearest_shift_le (format : BinaryFormat) (n d : ℕ) :
    divNearest n (d * 2 ^ format.shift n d) ≤ 2 ^ (format.fraction + 1) := by
  refine (divNearest_le _ _).trans ?_
  rw [← Nat.div_div_eq_div_mul]
  exact div_shift_lt _ _

/-- And no fewer, unless the exponent is the smallest one. -/
theorem two_pow_le_divNearest_shift (h : 0 < format.shift n d) :
    2 ^ format.fraction ≤ divNearest n (d * 2 ^ format.shift n d) := by
  refine (two_pow_le_div_shift h).trans ?_
  rw [Nat.div_div_eq_div_mul]
  exact le_divNearest _ _

/-- The numbers of one exponent, from the power of two on. -/
theorem units_add {s r : ℕ} (hr : r < 2 ^ format.fraction) :
    format.units ((s + 1) * 2 ^ format.fraction + r) = (2 ^ format.fraction + r) * 2 ^ s := by
  have hpos : 0 < 2 ^ format.fraction := Nat.two_pow_pos _
  have hdiv : ((s + 1) * 2 ^ format.fraction + r) / 2 ^ format.fraction = s + 1 := by
    rw [Nat.add_comm, Nat.add_mul_div_right _ _ hpos, Nat.div_eq_of_lt hr, Nat.zero_add]
  have hmod : ((s + 1) * 2 ^ format.fraction + r) % 2 ^ format.fraction = r := by
    rw [Nat.add_comm, Nat.add_mul_mod_self_right, Nat.mod_eq_of_lt hr]
  have hge : ¬ (s + 1) * 2 ^ format.fraction + r < 2 ^ format.fraction := by
    rw [add_mul, one_mul]
    omega
  rw [units, if_neg hge, hdiv, hmod, Nat.add_sub_cancel]

/-- What the result of `round` is worth. -/
theorem units_round (num den : ℕ) :
    format.units (format.round num den) = format.nearest (num * 2 ^ format.unit) den := by
  generalize hscaled : num * 2 ^ format.unit = scaled
  have hround : format.round num den = format.shift scaled den * 2 ^ format.fraction +
      divNearest scaled (den * 2 ^ format.shift scaled den) := by
    rw [← hscaled]
    rfl
  have hle := divNearest_shift_le format scaled den
  have hge : 0 < format.shift scaled den → 2 ^ format.fraction ≤
      divNearest scaled (den * 2 ^ format.shift scaled den) := two_pow_le_divNearest_shift
  rw [hround, nearest]
  generalize divNearest scaled (den * 2 ^ format.shift scaled den) = digits at hle hge ⊢
  generalize format.shift scaled den = s at hge ⊢
  rw [pow_succ'] at hle
  rcases Nat.lt_or_ge digits (2 ^ format.fraction) with hsmall | hnormal
  · obtain rfl : s = 0 := by
      by_contra hpos
      exact absurd (hge (Nat.pos_of_ne_zero hpos)) (Nat.not_le_of_lt hsmall)
    rw [Nat.zero_mul, Nat.zero_add, units, if_pos hsmall, pow_zero, Nat.mul_one]
  · obtain ⟨r, rfl⟩ := Nat.exists_eq_add_of_le hnormal
    rcases Nat.lt_or_ge r (2 ^ format.fraction) with hr | hr
    · have hsum : s * 2 ^ format.fraction + (2 ^ format.fraction + r) =
          (s + 1) * 2 ^ format.fraction + r := by ring
      rw [hsum, units_add hr]
    -- the digits carry into the exponent
    · obtain rfl : r = 2 ^ format.fraction := by omega
      have hsum : s * 2 ^ format.fraction + (2 ^ format.fraction + 2 ^ format.fraction) =
          (s + 1 + 1) * 2 ^ format.fraction + 0 := by ring
      rw [hsum, units_add (Nat.two_pow_pos _)]
      ring

/-! ## Order -/

/-- A larger quotient has no smaller exponent. -/
theorem shift_mono (format : BinaryFormat) (d : ℕ) (h : n ≤ n') :
    format.shift n d ≤ format.shift n' d := by
  rw [shift, shift, Nat.log2_eq_log_two, Nat.log2_eq_log_two]
  exact Nat.sub_le_sub_right (Nat.log_mono_right (Nat.div_le_div_right h)) _

/-- Rounding keeps the order, also where the exponent changes. -/
theorem nearest_mono (d : ℕ) (h : n ≤ n') : format.nearest n d ≤ format.nearest n' d := by
  rcases (shift_mono format d h).lt_or_eq with hlt | heq
  · have hpos : 0 < format.shift n' d := Nat.zero_lt_of_lt hlt
    calc format.nearest n d
        ≤ 2 ^ (format.fraction + 1) * 2 ^ format.shift n d :=
          Nat.mul_le_mul_right _ (divNearest_shift_le format n d)
      _ = 2 ^ format.fraction * 2 ^ (format.shift n d + 1) := by ring
      _ ≤ 2 ^ format.fraction * 2 ^ format.shift n' d :=
          Nat.mul_le_mul_left _ (Nat.pow_le_pow_right Nat.two_pos hlt)
      _ ≤ format.nearest n' d := Nat.mul_le_mul_right _ (two_pow_le_divNearest_shift hpos)
  · rw [nearest, nearest, heq]
    exact Nat.mul_le_mul_right _ (divNearest_mono _ h)

/-- Integers with few digits, and such integers before some zeros, are not rounded. -/
theorem nearest_mul (format : BinaryFormat) {c : ℕ} (e : ℕ)
    (hc : c < 2 ^ (format.fraction + 1)) (hd : 0 < d) :
    format.nearest (c * 2 ^ e * d) d = c * 2 ^ e := by
  have hshift : format.shift (c * 2 ^ e * d) d ≤ e := by
    rw [shift, Nat.mul_div_cancel _ hd]
    rcases Nat.eq_zero_or_pos c with rfl | hpos
    · rw [Nat.zero_mul, Nat.log2_zero]
      omega
    · have hlt : (c * 2 ^ e).log2 < format.fraction + 1 + e := by
        refine (Nat.log2_lt (Nat.mul_pos hpos (Nat.two_pow_pos _)).ne').mpr ?_
        rw [pow_add]
        exact Nat.mul_lt_mul_of_pos_right hc (Nat.two_pow_pos _)
      omega
  unfold nearest
  generalize format.shift (c * 2 ^ e * d) d = s at hshift ⊢
  obtain ⟨j, rfl⟩ := Nat.exists_eq_add_of_le hshift
  have hmultiple : c * 2 ^ (s + j) * d = c * 2 ^ j * (d * 2 ^ s) := by ring
  rw [hmultiple, divNearest_mul _ (Nat.mul_pos hd (Nat.two_pow_pos _))]
  ring

/-! ## Distances -/

/-- A number moves by half a unit of its last digit at most. -/
theorem two_mul_nearest_le (format : BinaryFormat) (n d : ℕ) :
    2 * format.nearest n d * d ≤ 2 * n + d * 2 ^ format.shift n d := by
  refine le_trans (le_of_eq ?_) (two_mul_divNearest_le n (d * 2 ^ format.shift n d))
  unfold nearest
  ring

/-- A quotient is rounded down by half a unit of its last digit at most. -/
theorem two_mul_le_nearest (format : BinaryFormat) (n : ℕ) (hd : 0 < d) :
    2 * n ≤ 2 * format.nearest n d * d + d * 2 ^ format.shift n d := by
  have hpos : 0 < d * 2 ^ format.shift n d := Nat.mul_pos hd (Nat.two_pow_pos _)
  refine (two_mul_le_divNearest n hpos).trans (le_of_eq ?_)
  unfold nearest
  ring

/-- A bound on the quotient bounds the exponent. -/
theorem shift_le {e : ℕ} (h : n < d * 2 ^ (format.fraction + e + 1)) : format.shift n d ≤ e := by
  rcases Nat.eq_zero_or_pos (n / d) with hzero | hpos
  · rw [shift, hzero, Nat.log2_zero]
    omega
  · have hlog := (Nat.log2_lt hpos.ne').mpr (Nat.div_lt_of_lt_mul h)
    unfold shift
    omega

/-- The last digit that is kept is worth a small part of the number. -/
theorem mul_two_pow_shift_le (format : BinaryFormat) (n d : ℕ) :
    d * 2 ^ format.shift n d * 2 ^ format.fraction ≤ max n (d * 2 ^ format.fraction) := by
  rcases Nat.eq_zero_or_pos (format.shift n d) with hzero | hpos
  · rw [hzero, pow_zero, Nat.mul_one]
    exact le_max_right _ _
  · refine le_trans ?_ (le_max_left _ _)
    have hle := (Nat.le_div_iff_mul_le (Nat.two_pow_pos _)).mp (two_pow_le_div_shift hpos)
    calc d * 2 ^ format.shift n d * 2 ^ format.fraction
        = d * (2 ^ format.fraction * 2 ^ format.shift n d) := by ring
      _ ≤ d * (n / d) := Nat.mul_le_mul_left d hle
      _ ≤ n := Nat.mul_div_le n d

/-- A number less than half a unit of the last digit below an even number. -/
theorem le_nearest_of_half {c e : ℕ} (hd : 0 < d) (hn : n < d * 2 ^ (format.fraction + e + 1))
    (h : 2 * (c * 2 ^ (e + 1)) * d ≤ 2 * n + d * 2 ^ format.shift n d) :
    c * 2 ^ (e + 1) ≤ format.nearest n d := by
  have hshift := shift_le hn
  unfold nearest
  generalize format.shift n d = s at h hshift ⊢
  obtain ⟨j, rfl⟩ := Nat.exists_eq_add_of_le hshift
  have heven : 2 ∣ c * 2 ^ (j + 1) := Dvd.dvd.mul_left (dvd_pow_self 2 (Nat.succ_ne_zero j)) c
  have hsplit : c * 2 ^ (s + j + 1) = c * 2 ^ (j + 1) * 2 ^ s := by ring
  rw [hsplit]
  have hpos : 0 < d * 2 ^ s := Nat.mul_pos hd (Nat.two_pow_pos _)
  refine Nat.mul_le_mul_right _ (le_divNearest_of_even hpos heven ?_)
  refine le_trans (le_of_eq ?_) h
  ring

/-- **Numbers that are one apart** do not round to numbers with the same integer part, where
one is `2 ^ (e + 1)` and the last digit is worth a half at most. -/
theorem lt_nearest_div {e : ℕ} (hd : 0 < d) (h : n + d * 2 ^ (e + 1) ≤ n')
    (hn' : n' < d * 2 ^ (format.fraction + e + 1)) :
    format.nearest n d / 2 ^ (e + 1) < format.nearest n' d / 2 ^ (e + 1) := by
  have hle : n ≤ n' := (Nat.le_add_right _ _).trans h
  have hshift : 2 ^ format.shift n d ≤ 2 ^ format.shift n' d :=
    Nat.pow_le_pow_right Nat.two_pos (shift_mono format d hle)
  have hhalf := two_mul_nearest_le format n d
  have hpart := Nat.div_mul_le_self (format.nearest n d) (2 ^ (e + 1))
  generalize format.nearest n d / 2 ^ (e + 1) = m at hpart ⊢
  refine (Nat.le_div_iff_mul_le (Nat.two_pow_pos _)).mpr (le_nearest_of_half hd hn' ?_)
  calc 2 * ((m + 1) * 2 ^ (e + 1)) * d
      = 2 * (m * 2 ^ (e + 1)) * d + 2 * (d * 2 ^ (e + 1)) := by ring
    _ ≤ 2 * format.nearest n d * d + 2 * (d * 2 ^ (e + 1)) :=
        Nat.add_le_add_right (Nat.mul_le_mul_right d (Nat.mul_le_mul_left 2 hpart)) _
    _ ≤ 2 * n + d * 2 ^ format.shift n d + 2 * (d * 2 ^ (e + 1)) :=
        Nat.add_le_add_right hhalf _
    _ = 2 * (n + d * 2 ^ (e + 1)) + d * 2 ^ format.shift n d := by ring
    _ ≤ 2 * n' + d * 2 ^ format.shift n' d :=
        Nat.add_le_add (Nat.mul_le_mul_left 2 h) (Nat.mul_le_mul_left d hshift)

/-! ## Multiples of a quotient -/

/-- The rounded quotient of two integers, where the smallest positive number is 1. -/
def ratio (format : BinaryFormat) (n d : ℕ) : ℕ := format.units (format.quotient n d)

/-- The integer part of the product of an integer and such a number. -/
def multiple (format : BinaryFormat) (i step : ℕ) : ℕ :=
  format.units (format.round (format.integer i * step) (2 ^ format.unit)) / 2 ^ format.unit

/-- Small integers are converted exactly. -/
theorem integer_of_le (h : n ≤ 2 ^ format.fraction) : format.integer n = n := by
  have hlt : n < 2 ^ (format.fraction + 1) :=
    h.trans_lt (Nat.pow_lt_pow_right (by decide) (Nat.lt_succ_self _))
  have hexact := nearest_mul format 0 hlt one_pos
  rw [integer_eq_nearest]
  simpa only [pow_zero, Nat.mul_one] using hexact

section multiples

variable {len i e : ℕ}

/-- A quotient of numbers with few digits: its terms are not rounded, so it is rounded once.
-/
theorem ratio_eq (hlen : len ≤ 2 ^ format.fraction) (hle : n ≤ len) :
    format.ratio len n = format.nearest (len * 2 ^ format.unit) n := by
  rw [ratio, quotient, integer_of_le hlen, integer_of_le (hle.trans hlen), units_round]

/-- A number over itself is 1. -/
theorem ratio_self (hlen : n ≤ 2 ^ format.fraction) (hn : 0 < n) :
    format.ratio n n = 2 ^ format.unit := by
  have hexact := nearest_mul format format.unit
    (Nat.one_lt_two_pow (Nat.succ_ne_zero _)) hn
  rw [Nat.one_mul] at hexact
  rw [ratio_eq hlen le_rfl, Nat.mul_comm n, hexact]

/-- A step of at least one. -/
theorem two_pow_unit_le_ratio (hlen : len ≤ 2 ^ format.fraction) (hn : 0 < n) (hle : n ≤ len) :
    2 ^ format.unit ≤ format.ratio len n := by
  rw [← ratio_self (hle.trans hlen) hn, ratio_eq hlen hle, ratio_eq (hle.trans hlen) le_rfl]
  exact nearest_mono n (Nat.mul_le_mul_right _ hle)

/-- The rounding of a step adds up to half of one at most. -/
theorem mul_shift_le_unit (hlen : len ≤ 2 ^ format.fraction) (hle : n ≤ len) :
    n * 2 ^ format.shift (len * 2 ^ format.unit) n ≤ 2 ^ format.unit := by
  have hdigit := mul_two_pow_shift_le format (len * 2 ^ format.unit) n
  have hmax : max (len * 2 ^ format.unit) (n * 2 ^ format.fraction) ≤
      2 ^ format.unit * 2 ^ format.fraction := by
    refine max_le ?_ ?_
    · rw [Nat.mul_comm]
      exact Nat.mul_le_mul_left _ hlen
    · refine Nat.mul_le_mul_right _ ((hle.trans hlen).trans ?_)
      exact Nat.pow_le_pow_right Nat.two_pos format.fraction_le_unit
  exact Nat.le_of_mul_le_mul_right (hdigit.trans hmax) (Nat.two_pow_pos _)

/-- From 1 on, a quotient is at most half a unit of 1 too large. -/
theorem two_mul_ratio_le (hlen : len ≤ 2 ^ format.fraction) (hle : n ≤ len) :
    2 * format.ratio len n * n ≤ 2 * (len * 2 ^ format.unit) + 2 ^ format.unit := by
  rw [ratio_eq hlen hle]
  exact (two_mul_nearest_le format _ n).trans (Nat.add_le_add_left (mul_shift_le_unit hlen hle) _)

/-- And at most as much too small. -/
theorem two_mul_le_ratio (hlen : len ≤ 2 ^ format.fraction) (hn : 0 < n) (hle : n ≤ len) :
    2 * (len * 2 ^ format.unit) ≤ 2 * format.ratio len n * n + 2 ^ format.unit := by
  rw [ratio_eq hlen hle]
  exact (two_mul_le_nearest format _ hn).trans (Nat.add_le_add_left (mul_shift_le_unit hlen hle) _)

/-- The products stay below the length. -/
theorem two_mul_product_le (hlen : len ≤ 2 ^ format.fraction) (hle : n ≤ len) (hi : i < n) :
    2 * (i * format.ratio len n) + 2 ^ format.unit ≤ 2 * (len * 2 ^ format.unit) := by
  have hstep := two_pow_unit_le_ratio hlen (Nat.zero_lt_of_lt hi) hle
  have hratio := two_mul_ratio_le hlen hle
  generalize format.ratio len n = step at hstep hratio ⊢
  have hnext : (i + 1) * step ≤ n * step := Nat.mul_le_mul_right _ hi
  have hcomm : 2 * step * n = 2 * (n * step) := by ring
  rw [add_mul, one_mul] at hnext
  omega

/-- A multiple of a step is rounded once, and then its integer part is taken. -/
theorem multiple_eq (step : ℕ) (hi : i ≤ 2 ^ format.fraction) : format.multiple i step =
    format.nearest (i * step * 2 ^ format.unit) (2 ^ format.unit) / 2 ^ format.unit := by
  rw [multiple, integer_of_le hi, units_round]

/-- It is 0 at the start. -/
theorem multiple_zero (step : ℕ) : format.multiple 0 step = 0 := by
  have hexact := nearest_mul format 0 (Nat.two_pow_pos (format.fraction + 1))
    (Nat.two_pow_pos format.unit)
  rw [multiple_eq step (Nat.zero_le _)]
  simp only [Nat.zero_mul] at hexact ⊢
  rw [hexact, Nat.zero_div]

/-- The last digit of a product is worth a half at most. -/
theorem product_lt (hunit : format.unit = e + 1) (hlen : len ≤ 2 ^ format.fraction) (hle : n ≤ len)
    (hi : i < n) : i * format.ratio len n * 2 ^ format.unit <
      2 ^ format.unit * 2 ^ (format.fraction + e + 1) := by
  have hproduct := two_mul_product_le hlen hle hi
  have hlen' : len * 2 ^ format.unit ≤ 2 ^ (format.fraction + e + 1) := by
    rw [Nat.add_assoc, ← hunit, pow_add]
    exact Nat.mul_le_mul_right _ hlen
  have hpos : 0 < 2 ^ format.unit := Nat.two_pow_pos _
  rw [Nat.mul_comm]
  refine Nat.mul_lt_mul_of_pos_left ?_ hpos
  omega

/-- **Other multiples have other integer parts.** -/
theorem multiple_lt_multiple (hunit : format.unit = e + 1) (hlen : len ≤ 2 ^ format.fraction)
    (hle : n ≤ len) (hi : i + 1 < n) :
    format.multiple i (format.ratio len n) < format.multiple (i + 1) (format.ratio len n) := by
  have hn : n ≤ 2 ^ format.fraction := hle.trans hlen
  have hstep := two_pow_unit_le_ratio hlen (Nat.zero_lt_of_lt hi) hle
  have hlt := product_lt hunit hlen hle hi
  rw [multiple_eq _ (by omega), multiple_eq _ (by omega), hunit]
  rw [hunit] at hstep hlt
  refine lt_nearest_div (Nat.two_pow_pos _) ?_ hlt
  calc i * format.ratio len n * 2 ^ (e + 1) + 2 ^ (e + 1) * 2 ^ (e + 1)
      ≤ i * format.ratio len n * 2 ^ (e + 1) + format.ratio len n * 2 ^ (e + 1) :=
        Nat.add_le_add_left (Nat.mul_le_mul_right _ hstep) _
    _ = (i + 1) * format.ratio len n * 2 ^ (e + 1) := by ring

/-- The rounding of a product adds up to a quarter of one at most. -/
theorem two_mul_two_pow_shift_le (hunit : format.unit = e + 1) (hlen : len ≤ 2 ^ format.fraction)
    (hle : n ≤ len) (hi : i < n) :
    2 * 2 ^ format.shift (i * format.ratio len n * 2 ^ format.unit) (2 ^ format.unit) ≤
      2 ^ format.unit := by
  have hshift := shift_le (product_lt hunit hlen hle hi)
  rw [← pow_succ']
  exact Nat.pow_le_pow_right Nat.two_pos (by omega)

/-- A multiple below the length is rounded up by a quarter of 1 at most. -/
theorem four_mul_nearest_le (hunit : format.unit = e + 1) (hlen : len ≤ 2 ^ format.fraction)
    (hle : n ≤ len) (hi : i < n) :
    4 * format.nearest (i * format.ratio len n * 2 ^ format.unit) (2 ^ format.unit) ≤
      4 * (i * format.ratio len n) + 2 ^ format.unit := by
  have hhalf := two_mul_two_pow_shift_le hunit hlen hle hi
  have hnearest := two_mul_nearest_le format
    (i * format.ratio len n * 2 ^ format.unit) (2 ^ format.unit)
  generalize format.nearest (i * format.ratio len n * 2 ^ format.unit) (2 ^ format.unit) = product
    at hnearest ⊢
  generalize 2 ^ format.shift (i * format.ratio len n * 2 ^ format.unit) (2 ^ format.unit) = digit
    at hnearest hhalf
  refine Nat.le_of_mul_le_mul_right ?_ (Nat.two_pow_pos format.unit)
  calc 4 * product * 2 ^ format.unit = 2 * (2 * product * 2 ^ format.unit) := by ring
    _ ≤ 2 * (2 * (i * format.ratio len n * 2 ^ format.unit) + 2 ^ format.unit * digit) :=
        Nat.mul_le_mul_left 2 hnearest
    _ = 4 * (i * format.ratio len n) * 2 ^ format.unit + 2 * digit * 2 ^ format.unit := by ring
    _ ≤ 4 * (i * format.ratio len n) * 2 ^ format.unit + 2 ^ format.unit * 2 ^ format.unit :=
        Nat.add_le_add_left (Nat.mul_le_mul_right _ hhalf) _
    _ = (4 * (i * format.ratio len n) + 2 ^ format.unit) * 2 ^ format.unit := by ring

/-- And down by as much at most. -/
theorem four_mul_le_nearest (hunit : format.unit = e + 1) (hlen : len ≤ 2 ^ format.fraction)
    (hle : n ≤ len) (hi : i < n) :
    4 * (i * format.ratio len n) ≤
      4 * format.nearest (i * format.ratio len n * 2 ^ format.unit) (2 ^ format.unit) +
        2 ^ format.unit := by
  have hhalf := two_mul_two_pow_shift_le hunit hlen hle hi
  have hnearest := two_mul_le_nearest format
    (i * format.ratio len n * 2 ^ format.unit) (Nat.two_pow_pos format.unit)
  generalize format.nearest (i * format.ratio len n * 2 ^ format.unit) (2 ^ format.unit) = product
    at hnearest ⊢
  generalize 2 ^ format.shift (i * format.ratio len n * 2 ^ format.unit) (2 ^ format.unit) = digit
    at hnearest hhalf
  refine Nat.le_of_mul_le_mul_right ?_ (Nat.two_pow_pos format.unit)
  calc 4 * (i * format.ratio len n) * 2 ^ format.unit
      = 2 * (2 * (i * format.ratio len n * 2 ^ format.unit)) := by ring
    _ ≤ 2 * (2 * product * 2 ^ format.unit + 2 ^ format.unit * digit) :=
        Nat.mul_le_mul_left 2 hnearest
    _ = 4 * product * 2 ^ format.unit + 2 * digit * 2 ^ format.unit := by ring
    _ ≤ 4 * product * 2 ^ format.unit + 2 ^ format.unit * 2 ^ format.unit :=
        Nat.add_le_add_left (Nat.mul_le_mul_right _ hhalf) _
    _ = (4 * product + 2 ^ format.unit) * 2 ^ format.unit := by ring

/-- The last multiple, too, stays below the length. -/
theorem multiple_lt (hunit : format.unit = e + 1) (hlen : len ≤ 2 ^ format.fraction)
    (hle : n ≤ len) (hi : i < n) : format.multiple i (format.ratio len n) < len := by
  have hnearest := four_mul_nearest_le hunit hlen hle hi
  have hproduct := two_mul_product_le hlen hle hi
  have hpos : 0 < 2 ^ format.unit := Nat.two_pow_pos _
  rw [multiple_eq _ (by omega), Nat.div_lt_iff_lt_mul hpos]
  omega

/-- **The multiples are spread evenly**: each is less than one above, and less than two below,
its part of the length. -/
theorem multiple_near (hunit : format.unit = e + 1) (hlen : len ≤ 2 ^ format.fraction)
    (hle : n ≤ len) (hi : i < n) :
    format.multiple i (format.ratio len n) * n < i * len + n ∧
      i * len < (format.multiple i (format.ratio len n) + 2) * n := by
  have hn : 0 < n := Nat.zero_lt_of_lt hi
  have hpos : 0 < 2 ^ format.unit := Nat.two_pow_pos _
  have hup := four_mul_nearest_le hunit hlen hle hi
  have hdown := four_mul_le_nearest hunit hlen hle hi
  have hratio := Nat.mul_le_mul_left i (two_mul_ratio_le hlen hle)
  have hratio' := Nat.mul_le_mul_left i (two_mul_le_ratio hlen hn hle)
  rw [multiple_eq _ (by omega)]
  generalize format.nearest (i * format.ratio len n * 2 ^ format.unit) (2 ^ format.unit) = product
    at hup hdown ⊢
  have hpart := Nat.div_mul_le_self product (2 ^ format.unit)
  have hpart' := Nat.lt_div_mul_add hpos (a := product)
  generalize product / 2 ^ format.unit = m at hpart hpart' ⊢
  generalize 2 ^ format.unit = one at *
  generalize format.ratio len n = step at *
  constructor
  · refine Nat.lt_of_mul_lt_mul_right (a := 4 * one) ?_
    calc m * n * (4 * one) = 4 * (m * one) * n := by ring
      _ ≤ 4 * product * n := Nat.mul_le_mul_right n (Nat.mul_le_mul_left 4 hpart)
      _ ≤ (4 * (i * step) + one) * n := Nat.mul_le_mul_right n hup
      _ = 2 * (i * (2 * step * n)) + n * one := by ring
      _ ≤ 2 * (i * (2 * (len * one) + one)) + n * one :=
          Nat.add_le_add_right (Nat.mul_le_mul_left 2 hratio) _
      _ = (4 * (i * len) + 2 * i + n) * one := by ring
      _ < (4 * (i * len) + 4 * n) * one := Nat.mul_lt_mul_of_pos_right (by omega) hpos
      _ = (i * len + n) * (4 * one) := by ring
  · refine Nat.lt_of_mul_lt_mul_right (a := 4 * one) ?_
    calc i * len * (4 * one) = 2 * (i * (2 * (len * one))) := by ring
      _ ≤ 2 * (i * (2 * step * n + one)) := Nat.mul_le_mul_left 2 hratio'
      _ = 4 * (i * step) * n + 2 * i * one := by ring
      _ ≤ (4 * product + one) * n + 2 * i * one :=
          Nat.add_le_add_right (Nat.mul_le_mul_right n hdown) _
      _ ≤ (4 * (m * one + one) + one) * n + 2 * i * one :=
          Nat.add_le_add_right (Nat.mul_le_mul_right n (by omega)) _
      _ = (4 * (m * n) + 5 * n + 2 * i) * one := by ring
      _ < (4 * (m * n) + 8 * n) * one := Nat.mul_lt_mul_of_pos_right (by omega) hpos
      _ = (m + 2) * n * (4 * one) := by ring

end multiples

end BinaryFormat

end Numerals
