import Synapse.IgpuMl.ModelBytes

/-!
# Changed model bytes

One byte of the bytes of a model is changed, or bytes are appended.  The checksum covers
the configuration, without its length, and the encodings of the layers; it does not cover
the version.

The bytes that are covered can be read with another length of the configuration, if what
follows it looks like the rest of the file.  It never does: an array starts with the byte 1,
so the length of the first array would have to start with that byte, and then its shape does
not fit (`Shifted.elim`).  So a change behind the version is never accepted as another model,
and one in the version is as soon as the text is UTF-8 (`tampered_iff`).

### What hashing alone gives

The digest is taken to be injective on the inputs that occur, those of the model and of
whatever can be found in the changed bytes (`hashInputs`): this is what collision resistance
is good for, and nothing more.  In particular it does not say that a digest cannot stand
somewhere by chance, so the one case in which the changed bytes are split at another place,
that of the version's length, keeps a condition about the bytes (`Tampering.SplitsAt`).

What is hashed has no lengths in it, so equal inputs of the digest do not make equal files at
once.  The layers are found again since an encoding is never the beginning of another one
(`layers_eq_of_codes`); the configuration is found again because its slack is hashed with it.
-/

namespace Synapse.IgpuMl

open ByteRecords Numerals

/-! ## Arrays that begin at two places -/

section shifted

variable {C F : Type} (bincode : Bincode C F) (w : Array2 F)

/-- `bincode`'s bytes of a matrix. -/
theorem length_array2 : (bincode.array2.serialize w).length = 25 + 4 * (w.rows * w.cols) := by
  obtain ⟨entries, hlength, hbytes⟩ := bincode.array2_header w
  rw [hbytes]
  simp only [List.length_cons, List.length_append, length_leBytes, hlength]
  omega

/-- It begins with the version of `ndarray`'s format. -/
theorem array2_zero : (bincode.array2.serialize w)[0]? = some 1 := by
  obtain ⟨entries, -, hbytes⟩ := bincode.array2_header w
  rw [hbytes, List.getElem?_cons_zero]

/-- The bytes of the height. -/
theorem array2_rows {j : ℕ} (hj : j < 8) :
    (bincode.array2.serialize w)[j + 1]? = some (UInt8.ofNat (w.rows / 256 ^ j)) := by
  obtain ⟨entries, -, hbytes⟩ := bincode.array2_header w
  rw [hbytes, List.getElem?_cons_succ, List.getElem?_append_left (by simpa using hj),
    getElem?_leBytes hj]

/-- The bytes of the width. -/
theorem array2_cols {j : ℕ} (hj : j < 8) :
    (bincode.array2.serialize w)[j + 9]? = some (UInt8.ofNat (w.cols / 256 ^ j)) := by
  obtain ⟨entries, -, hbytes⟩ := bincode.array2_header w
  rw [hbytes, List.getElem?_cons_succ, List.getElem?_append_right (by simp),
    List.getElem?_append_left (by simpa using hj), length_leBytes, Nat.add_sub_cancel,
    getElem?_leBytes hj]

/-- The bytes of the number of entries. -/
theorem array2_count {j : ℕ} (hj : j < 8) :
    (bincode.array2.serialize w)[j + 17]? = some (UInt8.ofNat (w.rows * w.cols / 256 ^ j)) := by
  obtain ⟨entries, -, hbytes⟩ := bincode.array2_header w
  rw [hbytes, List.getElem?_cons_succ, List.getElem?_append_right (by simp),
    List.getElem?_append_right (by simp),
    List.getElem?_append_left (by simp only [length_leBytes]; omega),
    length_leBytes, length_leBytes, show j + 16 - 8 - 8 = j by omega, getElem?_leBytes hj]

/-- `ndarray` bounds the number of entries of an array. -/
theorem entries_lt : w.rows * w.cols < 2 ^ 63 :=
  lt_of_le_of_lt (Nat.mul_le_mul (le_max_left _ _) (le_max_left _ _)) w.fits

/-- A byte that is known says what its number is modulo 256. -/
theorem mod_of_eq {x : ℕ} {c : UInt8} (h : some (UInt8.ofNat x) = some c) :
    x % 256 = c.toNat := by
  rw [← Option.some_injective _ h, UInt8.toNat_ofNat']

/-- Low bytes that are all zero. -/
theorem pow_dvd_of_bytes {q x : ℕ} (h : ∀ j < q, x / 256 ^ j % 256 = 0) : 256 ^ q ∣ x := by
  induction q with
  | zero => exact one_dvd x
  | succ q ih =>
      obtain ⟨k, rfl⟩ := ih fun j hj => h j (Nat.lt_succ_of_lt hj)
      have hbyte := h q (Nat.lt_succ_self q)
      rw [Nat.mul_div_cancel_left k (by positivity)] at hbyte
      rw [pow_succ]
      exact Nat.mul_dvd_mul_left _ (Nat.dvd_of_mod_eq_zero hbyte)

/-- `front` is at once the start of an array and of the length in front of it, and behind it
another array begins at both places. -/
structure Shifted (w w' : Array2 F) (front s t s' t' : Bytes) : Prop where
  fits' : (bincode.array2.serialize w').length < 256 ^ 4
  nonempty : front ≠ []
  code_eq : bincode.array2.serialize w ++ s = front ++ (bincode.array2.serialize w' ++ s')
  framed_eq : framed 4 (bincode.array2.serialize w) ++ t =
    front ++ (framed 4 (bincode.array2.serialize w') ++ t')

namespace Shifted

variable {bincode} {w w' : Array2 F} {front s t s' t' : Bytes}
variable (h : Shifted bincode w w' front s t s' t')

include h

/-- The first array, where it stands without its length in front. -/
theorem getElem?_code {j : ℕ} (hj : j < 25) :
    (front ++ (bincode.array2.serialize w' ++ s'))[j]? = (bincode.array2.serialize w)[j]? := by
  rw [← h.code_eq, List.getElem?_append_left (by rw [length_array2]; omega)]

/-- The first array, where it stands behind its length. -/
theorem getElem?_framed {j : ℕ} (hj : j < 25) :
    (front ++ (framed 4 (bincode.array2.serialize w') ++ t'))[j + 4]? =
      (bincode.array2.serialize w)[j]? := by
  rw [← h.framed_eq, framed, List.append_assoc, List.getElem?_append_right (by simp),
    length_leBytes, Nat.add_sub_cancel, List.getElem?_append_left (by rw [length_array2]; omega)]

/-- The second array begins within the first one. -/
theorem getElem?_second {j : ℕ} (hj : j < 25) (hlt : front.length + j < 25) :
    (bincode.array2.serialize w)[front.length + j]? = (bincode.array2.serialize w')[j]? := by
  rw [← h.getElem?_code hlt, List.getElem?_append_right (by omega), Nat.add_sub_cancel_left,
    List.getElem?_append_left (by rw [length_array2]; omega)]

/-- In `front` every byte is also the one four places on. -/
theorem getElem?_add_four {j : ℕ} (hj : j + 4 < front.length) (hlt : j + 4 < 25) :
    (bincode.array2.serialize w)[j + 4]? = (bincode.array2.serialize w)[j]? := by
  rw [← h.getElem?_code hlt, ← h.getElem?_framed (show j < 25 by omega),
    List.getElem?_append_left hj, List.getElem?_append_left hj]

/-- The length of the first array starts with the byte 1. -/
theorem entries_mod : w.rows * w.cols % 64 = 58 := by
  have hlength := List.length_pos_of_ne_nil h.nonempty
  have hcode := h.getElem?_code (show 0 < 25 by decide)
  rw [List.getElem?_append_left hlength, array2_zero] at hcode
  have hframed : (front ++ (framed 4 (bincode.array2.serialize w') ++ t'))[0]? =
      some (UInt8.ofNat (25 + 4 * (w.rows * w.cols))) := by
    rw [← h.framed_eq, framed, List.append_assoc, List.getElem?_append_left (by simp),
      getElem?_leBytes (by decide), length_array2, pow_zero, Nat.div_one]
  rw [List.getElem?_append_left hlength, hcode] at hframed
  have hbyte : (25 + 4 * (w.rows * w.cols)) % 256 = 1 := mod_of_eq hframed.symm
  omega

/-- The first array has entries, so columns. -/
theorem cols_pos : 0 < w.cols := by
  refine Nat.pos_of_ne_zero fun hzero => ?_
  have hmod := h.entries_mod
  rw [hzero, Nat.mul_zero] at hmod
  cases hmod

/-- In `front` the first byte of the first array comes back. -/
theorem one_at_four (hlt : 4 < front.length) :
    (bincode.array2.serialize w)[4]? = some 1 := by
  have hfour := h.getElem?_add_four (j := 0) hlt (by decide)
  rwa [array2_zero] at hfour

/-- It comes back once more if `front` is long enough. -/
theorem one_at_eight (hlt : 8 < front.length) :
    (bincode.array2.serialize w)[8]? = some 1 := by
  have height := h.getElem?_add_four (j := 4) hlt (by decide)
  rwa [h.one_at_four (by omega)] at height

/-- `front` ends in the header of the first array. -/
theorem front_lt : front.length < 13 := by
  by_contra hge
  -- The bytes 0, 4, 8 and 12 are the same, so there are too many rows and columns.
  have height := h.one_at_eight (by omega)
  have htwelve := h.getElem?_add_four (j := 8) (by omega) (by decide)
  rw [height, array2_cols bincode w (j := 3) (by decide)] at htwelve
  rw [array2_rows bincode w (j := 7) (by decide)] at height
  have hrows : w.rows / 256 ^ 7 % 256 = 1 := mod_of_eq height
  have hcols : w.cols / 256 ^ 3 % 256 = 1 := mod_of_eq htwelve
  have hentries := entries_lt w
  have hmul : 256 ^ 7 * 256 ^ 3 ≤ w.rows * w.cols :=
    Nat.mul_le_mul (by omega) (by omega)
  omega

/-- The length of the second array overlaps the first one. -/
theorem getElem?_length {i j : ℕ} (hj : j < 4) (hij : front.length + j = i + 4) (hi : i < 25) :
    (bincode.array2.serialize w)[i]? =
      some (UInt8.ofNat ((25 + 4 * (w'.rows * w'.cols)) / 256 ^ j)) := by
  rw [← h.getElem?_framed hi, ← hij, List.getElem?_append_right (by omega),
    Nat.add_sub_cancel_left, framed, List.append_assoc,
    List.getElem?_append_left (by rw [length_leBytes]; omega), getElem?_leBytes hj, length_array2]

/-- So one of its bytes is 1, and the second array has entries. -/
theorem second_entries_pos : 0 < w'.rows * w'.cols := by
  have hlength := List.length_pos_of_ne_nil h.nonempty
  have hlt := h.front_lt
  have hone : ∃ j < 4, (25 + 4 * (w'.rows * w'.cols)) / 256 ^ j % 256 = 1 := by
    obtain hle | hgt := Nat.lt_or_ge 4 front.length
    · obtain hle' | hgt' := Nat.lt_or_ge 8 front.length
      · refine ⟨12 - front.length, by omega, mod_of_eq (c := 1) ?_⟩
        rw [← h.getElem?_length (i := 8) (by omega) (by omega) (by decide), h.one_at_eight hle']
      · refine ⟨8 - front.length, by omega, mod_of_eq (c := 1) ?_⟩
        rw [← h.getElem?_length (i := 4) (by omega) (by omega) (by decide), h.one_at_four hle]
    · refine ⟨4 - front.length, by omega, mod_of_eq (c := 1) ?_⟩
      rw [← h.getElem?_length (i := 0) (by omega) (by omega) (by decide), array2_zero]
  obtain ⟨j, hj, hbyte⟩ := hone
  refine Nat.pos_of_ne_zero fun hzero => ?_
  rw [hzero] at hbyte
  interval_cases j <;> cases hbyte

/-- But so few that the high bytes of its shape are 0. -/
theorem second_rows_lt : w'.rows < 256 ^ 4 := by
  have hfits := h.fits'
  have hpos := Nat.pos_of_mul_pos_left h.second_entries_pos
  have hle := Nat.le_mul_of_pos_right w'.rows hpos
  rw [length_array2] at hfits
  omega

/-- The same of the columns. -/
theorem second_cols_lt : w'.cols < 256 ^ 4 := by
  have hfits := h.fits'
  have hpos := Nat.pos_of_mul_pos_right h.second_entries_pos
  have hle := Nat.le_mul_of_pos_left w'.cols hpos
  rw [length_array2] at hfits
  omega

/-- So the bytes of the first array that are these high bytes are 0. -/
theorem second_rows_high {j : ℕ} (hj : 4 ≤ j) (hj' : j < 8) (hlt : front.length + (j + 1) < 25) :
    (bincode.array2.serialize w)[front.length + (j + 1)]? = some 0 := by
  rw [h.getElem?_second (by omega) hlt, array2_rows bincode w' hj', Nat.div_eq_of_lt
    (h.second_rows_lt.trans_le (Nat.pow_le_pow_right (by decide) hj))]
  rfl

/-- The same of the columns. -/
theorem second_cols_high {j : ℕ} (hj : 4 ≤ j) (hj' : j < 8) (hlt : front.length + (j + 9) < 25) :
    (bincode.array2.serialize w)[front.length + (j + 9)]? = some 0 := by
  rw [h.getElem?_second (by omega) hlt, array2_cols bincode w' hj', Nat.div_eq_of_lt
    (h.second_cols_lt.trans_le (Nat.pow_le_pow_right (by decide) hj))]
  rfl

/-- The lowest byte of the number of entries, which is 58 modulo 64. -/
theorem count_ne_zero : (bincode.array2.serialize w)[17]? ≠ some 0 := by
  intro hzero
  have hmod := h.entries_mod
  rw [array2_count bincode w (j := 0) (by decide), pow_zero, Nat.div_one] at hzero
  have hbyte : w.rows * w.cols % 256 = 0 := mod_of_eq hzero
  omega

/-- The number of entries of the first array does not stand where these bytes are. -/
theorem four_lt_front : 4 < front.length := by
  by_contra hle
  have hlength := List.length_pos_of_ne_nil h.nonempty
  have hcount := h.second_cols_high (j := 8 - front.length) (by omega) (by omega) (by omega)
  rw [show front.length + (8 - front.length + 9) = 17 by omega] at hcount
  exact h.count_ne_zero hcount

/-- Nor in the bytes of the rows of the second array. -/
theorem front_lt_nine : front.length < 9 := by
  by_contra hge
  have hlt := h.front_lt
  have hcount := h.second_rows_high (j := 16 - front.length) (by omega) (by omega) (by omega)
  rw [show front.length + (16 - front.length + 1) = 17 by omega] at hcount
  exact h.count_ne_zero hcount

/-- The second array begins in the high bytes of the rows of the first one. -/
theorem le_rows : 256 ^ (front.length - 1) ≤ w.rows := by
  have hlt := h.front_lt_nine
  have hgt := h.four_lt_front
  have hone := h.getElem?_second (j := 0) (by decide) (by omega)
  rw [array2_zero, Nat.add_zero, show front.length = front.length - 1 + 1 by omega,
    array2_rows bincode w (by omega)] at hone
  have hbyte : w.rows / 256 ^ (front.length - 1) % 256 = 1 := mod_of_eq hone
  refine Nat.le_of_not_lt fun hrows => ?_
  rw [Nat.div_eq_of_lt hrows] at hbyte
  cases hbyte

/-- With that many rows there are few columns. -/
theorem cols_lt : w.cols < 256 ^ 4 := by
  have hgt := h.four_lt_front
  have hentries := entries_lt w
  have hpow : 256 ^ 4 ≤ 256 ^ (front.length - 1) := Nat.pow_le_pow_right (by decide) (by omega)
  by_contra hcols
  have hmul : 256 ^ 4 * 256 ^ 4 ≤ w.rows * w.cols :=
    Nat.mul_le_mul (hpow.trans h.le_rows) (Nat.not_lt.mp hcols)
  omega

/-- If the second array began at byte 8 there would be too many entries. -/
theorem front_ne_eight : front.length ≠ 8 := by
  intro height
  have hzero := h.second_cols_high (j := 7) (by decide) (by decide) (by omega)
  rw [show front.length + (7 + 9) = 7 + 17 by omega, array2_count bincode w (by decide)] at hzero
  have hbyte : w.rows * w.cols / 256 ^ 7 % 256 = 0 := mod_of_eq hzero
  have hrows := h.le_rows
  have hle := Nat.le_mul_of_pos_right w.rows h.cols_pos
  have hentries := entries_lt w
  rw [height] at hrows
  omega

/-- So the low bytes of the columns of the second array are 0. -/
theorem second_cols_low {j : ℕ} (hj : front.length + j < 8) :
    w'.cols / 256 ^ j % 256 = 0 := by
  have hgt := h.four_lt_front
  have hcols := h.getElem?_second (j := j + 9) (by omega) (by omega)
  rw [show front.length + (j + 9) = front.length + j + 9 by omega,
    array2_cols bincode w (j := front.length + j) (by omega), array2_cols bincode w' (by omega),
    Nat.div_eq_of_lt (h.cols_lt.trans_le (Nat.pow_le_pow_right (by decide) (by omega)))] at hcols
  exact mod_of_eq hcols.symm

/-- **No shifted reading.**  The byte 1 in the length of the second array is that of a
multiple of 4. -/
theorem elim : False := by
  have hgt := h.four_lt_front
  have hlt := h.front_lt_nine
  have hne := h.front_ne_eight
  have hone := h.getElem?_length (i := 4) (j := 8 - front.length) (by omega) (by omega) (by decide)
  rw [h.one_at_four hgt] at hone
  have hbyte := mod_of_eq hone.symm
  obtain ⟨k, hk⟩ := pow_dvd_of_bytes fun j (hj : j < 8 - front.length) =>
    h.second_cols_low (j := j) (by omega)
  have hsmall : 25 < 256 ^ (8 - front.length) :=
    lt_of_lt_of_le (by decide)
      (Nat.pow_le_pow_right (by decide) (show 1 ≤ 8 - front.length by omega))
  have hentries : 4 * (w'.rows * w'.cols) = 256 ^ (8 - front.length) * (4 * (w'.rows * k)) := by
    rw [hk]
    ring
  rw [hentries, Nat.add_mul_div_left _ _ (by omega), Nat.div_eq_of_lt hsmall] at hbyte
  have hone' : (0 + 4 * (w'.rows * k)) % 256 = 1 := hbyte
  omega

end Shifted

end shifted

/-! ## What a byte string says -/

/-- Bytes behind their length are found in one way. -/
theorem framed_append_inj {n : ℕ} {x y s t : Bytes} (hx : x.length < 256 ^ n)
    (hy : y.length < 256 ^ n) (h : framed n x ++ s = framed n y ++ t) : x = y ∧ s = t := by
  have hread : takeFramed n (framed n x ++ s) = .ok (x, s) := takeFramed_eq_ok.mpr ⟨hx, rfl⟩
  rw [h, takeFramed_eq_ok.mpr ⟨hy, rfl⟩] at hread
  exact ⟨(Prod.mk.inj (Except.ok.inj hread)).1.symm, (Prod.mk.inj (Except.ok.inj hread)).2.symm⟩

/-- The same length and what follows it. -/
theorem framed_append_eq {n : ℕ} {x y s t : Bytes} (h : framed n x ++ s = framed n y ++ t) :
    x.length % 256 ^ n = y.length % 256 ^ n ∧ x ++ s = y ++ t := by
  simp only [framed, List.append_assoc] at h
  obtain ⟨hlength, h⟩ := List.append_inj h (by rw [length_leBytes, length_leBytes])
  have hmod := congrArg ofLeBytes hlength
  rw [ofLeBytes_leBytes, ofLeBytes_leBytes] at hmod
  exact ⟨hmod, h⟩

namespace Slot

variable {α : Type} {codec : Codec α}

/-- An encoding that is found behind its length is all that is found there. -/
theorem eq_of_framed {slot : Slot α} {v : α} {s t : Bytes} (hfits : slot.Fits codec)
    (h : framed 4 (codec.serialize v) ++ s = framed 4 (slot.bytes codec) ++ t) :
    slot = ⟨v, []⟩ ∧ s = t := by
  obtain ⟨w, slack⟩ := slot
  obtain ⟨hmod, h⟩ := framed_append_eq h
  simp only [bytes, List.append_assoc, Fits, List.length_append] at h hmod hfits
  obtain ⟨rfl, rfl⟩ := codec.append_inj h
  obtain rfl : slack = [] := by
    rw [Nat.mod_eq_of_lt hfits, Nat.mod_eq_of_lt (by omega)] at hmod
    exact List.eq_nil_of_length_eq_zero (by omega)
  exact ⟨rfl, rfl⟩

end Slot

/-- A text is its bytes. -/
theorem utf8_inj {s t : String} (h : utf8 s = utf8 t) : s = t := by
  have hs := (fromUtf8_eq_some (utf8 s) s).mpr rfl
  rw [h, (fromUtf8_eq_some (utf8 t) t).mpr rfl] at hs
  exact (Option.some_injective _ hs).symm

namespace ModelFile

variable {C F : Type} {design : Design C F} {bincode : Bincode C F} {blake3 : Blake3}

/-- What `deserialize` has found in a byte string when it compares the checksums. -/
structure Found (design : Design C F) (bincode : Bincode C F) (file : ModelFile C F)
    (bytes : Bytes) : Prop where
  bytes_eq : bytes = file.bytes bincode
  fits : file.Fits bincode
  count : file.layers.length = (design.hiddenDims file.config.value).length + 1
  length_checksum : file.checksum.length = 32

/-- What is accepted has been found. -/
theorem Accepted.found {file : ModelFile C F} (h : file.Accepted design bincode blake3) :
    file.Found design bincode (file.bytes bincode) :=
  ⟨rfl, h.fits, h.count, h.length_checksum⟩

/-- The bytes of a file behind its version. -/
def behindVersion (bincode : Bincode C F) (file : ModelFile C F) : Bytes :=
  file.checksum ++ (framed 4 (file.config.bytes bincode.config) ++
    (file.layers.flatMap (layerBytes bincode) ++ file.rest))

/-- A file is its version and what stands behind it. -/
theorem bytes_eq (file : ModelFile C F) :
    file.bytes bincode = framed 2 (utf8 file.version) ++ file.behindVersion bincode := rfl

/-- No layer has bytes behind its encodings. -/
def Tight (layers : List (Slot (Array2 F) × Slot (Array1 F))) : Prop :=
  ∀ layer ∈ layers, layer.1.slack = [] ∧ layer.2.slack = []

/-- Layers that are found are found in order, and others behind them. -/
theorem layers_eq_append {ls gs : List (Slot (Array2 F) × Slot (Array1 F))} {s t : Bytes}
    (hlength : ls.length ≤ gs.length) (htight : Tight ls)
    (hfits : ∀ l ∈ gs, l.1.Fits bincode.array2 ∧ l.2.Fits bincode.array1)
    (h : ls.flatMap (layerBytes bincode) ++ s = gs.flatMap (layerBytes bincode) ++ t) :
    ∃ more, gs = ls ++ more ∧ s = more.flatMap (layerBytes bincode) ++ t := by
  induction ls generalizing gs with
  | nil => exact ⟨gs, rfl, h⟩
  | cons l ls ih =>
      cases gs with
      | nil => cases hlength
      | cons g gs =>
          obtain ⟨hl, hls⟩ := List.forall_mem_cons.mp htight
          obtain ⟨hg, hgs⟩ := List.forall_mem_cons.mp hfits
          obtain ⟨⟨w, slack⟩, ⟨b, slack'⟩⟩ := l
          obtain ⟨rfl, rfl⟩ := hl
          simp only [List.flatMap_cons, layerBytes, List.append_assoc] at h
          simp only [Slot.bytes, List.append_nil] at h
          obtain ⟨hw, h⟩ := Slot.eq_of_framed hg.1 h
          obtain ⟨hb, h⟩ := Slot.eq_of_framed hg.2 h
          obtain ⟨more, rfl, rfl⟩ := ih (Nat.le_of_succ_le_succ hlength) hls hgs h
          exact ⟨more, by rw [← hw, ← hb]; rfl, rfl⟩

/-- What is hashed has the layers without their lengths. -/
theorem layers_eq_of_codes {ls gs : List (Slot (Array2 F) × Slot (Array1 F))}
    (hlength : ls.length ≤ gs.length)
    (h : gs.flatMap (layerCode bincode) = ls.flatMap (layerCode bincode)) :
    gs.map (fun l => (l.1.value, l.2.value)) = ls.map fun l => (l.1.value, l.2.value) := by
  have hcode : ∀ ls : List (Slot (Array2 F) × Slot (Array1 F)),
      ls.flatMap (layerCode bincode) =
        (ls.map fun l => (l.1.value, l.2.value)).flatMap
          (bincode.array2.both bincode.array1).serialize := by
    intro ls
    rw [List.flatMap_map]
    rfl
  have hne : ∀ v, (bincode.array2.both bincode.array1).serialize v ≠ [] := by
    intro v hnil
    have hlength := congrArg List.length (List.append_eq_nil_iff.mp hnil).1
    rw [length_array2, List.length_nil] at hlength
    omega
  rw [hcode, hcode] at h
  refine ((bincode.array2.both bincode.array1).flatMap_inj_of_le hne ?_ h.symm).symm
  rwa [List.length_map, List.length_map]

/-- The layers in a file are longer than what is hashed of them by the lengths and the slack.
-/
theorem length_layerBytes (ls : List (Slot (Array2 F) × Slot (Array1 F))) :
    (ls.flatMap (layerBytes bincode)).length =
      (ls.flatMap (layerCode bincode)).length + 8 * ls.length +
        (ls.map fun l => l.1.slack.length + l.2.slack.length).sum := by
  induction ls with
  | nil => rfl
  | cons l ls ih =>
      simp only [List.flatMap_cons, List.length_append, List.map_cons, List.sum_cons,
        List.length_cons, ih, layerBytes, layerCode, framed, Slot.bytes, length_leBytes]
      omega

/-- A layer has bytes. -/
theorem eq_nil_of_layerBytes {ls : List (Slot (Array2 F) × Slot (Array1 F))} {rest : Bytes}
    (h : [] = ls.flatMap (layerBytes bincode) ++ rest) : ls = [] := by
  have hlength := congrArg List.length h
  rw [List.length_append, length_layerBytes, List.length_nil] at hlength
  exact List.eq_nil_of_length_eq_zero (by omega)

/-- Without slack there is nothing to count. -/
theorem Tight.sum_eq_zero {ls : List (Slot (Array2 F) × Slot (Array1 F))} (h : Tight ls) :
    (ls.map fun l => l.1.slack.length + l.2.slack.length).sum = 0 := by
  refine List.sum_eq_zero fun n hn => ?_
  obtain ⟨l, hl, rfl⟩ := List.mem_map.mp hn
  rw [(h l hl).1, (h l hl).2]
  rfl

/-- What is hashed starts with the configuration. -/
theorem config_eq_of_hashed {f g : ModelFile C F} (hslack : f.config.slack = [])
    (h : g.hashed bincode = f.hashed bincode) :
    g.config.value = f.config.value ∧
      g.config.slack ++ g.layers.flatMap (layerCode bincode) =
        f.layers.flatMap (layerCode bincode) := by
  rw [hashed, hashed, Slot.bytes, Slot.bytes, hslack, List.append_nil, List.append_assoc] at h
  exact bincode.config.append_inj h

/-- **A configuration does not reach into the layers.** -/
theorem slack_eq_nil {ls gs : List (Slot (Array2 F) × Slot (Array1 F))} {slack rest : Bytes}
    (htight : Tight ls) (hlength : ls.length ≤ gs.length) (hne : gs ≠ [])
    (hfits : ∀ l ∈ gs, l.1.Fits bincode.array2 ∧ l.2.Fits bincode.array1)
    (hcode : slack ++ gs.flatMap (layerCode bincode) = ls.flatMap (layerCode bincode))
    (hbytes : ls.flatMap (layerBytes bincode) =
      slack ++ (gs.flatMap (layerBytes bincode) ++ rest)) :
    slack = [] := by
  by_contra hslack
  have hcodeLength := congrArg List.length hcode
  have hbytesLength := congrArg List.length hbytes
  rw [length_layerBytes, htight.sum_eq_zero] at hbytesLength
  simp only [List.length_append, length_layerBytes] at hcodeLength hbytesLength
  obtain ⟨g, gs, rfl⟩ := List.exists_cons_of_ne_nil hne
  cases ls with
  | nil =>
      rw [List.length_nil, List.length_cons] at hbytesLength
      omega
  | cons l ls =>
      -- There is no room for slack behind the first array that is found.
      rw [List.map_cons, List.sum_cons] at hbytesLength
      have hg : g.1.slack = [] := List.eq_nil_of_length_eq_zero (by omega)
      have hl : l.1.slack = [] := (htight l List.mem_cons_self).1
      have hgfits := (hfits g List.mem_cons_self).1
      simp only [List.flatMap_cons, layerCode, layerBytes, Slot.bytes, Slot.Fits, hl, hg,
        List.append_nil, List.append_assoc] at hcode hbytes hgfits
      exact Shifted.elim ⟨hgfits, hslack, hcode.symm, hbytes⟩

end ModelFile

/-! ## Models and their bytes -/

namespace Network

variable {C F : Type} {design : Design C F} {bincode : Bincode C F} {blake3 : Blake3}

/-- The same version, configuration, weights and biases. -/
structure SameModel (m m' : Network C F) : Prop where
  version : m'.version = m.version
  config : m'.config = m.config
  weights : m'.weights = m.weights
  biases : m'.biases = m.biases

/-- What also holds of a model that `deserialize` has left half read. -/
structure Bounded (design : Design C F) (m : Network C F) : Prop where
  version : (utf8 m.version).length < 256 ^ 2
  weights : m.weights.length ≤ (design.hiddenDims m.config).length + 1
  biases : m.biases.length ≤ (design.hiddenDims m.config).length + 1

/-- A model with as many layers as a file of its configuration. -/
theorem Bounded.complete {m : Network C F} (hm : m.Bounded design)
    (hlayers : m.layers.length = (design.hiddenDims m.config).length + 1) : m.Complete design := by
  rw [layers, List.length_zip] at hlayers
  have hweights := hm.weights
  have hbiases := hm.biases
  exact ⟨by omega, by omega⟩

/-- The layers that are written are at most those that are read. -/
theorem Bounded.length_layers {m : Network C F} (hm : m.Bounded design) :
    m.layers.length ≤ (design.hiddenDims m.config).length + 1 := by
  rw [layers, List.length_zip]
  exact (min_le_left _ _).trans hm.weights

/-- What a model writes has no slack. -/
theorem tight_file (m : Network C F) : ModelFile.Tight (m.file design bincode blake3).layers := by
  intro l hl
  obtain ⟨parts, -, rfl⟩ := List.mem_map.mp hl
  exact ⟨rfl, rfl⟩

variable (design bincode blake3) in
/-- And has its layers. -/
theorem length_layers_file (m : Network C F) :
    (m.file design bincode blake3).layers.length = m.layers.length := List.length_map _

/-- The bytes of a model behind its version, without slack. -/
theorem behindVersion_file (m : Network C F) :
    (m.file design bincode blake3).behindVersion bincode =
      checksum design blake3 (m.hashed bincode) ++
        (framed 4 (bincode.config.serialize m.config) ++
          (m.file design bincode blake3).layers.flatMap (ModelFile.layerBytes bincode)) := by
  simp [ModelFile.behindVersion, file, Slot.bytes]

/-- `serialize` writes the file of the model. -/
theorem serialize_eq (m : Network C F) :
    m.serialize design bincode blake3 =
      framed 2 (utf8 m.version) ++ (m.file design bincode blake3).behindVersion bincode := by
  rw [← bytes_file, ModelFile.bytes_eq]
  rfl

/-- **What hashes like a model is that model**, if no byte behind its configuration is hashed. -/
theorem sameModel_of_hashed {m : Network C F} (hm : m.Bounded design) {g : ModelFile C F}
    (hg : g.Accepted design bincode blake3) (hversion : g.version = m.version)
    (hslack : g.config.slack = []) (hhashed : g.hashed bincode = m.hashed bincode)
    (trainingSteps : UInt64) : SameModel m (g.network trainingSteps) := by
  have hfile : (m.file design bincode blake3).hashed bincode = _ := hashed_file m
  rw [← hfile] at hhashed
  obtain ⟨hconfig, hcodes⟩ := ModelFile.config_eq_of_hashed rfl hhashed
  have hconfig' : g.config.value = m.config := hconfig
  have hlength := hm.length_layers
  rw [← length_layers_file design bincode blake3, ← hconfig',
    ← hg.count] at hlength
  rw [hslack, List.nil_append] at hcodes
  have hlayers := ModelFile.layers_eq_of_codes hlength hcodes
  have hcount := congrArg List.length hlayers
  rw [List.length_map, List.length_map, hg.count, hconfig', length_layers_file] at hcount
  have hnetwork : (m.file design bincode blake3).network trainingSteps = _ :=
    network_file (hm.complete hcount.symm) trainingSteps
  refine ⟨hversion, hconfig', ?_, ?_⟩
  · have hweights := congrArg (List.map Prod.fst) hlayers
    rw [List.map_map, List.map_map] at hweights
    exact hweights.trans (congrArg Network.weights hnetwork)
  · have hbiases := congrArg (List.map Prod.snd) hlayers
    rw [List.map_map, List.map_map] at hbiases
    exact hbiases.trans (congrArg Network.biases hnetwork)

/-- The bytes of a model behind its checksum, read as a file. -/
theorem read_behind {m : Network C F} (hm : m.Bounded design) {g : ModelFile C F}
    (hfits : g.Fits bincode)
    (hcount : g.layers.length = (design.hiddenDims g.config.value).length + 1) {more : Bytes}
    (h : framed 4 (bincode.config.serialize m.config) ++
        ((m.file design bincode blake3).layers.flatMap (ModelFile.layerBytes bincode) ++ more) =
      framed 4 (g.config.bytes bincode.config) ++
        (g.layers.flatMap (ModelFile.layerBytes bincode) ++ g.rest)) :
    g.config = ⟨m.config, []⟩ ∧ ∃ ls, g.layers = (m.file design bincode blake3).layers ++ ls ∧
      more = ls.flatMap (ModelFile.layerBytes bincode) ++ g.rest := by
  obtain ⟨hconfig, h⟩ := Slot.eq_of_framed hfits.config h
  have hlength := hm.length_layers
  rw [← length_layers_file design bincode blake3,
    ← show g.config.value = m.config by rw [hconfig], ← hcount] at hlength
  exact ⟨hconfig, ModelFile.layers_eq_append hlength (tight_file m) hfits.layers h⟩

/-- What is read behind a checksum that is that of the model. -/
theorem sameModel_of_checksum {m : Network C F} (hm : m.Bounded design) {g : ModelFile C F}
    (hg : g.Accepted design bincode blake3) (hversion : g.version = m.version)
    (hinj : checksum design blake3 (g.hashed bincode) = checksum design blake3 (m.hashed bincode) →
      g.hashed bincode = m.hashed bincode)
    (hsum : g.checksum = checksum design blake3 (m.hashed bincode))
    (hslack : g.config.slack = []) (trainingSteps : UInt64) :
    SameModel m (g.network trainingSteps) :=
  sameModel_of_hashed hm hg hversion hslack (hinj (hg.checksum.symm.trans hsum)) trainingSteps

/-- If the hashed bytes agree, the appended ones are the rest behind the last layer. -/
theorem sameModel_of_append {m : Network C F} (hm : m.Bounded design) {more : Bytes}
    {g : ModelFile C F} (hg : g.Accepted design bincode blake3)
    (hbytes : m.serialize design bincode blake3 ++ more = g.bytes bincode)
    (hinj : checksum design blake3 (g.hashed bincode) = checksum design blake3 (m.hashed bincode) →
      g.hashed bincode = m.hashed bincode) (trainingSteps : UInt64) :
    SameModel m (g.network trainingSteps) := by
  rw [serialize_eq, ModelFile.bytes_eq, List.append_assoc] at hbytes
  obtain ⟨hversion, h⟩ := framed_append_inj hm.version hg.fits.version hbytes
  rw [behindVersion_file, ModelFile.behindVersion, List.append_assoc, List.append_assoc] at h
  obtain ⟨hsum, h⟩ := List.append_inj h ((blake3.length_digest _).trans hg.length_checksum.symm)
  obtain ⟨hconfig, -⟩ := read_behind hm hg.fits hg.count h
  refine sameModel_of_checksum hm hg (utf8_inj hversion.symm) hinj hsum.symm ?_ trainingSteps
  rw [hconfig]

/-- A changed checksum. -/
theorem sameModel_of_other_checksum {m : Network C F} (hm : m.Bounded design) {sum : Bytes}
    (hlength : sum.length = 32) {g : ModelFile C F} (hg : g.Accepted design bincode blake3)
    (hversion : g.version = m.version)
    (h : sum ++ (framed 4 (bincode.config.serialize m.config) ++
        (m.file design bincode blake3).layers.flatMap (ModelFile.layerBytes bincode)) =
      g.behindVersion bincode) (trainingSteps : UInt64) :
    SameModel m (g.network trainingSteps) := by
  obtain ⟨-, h⟩ := List.append_inj h (hlength.trans hg.length_checksum.symm)
  rw [← List.append_nil (List.flatMap _ _)] at h
  obtain ⟨hconfig, ls, hlayers, hrest⟩ := read_behind hm hg.fits hg.count h
  obtain rfl := ModelFile.eq_nil_of_layerBytes hrest
  refine sameModel_of_hashed hm hg hversion (by rw [hconfig]) ?_ trainingSteps
  have hfile : (m.file design bincode blake3).hashed bincode = _ := hashed_file m
  rw [← hfile, ModelFile.hashed, ModelFile.hashed,
    hlayers, hconfig, List.append_nil]
  rfl

/-- A change behind the checksum. -/
theorem slack_eq_nil_of_change {m : Network C F} (hm : m.Bounded design) {k : ℕ} {x : UInt8}
    {g : ModelFile C F} (hg : g.Accepted design bincode blake3)
    (hhashed : g.hashed bincode = m.hashed bincode)
    (h : (framed 4 (bincode.config.serialize m.config) ++
        (m.file design bincode blake3).layers.flatMap (ModelFile.layerBytes bincode)).set k x =
      framed 4 (g.config.bytes bincode.config) ++
        (g.layers.flatMap (ModelFile.layerBytes bincode) ++ g.rest)) :
    g.config.slack = [] := by
  have hfile : (m.file design bincode blake3).hashed bincode = _ := hashed_file m
  rw [← hfile] at hhashed
  obtain ⟨hconfig, hcodes⟩ := ModelFile.config_eq_of_hashed rfl hhashed
  have hconfig' : g.config.value = m.config := hconfig
  have hfits := hg.fits.config
  simp only [framed, Slot.bytes, List.append_assoc, hconfig'] at h
  simp only [Slot.Fits, Slot.bytes, hconfig', List.length_append] at hfits
  obtain hlt | hge := Nat.lt_or_ge k (leBytes 4 (bincode.config.serialize m.config).length).length
  · -- The length of the configuration is another one, so that the layers begin later.
    rw [List.set_append_left _ _ hlt] at h
    obtain ⟨-, h⟩ := List.append_inj h (by rw [List.length_set, length_leBytes, length_leBytes])
    have hlength := hm.length_layers
    rw [← length_layers_file design bincode blake3, ← hconfig',
      ← hg.count] at hlength
    have hne : g.layers ≠ [] :=
      List.ne_nil_of_length_pos (by rw [hg.count]; exact Nat.succ_pos _)
    exact ModelFile.slack_eq_nil (tight_file m) hlength hne hg.fits.layers hcodes
      (List.append_cancel_left h)
  · rw [List.set_append_right _ _ hge] at h
    obtain ⟨hlength, -⟩ := List.append_inj h (by rw [length_leBytes, length_leBytes])
    have hmod := congrArg ofLeBytes hlength
    rw [ofLeBytes_leBytes, ofLeBytes_leBytes, List.length_append, Nat.mod_eq_of_lt hfits,
      Nat.mod_eq_of_lt (by omega)] at hmod
    exact List.eq_nil_of_length_eq_zero (by omega)

/-- **A change behind the version is not accepted as another model.** -/
theorem sameModel_of_behind {m : Network C F} (hm : m.Bounded design) {j : ℕ} {x : UInt8}
    {g : ModelFile C F} (hg : g.Accepted design bincode blake3)
    (hbytes : framed 2 (utf8 m.version) ++
      ((m.file design bincode blake3).behindVersion bincode).set j x = g.bytes bincode)
    (hinj : checksum design blake3 (g.hashed bincode) = checksum design blake3 (m.hashed bincode) →
      g.hashed bincode = m.hashed bincode) (trainingSteps : UInt64) :
    SameModel m (g.network trainingSteps) := by
  rw [ModelFile.bytes_eq] at hbytes
  obtain ⟨hversion, h⟩ := framed_append_inj hm.version hg.fits.version hbytes
  have hversion' : g.version = m.version := utf8_inj hversion.symm
  have hlength : (checksum design blake3 (m.hashed bincode)).length = 32 :=
    blake3.length_digest _
  rw [behindVersion_file] at h
  obtain hlt | hge := Nat.lt_or_ge j 32
  · rw [List.set_append_left _ _ (by omega)] at h
    exact sameModel_of_other_checksum hm (by rw [List.length_set, hlength]) hg hversion' h _
  · rw [List.set_append_right _ _ (by omega)] at h
    obtain ⟨hsum, h⟩ := List.append_inj h (hlength.trans hg.length_checksum.symm)
    have hhashed := hinj (hg.checksum.symm.trans hsum.symm)
    exact sameModel_of_hashed hm hg hversion' (slack_eq_nil_of_change hm hg hhashed h) hhashed _

/-! ### Models that come about -/

section reached

variable [Scalar F] (random : Random F)

/-- The models that come about from `new` by `update` and `deserialize` calls, also by those
that fail. -/
inductive Reached (design : Design C F) (bincode : Bincode C F) (blake3 : Blake3) :
    Network C F → Prop where
  | new {config : C} {seed : UInt64} {m : Network C F}
      (h : new design random config seed = some m) : Reached design bincode blake3 m
  | update {m m' : Network C F} {experience : Experience F}
      {result : Except IgpuMlError (UpdateResult F)} (hm : Reached design bincode blake3 m)
      (h : m.update design experience = some (m', result)) : Reached design bincode blake3 m'
  | deserialize {m m' : Network C F} {bytes : Bytes} {result : Except Failure Unit}
      (hm : Reached design bincode blake3 m)
      (h : deserialize design bincode blake3 m bytes = (m', result)) :
      Reached design bincode blake3 m'

omit [Scalar F] in
/-- The loop over the layers only adds layers. -/
theorem readLayers_frame {n : ℕ} {m m' : Network C F} {rest hashed : Bytes}
    {result : Except Failure Bytes} (h : readLayers bincode n m rest hashed = (m', result)) :
    m'.version = m.version ∧ m'.config = m.config ∧ m'.weights.length ≤ m.weights.length + n ∧
      m'.biases.length ≤ m.biases.length + n := by
  induction n generalizing m rest hashed with
  | zero =>
      obtain ⟨rfl, -⟩ := Prod.mk.inj h
      exact ⟨rfl, rfl, le_rfl, le_rfl⟩
  | succ n ih =>
      rw [readLayers] at h
      split at h
      · obtain ⟨rfl, -⟩ := Prod.mk.inj h
        exact ⟨rfl, rfl, by omega, by omega⟩
      · rename_i w rest₁ hw
        dsimp only at h
        split at h
        · obtain ⟨rfl, -⟩ := Prod.mk.inj h
          refine ⟨rfl, rfl, ?_, Nat.le_add_right _ _⟩
          rw [List.length_append, List.length_singleton]
          omega
        · obtain ⟨hversion, hconfig, hweights, hbiases⟩ := ih h
          rw [List.length_append, List.length_singleton] at hweights hbiases
          exact ⟨hversion, hconfig, by omega, by omega⟩

omit [Scalar F] in
/-- A failed `deserialize` may leave layers out, but never adds one. -/
theorem bounded_deserialize {m m' : Network C F} (hm : m.Bounded design) {bytes : Bytes}
    {result : Except Failure Unit}
    (h : deserialize design bincode blake3 m bytes = (m', result)) : m'.Bounded design := by
  unfold deserialize at h
  split at h
  · obtain ⟨rfl, -⟩ := Prod.mk.inj h
    exact hm
  · rename_i version rest hversion
    have hfits := (readVersion_eq_ok.mp hversion).1
    dsimp only at h
    split at h
    · obtain ⟨rfl, -⟩ := Prod.mk.inj h
      exact ⟨hfits, hm.weights, hm.biases⟩
    · rename_i expected configBytes config rest₁ hconfig
      have hread : ∀ {m₁ : Network C F} {result : Except Failure Bytes},
          readLayers bincode ((design.hiddenDims config).length + 1)
            { m with version := version, config := config, weights := [], biases := [] }
            rest₁ configBytes = (m₁, result) → m₁.Bounded design := by
        intro m₁ result hlayers
        obtain ⟨hversion₁, hconfig₁, hweights, hbiases⟩ := readLayers_frame hlayers
        refine ⟨hversion₁ ▸ hfits, ?_, ?_⟩
        · simpa [hconfig₁] using hweights
        · simpa [hconfig₁] using hbiases
      split at h
      · rename_i m₁ f hlayers
        obtain ⟨rfl, -⟩ := Prod.mk.inj h
        exact hread hlayers
      · rename_i m₁ hashed hlayers
        split_ifs at h
        · obtain ⟨rfl, -⟩ := Prod.mk.inj h
          exact hread hlayers
        · obtain ⟨rfl, -⟩ := Prod.mk.inj h
          exact hread hlayers

/-- By induction on the calls. -/
theorem Reached.bounded {m : Network C F} (hm : Reached random design bincode blake3 m) :
    m.Bounded design := by
  induction hm with
  | new h =>
      have hcomplete := complete_new random h
      simp only [Network.new, Option.bind_eq_bind, Option.bind_eq_some_iff] at h
      obtain ⟨⟨ws, bs⟩, -, h⟩ := h
      obtain rfl := Option.some_injective _ h
      have hversion : (utf8 "1.0.0").length < 256 ^ 2 := by decide
      exact ⟨hversion, hcomplete.weights.le, hcomplete.biases.le⟩
  | update _ h ih =>
      have hframe := update_frame design h
      refine ⟨?_, ?_, ?_⟩
      · rw [hframe.version]
        exact ih.version
      · rw [hframe.config, hframe.length_weights]
        exact ih.weights
      · rw [hframe.config, hframe.length_biases]
        exact ih.biases
  | deserialize _ h ih => exact bounded_deserialize ih h

end reached

/-! ### Changes -/

/-- One byte is changed, or bytes are appended. -/
inductive Tampering where
  | change (i : ℕ) (x : UInt8)
  | append (more : Bytes)

namespace Tampering

/-- The bytes behind the change. -/
def apply : Tampering → Bytes → Bytes
  | change i x, bytes => bytes.set i x
  | append more, bytes => bytes ++ more

/-- There is a byte at this place, and it is another one. -/
def Real (bytes : Bytes) : Tampering → Prop
  | change i x => ∃ y, bytes[i]? = some y ∧ y ≠ x
  | append _ => True

/-- What the checksum is computed from, of bytes that begin with the length of a
configuration. -/
def HashedAs (design : Design C F) (bincode : Bincode C F) (bytes hashed : Bytes) : Prop :=
  ∃ (config : Slot C) (layers : List (Slot (Array2 F) × Slot (Array1 F))) (rest : Bytes),
    config.Fits bincode.config ∧
      (∀ layer ∈ layers, layer.1.Fits bincode.array2 ∧ layer.2.Fits bincode.array1) ∧
      layers.length = (design.hiddenDims config.value).length + 1 ∧
      bytes = framed 4 (config.bytes bincode.config) ++
        (layers.flatMap (ModelFile.layerBytes bincode) ++ rest) ∧
      hashed = config.bytes bincode.config ++ layers.flatMap (ModelFile.layerCode bincode)

/-- The bytes begin with a text of `n` bytes, and behind it stands the checksum of what
follows. -/
def SplitsAt (design : Design C F) (bincode : Bincode C F) (blake3 : Blake3) (bytes : Bytes)
    (n : ℕ) : Prop :=
  fromUtf8 (bytes.take n) ≠ none ∧
    ∃ hashed, HashedAs design bincode (bytes.drop (n + 32)) hashed ∧
      (bytes.drop n).take 32 = checksum design blake3 hashed

/-- The changes that are never accepted as another model.  The version is not covered by the
checksum, and neither is its length: with another length the bytes behind it, which have not
changed, are split at another place. -/
def Harmless (design : Design C F) (bincode : Bincode C F) (blake3 : Blake3) (m : Network C F) :
    Tampering → Prop
  | change i x =>
      if i < 2 then
        ¬ SplitsAt design bincode blake3
          (utf8 m.version ++ (m.file design bincode blake3).behindVersion bincode)
          (ofLeBytes ((leBytes 2 (utf8 m.version).length).set i x))
      else if i < 2 + (utf8 m.version).length then
        fromUtf8 ((utf8 m.version).set (i - 2) x) = none ∨
          ¬ (m.Complete design ∧ m.Fits bincode)
      else True
  | append _ => True

end Tampering

/-- A change of the version. -/
theorem accepted_version {m : Network C F} (hm : m.Bounded design) {text : Bytes}
    (hlength : text.length = (utf8 m.version).length) :
    (∃ g : ModelFile C F, g.Accepted design bincode blake3 ∧ g.bytes bincode = framed 2 text ++
        (m.file design bincode blake3).behindVersion bincode) ↔
      fromUtf8 text ≠ none ∧ m.Complete design ∧ m.Fits bincode := by
  have hversion := hm.version
  constructor
  · rintro ⟨g, hg, hbytes⟩
    rw [ModelFile.bytes_eq] at hbytes
    obtain ⟨htext, h⟩ := framed_append_inj hg.fits.version (hlength ▸ hm.version) hbytes
    refine ⟨?_, ?_⟩
    · rw [(fromUtf8_eq_some text g.version).mpr htext.symm]
      exact Option.some_ne_none _
    rw [behindVersion_file, ModelFile.behindVersion] at h
    obtain ⟨-, h⟩ := List.append_inj h (hg.length_checksum.trans (blake3.length_digest _).symm)
    rw [← List.append_nil (List.flatMap _ (m.file design bincode blake3).layers)] at h
    obtain ⟨hconfig, ls, hlayers, hrest⟩ := read_behind hm hg.fits hg.count h.symm
    obtain rfl := ModelFile.eq_nil_of_layerBytes hrest
    rw [List.append_nil] at hlayers
    have hcount := hg.count
    rw [hlayers, length_layers_file, hconfig] at hcount
    refine ⟨hm.complete hcount, hm.version, ?_, fun layer hlayer => ?_⟩
    · have hfits := hg.fits.config
      rw [hconfig] at hfits
      simpa [Slot.Fits, Slot.bytes] using hfits
    · have hfits := hg.fits.layers (⟨layer.1, []⟩, ⟨layer.2, []⟩)
        (hlayers ▸ List.mem_map_of_mem hlayer)
      simpa [Slot.Fits, Slot.bytes] using hfits
  · rintro ⟨htext, hcomplete, hfits⟩
    obtain ⟨s, hs⟩ := Option.ne_none_iff_exists'.mp htext
    obtain rfl := (fromUtf8_eq_some text s).mp hs
    have hfile : (m.file design bincode blake3).Accepted design bincode blake3 :=
      accepted_file hcomplete hfits
    refine ⟨{ m.file design bincode blake3 with version := s }, ?_, rfl⟩
    exact ⟨⟨hlength ▸ hversion, hfile.fits.config, hfile.fits.layers⟩, hfile.count, hfile.checksum⟩

/-- A file behind the length of its version: the text, the checksum and what it is of. -/
theorem splitsAt_iff {bytes : Bytes} {n : ℕ} (hn : n < 256 ^ 2) :
    Tampering.SplitsAt design bincode blake3 bytes n ↔
      ∃ g : ModelFile C F, g.Accepted design bincode blake3 ∧ (utf8 g.version).length = n ∧
        utf8 g.version ++ g.behindVersion bincode = bytes := by
  constructor
  · rintro ⟨htext, hashed, ⟨config, layers, rest, hconfig, hlayers, hcount, hrest, rfl⟩, hsum⟩
    obtain ⟨s, hs⟩ := Option.ne_none_iff_exists'.mp htext
    have hversion := (fromUtf8_eq_some _ s).mp hs
    -- The checksum has 32 bytes, so there are `n` in front of it.
    have hlength := congrArg List.length hsum
    rw [List.length_take, List.length_drop, checksum, blake3.length_digest] at hlength
    have htake : (utf8 s).length = n := by
      rw [← hversion, List.length_take, min_eq_left (by omega)]
    refine ⟨⟨s, (bytes.drop n).take 32, config, layers, rest⟩,
      ⟨⟨htake ▸ hn, hconfig, hlayers⟩, hcount, hsum⟩, htake, ?_⟩
    rw [ModelFile.behindVersion, ← hrest, ← hversion, ← List.drop_drop, List.take_append_drop,
      List.take_append_drop]
  · rintro ⟨g, hg, rfl, rfl⟩
    have hsum := hg.length_checksum
    refine ⟨?_, g.hashed bincode, ⟨g.config, g.layers, g.rest, hg.fits.config, hg.fits.layers,
      hg.count, ?_, rfl⟩, ?_⟩
    · rw [List.take_left, (fromUtf8_eq_some _ g.version).mpr rfl]
      exact Option.some_ne_none _
    · rw [← List.drop_drop, List.drop_left, ModelFile.behindVersion, ← hsum, List.drop_left]
    · rw [List.drop_left, ModelFile.behindVersion, ← hsum, List.take_left, hg.checksum]

/-- A change of the length of the version. -/
theorem accepted_length {m : Network C F} {text : Bytes} (hlength : text.length = 2) :
    (∃ g : ModelFile C F, g.Accepted design bincode blake3 ∧ g.bytes bincode =
        text ++ (utf8 m.version ++ (m.file design bincode blake3).behindVersion bincode)) ↔
      Tampering.SplitsAt design bincode blake3
        (utf8 m.version ++ (m.file design bincode blake3).behindVersion bincode)
        (ofLeBytes text) := by
  rw [splitsAt_iff (hlength ▸ ofLeBytes_lt text)]
  constructor
  · rintro ⟨g, hg, hbytes⟩
    rw [ModelFile.bytes_eq, framed, List.append_assoc] at hbytes
    obtain ⟨htext, h⟩ := List.append_inj hbytes (by rw [length_leBytes, hlength])
    refine ⟨g, hg, ?_, h⟩
    rw [← htext, ofLeBytes_leBytes_of_lt hg.fits.version]
  · rintro ⟨g, hg, hn, h⟩
    refine ⟨g, hg, ?_⟩
    rw [ModelFile.bytes_eq, framed, List.append_assoc, h, hn, leBytes_ofLeBytes hlength]

/-- A change to another byte gives other bytes. -/
theorem set_ne {bytes : Bytes} {i : ℕ} {x y : UInt8} (hy : bytes[i]? = some y) (hne : y ≠ x) :
    bytes.set i x ≠ bytes := by
  intro hset
  obtain ⟨hi, -⟩ := List.getElem?_eq_some_iff.mp hy
  rw [← hset, List.getElem?_set_self hi] at hy
  exact hne (Option.some_injective _ hy).symm

/-- What `blake3` gets, of the model and of what is found in the bytes. -/
def hashInputs (design : Design C F) (bincode : Bincode C F) (m : Network C F) (bytes : Bytes) :
    Set Bytes :=
  {input | input = ascii design.tag ++ m.hashed bincode ∨
    ∃ g : ModelFile C F, g.Found design bincode bytes ∧
      input = ascii design.tag ++ g.hashed bincode}

/-- On the inputs that occur, equal digests are of equal bytes. -/
theorem hashed_eq_of_injOn {m : Network C F} {bytes : Bytes}
    (hinj : Set.InjOn blake3.digest (hashInputs design bincode m bytes)) {g : ModelFile C F}
    (hg : g.Accepted design bincode blake3) (hbytes : bytes = g.bytes bincode)
    (hsum : checksum design blake3 (g.hashed bincode) = checksum design blake3 (m.hashed bincode)) :
    g.hashed bincode = m.hashed bincode :=
  List.append_cancel_left (hinj (.inr ⟨g, hbytes ▸ hg.found, rfl⟩) (.inl rfl) hsum)

/-- No file with these bytes is another model. -/
def NeverOther (design : Design C F) (bincode : Bincode C F) (blake3 : Blake3) (m : Network C F)
    (bytes : Bytes) (trainingSteps : UInt64) : Prop :=
  ∀ g : ModelFile C F, g.Accepted design bincode blake3 → g.bytes bincode = bytes →
    SameModel m (g.network trainingSteps)

/-- What the receiver held before does not matter for what is accepted. -/
theorem neverOther_iff (m : Network C F) (bytes : Bytes) (r : Network C F) :
    (∀ r', deserialize design bincode blake3 r bytes = (r', .ok ()) → SameModel m r') ↔
      NeverOther design bincode blake3 m bytes r.trainingSteps := by
  constructor
  · intro h g hg hbytes
    exact h _ ((deserialize_ok_iff design bincode blake3).mpr ⟨g, hbytes.symm, hg, rfl⟩)
  · intro h r' hr'
    obtain ⟨g, hbytes, hg, rfl⟩ := (deserialize_ok_iff design bincode blake3).mp hr'
    exact h g hg hbytes.symm

/-- A file with another length of its version never says the same model. -/
theorem neverOther_length_iff (m : Network C F) {i : ℕ} {x y : UInt8}
    (hy : (leBytes 2 (utf8 m.version).length)[i]? = some y) (hne : y ≠ x) (steps : UInt64) :
    NeverOther design bincode blake3 m ((leBytes 2 (utf8 m.version).length).set i x ++
        (utf8 m.version ++ (m.file design bincode blake3).behindVersion bincode)) steps ↔
      ¬ Tampering.SplitsAt design bincode blake3
        (utf8 m.version ++ (m.file design bincode blake3).behindVersion bincode)
        (ofLeBytes ((leBytes 2 (utf8 m.version).length).set i x)) := by
  have hlength : ((leBytes 2 (utf8 m.version).length).set i x).length = 2 := by
    rw [List.length_set, length_leBytes]
  rw [← accepted_length hlength]
  constructor
  · rintro h ⟨g, hg, hbytes⟩
    -- The version that is found has another length.
    have hsame := (h g hg hbytes).version
    have hversion : g.version = m.version := hsame
    rw [ModelFile.bytes_eq, framed, List.append_assoc, hversion] at hbytes
    obtain ⟨hset, -⟩ := List.append_inj hbytes (by rw [length_leBytes, hlength])
    exact set_ne hy hne hset.symm
  · intro h g hg hbytes
    exact absurd ⟨g, hg, hbytes⟩ h

/-- A text that is UTF-8 is accepted as another version, if the model is written whole. -/
theorem neverOther_version_iff {m : Network C F} (hm : m.Bounded design) {i : ℕ} {x y : UInt8}
    (hy : (utf8 m.version)[i]? = some y) (hne : y ≠ x) (steps : UInt64) :
    NeverOther design bincode blake3 m (framed 2 ((utf8 m.version).set i x) ++
        (m.file design bincode blake3).behindVersion bincode) steps ↔
      fromUtf8 ((utf8 m.version).set i x) = none ∨ ¬ (m.Complete design ∧ m.Fits bincode) := by
  have hlength : ((utf8 m.version).set i x).length = (utf8 m.version).length := List.length_set
  have haccepted : (∃ g : ModelFile C F, g.Accepted design bincode blake3 ∧ _) ↔ _ :=
    accepted_version hm hlength
  constructor
  · intro h
    by_contra hnot
    obtain ⟨htext, hfile⟩ := not_or.mp hnot
    obtain ⟨g, hg, hbytes⟩ := haccepted.mpr ⟨htext, not_not.mp hfile⟩
    have hsame := (h g hg hbytes).version
    have hversion : g.version = m.version := hsame
    rw [ModelFile.bytes_eq, hversion] at hbytes
    obtain ⟨-, hset⟩ := framed_append_eq hbytes
    obtain ⟨hset, -⟩ := List.append_inj hset (by rw [List.length_set])
    exact set_ne hy hne hset.symm
  · intro h g hg hbytes
    obtain ⟨htext, hfile⟩ := haccepted.mp ⟨g, hg, hbytes⟩
    exact absurd h (not_or.mpr ⟨htext, not_not.mpr hfile⟩)

/-- **Which changes are never accepted as another model**: those behind the version, those
that leave no UTF-8 text in it, and those of its length, unless the bytes behind it split at the
changed length as well. -/
theorem tampered_iff [Scalar F] {random : Random F} {m : Network C F}
    (hm : Reached random design bincode blake3 m) (t : Tampering)
    (ht : t.Real (m.serialize design bincode blake3))
    (hinj : Set.InjOn blake3.digest
      (hashInputs design bincode m (t.apply (m.serialize design bincode blake3))))
    (r : Network C F) :
    (∀ r', deserialize design bincode blake3 r (t.apply (m.serialize design bincode blake3)) =
        (r', .ok ()) → SameModel m r') ↔ t.Harmless design bincode blake3 m := by
  have hbounded := hm.bounded
  rw [neverOther_iff]
  cases t with
  | append more =>
      refine iff_of_true (fun g hg hbytes => ?_) trivial
      exact sameModel_of_append hbounded hg hbytes.symm
        (hashed_eq_of_injOn hinj hg hbytes.symm) _
  | change i x =>
      obtain ⟨y, hy, hne⟩ := ht
      have hlength : (leBytes 2 (utf8 m.version).length).length = 2 := length_leBytes _ _
      rw [Tampering.Harmless]
      rw [Tampering.apply] at hinj ⊢
      rw [serialize_eq] at hy hinj ⊢
      split_ifs with hi hversion
      · rw [framed, List.append_assoc, List.getElem?_append_left (by omega)] at hy
        rw [framed, List.append_assoc, List.set_append_left _ _ (by omega)]
        exact neverOther_length_iff m hy hne _
      · have hset : ((utf8 m.version).set (i - 2) x).length = (utf8 m.version).length :=
          List.length_set
        rw [framed, List.append_assoc, List.getElem?_append_right (by omega), hlength,
          List.getElem?_append_left (by omega)] at hy
        rw [framed, List.append_assoc, List.set_append_right _ _ (by omega), hlength,
          List.set_append_left _ _ (by omega), ← List.append_assoc, ← hset]
        exact neverOther_version_iff hbounded hy hne _
      · refine iff_of_true (fun g hg hbytes => ?_) trivial
        have hinj' := hashed_eq_of_injOn hinj hg hbytes.symm
        have hframed : (framed 2 (utf8 m.version)).length ≤ i := by
          rw [framed, List.length_append, hlength]
          omega
        rw [List.set_append_right _ _ hframed] at hbytes
        exact sameModel_of_behind hbounded hg hbytes.symm hinj' _

/-- Behind another version the same is hashed, also if bytes follow. -/
theorem hashed_of_found {m : Network C F} (hm : m.Complete design) {text more : Bytes}
    (htext : text.length < 256 ^ 2) {g : ModelFile C F}
    (hg : g.Found design bincode (framed 2 text ++
      ((m.file design bincode blake3).behindVersion bincode ++ more))) :
    g.hashed bincode = m.hashed bincode := by
  have hbytes := hg.bytes_eq
  rw [ModelFile.bytes_eq] at hbytes
  obtain ⟨hversion, h⟩ := framed_append_inj htext hg.fits.version hbytes
  rw [behindVersion_file, ModelFile.behindVersion, List.append_assoc, List.append_assoc] at h
  obtain ⟨-, h⟩ := List.append_inj h ((blake3.length_digest _).trans hg.length_checksum.symm)
  obtain ⟨hconfig, h⟩ := Slot.eq_of_framed hg.fits.config h
  have hlength : m.layers.length = (design.hiddenDims m.config).length + 1 := by
    rw [layers, List.length_zip, hm.weights, hm.biases, min_self]
  have hcount := hg.count
  rw [hconfig, ← hlength, ← length_layers_file design bincode blake3] at hcount
  obtain ⟨ls, hlayers, -⟩ := ModelFile.layers_eq_append hcount.ge (tight_file m) hg.fits.layers h
  obtain rfl : ls = [] := by
    rw [hlayers, List.length_append] at hcount
    exact List.eq_nil_of_length_eq_zero (by omega)
  have hfile : (m.file design bincode blake3).hashed bincode = _ := hashed_file m
  rw [← hfile, ModelFile.hashed, ModelFile.hashed,
    hlayers, hconfig, List.append_nil]
  rfl

/-- The digest is injective where there is one input. -/
theorem injOn_hashInputs {m : Network C F} {bytes : Bytes}
    (h : ∀ g : ModelFile C F, g.Found design bincode bytes → g.hashed bincode = m.hashed bincode) :
    Set.InjOn blake3.digest (hashInputs design bincode m bytes) := by
  have heq : ∀ input ∈ hashInputs design bincode m bytes,
      input = ascii design.tag ++ m.hashed bincode := by
    rintro input (rfl | ⟨g, hg, rfl⟩)
    · rfl
    · rw [h g hg]
  intro x hx y hy _
  rw [heq x hx, heq y hy]

/-- The model without layers' entries is one that the constructor makes. -/
theorem reached_emptyModel {blake3 : Blake3} :
    Reached (fun _ _ => .zero) (dynamicTileTransformer F32) dynamicTileTransformerBincode
      blake3 emptyModel := by
  have hnew : new (dynamicTileTransformer F32) (fun _ _ => .zero) emptyConfig 42 =
      some emptyModel := rfl
  exact .new hnew

/-- The bytes of the empty model. -/
def emptyModelBytes (design : Design (DynamicTileTransformerConfig F32) F32) : Bytes :=
  emptyModel.serialize design dynamicTileTransformerBincode emptyModelBlake3

/-- The high byte of the first weight of `tileModel`: one half becomes one eighth. -/
def firstWeight : Tampering := .change 127 0x3e

/-- The model that has this weight. -/
def lightModel : Network (DynamicTileTransformerConfig F32) F32 :=
  { tileModel with
    weights := [⟨3, 8, ⟨0x3e000000⟩ :: (List.range' 1 23).map fromHalf, rfl,
      Array2.fits_three_eight⟩, scoreWeights] }

/-- What `blake3` gives for the bytes of the two models. -/
def twoModelsBlake3 : Blake3 where
  digest bytes :=
    if bytes = ascii "dynamic-tile-transformer-v1" ++
        lightModel.hashed dynamicTileTransformerBincode then
      [0x0f, 0x56, 0x7e, 0x4a, 0x57, 0xda, 0x45, 0x15, 0x41, 0x5e, 0xf4, 0x44, 0x50, 0x33, 0x76,
        0x81, 0xb7, 0xf4, 0x47, 0xf1, 0x5a, 0x64, 0x20, 0x28, 0x22, 0x5d, 0x8f, 0xb7, 0x07, 0xdc,
        0x75, 0xa2]
    else tileModelBlake3.digest bytes
  length_digest bytes := by
    split_ifs
    · rfl
    · exact tileModelBlake3.length_digest bytes

/-- The two digests differ. -/
theorem injOn_twoModels : Set.InjOn twoModelsBlake3.digest
    {ascii "dynamic-tile-transformer-v1" ++ tileModel.hashed dynamicTileTransformerBincode,
      ascii "dynamic-tile-transformer-v1" ++ lightModel.hashed dynamicTileTransformerBincode} := by
  rw [Set.injOn_pair]
  intro heq
  exact absurd heq (by decide +kernel)

/-- The bytes of `tileModel`. -/
def tileModelBytes (design : Design (DynamicTileTransformerConfig F32) F32) : Bytes :=
  tileModel.serialize design dynamicTileTransformerBincode twoModelsBlake3

/-- The changed bytes are those of the other model, with the checksum of the first. -/
theorem apply_firstWeight :
    firstWeight.apply (tileModelBytes (dynamicTileTransformer F32)) =
      framed 2 (utf8 "1.0.0") ++ ((lightModel.file (dynamicTileTransformer F32)
        dynamicTileTransformerBincode tileModelBlake3).behindVersion
          dynamicTileTransformerBincode ++ []) := by
  rw [List.append_nil, tileModelBytes, serialize_eq]
  decide +kernel

/-- A changed weight is noticed. -/
theorem changed_weight_never_other :
    firstWeight.Real (tileModelBytes (dynamicTileTransformer F32)) ∧
      ∀ r', deserialize (dynamicTileTransformer F32) dynamicTileTransformerBincode
          twoModelsBlake3 emptyModel
          (firstWeight.apply (tileModelBytes (dynamicTileTransformer F32))) = (r', .ok ()) →
        SameModel tileModel r' := by
  have hreached : Reached (fun _ _ => .zero) (dynamicTileTransformer F32)
      dynamicTileTransformerBincode twoModelsBlake3 tileModel :=
    .deserialize reached_emptyModel deserialize_tileModel
  have hinj : Set.InjOn twoModelsBlake3.digest (hashInputs (dynamicTileTransformer F32)
      dynamicTileTransformerBincode tileModel
      (firstWeight.apply (tileModelBytes (dynamicTileTransformer F32)))) := by
    refine Set.InjOn.mono (fun input hinput => ?_) (injOn_twoModels)
    rcases hinput with rfl | ⟨g, hg, rfl⟩
    · exact Or.inl rfl
    · rw [apply_firstWeight] at hg
      have hlight : lightModel.Complete (dynamicTileTransformer F32) := ⟨rfl, rfl⟩
      rw [hashed_of_found hlight (by decide) hg]
      exact Or.inr rfl
  have hreal : firstWeight.Real (tileModelBytes (dynamicTileTransformer F32)) := by
    refine ⟨0x3f, ?_, by decide⟩
    rw [tileModelBytes, serialize_eq]
    decide +kernel
  refine ⟨hreal, (tampered_iff hreached firstWeight hreal hinj emptyModel).mpr ?_⟩
  show Tampering.Harmless _ _ _ _ (.change 127 0x3e)
  rw [Tampering.Harmless, if_neg (by decide), if_neg (by decide)]
  trivial

/-- **The version is not protected**: "1.0.0" becomes "2.0.0". -/
theorem changed_version_accepted :
    Reached (fun _ _ => .zero) (dynamicTileTransformer F32) dynamicTileTransformerBincode
        emptyModelBlake3 emptyModel ∧
      (Tampering.change 2 0x32).Real (emptyModelBytes (dynamicTileTransformer F32)) ∧
      Set.InjOn emptyModelBlake3.digest (hashInputs (dynamicTileTransformer F32)
        dynamicTileTransformerBincode emptyModel
        ((Tampering.change 2 0x32).apply (emptyModelBytes (dynamicTileTransformer F32)))) ∧
      deserialize (dynamicTileTransformer F32) dynamicTileTransformerBincode emptyModelBlake3
          emptyModel
          ((Tampering.change 2 0x32).apply (emptyModelBytes (dynamicTileTransformer F32))) =
        ({ emptyModel with version := "2.0.0" }, .ok ()) ∧
      ¬ SameModel emptyModel { emptyModel with version := "2.0.0" } := by
  have hbytes : (Tampering.change 2 0x32).apply (emptyModelBytes (dynamicTileTransformer F32)) =
      framed 2 (utf8 "2.0.0") ++ ((emptyModel.file (dynamicTileTransformer F32)
        dynamicTileTransformerBincode emptyModelBlake3).behindVersion
          dynamicTileTransformerBincode ++ []) := by
    rw [List.append_nil, emptyModelBytes, serialize_eq]
    rfl
  refine ⟨reached_emptyModel, ⟨0x31, rfl, by decide⟩, ?_, ?_, fun h => ?_⟩
  · refine injOn_hashInputs fun g hg => ?_
    rw [hbytes] at hg
    exact hashed_of_found complete_emptyModel (by decide) hg
  · have hfile : (emptyModel.file (dynamicTileTransformer F32) dynamicTileTransformerBincode
        emptyModelBlake3).Accepted (dynamicTileTransformer F32) dynamicTileTransformerBincode
          emptyModelBlake3 := accepted_file complete_emptyModel fits_emptyModel
    rw [deserialize_ok_iff]
    refine ⟨{ emptyModel.file (dynamicTileTransformer F32) dynamicTileTransformerBincode
      emptyModelBlake3 with version := "2.0.0" }, ?_, ?_, rfl⟩
    · rw [hbytes, List.append_nil]
      rfl
    · exact ⟨⟨by decide, hfile.fits.config, hfile.fits.layers⟩, hfile.count, hfile.checksum⟩
  · exact absurd h.version (by decide)

end Network

end Synapse.IgpuMl
