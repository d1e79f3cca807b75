import Mathlib

/-!
# Fixed-size records in a byte stream

A reader that steps through a byte string in strides of one record size, and a
writer that appends whole records, meet in the three facts proved here.

* **Round trip** (`records_encodeAll_append`): records written at the front of
  a string are read back, followed by whatever the rest reads as.
* **Alignment** (`records_append_of_dvd`): reading distributes over an append
  exactly where the left part is a whole number of records long.  Nothing is
  said about an append at any other offset, and nothing can be.
* **Tearing** (`records_of_prefix_encodeAll`): a byte prefix of a written stream
  reads as a prefix of the written records; the torn last record is dropped.
-/

namespace ByteRecords

/-- A byte string. -/
abbrev Bytes := List UInt8

/-! ## Little-endian words -/

/-- The `n` low bytes of `x`, least significant first. -/
def leBytes : ℕ → ℕ → Bytes
  | 0, _ => []
  | n + 1, x => UInt8.ofNat x :: leBytes n (x / 256)

/-- The number a little-endian byte string stands for. -/
def ofLeBytes : Bytes → ℕ
  | [] => 0
  | b :: rest => b.toNat + 256 * ofLeBytes rest

/-- A word of `n` bytes is `n` bytes long. -/
@[simp] theorem length_leBytes (n x : ℕ) : (leBytes n x).length = n := by
  induction n generalizing x with
  | zero => rfl
  | succ n ih => simp [leBytes, ih]

/-- Reading back gives the number modulo what `n` bytes hold. -/
theorem ofLeBytes_leBytes (n x : ℕ) : ofLeBytes (leBytes n x) = x % 256 ^ n := by
  induction n generalizing x with
  | zero => simp [leBytes, ofLeBytes, Nat.mod_one]
  | succ n ih =>
      have hb : (UInt8.ofNat x).toNat = x % 256 := by simp
      rw [leBytes, ofLeBytes, ih, hb, pow_succ', Nat.mod_mul]

/-- A value that fits its width survives the trip through its bytes. -/
theorem ofLeBytes_leBytes_of_lt {n x : ℕ} (h : x < 256 ^ n) :
    ofLeBytes (leBytes n x) = x := by
  rw [ofLeBytes_leBytes, Nat.mod_eq_of_lt h]

theorem ofLeBytes_word64 (x : UInt64) : ofLeBytes (leBytes 8 x.toNat) = x.toNat :=
  ofLeBytes_leBytes_of_lt (lt_of_lt_of_eq x.toNat_lt (by norm_num))

theorem ofLeBytes_word32 (x : UInt32) : ofLeBytes (leBytes 4 x.toNat) = x.toNat :=
  ofLeBytes_leBytes_of_lt (lt_of_lt_of_eq x.toNat_lt (by norm_num))

/-- Bytes read as a number below the power of their length. -/
theorem ofLeBytes_lt (bytes : Bytes) : ofLeBytes bytes < 256 ^ bytes.length := by
  induction bytes with
  | nil => simp [ofLeBytes]
  | cons b bytes ih =>
      have hb : b.toNat < 256 := b.toNat_lt
      rw [ofLeBytes, List.length_cons, pow_succ]
      omega

/-- Bytes survive the trip through their value. -/
theorem leBytes_ofLeBytes {n : ℕ} {bytes : Bytes} (h : bytes.length = n) :
    leBytes n (ofLeBytes bytes) = bytes := by
  induction bytes generalizing n with
  | nil => subst h; rfl
  | cons b bytes ih =>
      obtain rfl : n = bytes.length + 1 := by simpa using h.symm
      have hb : b.toNat < 256 := b.toNat_lt
      have hhead : UInt8.ofNat (b.toNat + 256 * ofLeBytes bytes) = b := by
        apply UInt8.toNat_inj.mp
        rw [UInt8.toNat_ofNat']
        omega
      have htail : (b.toNat + 256 * ofLeBytes bytes) / 256 = ofLeBytes bytes := by omega
      rw [ofLeBytes, leBytes, hhead, htail, ih rfl]

/-! ## Copying into a fixed buffer -/

/-- `memcpy(dst, src, n)`: the first `n` bytes of `src` overwrite the front of
`dst`.  The destination keeps its length. -/
def memcpy (dst src : Bytes) (n : ℕ) : Bytes :=
  (src.take n ++ dst.drop (src.take n).length).take dst.length

@[simp] theorem length_memcpy (dst src : Bytes) (n : ℕ) :
    (memcpy dst src n).length = dst.length := by
  simp only [memcpy, List.length_take, List.length_append, List.length_drop]
  omega

/-- A copy that stays inside both buffers. -/
theorem memcpy_eq {dst src : Bytes} {n : ℕ} (hsrc : n ≤ src.length)
    (hdst : n ≤ dst.length) : memcpy dst src n = src.take n ++ dst.drop n := by
  have hlen : (src.take n).length = n := by simp [hsrc]
  rw [memcpy, hlen]
  refine List.take_of_length_le ?_
  simp only [List.length_append, List.length_drop, hlen]
  omega

/-- Overwriting a whole buffer. -/
theorem memcpy_of_length_eq {dst src : Bytes} {n : ℕ} (hsrc : src.length = n)
    (hdst : dst.length = n) : memcpy dst src n = src := by
  rw [memcpy_eq hsrc.ge hdst.ge, List.take_of_length_le hsrc.le,
    List.drop_eq_nil_of_le hdst.le, List.append_nil]

/-- What was copied is at the front of the destination. -/
theorem take_memcpy {dst src : Bytes} {n : ℕ} (hsrc : n ≤ src.length)
    (hdst : n ≤ dst.length) : (memcpy dst src n).take n = src.take n := by
  rw [memcpy_eq hsrc hdst, List.take_append_of_le_length (by simp [hsrc])]
  simp

/-- Bytes past the copied range keep their value, whatever the source. -/
theorem drop_memcpy {dst src : Bytes} {n k : ℕ} (hk : n ≤ k) :
    (memcpy dst src n).drop k = dst.drop k := by
  refine List.ext_getElem (by simp) fun i h₁ h₂ => ?_
  simp only [List.length_drop] at h₂
  have hle : (src.take n).length ≤ k := by simp; omega
  simp only [List.getElem_drop, memcpy, List.getElem_take]
  rw [List.getElem_append_right (by omega), List.getElem_drop]
  congr 1
  omega

/-! ## Records -/

/-- A fixed-size binary layout: every value encodes to `size` bytes, and those
bytes decode to it. -/
structure RecordCodec (α : Type*) where
  size : ℕ
  encode : α → Bytes
  decode : Bytes → α
  size_pos : 0 < size
  length_encode : ∀ a, (encode a).length = size
  decode_encode : ∀ a, decode (encode a) = a

namespace RecordCodec

variable {α : Type*} (c : RecordCodec α)

/-- The records a sequential reader gets: one per full stride, until fewer than
`size` bytes are left. -/
def records (bytes : Bytes) : List α :=
  if bytes.length < c.size then []
  else c.decode (bytes.take c.size) :: records (bytes.drop c.size)
termination_by bytes.length
decreasing_by
  have := c.size_pos
  simp only [List.length_drop]
  omega

/-- The bytes of several records written one after the other. -/
def encodeAll (es : List α) : Bytes := es.flatMap c.encode

@[simp] theorem encodeAll_nil : c.encodeAll [] = [] := rfl

@[simp] theorem encodeAll_cons (e : α) (es : List α) :
    c.encodeAll (e :: es) = c.encode e ++ c.encodeAll es := rfl

@[simp] theorem encodeAll_append (es fs : List α) :
    c.encodeAll (es ++ fs) = c.encodeAll es ++ c.encodeAll fs :=
  List.flatMap_append

@[simp] theorem length_encodeAll (es : List α) :
    (c.encodeAll es).length = c.size * es.length := by
  induction es with
  | nil => simp
  | cons e es ih =>
      simp only [encodeAll_cons, List.length_append, c.length_encode, ih,
        List.length_cons]
      ring

/-- Less than one record reads as none. -/
theorem records_of_lt {bytes : Bytes} (h : bytes.length < c.size) :
    c.records bytes = [] := by
  rw [records, if_pos h]

@[simp] theorem records_nil : c.records [] = [] :=
  c.records_of_lt c.size_pos

/-- One stride of the reader. -/
theorem records_append_of_length {head : Bytes} (h : head.length = c.size)
    (rest : Bytes) : c.records (head ++ rest) = c.decode head :: c.records rest := by
  rw [records, if_neg (by simp [h]), List.take_left' h, List.drop_left' h]

/-- The first record is read, and then the rest. -/
theorem records_encode_append (e : α) (rest : Bytes) :
    c.records (c.encode e ++ rest) = e :: c.records rest := by
  rw [c.records_append_of_length (c.length_encode e), c.decode_encode]

/-- **Round trip.**  Written records are read back in order. -/
theorem records_encodeAll_append (es : List α) (rest : Bytes) :
    c.records (c.encodeAll es ++ rest) = es ++ c.records rest := by
  induction es with
  | nil => rfl
  | cons e es ih =>
      rw [encodeAll_cons, List.append_assoc, records_encode_append, ih,
        List.cons_append]

/-- What was written is read back. -/
@[simp] theorem records_encodeAll (es : List α) : c.records (c.encodeAll es) = es := by
  simpa using c.records_encodeAll_append es []

/-- **Alignment.**  Reading distributes over an append at a record boundary. -/
theorem records_append_of_dvd {front : Bytes} (h : c.size ∣ front.length)
    (rest : Bytes) : c.records (front ++ rest) = c.records front ++ c.records rest := by
  obtain ⟨q, hq⟩ := h
  induction q generalizing front with
  | zero =>
      have : front = [] := List.length_eq_zero_iff.mp (by simpa using hq)
      simp [this]
  | succ q ih =>
      have hle : c.size ≤ front.length := by rw [hq, Nat.mul_succ]; omega
      have hhead : (front.take c.size).length = c.size := by simp [hle]
      have htail : (front.drop c.size).length = c.size * q := by
        rw [List.length_drop, hq, Nat.mul_succ]
        omega
      rw [← List.take_append_drop c.size front, List.append_assoc,
        c.records_append_of_length hhead, c.records_append_of_length hhead, ih htail,
        List.cons_append]

/-- One stride and a bit. -/
theorem records_eq_singleton {bytes : Bytes} (hge : c.size ≤ bytes.length)
    (hlt : bytes.length < 2 * c.size) : c.records bytes = [c.decode (bytes.take c.size)] := by
  rw [records, if_neg (Nat.not_lt.mpr hge), records_of_lt]
  rw [List.length_drop]
  omega

/-- One record for each full stride. -/
theorem length_records (bytes : Bytes) : (c.records bytes).length = bytes.length / c.size := by
  have hpos := c.size_pos
  induction bytes using RecordCodec.records.induct (c := c) with
  | case1 bytes h => rw [c.records_of_lt h, Nat.div_eq_of_lt h, List.length_nil]
  | case2 bytes h ih =>
      have hge : c.size ≤ bytes.length := Nat.not_lt.mp h
      rw [records, if_neg h, List.length_cons, ih, List.length_drop,
        ← Nat.add_div_right _ hpos, Nat.sub_add_cancel hge]

/-- Every byte string is a whole number of records and a shorter tail. -/
theorem exists_aligned_split (bytes : Bytes) :
    ∃ front tail, bytes = front ++ tail ∧ c.size ∣ front.length ∧
      tail.length = bytes.length % c.size ∧ tail.length < c.size := by
  have hpos := c.size_pos
  have hdiv := Nat.div_add_mod bytes.length c.size
  have hmod := Nat.mod_lt bytes.length hpos
  have hle : c.size * (bytes.length / c.size) ≤ bytes.length := by omega
  refine ⟨bytes.take (c.size * (bytes.length / c.size)),
    bytes.drop (c.size * (bytes.length / c.size)), by simp, ?_, ?_, ?_⟩
  · rw [List.length_take, Nat.min_eq_left hle]
    exact Nat.dvd_mul_right _ _
  · rw [List.length_drop]; omega
  · rw [List.length_drop]; omega

/-- **Tearing.**  A byte prefix of a written stream reads as the records it holds
whole. -/
theorem records_take_encodeAll (es : List α) (m : ℕ) :
    c.records ((c.encodeAll es).take m) = es.take (m / c.size) := by
  have hpos := c.size_pos
  induction es generalizing m with
  | nil => simp
  | cons e es ih =>
      have he := c.length_encode e
      rcases lt_or_ge m c.size with hlt | hge
      · rw [Nat.div_eq_of_lt hlt, List.take_zero]
        exact c.records_of_lt (by rw [List.length_take]; omega)
      · have hm : m / c.size = (m - c.size) / c.size + 1 := by
          rw [← Nat.add_div_right _ hpos, Nat.sub_add_cancel hge]
        rw [encodeAll_cons, List.take_append, List.take_of_length_le (by omega), he,
          records_encode_append, ih, hm, List.take_succ_cons]

/-- The same, for a prefix given as such. -/
theorem records_of_prefix_encodeAll {bytes : Bytes} {es : List α}
    (h : bytes <+: c.encodeAll es) :
    c.records bytes = es.take (bytes.length / c.size) := by
  rw [List.prefix_iff_eq_take.mp h, records_take_encodeAll, List.length_take,
    length_encodeAll]
  have := h.length_le
  rw [length_encodeAll] at this
  rw [Nat.min_eq_left this]

end RecordCodec

end ByteRecords
