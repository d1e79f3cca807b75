import Synapse.Foundations.Codecs

/-!
# Arrays of words in memory

The bytes of an array of 32-bit words, one word after the other, and the array that a byte
string of that size is read as.  Each is the other's inverse (`ofImage_image`,
`image_ofImage`), and byte `k` belongs to word `k / 4` (`getElem?_image`).

An array is a function on its indexes, and the bytes are a list; the induction is on the
number of words, and each step takes four bytes from the front.
-/

namespace ByteRecords

/-- The bytes of an array. -/
def image {n : ℕ} (words : Fin n → UInt32) : Bytes :=
  (List.ofFn words).flatMap fun x => leBytes 4 x.toNat

/-- The array that is read from the front of a byte string. -/
def ofImage (n : ℕ) (bytes : Bytes) : Fin n → UInt32 :=
  fun i => UInt32.ofNat (ofLeBytes ((bytes.drop (4 * i)).take 4))

variable {n : ℕ}

/-- The first word comes first. -/
theorem image_succ (words : Fin (n + 1) → UInt32) :
    image words = leBytes 4 (words 0).toNat ++ image fun i => words i.succ := by
  rw [image, List.ofFn_succ, List.flatMap_cons]
  rfl

/-- Four bytes for each word. -/
theorem length_image (words : Fin n → UInt32) : (image words).length = 4 * n := by
  induction n with
  | zero => rfl
  | succ n ih => rw [image_succ, List.length_append, length_leBytes, ih, Nat.mul_succ, add_comm]

/-- The first word is in the first four bytes. -/
theorem ofImage_zero (bytes : Bytes) :
    ofImage (n + 1) bytes 0 = UInt32.ofNat (ofLeBytes (bytes.take 4)) := rfl

/-- And the others in what follows them. -/
theorem ofImage_succ (bytes : Bytes) (i : Fin n) :
    ofImage (n + 1) bytes i.succ = ofImage n (bytes.drop 4) i := by
  unfold ofImage
  rw [List.drop_drop, Fin.val_succ, Nat.mul_succ, add_comm]

/-- An array that has been stored is read back. -/
theorem ofImage_image (words : Fin n → UInt32) : ofImage n (image words) = words := by
  induction n with
  | zero => exact Subsingleton.elim _ _
  | succ n ih =>
      funext i
      rw [image_succ]
      have hlength := length_leBytes 4 (words 0).toNat
      cases i using Fin.cases with
      | zero => rw [ofImage_zero, List.take_left' hlength, ofLeBytes_word32, UInt32.ofNat_toNat]
      | succ i => rw [ofImage_succ, List.drop_left' hlength, ih]

/-- Bytes of the right number are an array. -/
theorem image_ofImage {bytes : Bytes} (h : bytes.length = 4 * n) :
    image (ofImage n bytes) = bytes := by
  induction n generalizing bytes with
  | zero => exact (List.eq_nil_of_length_eq_zero h).symm
  | succ n ih =>
      have htake : (bytes.take 4).length = 4 := by
        rw [List.length_take, h]
        omega
      have hdrop : (bytes.drop 4).length = 4 * n := by
        rw [List.length_drop, h]
        omega
      have hlt : ofLeBytes (bytes.take 4) < 2 ^ 32 := by
        have hbytes := ofLeBytes_lt (bytes.take 4)
        rw [htake] at hbytes
        exact hbytes
      have htail : (fun i : Fin n => ofImage (n + 1) bytes i.succ) = ofImage n (bytes.drop 4) :=
        funext fun i => ofImage_succ bytes i
      rw [image_succ, ofImage_zero, UInt32.toNat_ofNat_of_lt' hlt, leBytes_ofLeBytes htake, htail,
        ih hdrop, List.take_append_drop]

/-- The bytes of an array one by one. -/
theorem getElem?_image (words : Fin n → UInt32) (i : Fin n) {j : ℕ} (hj : j < 4) :
    (image words)[4 * i + j]? = some (UInt8.ofNat ((words i).toNat / 256 ^ j)) := by
  induction n with
  | zero => exact i.elim0
  | succ n ih =>
      rw [image_succ]
      cases i using Fin.cases with
      | zero =>
          rw [Fin.val_zero, Nat.mul_zero, Nat.zero_add, List.getElem?_append_left,
            getElem?_leBytes hj]
          rwa [length_leBytes]
      | succ i =>
          have hindex : 4 * (i.succ : ℕ) + j - 4 = 4 * i + j := by
            rw [Fin.val_succ]
            omega
          rw [List.getElem?_append_right, length_leBytes, hindex, ih]
          rw [length_leBytes, Fin.val_succ]
          omega

end ByteRecords
