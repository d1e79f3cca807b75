import Mathlib

/-!
# Sending the words that changed

An update of an array of words, sent as a mask and the words whose bit is set, in
ascending order.  The receiver writes them over its own words in the same order.

`overwrite_payload` says that the two agree: the receiver's dirty words become the
sender's, and the other words stay.
-/

namespace DirtyWords

variable {α : Type*}

/-- The words below `n` whose bit is set. -/
def payload (dirty : ℕ → Bool) (new : ℕ → α) (n : ℕ) : List α :=
  ((List.range n).filter dirty).map new

/-- The words with those whose bit is set written over. -/
def overwrite (dirty : ℕ → Bool) (words : List α) (old : ℕ → α) (i : ℕ) : α :=
  if dirty i then words.getD (Nat.count (fun j => dirty j = true) i) (old i) else old i

variable {dirty : ℕ → Bool} {new : ℕ → α}

/-- Another word, sent if it is dirty. -/
theorem payload_succ (n : ℕ) : payload dirty new (n + 1) =
    payload dirty new n ++ if dirty n then [new n] else [] := by
  unfold payload
  rw [List.range_succ, List.filter_append, List.map_append, List.filter_singleton]
  cases dirty n <;> rfl

theorem length_payload (n : ℕ) :
    (payload dirty new n).length = Nat.count (fun i => dirty i = true) n := by
  induction n with
  | zero => rfl
  | succ n ih =>
      rw [payload_succ, List.length_append, ih, Nat.count_succ]
      split <;> rfl

/-- The word of a bit comes after those of the lower bits. -/
theorem getElem?_payload {i n : ℕ} (hin : i < n) (hdirty : dirty i = true) :
    (payload dirty new n)[Nat.count (fun j => dirty j = true) i]? = some (new i) := by
  induction n with
  | zero => exact absurd hin (Nat.not_lt_zero i)
  | succ n ih =>
      rw [payload_succ]
      rcases Nat.lt_succ_iff_lt_or_eq.mp hin with hlt | rfl
      · rw [List.getElem?_append_left]
        · exact ih hlt
        · rw [length_payload]
          exact Nat.count_strict_mono hdirty hlt
      · have hlen : (payload dirty new i).length = Nat.count (fun j => dirty j = true) i :=
          length_payload i
        rw [← hlen, List.getElem?_append_right le_rfl, Nat.sub_self, if_pos hdirty]
        rfl

/-- No word is sent from where no bit is set. -/
theorem payload_below {n m : ℕ} (hnm : n ≤ m) :
    payload (fun i => decide (i < n) && dirty i) new m = payload dirty new n := by
  induction m, hnm using Nat.le_induction with
  | base =>
      have hfilter : (List.range n).filter (fun i => decide (i < n) && dirty i) =
          (List.range n).filter dirty := by
        refine List.filter_congr fun i hi => ?_
        rw [decide_eq_true (List.mem_range.mp hi), Bool.true_and]
      rw [payload, hfilter, payload]
  | succ m hnm ih =>
      rw [payload_succ, decide_eq_false (Nat.not_lt.mpr hnm), ih]
      exact List.append_nil _

/-- **Sender and receiver agree** on the words that are sent. -/
theorem overwrite_payload {n : ℕ} (hbelow : ∀ i, dirty i = true → i < n) (old : ℕ → α) (i : ℕ) :
    overwrite dirty (payload dirty new n) old i = if dirty i then new i else old i := by
  unfold overwrite
  split
  · rename_i hdirty
    rw [List.getD_eq_getElem?_getD, getElem?_payload (hbelow i hdirty) hdirty]
    rfl
  · rfl

/-! ## Masks of 32 bits -/

/-- A bit of a mask. -/
def bit (mask : UInt32) (i : ℕ) : Bool := mask.toNat.testBit i

theorem bit_zero (i : ℕ) : bit 0 i = false := Nat.zero_testBit i

/-- `mask |= (1 << i)`. -/
theorem bit_or_shiftLeft (mask : UInt32) {i : ℕ} (hi : i < 32) (j : ℕ) :
    bit (mask ||| (1 <<< UInt32.ofNat i)) j = (bit mask j || decide (j = i)) := by
  have hshift : (1 <<< UInt32.ofNat i : UInt32).toNat = 2 ^ i := by
    have hword : i < UInt32.size := hi.trans (by decide)
    rw [UInt32.toNat_shiftLeft, UInt32.toNat_ofNat_of_lt' hword, Nat.mod_eq_of_lt hi,
      UInt32.toNat_one, Nat.one_shiftLeft]
    exact Nat.mod_eq_of_lt (Nat.pow_lt_pow_right (by decide) hi)
  rw [bit, UInt32.toNat_or, Nat.testBit_or, hshift, Nat.testBit_two_pow]
  simp only [bit, eq_comm]

end DirtyWords
