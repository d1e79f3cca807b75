import Mathlib

/-!
# A ring buffer indexed by masking

The classical single-producer single-consumer ring: `2 ^ k` slots, a head index
for the producer, a tail index for the consumer, both advanced by adding one and
masking with `2 ^ k - 1`.  One slot is always left free, so that `head = tail`
means empty; the ring holds at most `2 ^ k - 1` values.

The abstraction is the list `contents` of the stored values, oldest first.
`push_of_lt`, `push_of_full`, `pop_nil` and `pop_cons` say that the two
operations are those of a queue bounded at `2 ^ k - 1`.
-/

/-- A ring of `2 ^ k` slots with both indices in range. -/
structure MaskRing (α : Type*) (k : ℕ) where
  buffer : ℕ → α
  head : ℕ
  tail : ℕ
  head_lt : head < 2 ^ k
  tail_lt : tail < 2 ^ k

namespace MaskRing

variable {α : Type*} {k : ℕ}

/-- `(i + 1) & (2 ^ k - 1)`, the index after `i`. -/
def next (k i : ℕ) : ℕ := (i + 1) &&& (2 ^ k - 1)

/-- Masking is a remainder. -/
theorem next_eq_mod (i : ℕ) : next k i = (i + 1) % 2 ^ k :=
  Nat.and_two_pow_sub_one_eq_mod _ _

/-- The next index is one of the slots. -/
theorem next_lt (i : ℕ) : next k i < 2 ^ k := by
  rw [next_eq_mod]
  exact Nat.mod_lt _ (by positivity)

/-- An empty ring whose slots all hold `fill`. -/
def empty (k : ℕ) (fill : α) : MaskRing α k where
  buffer _ := fill
  head := 0
  tail := 0
  head_lt := by positivity
  tail_lt := by positivity

/-- Store one value at the head, unless the next head would meet the tail. -/
def push (r : MaskRing α k) (x : α) : Bool × MaskRing α k :=
  if next k r.head = r.tail then (false, r)
  else (true, { r with
    buffer := Function.update r.buffer r.head x
    head := next k r.head
    head_lt := next_lt _ })

/-- Take the value at the tail, unless the ring is empty. -/
def pop (r : MaskRing α k) : Option α × MaskRing α k :=
  if r.tail = r.head then (none, r)
  else (some (r.buffer r.tail), { r with tail := next k r.tail, tail_lt := next_lt _ })

/-- `(head - tail) & (2 ^ k - 1)` on unsigned words, the number of stored values. -/
def size (r : MaskRing α k) : ℕ := (r.head + 2 ^ k - r.tail) % 2 ^ k

/-- The stored values, oldest first. -/
def contents (r : MaskRing α k) : List α :=
  (List.range r.size).map fun i => r.buffer ((r.tail + i) % 2 ^ k)

/-- Push several values in turn; refused ones are dropped. -/
def pushAll (r : MaskRing α k) (xs : List α) : MaskRing α k :=
  xs.foldl (fun r x => (r.push x).2) r

/-- The values that `n` pops in a row deliver. -/
def popMany : ℕ → MaskRing α k → List α
  | 0, _ => []
  | n + 1, r => (r.pop.1).toList ++ popMany n r.pop.2

/-! ## Index arithmetic -/

/-- One slot is free. -/
theorem size_lt (r : MaskRing α k) : r.size < 2 ^ k :=
  Nat.mod_lt _ (by positivity)

/-- The size, without the modulus. -/
theorem size_eq (r : MaskRing α k) :
    r.size = if r.tail ≤ r.head then r.head - r.tail else r.head + 2 ^ k - r.tail := by
  have hh := r.head_lt
  have ht := r.tail_lt
  unfold size
  split_ifs with h
  · rw [show r.head + 2 ^ k - r.tail = (r.head - r.tail) + 2 ^ k by omega,
      Nat.add_mod_right, Nat.mod_eq_of_lt (by omega)]
  · exact Nat.mod_eq_of_lt (by omega)

/-- The next index, or the first one again. -/
theorem next_eq {i : ℕ} (h : i < 2 ^ k) :
    next k i = if i + 1 = 2 ^ k then 0 else i + 1 := by
  rw [next_eq_mod]
  split_ifs with hi
  · rw [hi, Nat.mod_self]
  · exact Nat.mod_eq_of_lt (by omega)

/-- As many values as there are slots between the indices. -/
@[simp] theorem length_contents (r : MaskRing α k) : r.contents.length = r.size := by
  simp [contents]

/-- The ring is full exactly when one more value would make the indices meet. -/
theorem next_head_eq_tail_iff (r : MaskRing α k) :
    next k r.head = r.tail ↔ r.size = 2 ^ k - 1 := by
  have hh := r.head_lt
  have ht := r.tail_lt
  rw [next_eq hh, r.size_eq]
  split_ifs <;> omega

/-- The indices meet if there are none. -/
theorem tail_eq_head_iff (r : MaskRing α k) : r.tail = r.head ↔ r.size = 0 := by
  have hh := r.head_lt
  have ht := r.tail_lt
  rw [r.size_eq]
  split_ifs <;> omega

/-- The head is the slot just past the contents. -/
theorem tail_add_size_mod (r : MaskRing α k) : (r.tail + r.size) % 2 ^ k = r.head := by
  have hh := r.head_lt
  have ht := r.tail_lt
  rw [r.size_eq]
  split_ifs with h
  · rw [show r.tail + (r.head - r.tail) = r.head by omega, Nat.mod_eq_of_lt hh]
  · rw [show r.tail + (r.head + 2 ^ k - r.tail) = r.head + 2 ^ k by omega,
      Nat.add_mod_right, Nat.mod_eq_of_lt hh]

/-! ## The ring is a bounded queue -/

/-- Then the ring is empty. -/
theorem contents_eq_nil_iff (r : MaskRing α k) : r.contents = [] ↔ r.tail = r.head := by
  rw [r.tail_eq_head_iff, ← r.length_contents, List.length_eq_zero_iff]

/-- As it is at the start. -/
@[simp] theorem contents_empty (fill : α) : (empty k fill).contents = [] :=
  (contents_eq_nil_iff _).mpr rfl

/-- A ring with a free slot accepts. -/
theorem push_of_lt {r : MaskRing α k} (h : r.contents.length + 1 < 2 ^ k) (x : α) :
    (r.push x).1 = true ∧ (r.push x).2.contents = r.contents ++ [x] := by
  have hh := r.head_lt
  have ht := r.tail_lt
  rw [length_contents] at h
  have hfree : next k r.head ≠ r.tail := by
    rw [Ne, r.next_head_eq_tail_iff]
    omega
  rw [push, if_neg hfree]
  refine ⟨rfl, ?_⟩
  set r' : MaskRing α k := { r with
    buffer := Function.update r.buffer r.head x
    head := next k r.head
    head_lt := next_lt _ } with hr'
  have hsize : r'.size = r.size + 1 := by
    have hs := r.size_eq
    rw [r'.size_eq]
    simp only [hr', next_eq hh]
    split_ifs at hs ⊢ <;> omega
  have hold : ∀ i < r.size, (r.tail + i) % 2 ^ k ≠ r.head := by
    intro i hi heq
    -- an index short of the size lands on the head only by going all the way round
    rw [← r.tail_add_size_mod] at heq
    have hmod : i % 2 ^ k = r.size % 2 ^ k := Nat.ModEq.add_left_cancel' r.tail heq
    rw [Nat.mod_eq_of_lt (hi.trans r.size_lt), Nat.mod_eq_of_lt r.size_lt] at hmod
    omega
  rw [contents, hsize, List.range_succ, List.map_append, contents]
  congr 1
  · refine List.map_congr_left fun i hi => ?_
    simp [hr', Function.update_of_ne (hold i (List.mem_range.mp hi))]
  · simp [hr', r.tail_add_size_mod]

/-- A full ring refuses and is unchanged. -/
theorem push_of_full {r : MaskRing α k} (h : r.contents.length + 1 = 2 ^ k) (x : α) :
    r.push x = (false, r) := by
  rw [length_contents] at h
  rw [push, if_pos (r.next_head_eq_tail_iff.mpr (by omega))]

/-- Nothing is popped from an empty ring. -/
theorem pop_nil {r : MaskRing α k} (h : r.contents = []) : r.pop = (none, r) := by
  rw [pop, if_pos (r.contents_eq_nil_iff.mp h)]

/-- The oldest value is popped from any other one. -/
theorem pop_cons {r : MaskRing α k} {x : α} {xs : List α} (h : r.contents = x :: xs) :
    r.pop.1 = some x ∧ r.pop.2.contents = xs := by
  have hh := r.head_lt
  have ht := r.tail_lt
  have hsize : r.size = xs.length + 1 := by rw [← length_contents, h, List.length_cons]
  have hne : r.tail ≠ r.head := fun heq => by
    rw [r.tail_eq_head_iff] at heq
    omega
  rw [pop, if_neg hne]
  set r' : MaskRing α k := { r with tail := next k r.tail, tail_lt := next_lt _ } with hr'
  have hsize' : r'.size = xs.length := by
    have hs := r.size_eq
    rw [r'.size_eq]
    simp only [hr', next_eq ht]
    split_ifs at hs ⊢ <;> omega
  rw [contents, hsize, List.range_succ_eq_map, List.map_cons, List.map_map,
    List.cons.injEq] at h
  obtain ⟨hx, hxs⟩ := h
  refine ⟨?_, ?_⟩
  · rw [← hx, Nat.add_zero, Nat.mod_eq_of_lt ht]
  · refine Eq.trans ?_ hxs
    rw [show (some (r.buffer r.tail), r').2 = r' from rfl, contents, hsize']
    refine List.map_congr_left fun i _ => ?_
    simp only [hr', Function.comp_apply, next_eq_mod, Nat.mod_add_mod]
    rw [show r.tail + 1 + i = r.tail + i.succ by omega]

/-- A bounded queue keeps the first values that fit. -/
theorem contents_pushAll (r : MaskRing α k) (xs : List α) :
    (r.pushAll xs).contents =
      r.contents ++ xs.take (2 ^ k - 1 - r.contents.length) := by
  induction xs generalizing r with
  | nil => simp [pushAll]
  | cons x xs ih =>
      have hlt := r.size_lt
      rw [← length_contents] at hlt
      rw [pushAll, List.foldl_cons]
      change ((r.push x).2.pushAll xs).contents = _
      rw [ih]
      by_cases hfull : r.contents.length + 1 = 2 ^ k
      · rw [push_of_full hfull]
        rw [show 2 ^ k - 1 - r.contents.length = 0 by omega, List.take_zero,
          List.take_zero]
      · rw [(push_of_lt (by omega) x).2, List.length_append, List.length_singleton,
          List.append_assoc]
        obtain ⟨n, hn⟩ : ∃ n, 2 ^ k - 1 - r.contents.length = n + 1 :=
          ⟨2 ^ k - 1 - r.contents.length - 1, by omega⟩
        rw [hn, show 2 ^ k - 1 - (r.contents.length + 1) = n by omega]
        rfl

/-- `n` pops deliver the `n` oldest values. -/
theorem popMany_eq (n : ℕ) (r : MaskRing α k) : popMany n r = r.contents.take n := by
  induction n generalizing r with
  | zero => simp [popMany]
  | succ n ih =>
      rw [popMany, ih]
      cases h : r.contents with
      | nil => simp [pop_nil h, h]
      | cons x xs => simp [pop_cons h]

end MaskRing
