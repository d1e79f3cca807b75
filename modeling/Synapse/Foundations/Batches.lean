import Mathlib

/-!
# Lists cut into full batches

A buffer that is emptied each time it holds `n` values cuts the sequence of
values put into it into batches of exactly `n` and a remainder shorter than
that.  `Batched` is this relation; what is put in later goes on from the remainder
(`append`), and it determines its parts (`flatten_eq`, `rest_eq`, `length_batches`).
-/

/-- `values` is the full batches one after the other, then a remainder that is
not full. -/
structure Batched {α : Type*} (n : ℕ) (values : List α) (batches : List (List α))
    (rest : List α) : Prop where
  full : ∀ b ∈ batches, b.length = n
  short : rest.length < n
  split : batches.flatten ++ rest = values

namespace Batched

variable {α : Type*} {n : ℕ} {values rest : List α} {batches : List (List α)}

theorem of_short (h : rest.length < n) : Batched n rest [] rest where
  full := by simp
  short := h
  split := rfl

/-- A full buffer is a batch. -/
theorem of_full {b : List α} (h : b.length = n) (hn : 0 < n) : Batched n b [b] [] where
  full := by simp [h]
  short := hn
  split := by simp

/-- Batches cut from a value sequence stay in front of what is cut later. -/
theorem append {values' rest' : List α} {batches' : List (List α)}
    (h : Batched n values batches rest) (h' : Batched n (rest ++ values') batches' rest') :
    Batched n (values ++ values') (batches ++ batches') rest' where
  full := by
    intro b hb
    rcases List.mem_append.mp hb with hb | hb
    · exact h.full b hb
    · exact h'.full b hb
  short := h'.short
  split := by rw [← h.split, List.flatten_append, List.append_assoc, h'.split, List.append_assoc]

theorem length_flatten (h : Batched n values batches rest) :
    batches.flatten.length = n * batches.length := by
  have hfull := h.full
  clear h
  induction batches with
  | nil => simp
  | cons b batches ih =>
      have hb := hfull b List.mem_cons_self
      have hrest := ih fun c hc => hfull c (List.mem_cons_of_mem _ hc)
      rw [List.flatten_cons, List.length_append, hb, hrest, List.length_cons]
      ring

/-- One batch for each `n` values. -/
theorem length_batches (h : Batched n values batches rest) :
    batches.length = values.length / n := by
  have hlen := congrArg List.length h.split
  rw [List.length_append, h.length_flatten] at hlen
  rw [← hlen, Nat.mul_add_div (Nat.pos_of_ne_zero (Nat.ne_zero_of_lt h.short)),
    Nat.div_eq_of_lt h.short, Nat.add_zero]

theorem flatten_eq (h : Batched n values batches rest) :
    batches.flatten = values.take (n * (values.length / n)) := by
  rw [← h.length_batches, ← h.length_flatten, ← h.split, List.take_left]

theorem rest_eq (h : Batched n values batches rest) :
    rest = values.drop (n * (values.length / n)) := by
  rw [← h.length_batches, ← h.length_flatten, ← h.split, List.drop_left]

theorem length_rest (h : Batched n values batches rest) :
    rest.length = values.length % n := by
  rw [h.rest_eq, List.length_drop]
  have := Nat.div_add_mod values.length n
  omega

end Batched
