import Synapse.IgpuMl.Core
import Mathlib

/-!
# `ReplayBuffer`

Runs of `push`, `extend` and `clear`, each of which holds the lock until it is done.

Before an experience is added at most one is removed, so the buffer is never empty after
that.  It holds what would be kept with room for at least one (`holds_run`), which is wrong
only for a buffer that has no room at all (`keepsNewest_iff`).

A call holds the lock to its end, so a run is a list of calls.  What should be in the buffer
is the end of the list of all that has been added since the last `clear`, as long as the
capacity; `rtake` is that end, and the induction is on the experiences that are added.
-/

namespace Synapse.IgpuMl

/-- `ReplayBuffer`, the oldest experience first. -/
structure ReplayBuffer (F : Type*) where
  buffer : List (Experience F)
  capacity : ℕ

namespace ReplayBuffer

variable {F : Type*}

/-- `new`, which takes any capacity. -/
def new (capacity : ℕ) : ReplayBuffer F where
  buffer := []
  capacity := capacity

/-- `push`: one out if there is no room, then one in. -/
def push (experience : Experience F) (b : ReplayBuffer F) : ReplayBuffer F :=
  let buf := if b.buffer.length ≥ b.capacity then b.buffer.tail else b.buffer
  { b with buffer := buf ++ [experience] }

/-- `extend`, in one locked section. -/
def extend (experiences : List (Experience F)) (b : ReplayBuffer F) : ReplayBuffer F :=
  experiences.foldl (fun b exp =>
    let buf := if b.buffer.length ≥ b.capacity then b.buffer.tail else b.buffer
    { b with buffer := buf ++ [exp] }) b

/-- `len` -/
def len (b : ReplayBuffer F) : ℕ := b.buffer.length

/-- `clear`, which keeps the capacity. -/
def clear (b : ReplayBuffer F) : ReplayBuffer F := { b with buffer := [] }

/-- The calls that change the buffer. -/
inductive Call (F : Type*) where
  | push (experience : Experience F)
  | extend (experiences : List (Experience F))
  | clear

/-- One call. -/
def step (b : ReplayBuffer F) : Call F → ReplayBuffer F
  | .push experience => b.push experience
  | .extend experiences => b.extend experiences
  | .clear => b.clear

/-- A buffer after some calls. -/
def run (capacity : ℕ) (calls : List (Call F)) : ReplayBuffer F := calls.foldl step (new capacity)

/-! ## What is kept -/

/-- A call adds to the experiences since the last `clear`, or is one. -/
def Call.addTo (added : List (Experience F)) : Call F → List (Experience F)
  | push experience => added ++ [experience]
  | extend experiences => added ++ experiences
  | clear => []

/-- All experiences since the last `clear`, in order of arrival. -/
def addedSinceClear (calls : List (Call F)) : List (Experience F) := calls.foldl Call.addTo []

section newest

variable {α : Type*} {l : List α} {n : ℕ}

/-- The end of a list is as long as it can be. -/
theorem length_rtake (l : List α) (n : ℕ) : (l.rtake n).length = min n l.length := by
  rw [List.rtake, List.length_drop, Nat.sub_sub_eq_min, min_comm]

/-- A short list is its own end. -/
theorem rtake_of_length_le (h : l.length ≤ n) : l.rtake n = l := by
  rw [List.rtake, Nat.sub_eq_zero_of_le h, List.drop_zero]

/-- Without its first entry an end is a shorter end. -/
theorem tail_rtake_succ (h : n < l.length) : (l.rtake (n + 1)).tail = l.rtake n := by
  rw [List.rtake, List.tail_drop, List.rtake]
  congr 1
  omega

end newest

/-- The newest experiences, of those added, in a buffer with room for one at least. -/
structure Holds (capacity : ℕ) (added : List (Experience F)) (b : ReplayBuffer F) : Prop where
  buffer : b.buffer = added.rtake (max capacity 1)
  capacity : b.capacity = capacity

namespace Holds

variable {capacity : ℕ} {added : List (Experience F)} {b : ReplayBuffer F}

/-- An empty buffer holds the end of nothing. -/
theorem new (capacity : ℕ) : Holds capacity [] (new capacity : ReplayBuffer F) where
  buffer := (List.rtake_nil _).symm
  capacity := rfl

/-- So does a cleared one. -/
theorem clear (h : Holds capacity added b) : Holds capacity [] b.clear where
  buffer := (List.rtake_nil _).symm
  capacity := h.capacity

/-- The oldest one leaves a full buffer. -/
theorem push (h : Holds capacity added b) (experience : Experience F) :
    Holds capacity (added ++ [experience]) (b.push experience) where
  buffer := by
    have hfull := length_rtake added (max capacity 1)
    obtain ⟨room, hroom⟩ : ∃ room, max capacity 1 = room + 1 :=
      Nat.exists_eq_add_one.mpr (lt_max_of_lt_right one_pos)
    show (if b.buffer.length ≥ b.capacity then b.buffer.tail else b.buffer) ++ [experience] = _
    rw [h.buffer, h.capacity, hfull, hroom, List.rtake_concat_succ, List.append_left_inj]
    rcases Nat.lt_or_ge room added.length with hlt | hge
    · rw [if_pos (by omega)]
      exact tail_rtake_succ hlt
    · rw [rtake_of_length_le hge, rtake_of_length_le (hge.trans (Nat.le_succ room))]
      split
      -- nothing has been added yet to a buffer without room
      · have hnil : added = [] := List.eq_nil_of_length_eq_zero (by omega)
        rw [hnil, List.tail_nil]
      · rfl
  capacity := h.capacity

/-- Adding several is adding one after the other. -/
theorem extend (h : Holds capacity added b) (experiences : List (Experience F)) :
    Holds capacity (added ++ experiences) (b.extend experiences) := by
  induction experiences generalizing added b with
  | nil =>
      rw [List.append_nil]
      exact h
  | cons exp experiences ih =>
      rw [List.append_cons]
      exact ih (h.push exp)

/-- **A call.** -/
theorem step (h : Holds capacity added b) (call : Call F) :
    Holds capacity (call.addTo added) (b.step call) := by
  cases call with
  | push experience => exact h.push experience
  | extend experiences => exact h.extend experiences
  | clear => exact h.clear

end Holds

/-- **A run.** -/
theorem holds_run (capacity : ℕ) (calls : List (Call F)) :
    Holds capacity (addedSinceClear calls) (run capacity calls) := by
  induction calls using List.reverseRecOn with
  | nil => exact .new capacity
  | append_singleton calls call ih =>
      rw [addedSinceClear, run, List.foldl_concat, List.foldl_concat]
      exact ih.step call

/-- **The newest experiences are kept** exactly if there is room for one, or nothing has been
added since the last `clear`. -/
theorem keepsNewest_iff (capacity : ℕ) (calls : List (Call F)) :
    ((run capacity calls).buffer = (addedSinceClear calls).rtake capacity ∧
      (run capacity calls).len ≤ (run capacity calls).capacity) ↔
    (capacity ≠ 0 ∨ addedSinceClear calls = []) := by
  obtain ⟨hbuffer, hcapacity⟩ := holds_run capacity calls
  rw [len, hbuffer, hcapacity, length_rtake]
  constructor
  · rintro ⟨-, hlen⟩
    by_contra hnot
    obtain ⟨rfl, hadded⟩ : capacity = 0 ∧ addedSinceClear calls ≠ [] := by
      simpa only [not_or, not_not] using hnot
    have hpos : 0 < (addedSinceClear calls).length := List.length_pos_iff.mpr hadded
    omega
  · rintro (hroom | hnil)
    · rw [max_eq_left (Nat.one_le_iff_ne_zero.mpr hroom)]
      exact ⟨rfl, min_le_left _ _⟩
    · rw [hnil, List.rtake_nil, List.rtake_nil, List.length_nil, Nat.min_zero]
      exact ⟨rfl, Nat.zero_le capacity⟩

/-- With no room, one experience is kept all the same. -/
theorem keeps_one_without_room :
    ¬ ∀ (capacity : ℕ) (calls : List (Call ℝ)),
      (run capacity calls).buffer = (addedSinceClear calls).rtake capacity ∧
        (run capacity calls).len ≤ (run capacity calls).capacity := by
  intro h
  have hone := (h 0 [.push ⟨.zero, 0, 1, 0, 0, 0, 0, 1⟩]).2
  exact absurd hone (Nat.not_succ_le_zero 0)

end ReplayBuffer

end Synapse.IgpuMl
