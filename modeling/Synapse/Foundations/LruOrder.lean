import Mathlib

/-!
# The order of an LRU cache

What a cache with the least-recently-used policy does, as a relation between the lists of
its entries, most recent first, and the times at which entries have been accessed.

The list is ordered by time whatever is accessed, evicted and removed
(`RecentFirst.step`).  So a suffix that is evicted is what was accessed least recently
(`RecentFirst.lt_of_append`).
-/

namespace LruOrder

variable {α : Type*} [DecidableEq α]

inductive Op (α : Type*) where
  | access (a : α)
  | remove (a : α)

/-- What an operation does to the list.  A hit moves the entry to the front, a miss evicts
a suffix and puts the new entry in front of the rest. -/
inductive Step : Op α → List α → List α → Prop
  | hit {a : α} {l : List α} (h : a ∈ l) : Step (.access a) l (a :: l.erase a)
  | miss {a : α} {kept evicted : List α} (h : a ∉ kept ++ evicted) :
      Step (.access a) (kept ++ evicted) (a :: kept)
  | remove {a : α} {l : List α} : Step (.remove a) l (l.erase a)

/-- What is accessed is in the list afterwards. -/
theorem Step.mem_of_access {a : α} {l l' : List α} (h : Step (.access a) l l') : a ∈ l' := by
  cases h with
  | hit _ => exact List.mem_cons_self
  | miss _ => exact List.mem_cons_self

/-- The times of the last accesses, after an operation at time `now + 1`. -/
def stampAfter (stamp : α → ℕ) (now : ℕ) : Op α → α → ℕ
  | .access a => Function.update stamp a (now + 1)
  | .remove _ => stamp

/-- The list is ordered by the times of the last accesses. -/
structure RecentFirst (stamp : α → ℕ) (now : ℕ) (l : List α) : Prop where
  sorted : l.Pairwise fun a b => stamp b < stamp a
  stamp_le : ∀ a, stamp a ≤ now

namespace RecentFirst

variable {stamp : α → ℕ} {now : ℕ} {l l' : List α}

omit [DecidableEq α] in
theorem nil (now : ℕ) : RecentFirst (fun _ : α => 0) now [] where
  sorted := List.Pairwise.nil
  stamp_le _ := Nat.zero_le now

omit [DecidableEq α] in
/-- Every entry is there once. -/
theorem nodup (h : RecentFirst stamp now l) : l.Nodup :=
  h.sorted.imp fun hlt => ne_of_apply_ne stamp hlt.ne'

omit [DecidableEq α] in
/-- Of two parts, the second has been accessed less recently. -/
theorem lt_of_append {kept evicted : List α} (h : RecentFirst stamp now (kept ++ evicted)) :
    ∀ a ∈ kept, ∀ b ∈ evicted, stamp b < stamp a :=
  (List.pairwise_append.mp h.sorted).2.2

/-- An access of an entry that is not among those that stay. -/
theorem access (h : RecentFirst stamp now l) (hl : l'.Sublist l) {a : α} (ha : a ∉ l') :
    RecentFirst (Function.update stamp a (now + 1)) (now + 1) (a :: l') where
  sorted := by
    have hother : ∀ b ∈ l', Function.update stamp a (now + 1) b = stamp b :=
      fun b hb => Function.update_of_ne (ne_of_mem_of_not_mem hb ha) _ _
    refine List.pairwise_cons.mpr ⟨fun b hb => ?_, ?_⟩
    · rw [hother b hb, Function.update_self]
      exact Nat.lt_succ_of_le (h.stamp_le b)
    -- among the others no time has changed
    · refine (h.sorted.sublist hl).imp_of_mem fun hb hc hlt => ?_
      rw [hother _ hb, hother _ hc]
      exact hlt
  stamp_le b := by
    rw [Function.update_apply]
    split
    · exact le_rfl
    · exact (h.stamp_le b).trans (Nat.le_succ now)

/-- **Every operation keeps the order.** -/
theorem step {op : Op α} (h : RecentFirst stamp now l) (hstep : Step op l l') :
    RecentFirst (stampAfter stamp now op) (now + 1) l' := by
  cases hstep with
  | @hit a l hmem => exact h.access List.erase_sublist h.nodup.not_mem_erase
  | @miss a kept evicted hnot =>
      refine h.access (List.sublist_append_left kept evicted) fun hmem => hnot ?_
      exact List.mem_append_left evicted hmem
  | @remove a l =>
      exact ⟨h.sorted.sublist List.erase_sublist, fun b => (h.stamp_le b).trans (Nat.le_succ now)⟩

/-- **What an access evicts** has been accessed less recently than what stays. -/
theorem lt_of_evicted (h : RecentFirst stamp now l) {x : α} (hstep : Step (.access x) l l') {b : α}
    (hb : b ∈ l) (hgone : b ∉ l') {a : α} (ha : a ∈ l') (hne : a ≠ x) : stamp b < stamp a := by
  cases hstep with
  | hit hmem =>
      have hbx : b ≠ x := fun heq => hgone (heq ▸ List.mem_cons_self)
      exact absurd (List.mem_cons_of_mem x ((List.mem_erase_of_ne hbx).mpr hb)) hgone
  | @miss _ kept evicted hnot =>
      have hkept : a ∈ kept := List.mem_of_ne_of_mem hne ha
      have hevicted : b ∈ evicted :=
        (List.mem_append.mp hb).resolve_left fun hbkept => hgone (List.mem_cons_of_mem x hbkept)
      exact h.lt_of_append a hkept b hevicted

end RecentFirst

end LruOrder
