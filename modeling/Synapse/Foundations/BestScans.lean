import Mathlib

/-!
# Scans for the best

A loop over a list that keeps one element, and takes another one instead if that `beats` the
one it has.

The elements before the one that is found at the end are beaten by it, and none behind it
beats it (`exists_split_scan`).  So a loop that takes what is better finds the first of the
best, one that takes what is not worse the last, and the two find the same exactly if there is
only one (`scan_lt_eq_scan_le_iff`).
-/

namespace BestScans

variable {ι α : Type*}

section scan

variable (beats : ι → ι → Prop) [DecidableRel beats]

/-- The loop, from its first candidate on. -/
def scan (best : ι) (is : List ι) : ι :=
  is.foldl (fun best i => if beats i best then i else best) best

variable {beats}

/-- One more element is compared with what was found before it. -/
theorem scan_concat (best i : ι) (is : List ι) : scan beats best (is ++ [i]) =
    if beats i (scan beats best is) then i else scan beats best is :=
  List.foldl_concat _ _ _ _

/-- **What is found**, if an element that beats another one beats all that the other one beats
and all that do not beat it. -/
theorem exists_split_scan (htrans : ∀ i j k, beats i j → beats j k → beats i k)
    (hnot : ∀ i j k, beats i j → ¬ beats k j → beats i k) (best : ι) (is : List ι) :
    ∃ front back, best :: is = front ++ scan beats best is :: back ∧
      (∀ i ∈ front, beats (scan beats best is) i) ∧
      ∀ i ∈ back, ¬ beats i (scan beats best is) := by
  induction is using List.reverseRecOn with
  | nil => exact ⟨[], [], rfl, List.forall_mem_nil _, List.forall_mem_nil _⟩
  | append_singleton is i ih =>
      obtain ⟨front, back, hsplit, hfront, hback⟩ := ih
      rw [scan_concat, ← List.cons_append, hsplit]
      split
      · rename_i hbeats
        refine ⟨front ++ scan beats best is :: back, [], rfl, ?_, List.forall_mem_nil _⟩
        refine List.forall_mem_append.mpr ⟨?_, List.forall_mem_cons.mpr ⟨hbeats, ?_⟩⟩
        · intro j hj
          exact htrans _ _ _ hbeats (hfront j hj)
        · intro j hj
          exact hnot _ _ _ hbeats (hback j hj)
      · rename_i hbeats
        refine ⟨front, back ++ [i], by rw [List.append_assoc, List.cons_append], hfront, ?_⟩
        exact List.forall_mem_append.mpr ⟨hback, List.forall_mem_singleton.mpr hbeats⟩

end scan

variable [LinearOrder α] {f : ι → α}

/-- Nothing in the list is better than `i`. -/
def IsBest (f : ι → α) (is : List ι) (i : ι) : Prop := i ∈ is ∧ ∀ j ∈ is, f j ≤ f i

/-- What a scan has found that takes what is better. -/
theorem exists_split_scan_lt (f : ι → α) (best : ι) (is : List ι) :
    ∃ front back, best :: is = front ++ scan (fun i j => f j < f i) best is :: back ∧
      (∀ i ∈ front, f i < f (scan (fun i j => f j < f i) best is)) ∧
      ∀ i ∈ back, f i ≤ f (scan (fun i j => f j < f i) best is) := by
  have htrans : ∀ i j k, f j < f i → f k < f j → f k < f i := fun _ _ _ hi hj => hj.trans hi
  have hnot : ∀ i j k, f j < f i → ¬ f j < f k → f k < f i :=
    fun _ _ _ hi hk => (not_lt.mp hk).trans_lt hi
  obtain ⟨front, back, hsplit, hfront, hback⟩ := exists_split_scan htrans hnot best is
  exact ⟨front, back, hsplit, hfront, fun i hi => not_lt.mp (hback i hi)⟩

/-- What a scan has found that takes what is not worse. -/
theorem exists_split_scan_le (f : ι → α) (best : ι) (is : List ι) :
    ∃ front back, best :: is = front ++ scan (fun i j => f j ≤ f i) best is :: back ∧
      (∀ i ∈ front, f i ≤ f (scan (fun i j => f j ≤ f i) best is)) ∧
      ∀ i ∈ back, f i < f (scan (fun i j => f j ≤ f i) best is) := by
  have htrans : ∀ i j k, f j ≤ f i → f k ≤ f j → f k ≤ f i := fun _ _ _ hi hj => hj.trans hi
  have hnot : ∀ i j k, f j ≤ f i → ¬ f j ≤ f k → f k ≤ f i :=
    fun _ _ _ hi hk => (not_le.mp hk).le.trans hi
  obtain ⟨front, back, hsplit, hfront, hback⟩ := exists_split_scan htrans hnot best is
  exact ⟨front, back, hsplit, hfront, fun i hi => not_le.mp (hback i hi)⟩

/-- What is not beaten on either side is a best element. -/
theorem isBest_of_split {is front back : List ι} {b : ι} (hsplit : is = front ++ b :: back)
    (hfront : ∀ i ∈ front, f i ≤ f b) (hback : ∀ i ∈ back, f i ≤ f b) : IsBest f is b := by
  rw [hsplit]
  refine ⟨List.mem_append_right _ List.mem_cons_self, ?_⟩
  exact List.forall_mem_append.mpr ⟨hfront, List.forall_mem_cons.mpr ⟨le_rfl, hback⟩⟩

/-- **Ties.**  The two scans find the same element exactly if only one is best. -/
theorem scan_lt_eq_scan_le_iff {best : ι} {is : List ι} (hnodup : (best :: is).Nodup) :
    scan (fun i j => f j < f i) best is = scan (fun i j => f j ≤ f i) best is ↔
      ∀ i j, IsBest f (best :: is) i → IsBest f (best :: is) j → i = j := by
  obtain ⟨front, back, hsplit, hfront, hback⟩ := exists_split_scan_lt f best is
  obtain ⟨front', back', hsplit', hfront', hback'⟩ := exists_split_scan_le f best is
  set b := scan (fun i j => f j < f i) best is
  set b' := scan (fun i j => f j ≤ f i) best is
  have hbest : IsBest f (best :: is) b :=
    isBest_of_split hsplit (fun i hi => (hfront i hi).le) hback
  have hbest' : IsBest f (best :: is) b' :=
    isBest_of_split hsplit' hfront' fun i hi => (hback' i hi).le
  constructor
  · intro heq
    rw [← heq] at hsplit' hback'
    obtain ⟨hmem, hmem'⟩ : b ∉ front ∧ b ∉ back := by
      rw [hsplit, List.nodup_middle, List.nodup_cons, List.mem_append, not_or] at hnodup
      exact hnodup.1
    obtain ⟨rfl, -, rfl⟩ :=
      (List.append_cons_inj_of_notMem hmem hmem').mp (hsplit.symm.trans hsplit')
    have hunique : ∀ i, IsBest f (best :: is) i → i = b := by
      rintro i ⟨hi, hle⟩
      rw [hsplit, List.mem_append, List.mem_cons] at hi
      rcases hi with hi | rfl | hi
      · exact absurd (hle b hbest.1) (hfront i hi).not_ge
      · rfl
      · exact absurd (hle b hbest.1) (hback' i hi).not_ge
    intro i j hi hj
    rw [hunique i hi, hunique j hj]
  · intro hone
    exact hone b b' hbest hbest'

end BestScans
