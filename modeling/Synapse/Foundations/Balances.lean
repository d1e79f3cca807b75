import Mathlib.Algebra.BigOperators.Pi
import Mathlib.Algebra.BigOperators.Group.List.Basic

/-!
# Balances

Amounts that are added to accounts one at a time.  The balances are what the list of all
entries adds up to at each account, in whatever order the entries came, and all balances
together are what was added in all.
-/

namespace Balances

variable {ι κ R : Type*} [DecidableEq ι] [DecidableEq κ] [AddCommMonoid R]

/-- What the entries add up to, account by account. -/
def balances (entries : List (ι × R)) : ι → R := (entries.map fun e => Pi.single e.1 e.2).sum

@[simp] theorem balances_nil : balances ([] : List (ι × R)) = 0 := rfl

theorem balances_cons (e : ι × R) (entries : List (ι × R)) :
    balances (e :: entries) = Pi.single e.1 e.2 + balances entries := by
  rw [balances, List.map_cons, List.sum_cons]
  rfl

/-- The order of the entries does not matter. -/
theorem balances_perm {entries entries' : List (ι × R)} (h : entries.Perm entries') :
    balances entries = balances entries' := (h.map _).sum_eq

/-- An amount is added to an account. -/
theorem update_balances (entries : List (ι × R)) (i : ι) (x : R) :
    Function.update (balances entries) i (balances entries i + x) =
      balances ((i, x) :: entries) := by
  rw [balances_cons]
  funext j
  rw [Pi.add_apply]
  by_cases hj : j = i
  · subst hj
    rw [Function.update_self, Pi.single_eq_same, add_comm]
  · rw [Function.update_of_ne hj, Pi.single_eq_of_ne hj, zero_add]

/-- **Nothing is lost**: the balances together are all amounts together. -/
theorem sum_balances {accounts : Finset ι} {entries : List (ι × R)}
    (h : ∀ e ∈ entries, e.1 ∈ accounts) :
    ∑ i ∈ accounts, balances entries i = (entries.map Prod.snd).sum := by
  induction entries with
  | nil =>
      rw [balances_nil]
      exact Finset.sum_const_zero
  | cons e entries ih =>
      obtain ⟨he, hentries⟩ := List.forall_mem_cons.mp h
      rw [balances_cons, List.map_cons, List.sum_cons, ← ih hentries]
      simp only [Pi.add_apply]
      rw [Finset.sum_add_distrib, Finset.sum_pi_single', if_pos he]

/-- The amounts of some records, filed in one way, together with the same amounts filed in
another. -/
theorem sum_balances_filterMap {β γ : Type*} {accounts : Finset ι} {records : List β}
    {f : β → Option (ι × R)} {g : β → Option (γ × R)}
    (hamounts : ∀ r, (f r).map Prod.snd = (g r).map Prod.snd)
    (h : ∀ r ∈ records, ∀ e, f r = some e → e.1 ∈ accounts) :
    ∑ i ∈ accounts, balances (records.filterMap f) i =
      ((records.filterMap g).map Prod.snd).sum := by
  have hsame : (records.filterMap f).map Prod.snd = (records.filterMap g).map Prod.snd := by
    rw [List.map_filterMap, List.map_filterMap]
    exact List.filterMap_congr fun r _ => hamounts r
  rw [← hsame]
  refine sum_balances fun e he => ?_
  obtain ⟨r, hr, hf⟩ := List.mem_filterMap.mp he
  exact h r hr e hf

/-- Accounts under other names. -/
theorem balances_map {f : κ → ι} (hf : Function.Injective f) (entries : List (κ × R)) (k : κ) :
    balances (entries.map (Prod.map f id)) (f k) = balances entries k := by
  induction entries with
  | nil => rfl
  | cons e entries ih =>
      rw [List.map_cons, balances_cons, balances_cons, Pi.add_apply, Pi.add_apply, ih]
      congr 1
      show (Pi.single (f e.1) e.2 : ι → R) (f k) = (Pi.single e.1 e.2 : κ → R) k
      rw [Pi.single_apply, Pi.single_apply]
      exact if_congr hf.eq_iff rfl rfl

end Balances
