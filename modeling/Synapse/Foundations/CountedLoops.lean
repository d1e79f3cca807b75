import Synapse.Foundations.Runs

/-!
# Counted loops

Runs over the numbers below a bound, upwards or downwards, with an invariant that says how far
the run has come; and what a loop that fills an array leaves in it.
-/

namespace Runs

variable {σ : Type*} {step : σ → ℕ → Option σ}

/-- `for k in 0..n` -/
theorem invariant_of_exec_range {Inv : ℕ → σ → Prop} {n : ℕ}
    (hstep : ∀ k s s', k < n → Inv k s → step s k = some s' → Inv (k + 1) s') {s s' : σ}
    (hs : Inv 0 s) (h : exec step s (List.range n) = some s') : Inv n s' := by
  induction n generalizing s' with
  | zero =>
      obtain rfl := Option.some_injective _ h
      exact hs
  | succ n ih =>
      rw [List.range_succ, exec_append, Option.bind_eq_some_iff] at h
      obtain ⟨s₁, hs₁, hlast⟩ := h
      rw [exec, Option.bind_eq_some_iff] at hlast
      obtain ⟨s₂, hs₂, hnil⟩ := hlast
      obtain rfl := Option.some_injective _ hnil
      have hbefore := ih (fun k s s' hk => hstep k s s' (Nat.lt_succ_of_lt hk)) hs₁
      exact hstep n s₁ s₂ (Nat.lt_succ_self n) hbefore hs₂

/-- `for k in (0..n).rev()` -/
theorem invariant_of_exec_reverse_range {Inv : ℕ → σ → Prop} {n : ℕ}
    (hstep : ∀ k s s', k < n → Inv (k + 1) s → step s k = some s' → Inv k s') {s s' : σ}
    (hs : Inv n s) (h : exec step s (List.range n).reverse = some s') : Inv 0 s' := by
  induction n generalizing s with
  | zero =>
      obtain rfl := Option.some_injective _ h
      exact hs
  | succ n ih =>
      rw [List.range_succ, List.reverse_append, List.reverse_singleton, List.singleton_append, exec,
        Option.bind_eq_some_iff] at h
      obtain ⟨s₁, hs₁, hrest⟩ := h
      exact ih (fun k s s' hk => hstep k s s' (Nat.lt_succ_of_lt hk))
        (hstep n s s₁ (Nat.lt_succ_self n) hs hs₁) hrest

/-- A loop that fills an array, at one place. -/
theorem getElem?_of_mapM {α β : Type} {f : α → Option β} {l : List α} {bs : List β}
    (h : l.mapM f = some bs) (i : ℕ) : bs[i]? = l[i]?.bind f := by
  induction l generalizing bs i with
  | nil =>
      obtain rfl := Option.some_injective _ h
      rfl
  | cons a l ih =>
      simp only [List.mapM_cons, Option.bind_eq_bind, Option.bind_eq_some_iff] at h
      obtain ⟨b, hb, bs', hbs', heq⟩ := h
      obtain rfl := Option.some_injective _ heq
      cases i with
      | zero => exact hb.symm
      | succ i => exact ih hbs' i

/-- A loop that fills an array fills one entry for each. -/
theorem length_of_mapM {α β : Type} {f : α → Option β} {l : List α} {bs : List β}
    (h : l.mapM f = some bs) : bs.length = l.length := by
  induction l generalizing bs with
  | nil =>
      obtain rfl := Option.some_injective _ h
      rfl
  | cons a l ih =>
      simp only [List.mapM_cons, Option.bind_eq_bind, Option.bind_eq_some_iff] at h
      obtain ⟨b, -, bs', hbs', heq⟩ := h
      obtain rfl := Option.some_injective _ heq
      exact congrArg Nat.succ (ih hbs')

end Runs
