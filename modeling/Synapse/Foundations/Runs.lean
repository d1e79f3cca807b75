import Mathlib

/-!
# Properties of the steps of a run

A system with a partial step function, the runs it makes from a list of actions,
and properties of a step, given by the state before it and the action.

`along_iff_of_invariant` compares two such properties over whole runs.  It is
enough that they agree on the steps from states that satisfy an invariant, and
that the invariant survives the steps that have the first property: up to the
first step that breaks the property the invariant holds, and at that step the
other property breaks as well.

The step function is partial: an action that is not possible in a state has no result, and a
run that takes it is none.  Properties of steps are asked of the state before the step, so a
condition on a step never speaks of what the step itself computes.
-/

namespace Runs

variable {σ α : Type*} (step : σ → α → Option σ)

/-- The state after a run, if every action was possible. -/
def exec : σ → List α → Option σ
  | s, [] => some s
  | s, a :: as => (step s a).bind fun s' => exec s' as

/-- Every step of the run has the property. -/
def Along (P : σ → α → Prop) (s : σ) (as : List α) : Prop :=
  ∀ front a back, as = front ++ a :: back → ∀ s₁ s₂, exec step s front = some s₁ →
    step s₁ a = some s₂ → P s₁ a

/-- What a step that is possible leads to. -/
theorem forall_step_iff {s s' : σ} {a : α} (h : step s a = some s') (P : σ → Prop) :
    (∀ s'', step s a = some s'' → P s'') ↔ P s' := by
  constructor
  · exact fun hall => hall s' h
  · intro hP s'' hs''
    obtain rfl := Option.some_injective _ (h.symm.trans hs'')
    exact hP

/-- A run in two parts. -/
theorem exec_append (s : σ) (as bs : List α) :
    exec step s (as ++ bs) = (exec step s as).bind fun s' => exec step s' bs := by
  induction as generalizing s with
  | nil => rfl
  | cons a as ih =>
      rw [List.cons_append, exec, exec, Option.bind_assoc]
      simp only [ih]

/-- No steps, no conditions. -/
theorem along_nil (P : σ → α → Prop) (s : σ) : Along step P s [] := by
  intro front a back hnil
  exact absurd hnil.symm (List.append_ne_nil_of_right_ne_nil _ (List.cons_ne_nil _ _))

/-- One step without the property is enough. -/
theorem not_along {P : σ → α → Prop} {s s₁ s₂ : σ} {front : List α} {a : α}
    (hexec : exec step s front = some s₁) (hstep : step s₁ a = some s₂) (hnot : ¬ P s₁ a)
    (back : List α) : ¬ Along step P s (front ++ a :: back) :=
  fun h => hnot (h front a back rfl s₁ s₂ hexec hstep)

/-- A run has the property along its first step and along the rest. -/
theorem along_cons (P : σ → α → Prop) (s : σ) (a : α) (as : List α) :
    Along step P s (a :: as) ↔ ∀ s', step s a = some s' → P s a ∧ Along step P s' as := by
  constructor
  · intro h s' hs'
    refine ⟨h [] a as rfl s s' rfl hs', fun front b back heq s₁ s₂ hexec hstep => ?_⟩
    refine h (a :: front) b back (by rw [heq]; rfl) s₁ s₂ ?_ hstep
    rw [exec, hs']
    exact hexec
  · intro h front b back heq s₁ s₂ hexec hstep
    cases front with
    | nil =>
        obtain ⟨rfl, rfl⟩ := List.cons.inj heq
        obtain rfl := Option.some_injective _ hexec
        exact (h s₂ hstep).1
    | cons c front =>
        obtain ⟨rfl, rfl⟩ := List.cons.inj heq
        rw [exec, Option.bind_eq_some_iff] at hexec
        obtain ⟨s', hs', hrest⟩ := hexec
        exact (h s' hs').2 front b back rfl s₁ s₂ hrest hstep

/-- The first step, and the rest of the run. -/
theorem along_of_step {P : σ → α → Prop} {s s' : σ} {a : α} {as : List α}
    (hstep : step s a = some s') (ha : P s a) (has : Along step P s' as) :
    Along step P s (a :: as) := by
  refine (along_cons step P s a as).mpr fun s'' hs'' => ⟨ha, ?_⟩
  rw [hstep] at hs''
  obtain rfl := Option.some_injective _ hs''
  exact has

/-- On a given run a decidable property can be checked. -/
instance decidableAlong (P : σ → α → Prop) [∀ s a, Decidable (P s a)] :
    ∀ s as, Decidable (Along step P s as)
  | s, [] => isTrue (along_nil step P s)
  | s, a :: as =>
      haveI : ∀ s', Decidable (Along step P s' as) := fun s' => decidableAlong P s' as
      haveI : Decidable (∀ s', step s a = some s' → P s a ∧ Along step P s' as) :=
        match step s a with
        | none => isTrue nofun
        | some s' => decidable_of_iff (P s a ∧ Along step P s' as)
            ⟨fun h _ heq => Option.some_injective _ heq ▸ h, fun h => h s' rfl⟩
      decidable_of_iff' _ (along_cons step P s a as)

/-- Several properties along a run. -/
theorem along_forall {ι : Type*} (P : ι → σ → α → Prop) (s : σ) (as : List α) :
    Along step (fun s a => ∀ i, P i s a) s as ↔ ∀ i, Along step (P i) s as := by
  constructor
  · intro h i front a back heq s₁ s₂ hexec hstep
    exact h front a back heq s₁ s₂ hexec hstep i
  · intro h front a back heq s₁ s₂ hexec hstep i
    exact h i front a back heq s₁ s₂ hexec hstep

/-- Two properties along one run. -/
theorem along_and (P Q : σ → α → Prop) (s : σ) (as : List α) :
    Along step (fun s a => P s a ∧ Q s a) s as ↔ Along step P s as ∧ Along step Q s as := by
  constructor
  · intro h
    exact ⟨fun front a back heq s₁ s₂ hexec hstep => (h front a back heq s₁ s₂ hexec hstep).1,
      fun front a back heq s₁ s₂ hexec hstep => (h front a back heq s₁ s₂ hexec hstep).2⟩
  · rintro ⟨hP, hQ⟩ front a back heq s₁ s₂ hexec hstep
    exact ⟨hP front a back heq s₁ s₂ hexec hstep, hQ front a back heq s₁ s₂ hexec hstep⟩

/-- A property along a run in two parts. -/
theorem along_append (P : σ → α → Prop) (s : σ) (as bs : List α) :
    Along step P s (as ++ bs) ↔
      Along step P s as ∧ ∀ s', exec step s as = some s' → Along step P s' bs := by
  induction as generalizing s with
  | nil =>
      refine Iff.trans ?_ (and_iff_right (along_nil step P s)).symm
      exact ⟨fun h s' hs' => Option.some_injective _ hs' ▸ h, fun h => h s rfl⟩
  | cons a as ih =>
      rw [List.cons_append, along_cons, along_cons]
      constructor
      · intro h
        refine ⟨fun s' hs' => ⟨(h s' hs').1, ((ih s').mp (h s' hs').2).1⟩, fun s'' hs'' => ?_⟩
        rw [exec, Option.bind_eq_some_iff] at hs''
        obtain ⟨s', hs', hrest⟩ := hs''
        exact ((ih s').mp (h s' hs').2).2 s'' hrest
      · rintro ⟨h, hrest⟩ s' hs'
        refine ⟨(h s' hs').1, (ih s').mpr ⟨(h s' hs').2, fun s'' hs'' => hrest s'' ?_⟩⟩
        rw [exec, hs']
        exact hs''

/-- **A run of one system that is a run of another.**  Properties that are about the other
system are properties of its run. -/
theorem along_map {τ β : Type*} {step' : τ → β → Option τ} (f : σ → τ) (g : α → β)
    (hstep : ∀ s a, step' (f s) (g a) = (step s a).map f) (P : τ → β → Prop) (s : σ)
    (as : List α) :
    Along step (fun s a => P (f s) (g a)) s as ↔ Along step' P (f s) (as.map g) := by
  induction as generalizing s with
  | nil => exact iff_of_true (along_nil step _ s) (along_nil step' P (f s))
  | cons a as ih =>
      rw [List.map_cons, along_cons, along_cons, hstep]
      constructor
      · intro h t ht
        obtain ⟨s', hs', rfl⟩ := Option.map_eq_some_iff.mp ht
        exact ⟨(h s' hs').1, (ih s').mp (h s' hs').2⟩
      · intro h s' hs'
        obtain ⟨ha, hrest⟩ := h (f s') (by rw [hs']; rfl)
        exact ⟨ha, (ih s').mpr hrest⟩

/-- **Since when.**  What holds after a run, and not at its start, has been brought about by
a step and has held since then. -/
theorem exists_since {F : σ → Prop} {s s' : σ} {as : List α} (hs : ¬ F s)
    (h : exec step s as = some s') (hF : F s') :
    ∃ before a between s₁ s₂, as = before ++ a :: between ∧ exec step s before = some s₁ ∧
      step s₁ a = some s₂ ∧ ¬ F s₁ ∧ F s₂ ∧ exec step s₂ between = some s' ∧
      Along step (fun s a => ∀ s', step s a = some s' → F s') s₂ between := by
  induction as using List.reverseRecOn generalizing s' with
  | nil =>
      obtain rfl := Option.some_injective _ h
      exact absurd hF hs
  | append_singleton as a ih =>
      rw [exec_append, Option.bind_eq_some_iff] at h
      obtain ⟨s₁, hexec, hlast⟩ := h
      have hstep : step s₁ a = some s' := by
        rw [exec, Option.bind_eq_some_iff] at hlast
        obtain ⟨s₂, hs₂, heq⟩ := hlast
        exact Option.some_injective _ heq ▸ hs₂
      by_cases hbefore : F s₁
      · obtain ⟨before, b, between, t₁, t₂, heq, ht₁, ht₂, hnot, hholds, hbetween, halong⟩ :=
          ih hexec hbefore
        refine ⟨before, b, between ++ [a], t₁, t₂, ?_, ht₁, ht₂, hnot, hholds, ?_, ?_⟩
        · rw [heq, List.append_assoc, List.cons_append]
        · rw [exec_append, hbetween]
          exact hlast
        · refine (along_append step _ t₂ between [a]).mpr ⟨halong, fun t ht => ?_⟩
          obtain rfl := Option.some_injective _ (hbetween.symm.trans ht)
          refine along_of_step step hstep (fun s'' hs'' => ?_) (along_nil step _ s')
          exact Option.some_injective _ (hstep.symm.trans hs'') ▸ hF
      · refine ⟨as, a, [], s₁, s', rfl, hexec, hstep, hbefore, hF, rfl, ?_⟩
        exact along_nil step _ s'

/-- **Comparing two step properties over runs.** -/
theorem along_iff_of_invariant {P Q : σ → α → Prop} {Inv : σ → Prop}
    (hiff : ∀ s a s', Inv s → step s a = some s' → (P s a ↔ Q s a))
    (hstep : ∀ s a s', Inv s → step s a = some s' → P s a → Inv s')
    {s : σ} (hs : Inv s) (as : List α) : Along step P s as ↔ Along step Q s as := by
  induction as generalizing s with
  | nil => exact iff_of_true (along_nil step P s) (along_nil step Q s)
  | cons a as ih =>
      rw [along_cons, along_cons]
      refine forall₂_congr fun s' hs' => ?_
      rw [← hiff s a s' hs hs']
      exact and_congr_right fun hP => ih (hstep s a s' hs hs' hP)

/-- The same for runs whose steps all satisfy an assumption. -/
theorem along_iff_of_assumed {A P Q : σ → α → Prop} {Inv : σ → Prop}
    (hiff : ∀ s a s', Inv s → step s a = some s' → A s a → (P s a ↔ Q s a))
    (hstep : ∀ s a s', Inv s → step s a = some s' → A s a → P s a → Inv s')
    {s : σ} (hs : Inv s) {as : List α} (hA : Along step A s as) :
    Along step P s as ↔ Along step Q s as := by
  have hboth : Along step (fun s a => A s a ∧ P s a) s as ↔
      Along step (fun s a => A s a ∧ Q s a) s as := by
    refine along_iff_of_invariant step (fun s a s' hs hs' => ?_) (fun s a s' hs hs' h => ?_) hs as
    · exact and_congr_right fun ha => hiff s a s' hs hs' ha
    · exact hstep s a s' hs hs' h.1 h.2
  rw [along_and, along_and, and_iff_right hA, and_iff_right hA] at hboth
  exact hboth

/-- **Invariants of runs** whose steps have a property. -/
theorem invariant_of_along {P : σ → α → Prop} {Inv : σ → Prop}
    (hstep : ∀ s a s', Inv s → step s a = some s' → P s a → Inv s') {s s' : σ} (hs : Inv s)
    {as : List α} (hP : Along step P s as) (h : exec step s as = some s') : Inv s' := by
  induction as generalizing s with
  | nil =>
      obtain rfl := Option.some_injective _ h
      exact hs
  | cons a as ih =>
      rw [exec, Option.bind_eq_some_iff] at h
      obtain ⟨s₁, hs₁, hrest⟩ := h
      obtain ⟨ha, has⟩ := (along_cons step P s a as).mp hP s₁ hs₁
      exact ih (hstep s a s₁ hs hs₁ ha) has hrest

/-- Invariants of all runs. -/
theorem invariant_of_exec {Inv : σ → Prop} (hstep : ∀ s a s', Inv s → step s a = some s' → Inv s')
    {s s' : σ} (hs : Inv s) {as : List α} (h : exec step s as = some s') : Inv s' := by
  have hP : Along step (fun _ _ => True) s as := fun _ _ _ _ _ _ _ _ => trivial
  exact invariant_of_along step (fun s a s' hs ha _ => hstep s a s' hs ha) hs hP h

/-- **Runs that never get stuck.**  Where the invariant holds every action is possible, keeps
it and has the property. -/
theorem exec_of_progress {P : σ → α → Prop} {Inv : σ → Prop}
    (hstep : ∀ s a, Inv s → P s a ∧ ∃ s', step s a = some s' ∧ Inv s') {s : σ} (hs : Inv s)
    (as : List α) : Along step P s as ∧ ∃ s', exec step s as = some s' ∧ Inv s' := by
  induction as generalizing s with
  | nil => exact ⟨along_nil step P s, s, rfl, hs⟩
  | cons a as ih =>
      obtain ⟨ha, s₁, hs₁, hinv⟩ := hstep s a hs
      obtain ⟨hrest, s', hexec, hs'⟩ := ih hinv
      exact ⟨along_of_step step hs₁ ha hrest, s', by rw [exec, hs₁]; exact hexec, hs'⟩

/-- Runs whose own actions never get stuck. -/
theorem exists_exec {Inv : σ → Prop} {as : List α}
    (hstep : ∀ s, ∀ a ∈ as, Inv s → ∃ s', step s a = some s' ∧ Inv s') {s : σ} (hs : Inv s) :
    ∃ s', exec step s as = some s' ∧ Inv s' := by
  induction as generalizing s with
  | nil => exact ⟨s, rfl, hs⟩
  | cons a as ih =>
      obtain ⟨s₁, hs₁, hinv⟩ := hstep s a List.mem_cons_self hs
      obtain ⟨s', hexec, hs'⟩ := ih (fun s a ha => hstep s a (List.mem_cons_of_mem _ ha)) hinv
      exact ⟨s', by rw [exec, hs₁]; exact hexec, hs'⟩

/-- **What a run must not spoil.**  A state is good if the one before it was and the
step has the property; then the end is good exactly if every step had it. -/
theorem good_iff_along {P : σ → α → Prop} {Inv Good : σ → Prop}
    (hstep : ∀ s a s', Inv s → step s a = some s' → Inv s')
    (hgood : ∀ s a s', Inv s → step s a = some s' → (Good s' ↔ Good s ∧ P s a)) {s s' : σ}
    (hs : Inv s) {as : List α} (h : exec step s as = some s') :
    Good s' ↔ Good s ∧ Along step P s as := by
  induction as generalizing s with
  | nil =>
      obtain rfl := Option.some_injective _ h
      exact (and_iff_left (along_nil step P s)).symm
  | cons a as ih =>
      rw [exec, Option.bind_eq_some_iff] at h
      obtain ⟨s₁, hs₁, hrest⟩ := h
      rw [ih (hstep s a s₁ hs hs₁) hrest, hgood s a s₁ hs hs₁, and_assoc, along_cons,
        forall_step_iff step hs₁]

/-- **Quantities that never decrease.**  Comparing any two points of a run is
comparing the two ends of each step. -/
theorem monotone_iff_along {β : Type*} [Preorder β] (f : σ → β) (s : σ) (as : List α) :
    (∀ before between after, as = before ++ between ++ after → ∀ s₁ s₂,
        exec step s before = some s₁ → exec step s₁ between = some s₂ → f s₁ ≤ f s₂) ↔
      Along step (fun s a => ∀ s', step s a = some s' → f s ≤ f s') s as := by
  constructor
  · intro h front a back heq s₁ s₂ hexec _ s' hs'
    refine h front [a] back (by rw [heq, List.append_assoc]; rfl) s₁ s' hexec ?_
    rw [exec, hs']
    rfl
  · intro h before between after heq
    induction between generalizing before with
    | nil =>
        intro s₁ s₂ _ hbetween
        obtain rfl := Option.some_injective _ hbetween
        exact le_rfl
    | cons a between ih =>
        intro s₁ s₂ hbefore hbetween
        rw [exec, Option.bind_eq_some_iff] at hbetween
        obtain ⟨s', hs', hrest⟩ := hbetween
        have hfirst : f s₁ ≤ f s' :=
          h before a (between ++ after) (by rw [heq, List.append_assoc]; rfl) s₁ s' hbefore
            hs' s' hs'
        refine hfirst.trans (ih (before ++ [a]) (by rw [heq]; simp) s' s₂ ?_ hrest)
        rw [exec_append, hbefore, Option.bind_some, exec, hs']
        rfl

end Runs
