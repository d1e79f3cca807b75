import Synapse.Foundations.LeastMeanSquares
import Synapse.Ml.FeatureEncoder
import Synapse.Ml.MLSubAPI

/-!
# How much the bandit errs

The prediction errors of the bandit over a run of `MLSubAPI`, in exact arithmetic: in
whatever order calls of `observe` take their steps, the trainer replays what is in the ring
and choices are made.

`observe` is a step of online least squares for the weights of one action.  So over a whole
run, replays included, the squared errors are bounded by those of any fixed weights, up to
a constant that does not depend on the run (`errors_le`).

### Online least squares

The bound is the usual one: a step towards one sample brings the weights nearer to any fixed
ones than the sample's error was large, less what those fixed weights err themselves
(`Foundations.LeastMeanSquares`).  Summing over a run leaves the distance at the start as the
only constant.  Which samples there are, and in which order, does not matter, so a replayed
sample counts like a new one and the interleavings of trainer and observer need no care: every
lesson that is learned is one step (`lesson?`).

It is stated for an ordered field, and only for the exact numbers does it hold: in floats a
step is not a contraction any more.
-/

namespace Synapse.Ml

open LeastMeanSquares Runs Telemetry

namespace ContextualBandit

variable {R ρ : Type*} [CommRing R]

/-- The prediction of an action is the product of its weights with the features. -/
theorem predict_eq_score (w f : Features R) : predict w f = score w f := by
  unfold predict score
  rw [Fin.sum_univ_def, List.sum_eq_foldl, List.foldl_map]

/-- The weights of the action take the step, and the others stay. -/
theorem weights_observe (b : ContextualBandit R ρ) (action : ExecutionBackend) (reward : R)
    (f : Features R) : (b.observe action reward f).weights =
      Function.update b.weights (backendToIndex action)
        (LeastMeanSquares.step b.alpha reward f (b.weights (backendToIndex action))) := by
  unfold observe
  dsimp only
  congr 1
  funext j
  rw [gradientStep, predict_eq_score, LeastMeanSquares.step]

end ContextualBandit

namespace MLSubAPI

open ContextualBandit

variable {R ρ Report : Type*}

/-- The squares of the features add up to at most `B`. -/
def Bounded [CommRing R] [LE R] (B : R) (f : Features R) : Prop := ∑ j, f j ^ 2 ≤ B

/-- The lesson of a call. -/
def given : ObserveCall R → Lesson R
  | .called l | .observed l | .numbered _ l | .recorded l => l

section Errors

variable [CommRing R]

/-- The squared error of a model in the lesson of a step, if it has one. -/
def squaredError (model : MLSubAPI R ρ → Fin 3 → Features R) (s : MLSubAPI R ρ)
    (a : Action R Report) : R :=
  match s.lesson? a with
  | some l => (l.reward - predict (model s (backendToIndex l.action)) l.f) ^ 2
  | none => 0

/-- The squared distance of the weights to those of a fixed model. -/
def distance (s : MLSubAPI R ρ) (v : Fin 3 → Features R) : R :=
  ∑ a, sqDist (s.bandit.weights a) (v a)

end Errors

section Distances

variable [CommRing R] [LinearOrder R] {s s' : MLSubAPI R ρ} {α B : R}
  {generator : Generator R ρ} {encode : WorkloadSignature → Option Report → Features R}

/-- The learning rate is `α`, and all that can be learnt from has bounded features. -/
structure Fed (α B : R) (s : MLSubAPI R ρ) : Prop where
  alpha : s.bandit.alpha = α
  calls : ∀ c ∈ s.calls, Bounded B (given c).f
  replay : ∀ i, Bounded B (s.replay i).f

/-- What is passed to `observe` has bounded features. -/
def Allowed (B : R) : Action R Report → Prop
  | .observe _ _ f => Bounded B f
  | _ => True

/-- What is learned has bounded features. -/
theorem Fed.lesson (h : s.Fed α B) {a : Action R Report} {l : Lesson R}
    (hl : s.lesson? a = some l) : Bounded B l.f := by
  cases a with
  | advance i =>
      obtain ⟨c, hc, hcall⟩ := Option.bind_eq_some_iff.mp hl
      have hgiven := h.calls c (List.mem_of_getElem? hc)
      cases c with
      | called l' =>
          obtain rfl := Option.some_injective _ hcall
          exact hgiven
      | observed _ | numbered _ _ | recorded _ => cases hcall
  | train =>
      change s.replayed? = some l at hl
      unfold replayed? at hl
      split at hl
      · split at hl
        · obtain rfl := Option.some_injective _ hl
          exact h.replay _
        · cases hl
      · cases hl
  | observe | observeFromSignature | decide | freeze | unfreeze => cases hl

/-- Learning changes no samples. -/
theorem Fed.learn (h : s.Fed α B) (l : Lesson R) : (s.learn l).Fed α B :=
  ⟨h.alpha, h.calls, h.replay⟩

/-- A call of `observe` gets on. -/
theorem Fed.advance (h : s.Fed α B) {i : ℕ} {c : ObserveCall R} (hc : s.calls[i]? = some c)
    (hstep : s.advance i c = some s') : s'.Fed α B := by
  have hgiven := h.calls c (List.mem_of_getElem? hc)
  have hcalls : ∀ new : ObserveCall R, given new = given c →
      ∀ c' ∈ s.calls.set i new, Bounded B (given c').f := by
    intro new hnew
    refine (Calls.moved_set hc new).forall_mem h.calls ?_
    rw [hnew]
    exact hgiven
  cases c with
  | called l =>
      obtain rfl := Option.some_injective _ hstep
      exact ⟨h.alpha, hcalls (.observed l) rfl, h.replay⟩
  | observed l =>
      obtain rfl := Option.some_injective _ hstep
      exact ⟨h.alpha, hcalls (.numbered s.replayWrite l) rfl, h.replay⟩
  | numbered idx l =>
      obtain rfl := Option.some_injective _ hstep
      refine ⟨h.alpha, hcalls (.recorded l) rfl, fun j => ?_⟩
      show Bounded B (Function.update s.replay (idx.toNat % kReplaySize) l.experience j).f
      rcases eq_or_ne j (idx.toNat % kReplaySize) with rfl | hne
      · rw [Function.update_self]
        exact hgiven
      · rw [Function.update_of_ne hne]
        exact h.replay j
  | recorded l => cases hstep

/-- Nor does a round of the trainer, which takes them from the ring. -/
theorem Fed.train (h : s.Fed α B) : s.train.Fed α B := by
  unfold MLSubAPI.train
  split
  · exact ⟨h.alpha, h.calls, h.replay⟩
  · split
    · exact ⟨h.alpha, h.calls, h.replay⟩
    · exact ⟨h.alpha, h.calls, h.replay⟩

/-- The step lemma: every sample in the ring is bounded. -/
theorem Fed.step (h : s.Fed α B) (hencode : ∀ sig report, Bounded B (encode sig report))
    {a : Action R Report} (ha : Allowed B a) (hstep : s.step generator encode a = some s') :
    s'.Fed α B := by
  cases a with
  | observe action reward f =>
      obtain rfl := Option.some_injective _ hstep
      exact ⟨h.alpha, (Calls.moved_append s.calls _).forall_mem h.calls ha, h.replay⟩
  | observeFromSignature action reward sig report =>
      obtain rfl := Option.some_injective _ hstep
      refine ⟨h.alpha, (Calls.moved_append s.calls _).forall_mem h.calls ?_, h.replay⟩
      exact hencode sig report
  | decide sig report =>
      obtain rfl := Option.some_injective _ hstep
      obtain ⟨rng, hrng⟩ := s.bandit.chooseAction_snd generator (encode sig report)
      rw [hrng]
      exact ⟨h.alpha, h.calls, h.replay⟩
  | freeze | unfreeze =>
      obtain rfl := Option.some_injective _ hstep
      exact ⟨h.alpha, h.calls, h.replay⟩
  | advance i =>
      obtain ⟨c, hc, hadvance⟩ := Option.bind_eq_some_iff.mp hstep
      exact h.advance hc hadvance
  | train =>
      obtain rfl := Option.some_injective _ hstep
      exact h.train

variable [IsStrictOrderedRing R]

/-- One lesson: the distance to fixed weights pays for the error of the bandit, up to the
error of those weights. -/
theorem distance_step_le (hα : 0 ≤ α) (h : s.Fed α B) {a : Action R Report}
    (hstep : s.step generator encode a = some s') (v : Fin 3 → Features R) :
    s'.distance v + α * (1 - α * B) * squaredError (fun s => s.bandit.weights) s a ≤
      s.distance v + α * squaredError (fun _ => v) s a := by
  have hweights := (teaches_step hstep).weights
  unfold squaredError distance
  cases hlesson : s.lesson? a with
  | none =>
      rw [hlesson] at hweights
      simp only [hweights, taught, mul_zero, add_zero]
      exact le_rfl
  | some l =>
      rw [hlesson] at hweights
      have hlearnt : s'.bandit.weights = Function.update s.bandit.weights
          (backendToIndex l.action) (LeastMeanSquares.step α l.reward l.f
            (s.bandit.weights (backendToIndex l.action))) := by
        rw [hweights, taught, weights_observe, h.alpha]
      have hone := sqDist_step_le hα l.reward (h.lesson hlesson)
        (s.bandit.weights (backendToIndex l.action)) (v (backendToIndex l.action))
      -- the other two actions keep their weights
      have hrest : ∀ i ∈ Finset.univ.erase (backendToIndex l.action),
          sqDist (s'.bandit.weights i) (v i) = sqDist (s.bandit.weights i) (v i) := by
        intro i hi
        rw [hlearnt, Function.update_of_ne (Finset.ne_of_mem_erase hi)]
      have hself : s'.bandit.weights (backendToIndex l.action) = LeastMeanSquares.step α
          l.reward l.f (s.bandit.weights (backendToIndex l.action)) := by
        rw [hlearnt, Function.update_self]
      have hmem := Finset.mem_univ (backendToIndex l.action)
      rw [← Finset.add_sum_erase _ _ hmem, ← Finset.add_sum_erase _ _ hmem,
        Finset.sum_congr rfl hrest, hself]
      dsimp only
      rw [predict_eq_score, predict_eq_score]
      linarith

/-- With any features whose squares are bounded. -/
theorem errors_le_of_bounded (generator : Generator R ρ)
    (encode : WorkloadSignature → Option Report → Features R) (hα : 0 ≤ α)
    (hencode : ∀ sig report, Bounded B (encode sig report))
    (weights : Fin 3 → Features R) (epsilon : R) (rng : ρ) (replay : ℕ → Experience R)
    (hreplay : ∀ i, Bounded B (replay i).f) {actions : List (Action R Report)}
    (hactions : ∀ a ∈ actions, Allowed B a)
    (h : exec (step generator encode) (create (.create weights epsilon α rng) replay) actions =
      some s) (v : Fin 3 → Features R) :
    s.distance v + α * (1 - α * B) * total (step generator encode)
        (squaredError fun s => s.bandit.weights) (create (.create weights epsilon α rng) replay)
        actions ≤
      (∑ a, sqDist (weights a) (v a)) + α * total (step generator encode)
        (squaredError fun _ => v) (create (.create weights epsilon α rng) replay) actions := by
  rw [← total_mul_left, ← total_mul_left]
  refine total_le (step generator encode) (Fed α B) (Allowed B) (fun s => s.distance v)
    (fun s a s' hs ha hs' => ?_) ⟨rfl, nofun, hreplay⟩ hactions h
  exact ⟨hs.step hencode ha hs', distance_step_le hα hs hs' v⟩

end Distances

variable [Field R] [LinearOrder R] [IsStrictOrderedRing R] {s : MLSubAPI R ρ} {α B : R}

/-- **The bandit's errors are bounded** by those of every fixed model: whatever weights `v`
one compares with, over all lessons of a run, replayed ones included. -/
theorem errors_le (generator : Generator R ρ) (encoder : FeatureEncoder R) (hα : 0 ≤ α)
    (hB : 8 ≤ B) (weights : Fin 3 → Features R) (epsilon : R) (rng : ρ)
    (replay : ℕ → Experience R) (hreplay : ∀ i, Bounded B (replay i).f)
    {actions : List (Action R SynapseSessionReport)} (hactions : ∀ a ∈ actions, Allowed B a)
    (h : exec (step generator encoder.encode) (create (.create weights epsilon α rng) replay)
      actions = some s) (v : Fin 3 → Features R) :
    s.distance v + α * (1 - α * B) * total (step generator encoder.encode)
        (squaredError fun s => s.bandit.weights) (create (.create weights epsilon α rng) replay)
        actions ≤
      (∑ a, sqDist (weights a) (v a)) + α * total (step generator encoder.encode)
        (squaredError fun _ => v) (create (.create weights epsilon α rng) replay) actions := by
  have hencode : ∀ sig report, Bounded B (encoder.encode sig report) :=
    fun sig report => (encoder.sum_sq_encode_le sig report).trans hB
  exact errors_le_of_bounded generator encoder.encode hα hencode weights epsilon rng replay
    hreplay hactions h v

/-- The signature of a dispatch is observed once and replayed; the model that it is compared
with predicts the reward of every dispatch. -/
theorem errors_le_replayed :
    let encoder : FeatureEncoder ℚ := ⟨fun _ => 0⟩
    let v : Fin 3 → Features ℚ := fun _ j => if j = 7 then 1 else 0
    let actions : List (Action ℚ SynapseSessionReport) :=
      [.observeFromSignature .JIT 1 { isComputeDispatch := true } none, .advance 0, .advance 0,
        .advance 0, .train, .train]
    ∃ s, exec (step greedy encoder.encode) untrained actions = some s ∧
      s.distance v + 1 / 100 * (1 - 1 / 100 * 8) *
          total (step greedy encoder.encode) (squaredError fun s => s.bandit.weights) untrained
            actions ≤
        (∑ a, sqDist (untrained.bandit.weights a) (v a)) + 1 / 100 *
          total (step greedy encoder.encode) (squaredError fun _ => v) untrained actions := by
  intro encoder v actions
  have hzero : Bounded (8 : ℚ) 0 := by
    simp [Bounded]
  have hallowed : ∀ a ∈ actions, Allowed 8 a := by
    intro a ha
    simp only [actions, List.mem_cons, List.not_mem_nil, or_false] at ha
    rcases ha with rfl | rfl | rfl | rfl | rfl | rfl
    all_goals trivial
  obtain ⟨s, hrun⟩ : ∃ s, exec (step greedy encoder.encode) untrained actions = some s :=
    ⟨_, rfl⟩
  refine ⟨s, hrun, ?_⟩
  exact errors_le greedy encoder (by norm_num) le_rfl (fun _ _ => 0) (1 / 20) ()
    (fun _ => ⟨0, 0, 0⟩) (fun _ => hzero) hallowed hrun v

end MLSubAPI

end Synapse.Ml
