import Synapse.Foundations.Calls
import Synapse.Foundations.Runs
import Synapse.Ml.ContextualBandit
import Synapse.Telemetry.TelemetryTypes

/-!
# `MLSubAPI`

Concurrent calls of `observe` with the trainer thread, which replays what is in the ring of
the last experiences.  An observation trains the bandit, draws its number and writes its
entry; the trainer loads the number of entries and trains the bandit with one after the
other.

Every step trains the bandit at most once, and only there the weights and the counters
change (`Stepped.trained`).  So the weights of a frozen model stay exactly as long as there
is nothing to learn (`frozenKept_iff`), and the counters count the observations and what has
been replayed (`Counted`).

### Who trains

Observations come from any number of threads, and the trainer is one more; the bandit has a
lock of its own, so each training is one step, and the interleavings are those of whole
trainings with the steps of the ring.  `freeze` stores a flag that no other function reads, so
a frozen model is trained like any other; its weights stay as long as no step has a lesson, or
the lessons teach nothing.
-/

namespace Synapse.Ml

open Calls Runs

/-- What the bandit is trained with. -/
structure Lesson (R : Type*) where
  action : ExecutionBackend
  reward : R
  f : Features R

/-- An entry of the replay ring. -/
structure Experience (R : Type*) where
  f : Features R
  action : ℤ
  reward : R

/-- What an entry of the ring trains. -/
def Experience.lesson {R : Type*} (e : Experience R) : Lesson R where
  action := indexToBackend e.action
  reward := e.reward
  f := e.f

/-- `Experience{f, action, reward}`. -/
def Lesson.experience {R : Type*} (l : Lesson R) : Experience R where
  f := l.f
  action := (backendToIndex l.action : ℕ)
  reward := l.reward

/-- How far a call of `observe` has come. -/
inductive ObserveCall (R : Type*) where
  | called (l : Lesson R)
  | observed (l : Lesson R)
  | numbered (idx : UInt64) (l : Lesson R)
  | recorded (l : Lesson R)

/-- What the next step of a call trains the bandit with. -/
def ObserveCall.lesson? {R : Type*} : ObserveCall R → Option (Lesson R)
  | called l => some l
  | _ => none

/-- Where the trainer is: between two passes, or about to replay entry `localR` of those
below `w`. -/
inductive Trainer where
  | sleeping
  | replaying (localR w : UInt64)

/-- The fields, the calls of `observe`, the trainer, and the rewards that it has replayed. -/
structure MLSubAPI (R ρ : Type*) where
  bandit : ContextualBandit R ρ
  replay : ℕ → Experience R
  replayWrite : UInt64
  calls : List (ObserveCall R)
  trainer : Trainer
  replayed : List R

namespace MLSubAPI

/-- `kReplaySize`. -/
def kReplaySize : ℕ := 4096

/-- An observation, a decision, the flag, or a step of an observation or of the trainer. -/
inductive Action (R Report : Type*) where
  | observe (action : ExecutionBackend) (reward : R) (f : Features R)
  | observeFromSignature (action : ExecutionBackend) (reward : R) (sig : WorkloadSignature)
      (report : Option Report)
  | decide (sig : WorkloadSignature) (report : Option Report)
  | freeze
  | unfreeze
  | advance (i : ℕ)
  | train

variable {R ρ Report : Type*} [Zero R] [Add R] [Sub R] [Mul R]

/-- The constructor; nothing is said about the entries of the ring. -/
def create (bandit : ContextualBandit R ρ) (replay : ℕ → Experience R) : MLSubAPI R ρ where
  bandit := bandit
  replay := replay
  replayWrite := 0
  calls := []
  trainer := .sleeping
  replayed := []

/-- `bandit_.observe(…)`. -/
def learn (s : MLSubAPI R ρ) (l : Lesson R) : MLSubAPI R ρ :=
  { s with bandit := s.bandit.observe l.action l.reward l.f }

/-- The next step of a call of `observe`. -/
def advance (s : MLSubAPI R ρ) (i : ℕ) : ObserveCall R → Option (MLSubAPI R ρ)
  | .called l => some { s.learn l with calls := s.calls.set i (.observed l) }
  | .observed l =>
      some { s with
        replayWrite := s.replayWrite + 1
        calls := s.calls.set i (.numbered s.replayWrite l) }
  | .numbered idx l =>
      some { s with
        replay := Function.update s.replay (idx.toNat % kReplaySize) l.experience
        calls := s.calls.set i (.recorded l) }
  | .recorded _ => none

/-- The lesson that an entry of the ring is replayed as. -/
def entry (s : MLSubAPI R ρ) (localR : UInt64) : Lesson R :=
  (s.replay (localR.toNat % kReplaySize)).lesson

/-- The next step of the trainer. -/
def train (s : MLSubAPI R ρ) : MLSubAPI R ρ :=
  match s.trainer with
  | .sleeping =>
      let w := s.replayWrite
      let start := if w > 4096 then w - 4096 else 0
      { s with trainer := .replaying start w }
  | .replaying localR w =>
      if localR < w then
        { s.learn (s.entry localR) with
          trainer := .replaying (localR + 1) w
          replayed := s.replayed ++ [(s.entry localR).reward] }
      else { s with trainer := .sleeping }

/-- One step. -/
def step [LT R] [DecidableLT R] (generator : Generator R ρ)
    (encode : WorkloadSignature → Option Report → Features R) (s : MLSubAPI R ρ) :
    Action R Report → Option (MLSubAPI R ρ)
  | .observe action reward f => some { s with calls := s.calls ++ [.called ⟨action, reward, f⟩] }
  | .observeFromSignature action reward sig report =>
      some { s with calls := s.calls ++ [.called ⟨action, reward, encode sig report⟩] }
  | .decide sig report =>
      some { s with bandit := (s.bandit.chooseAction generator (encode sig report)).2 }
  | .freeze => some { s with bandit := { s.bandit with frozen := true } }
  | .unfreeze => some { s with bandit := { s.bandit with frozen := false } }
  | .advance i => s.calls[i]?.bind (s.advance i)
  | .train => some s.train

/-! ## What a step trains -/

/-- The lesson of the trainer's next step. -/
def replayed? (s : MLSubAPI R ρ) : Option (Lesson R) :=
  match s.trainer with
  | .replaying localR w => if localR < w then some (s.entry localR) else none
  | .sleeping => none

/-- The lesson of a step. -/
def lesson? (s : MLSubAPI R ρ) : Action R Report → Option (Lesson R)
  | .advance i => s.calls[i]?.bind ObserveCall.lesson?
  | .train => s.replayed?
  | _ => none

/-- The bandit after its lesson, if there is one. -/
def taught (b : ContextualBandit R ρ) : Option (Lesson R) → ContextualBandit R ρ
  | some l => b.observe l.action l.reward l.f
  | none => b

/-- The reward of a call that the bandit has learnt from. -/
def heard : ObserveCall R → Option R
  | .called _ => none
  | .observed l | .numbered _ l | .recorded l => some l.reward

/-- The rewards that the bandit has been trained with. -/
def rewards (s : MLSubAPI R ρ) : List R := s.calls.filterMap heard ++ s.replayed

/-- What a step with the given lesson does to the bandit, and to the rewards. -/
structure Teaches (s : MLSubAPI R ρ) (lesson : Option (Lesson R)) (s' : MLSubAPI R ρ) :
    Prop where
  weights : s'.bandit.weights = (taught s.bandit lesson).weights
  updates : s'.bandit.updates = (taught s.bandit lesson).updates
  cumulativeReward : s'.bandit.cumulativeReward = (taught s.bandit lesson).cumulativeReward
  selectionCounts : s'.bandit.selectionCounts = (taught s.bandit lesson).selectionCounts
  rewards : s'.rewards.Perm (lesson.toList.map Lesson.reward ++ s.rewards)

variable {s s' : MLSubAPI R ρ}

/-- A step that neither trains the bandit nor gets a call to hear. -/
theorem teaches_nothing (hweights : s'.bandit.weights = s.bandit.weights)
    (hupdates : s'.bandit.updates = s.bandit.updates)
    (hcumulative : s'.bandit.cumulativeReward = s.bandit.cumulativeReward)
    (hcounts : s'.bandit.selectionCounts = s.bandit.selectionCounts)
    (hcalls : (s'.calls.filterMap heard).Perm (s.calls.filterMap heard))
    (hreplayed : s'.replayed = s.replayed) : s.Teaches none s' where
  weights := hweights
  updates := hupdates
  cumulativeReward := hcumulative
  selectionCounts := hcounts
  rewards := by
    rw [rewards, hreplayed]
    exact hcalls.append_right s.replayed

/-- A step of a call of `observe`. -/
theorem teaches_advance {i : ℕ} {c : ObserveCall R} (hc : s.calls[i]? = some c)
    (h : s.advance i c = some s') : s.Teaches c.lesson? s' := by
  cases c with
  | called l =>
      obtain rfl := Option.some_injective _ h
      refine ⟨rfl, rfl, rfl, rfl, ?_⟩
      have hheard : ((s.calls.set i (.observed l)).filterMap heard).Perm
          (l.reward :: s.calls.filterMap heard) := (moved_set hc _).filterMap_gained rfl rfl
      exact hheard.append_right s.replayed
  | observed l =>
      obtain rfl := Option.some_injective _ h
      exact teaches_nothing rfl rfl rfl rfl ((moved_set hc _).filterMap_same rfl) rfl
  | numbered idx l =>
      obtain rfl := Option.some_injective _ h
      exact teaches_nothing rfl rfl rfl rfl ((moved_set hc _).filterMap_same rfl) rfl
  | recorded l => cases h

/-- A step of the trainer. -/
theorem teaches_train (s : MLSubAPI R ρ) : s.Teaches s.replayed? s.train := by
  unfold train replayed?
  cases s.trainer with
  | sleeping => exact teaches_nothing rfl rfl rfl rfl .rfl rfl
  | replaying localR w =>
      by_cases hlt : localR < w
      · simp only [if_pos hlt]
        refine ⟨rfl, rfl, rfl, rfl, ?_⟩
        change (s.calls.filterMap heard ++ (s.replayed ++ [(s.entry localR).reward])).Perm _
        rw [← List.append_assoc]
        exact List.perm_append_comm
      · simp only [if_neg hlt]
        exact teaches_nothing rfl rfl rfl rfl .rfl rfl

variable [LT R] [DecidableLT R] {generator : Generator R ρ}
  {encode : WorkloadSignature → Option Report → Features R}

/-- **One step.** -/
theorem teaches_step {a : Action R Report} (h : s.step generator encode a = some s') :
    s.Teaches (s.lesson? a) s' := by
  cases a with
  | observe action reward f =>
      obtain rfl := Option.some_injective _ h
      exact teaches_nothing rfl rfl rfl rfl ((moved_append s.calls _).filterMap_same rfl) rfl
  | observeFromSignature action reward sig report =>
      obtain rfl := Option.some_injective _ h
      exact teaches_nothing rfl rfl rfl rfl ((moved_append s.calls _).filterMap_same rfl) rfl
  | decide sig report =>
      obtain rfl := Option.some_injective _ h
      obtain ⟨rng, hrng⟩ := s.bandit.chooseAction_snd generator (encode sig report)
      rw [hrng]
      exact teaches_nothing rfl rfl rfl rfl .rfl rfl
  | freeze =>
      obtain rfl := Option.some_injective _ h
      exact teaches_nothing rfl rfl rfl rfl .rfl rfl
  | unfreeze =>
      obtain rfl := Option.some_injective _ h
      exact teaches_nothing rfl rfl rfl rfl .rfl rfl
  | advance i =>
      obtain ⟨c, hc, hadvance⟩ := Option.bind_eq_some_iff.mp h
      rw [lesson?, hc, Option.bind_some]
      exact teaches_advance hc hadvance
  | train =>
      obtain rfl := Option.some_injective _ h
      exact teaches_train s

/-! ## Frozen models -/

/-- The flag after an action. -/
def frozenAfter (frozen : Bool) : Action R Report → Bool
  | .freeze => true
  | .unfreeze => false
  | _ => frozen

/-- Calls and the trainer leave the flag alone. -/
theorem frozen_step {a : Action R Report} (h : s.step generator encode a = some s') :
    s'.bandit.frozen = frozenAfter s.bandit.frozen a := by
  cases a with
  | observe _ _ _ | observeFromSignature _ _ _ _ | freeze | unfreeze =>
      obtain rfl := Option.some_injective _ h
      rfl
  | decide sig report =>
      obtain rfl := Option.some_injective _ h
      obtain ⟨rng, hrng⟩ := s.bandit.chooseAction_snd generator (encode sig report)
      rw [hrng]
      rfl
  | advance i =>
      obtain ⟨c, -, hadvance⟩ := Option.bind_eq_some_iff.mp h
      cases c with
      | called _ | observed _ | numbered _ _ =>
          obtain rfl := Option.some_injective _ hadvance
          rfl
      | recorded _ => cases hadvance
  | train =>
      obtain rfl := Option.some_injective _ h
      change s.train.bandit.frozen = s.bandit.frozen
      unfold train
      split
      · rfl
      · split
        · rfl
        · rfl

omit [Zero R] [Add R] [Sub R] [Mul R] [LT R] [DecidableLT R] in
/-- Only a call of `freeze` sets the flag. -/
theorem eq_freeze {frozen : Bool} {a : Action R Report} (hbefore : ¬ frozen = true)
    (hafter : frozenAfter frozen a = true) : a = .freeze := by
  cases a with
  | freeze => rfl
  | unfreeze => cases hafter
  | _ => exact absurd hafter hbefore

/-- As long as the flag stays, `unfreeze` is not called. -/
theorem unfreeze_not_mem {actions : List (Action R Report)}
    (hexec : exec (step generator encode) s actions = some s')
    (hfrozen : Along (step generator encode) (fun s a => ∀ s', s.step generator encode a = some s' →
      s'.bandit.frozen = true) s actions) : .unfreeze ∉ actions := by
  intro hmem
  obtain ⟨front, back, rfl⟩ := List.append_of_mem hmem
  rw [exec_append, Option.bind_eq_some_iff] at hexec
  obtain ⟨t, ht, -⟩ := hexec
  exact Bool.false_ne_true (hfrozen front .unfreeze back rfl t _ ht rfl _ rfl)

/-- A step keeps the weights exactly if there is nothing to learn from its lesson. -/
theorem weights_step_iff {a : Action R Report} (h : s.step generator encode a = some s') :
    s'.bandit.weights = s.bandit.weights ↔
      ∀ l, s.lesson? a = some l → s.bandit.Absorbs l.action l.reward l.f := by
  rw [(teaches_step h).weights]
  cases s.lesson? a with
  | none => exact iff_of_true rfl nofun
  | some l =>
      rw [taught, ContextualBandit.weights_observe_iff]
      exact ⟨fun habsorbs _ heq => Option.some_injective _ heq ▸ habsorbs, fun hall => hall l rfl⟩

variable (generator encode) in
/-- At every point between a call of `freeze` and the next one of `unfreeze`, the weights are
those at the call. -/
def FrozenKept (s : MLSubAPI R ρ) (actions : List (Action R Report)) : Prop :=
  ∀ before between after, actions = before ++ .freeze :: (between ++ after) →
    .unfreeze ∉ between → ∀ s₁ s₂,
      exec (step generator encode) s (before ++ [.freeze]) = some s₁ →
      exec (step generator encode) s₁ between = some s₂ →
        s₂.bandit.weights = s₁.bandit.weights

/-- While the model is frozen, there is nothing to learn from what is observed or replayed. -/
def NothingLearnt (s : MLSubAPI R ρ) (a : Action R Report) : Prop :=
  s.bandit.frozen = true →
    ∀ l, s.lesson? a = some l → s.bandit.Absorbs l.action l.reward l.f

/-- Weights stay as long as the model is frozen and there is nothing to learn. -/
theorem weights_exec {actions : List (Action R Report)}
    (hfrozen : s.bandit.frozen = true) (hunfreeze : .unfreeze ∉ actions)
    (hnothing : Along (step generator encode) NothingLearnt s actions)
    (h : exec (step generator encode) s actions = some s') :
    s'.bandit.weights = s.bandit.weights := by
  induction actions generalizing s with
  | nil =>
      obtain rfl := Option.some_injective _ h
      rfl
  | cons a actions ih =>
      rw [exec, Option.bind_eq_some_iff] at h
      obtain ⟨s₁, hs₁, hrest⟩ := h
      obtain ⟨ha, hactions⟩ := (along_cons _ _ s a actions).mp hnothing s₁ hs₁
      obtain ⟨hne, hmem⟩ := not_or.mp (mt List.mem_cons.mpr hunfreeze)
      have hfrozen₁ : s₁.bandit.frozen = true := by
        rw [frozen_step hs₁]
        cases a with
        | unfreeze => exact absurd rfl hne
        | freeze => rfl
        | _ => exact hfrozen
      rw [ih hfrozen₁ hmem hactions hrest]
      exact (weights_step_iff hs₁).mpr (ha hfrozen)

/-- **A frozen model keeps its weights exactly if there is nothing to learn while it is
frozen.** -/
theorem frozenKept_iff (generator : Generator R ρ)
    (encode : WorkloadSignature → Option Report → Features R) (weights : Fin 3 → Features R)
    (epsilon alpha : R) (rng : ρ) (replay : ℕ → Experience R)
    (actions : List (Action R Report)) :
    FrozenKept generator encode (create (.create weights epsilon alpha rng) replay) actions ↔
      Along (step generator encode) NothingLearnt
        (create (.create weights epsilon alpha rng) replay) actions := by
  constructor
  · intro hkept front a back heq s₁ s₂ hfront hstep hfrozen
    -- the model is frozen since a call of `freeze`
    obtain ⟨before, b, between, t₁, t₂, rfl, ht₁, ht₂, hnot, hholds, hbetween, halong⟩ :=
      exists_since (step generator encode) (F := fun s => s.bandit.frozen = true)
        Bool.false_ne_true hfront hfrozen
    obtain rfl := eq_freeze hnot (frozen_step ht₂ ▸ hholds)
    have hunfreeze := unfreeze_not_mem hbetween halong
    have hfreeze : exec (step generator encode) (create (.create weights epsilon alpha rng) replay)
        (before ++ [.freeze]) = some t₂ := by
      rw [exec_append, ht₁, Option.bind_some, exec, ht₂]
      rfl
    intro l hl
    refine (weights_step_iff hstep).mp ?_ l hl
    have hbefore : s₁.bandit.weights = t₂.bandit.weights := by
      refine hkept before between (a :: back) ?_ hunfreeze t₂ s₁ hfreeze hbetween
      rw [heq, List.append_assoc]
      rfl
    rw [hbefore]
    refine hkept before (between ++ [a]) back ?_ ?_ t₂ s₂ hfreeze ?_
    · rw [heq, List.append_assoc, List.append_assoc]
      rfl
    · -- a step with a lesson is no call of `unfreeze`
      rintro hmem
      rcases List.mem_append.mp hmem with hin | hin
      · exact hunfreeze hin
      · rw [← List.mem_singleton.mp hin] at hl
        cases hl
    · rw [exec_append, hbetween, Option.bind_some, exec, hstep]
      rfl
  · intro hnothing before between after heq hunfreeze s₁ s₂ hfreeze hbetween
    have hfrozen : s₁.bandit.frozen = true := by
      rw [exec_append, Option.bind_eq_some_iff] at hfreeze
      obtain ⟨t, -, ht⟩ := hfreeze
      obtain rfl := Option.some_injective _ ht
      rfl
    have hsplit : actions = (before ++ [.freeze]) ++ (between ++ after) := by
      rw [heq, List.append_assoc]
      rfl
    rw [hsplit, along_append] at hnothing
    exact weights_exec hfrozen hunfreeze
      ((along_append _ _ s₁ between after).mp (hnothing.2 s₁ hfreeze)).1 hbetween

/-- A generator that draws no number below the rate of exploration. -/
def greedy : Generator ℚ Unit where
  randomFloat _ := (1, ())
  next _ := (0, ())

/-- All features but the first are 0. -/
def firstFeature : Features ℚ := fun j => if j = 0 then 1 else 0

/-- The sub-API with all weights 0, as it starts. -/
def untrained : MLSubAPI ℚ Unit :=
  create (.create (fun _ _ => 0) (1 / 20) (1 / 100) ()) fun _ => ⟨0, 0, 0⟩

/-- One call of `observe` changes a weight of the frozen model from 0 to 1/100. -/
theorem frozen_model_learns :
    ∃ s, exec (step greedy fun _ (_ : Option Unit) => 0) untrained
        [.freeze, .observe .JIT 1 firstFeature, .advance 0] = some s ∧
      s.bandit.frozen = true ∧ s.bandit.weights 0 0 = 1 / 100 :=
  ⟨_, rfl, rfl, by decide +kernel⟩

/-! ## Counters -/

/-- No call of `observe` is in progress. -/
def Quiet {R ρ : Type*} (s : MLSubAPI R ρ) : Prop := ∀ c ∈ s.calls, ∃ l, c = .recorded l

/-- The reward that is passed to a call. -/
def passed {R : Type*} : ObserveCall R → R
  | .called l | .observed l | .numbered _ l | .recorded l => l.reward

/-- What `build_session_report` writes of the model; all else stays as it is. -/
def reportModel {R ρ Float : Type*} (s : MLSubAPI R ρ)
    (r : Telemetry.MLTrainingStats R Float) : Telemetry.MLTrainingStats R Float :=
  { r with
    totalUpdates := s.bandit.updates
    cumulativeReward := s.bandit.cumulativeReward }

section Exact

variable {R ρ Report : Type*} [Ring R] {s s' : MLSubAPI R ρ}

/-- The counters are those of the observations that were made, and so is what is reported. -/
structure CountsObservations (s : MLSubAPI R ρ) : Prop where
  updates : s.bandit.updates = UInt64.ofNat s.calls.length
  cumulativeReward : s.bandit.cumulativeReward = (s.calls.map passed).sum
  selections : s.bandit.selections = UInt64.ofNat s.calls.length
  reported : ∀ r : Telemetry.MLTrainingStats R R,
    (s.reportModel r).totalUpdates = UInt64.ofNat s.calls.length ∧
      (s.reportModel r).cumulativeReward = (s.calls.map passed).sum

/-- The counters are those of all that the bandit has been trained with. -/
structure Counted (s : MLSubAPI R ρ) : Prop where
  updates : s.bandit.updates = UInt64.ofNat s.rewards.length
  cumulativeReward : s.bandit.cumulativeReward = s.rewards.sum
  selections : s.bandit.selections = UInt64.ofNat s.rewards.length

/-- A training counts once. -/
theorem Counted.of_teaches (h : s.Counted) {lesson : Option (Lesson R)}
    (hteaches : s.Teaches lesson s') : s'.Counted := by
  have hlength := hteaches.rewards.length_eq
  have hsum := hteaches.rewards.sum_eq
  have hselections : s'.bandit.selections = (taught s.bandit lesson).selections := by
    rw [ContextualBandit.selections, hteaches.selectionCounts]
    rfl
  cases lesson with
  | none =>
      refine ⟨?_, ?_, ?_⟩
      · rw [hteaches.updates, hlength]
        exact h.updates
      · rw [hteaches.cumulativeReward, hsum]
        exact h.cumulativeReward
      · rw [hselections, hlength]
        exact h.selections
  | some l =>
      have hnext : s'.rewards.length = s.rewards.length + 1 := hlength
      refine ⟨?_, ?_, ?_⟩
      · rw [hteaches.updates, hnext, UInt64.ofNat_add, ← h.updates]
        rfl
      · rw [hteaches.cumulativeReward, hsum]
        change s.bandit.cumulativeReward + l.reward = l.reward + s.rewards.sum
        rw [h.cumulativeReward, add_comm]
      · rw [hselections, taught, ContextualBandit.selections_observe, h.selections, hnext,
          UInt64.ofNat_add]
        rfl

/-- Nothing has been counted. -/
theorem counted_create (weights : Fin 3 → Features R) (epsilon alpha : R) (rng : ρ)
    (replay : ℕ → Experience R) : (create (.create weights epsilon alpha rng) replay).Counted where
  updates := rfl
  cumulativeReward := rfl
  selections := rfl

omit [Ring R] in
/-- When no call is in progress, the bandit has learnt from all of them. -/
theorem Quiet.rewards_eq (h : s.Quiet) : s.rewards = s.calls.map passed ++ s.replayed := by
  have hheard : s.calls.filterMap heard = s.calls.map passed := by
    rw [← List.filterMap_eq_map]
    refine List.filterMap_congr fun c hc => ?_
    obtain ⟨l, rfl⟩ := h c hc
    rfl
  rw [rewards, hheard]

/-- A number of 64 bits is not changed by a multiple of `2 ^ 64`. -/
theorem ofNat_add_eq_iff (n m : ℕ) : UInt64.ofNat (n + m) = UInt64.ofNat n ↔ 2 ^ 64 ∣ m := by
  rw [UInt64.ofNat_add, add_eq_left, ← UInt64.toNat_inj, UInt64.toNat_ofNat']
  exact Nat.dvd_iff_mod_eq_zero.symm

/-- **The counters count the observations exactly as long as nothing is replayed**, or what
is replayed cancels out. -/
theorem countsObservations_iff [LT R] [DecidableLT R] (generator : Generator R ρ)
    (encode : WorkloadSignature → Option Report → Features R) (weights : Fin 3 → Features R)
    (epsilon alpha : R) (rng : ρ) (replay : ℕ → Experience R)
    {actions : List (Action R Report)} (h : exec (step generator encode)
      (create (.create weights epsilon alpha rng) replay) actions = some s) (hquiet : s.Quiet) :
    s.CountsObservations ↔ 2 ^ 64 ∣ s.replayed.length ∧ s.replayed.sum = 0 := by
  have hcounted : s.Counted := invariant_of_exec (step generator encode)
    (fun s a s' hs hs' => Counted.of_teaches hs (teaches_step hs'))
    (counted_create weights epsilon alpha rng replay) h
  have hlength : s.rewards.length = s.calls.length + s.replayed.length := by
    rw [hquiet.rewards_eq, List.length_append, List.length_map]
  have hsum : s.rewards.sum = (s.calls.map passed).sum + s.replayed.sum := by
    rw [hquiet.rewards_eq, List.sum_append]
  constructor
  · intro hcounts
    refine ⟨(ofNat_add_eq_iff s.calls.length _).mp ?_, ?_⟩
    · rw [← hlength, ← hcounted.updates]
      exact hcounts.updates
    · have hreward := hcounts.cumulativeReward
      rw [hcounted.cumulativeReward, hsum] at hreward
      exact add_eq_left.mp hreward
  · rintro ⟨hdvd, hzero⟩
    have hcount : UInt64.ofNat s.rewards.length = UInt64.ofNat s.calls.length := by
      rw [hlength]
      exact (ofNat_add_eq_iff _ _).mpr hdvd
    have hreward : s.rewards.sum = (s.calls.map passed).sum := by
      rw [hsum, hzero, add_zero]
    have hupdates := hcounted.updates.trans hcount
    have hcumulative := hcounted.cumulativeReward.trans hreward
    exact ⟨hupdates, hcumulative, hcounted.selections.trans hcount,
      fun _ => ⟨hupdates, hcumulative⟩⟩

end Exact

/-- A pass after the first observation replays it, and it is counted twice. -/
theorem replay_counted :
    ∃ s, exec (step greedy fun _ (_ : Option Unit) => 0) untrained
        [.observe .JIT 1 firstFeature, .advance 0, .advance 0, .advance 0,
          .train, .train, .train] = some s ∧
      s.Quiet ∧ s.calls.length = 1 ∧ s.bandit.updates = 2 ∧ s.bandit.cumulativeReward = 2 := by
  refine ⟨_, rfl, ?_, rfl, rfl, by decide +kernel⟩
  rintro c (_ | ⟨_, ⟨⟩⟩)
  exact ⟨_, rfl⟩

/-- A pass before the first observation replays nothing. -/
theorem counts_first_observation :
    ∃ s, exec (step greedy fun _ (_ : Option Unit) => 0) untrained
        [.train, .train, .observe .JIT 1 firstFeature, .advance 0, .advance 0,
          .advance 0] = some s ∧ s.CountsObservations := by
  obtain ⟨s, h, hquiet, hreplayed⟩ :
      ∃ s, exec (step greedy fun _ (_ : Option Unit) => 0) untrained
          [.train, .train, .observe .JIT 1 firstFeature, .advance 0, .advance 0,
            .advance 0] = some s ∧ s.Quiet ∧ s.replayed = [] := by
    refine ⟨_, rfl, ?_, rfl⟩
    rintro c (_ | ⟨_, ⟨⟩⟩)
    exact ⟨_, rfl⟩
  refine ⟨s, h, (countsObservations_iff greedy _ _ _ _ _ _ h hquiet).mpr ?_⟩
  rw [hreplayed]
  exact ⟨dvd_zero _, rfl⟩

end MLSubAPI

end Synapse.Ml
