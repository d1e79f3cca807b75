import Synapse.Its.ThermalMitigation

/-!
# What becomes of predictions

Runs of `evaluate_and_predict`, with the cache and the tracker in any state at each call.

`predict_spec` says what one round of the loop does to the active predictions and to the
counters.  The predictions are conserved (`predictions_conserved`), and as the frame of a
prediction is never compared with the current one, it is confirmed by a later frame exactly
if its resource is not bound again in the same one (`confirmsLater_iff`).

### A prediction's ends

A prediction is made for a resource, and it ends by being confirmed, when the resource is
bound while the prediction is active, or by being wasted, when it is too old.  The counters of
the engine count both, and the predictions made; `Conserved` says that they are the
predictions made, less those still active.  Each round of the loop, over one bound resource,
is described once (`predict_spec`), the loop by induction on the resources, and a run by
induction on the calls.
-/

namespace Synapse

open Runs Its Sync

namespace PredictiveEngine

variable {σ : Type*} (lookup : σ → UInt64 → UInt64 × σ)

/-! ## One round -/

/-- The resources that miss the cache in their round are not bound in a later one. -/
def NotBoundAfterMiss (tracker : DescriptorTracker) :
    List UInt64 → ITSCacheController σ → Prop
  | [], _ => True
  | resourceId :: rest, cache =>
      let r := tracker.getMetadata resourceId
      if r.isTexture && r.mipLevels > 1 then
        match cache.accessResource lookup resourceId r.sizeBytes with
        | some (hit, cache) =>
            (hit = false → resourceId ∉ rest) ∧ NotBoundAfterMiss tracker rest cache
        | none => True
      else NotBoundAfterMiss tracker rest cache

/-- What a round does to the predictions, where `missed` says whether the cache was missed. -/
structure Predicted (currentFrame resourceId : UInt64) (missed : Bool)
    (e e' : PredictiveEngine σ) : Prop where
  active : e'.activePredictions = (e.activePredictions.filter fun p => p.1 ≠ resourceId) ++
    if missed then [(resourceId, currentFrame)] else []
  total : e'.stats.totalPredictions = e.stats.totalPredictions + if missed then 1 else 0
  accurate : e'.stats.accuratePredictions =
    e.stats.accuratePredictions + if e.isActive resourceId then 1 else 0
  wasted : e'.stats.wastedPredictions = e.stats.wastedPredictions

variable {lookup} {e e' : PredictiveEngine σ} {resourceId : UInt64}

/-- Some prediction of the resource has not ended. -/
theorem isActive_iff (e : PredictiveEngine σ) (resourceId : UInt64) :
    e.isActive resourceId = true ↔ ∃ frame, (resourceId, frame) ∈ e.activePredictions := by
  unfold isActive
  rw [List.any_eq_true]
  constructor
  · rintro ⟨⟨id, frame⟩, hp, hid⟩
    obtain rfl : id = resourceId := of_decide_eq_true hid
    exact ⟨frame, hp⟩
  · rintro ⟨frame, hp⟩
    exact ⟨_, hp, decide_eq_true rfl⟩

/-- Without an active prediction there is nothing to erase. -/
theorem filter_of_not_isActive (h : e.isActive resourceId = false) :
    e.activePredictions.filter (fun p => p.1 ≠ resourceId) = e.activePredictions := by
  refine List.filter_eq_self.mpr fun p hp => decide_eq_true fun hid => ?_
  have hactive := (isActive_iff e resourceId).mpr ⟨p.2, by rw [← hid]; exact hp⟩
  rw [h] at hactive
  cases hactive

/-- The score of a resource that is used, whether or not it was predicted. -/
theorem predicted_keepScore (currentFrame : UInt64) (e : PredictiveEngine σ)
    (resourceId : UInt64) :
    Predicted currentFrame resourceId false e (e.keepScore resourceId) := by
  unfold keepScore
  cases hactive : e.isActive resourceId with
  | true =>
      refine ⟨(List.append_nil _).symm, (UInt64.add_zero _).symm, ?_, rfl⟩
      rw [hactive]
      rfl
  | false =>
      refine ⟨?_, (UInt64.add_zero _).symm, ?_, rfl⟩
      · show e.activePredictions = _ ++ []
        rw [filter_of_not_isActive hactive, List.append_nil]
      · rw [hactive]
        exact (UInt64.add_zero _).symm

/-- **One round of the loop.** -/
theorem predict_spec {state : PredictiveEngine σ × List Hint}
    (h : state.1.cacheController.IsLinked) (currentFrame : UInt64) (tracker : DescriptorTracker)
    (resourceId : UInt64) :
    ∃ missed state', predict lookup currentFrame tracker resourceId state = some state' ∧
      state'.1.cacheController.IsLinked ∧ state'.1.temporalWindow = state.1.temporalWindow ∧
      Predicted currentFrame resourceId missed state.1 state'.1 ∧
      ∀ rest, NotBoundAfterMiss lookup tracker (resourceId :: rest) state.1.cacheController ↔
        (missed = true → resourceId ∉ rest) ∧
          NotBoundAfterMiss lookup tracker rest state'.1.cacheController := by
  have hscore := predicted_keepScore currentFrame state.1 resourceId
  have hcache := keepScore_cacheController state.1 resourceId
  have hwindow : (state.1.keepScore resourceId).temporalWindow = state.1.temporalWindow := by
    unfold keepScore
    split <;> rfl
  unfold predict
  dsimp only
  by_cases htexture : ((tracker.getMetadata resourceId).isTexture &&
    decide ((tracker.getMetadata resourceId).mipLevels > 1)) = true
  · rw [if_pos htexture, isActive_keepScore, if_neg Bool.false_ne_true, hcache]
    obtain ⟨cache', haccess, hlinked, -, -⟩ := ITSCacheController.step_accessResource lookup h
      resourceId (tracker.getMetadata resourceId).sizeBytes
    rw [haccess]
    have hbound : ∀ rest, NotBoundAfterMiss lookup tracker (resourceId :: rest)
        state.1.cacheController ↔
        (decide (resourceId ∈ state.1.cacheController.ids) = false → resourceId ∉ rest) ∧
          NotBoundAfterMiss lookup tracker rest cache' := by
      intro rest
      rw [NotBoundAfterMiss, if_pos htexture, haccess]
    cases hhit : decide (resourceId ∈ state.1.cacheController.ids) with
    | true =>
        refine ⟨false, _, rfl, hlinked, hwindow, ⟨hscore.active, hscore.total, hscore.accurate,
          hscore.wasted⟩, fun rest => ?_⟩
        rw [hbound rest, hhit]
        exact and_congr_left fun _ => iff_of_true nofun nofun
    | false =>
        refine ⟨true, _, rfl, hlinked, hwindow, ⟨?_, ?_, hscore.accurate, hscore.wasted⟩,
          fun rest => ?_⟩
        · show List.filter _ (state.1.keepScore resourceId).activePredictions ++ _ = _
          rw [hscore.active, List.filter_append, List.filter_filter]
          simp
        · show (state.1.keepScore resourceId).stats.totalPredictions + 1 = _
          rw [hscore.total]
          exact congrArg (· + 1) (UInt64.add_zero _)
        · rw [hbound rest, hhit]
          exact and_congr_left fun _ => ⟨fun hmiss _ => hmiss rfl, fun hmiss _ => hmiss rfl⟩
  · rw [if_neg htexture]
    refine ⟨false, _, rfl, hcache ▸ h, hwindow, hscore, fun rest => ?_⟩
    rw [NotBoundAfterMiss, if_neg htexture, hcache]
    exact (and_iff_right nofun).symm

/-! ## Conservation -/

variable {frames : List UInt64}

/-- The predictions are the accurate ones, the wasted ones and one active one for each of
its resources, which was issued in one of the frames. -/
structure Accounts (frames : List UInt64) (e : PredictiveEngine σ) : Prop where
  nodup : (e.activePredictions.map Prod.fst).Nodup
  balance : e.stats.totalPredictions = e.stats.accuratePredictions + e.stats.wastedPredictions +
    UInt64.ofNat e.activePredictions.length
  issued : ∀ p ∈ e.activePredictions, p.2 ∈ frames

namespace Accounts

/-- An active prediction is one entry. -/
theorem length_filter (h : Accounts frames e) (resourceId : UInt64) :
    UInt64.ofNat e.activePredictions.length =
      UInt64.ofNat (e.activePredictions.filter fun p => p.1 ≠ resourceId).length +
        if e.isActive resourceId then 1 else 0 := by
  cases hactive : e.isActive resourceId with
  | false => rw [filter_of_not_isActive hactive, if_neg Bool.false_ne_true, UInt64.add_zero]
  | true =>
      obtain ⟨frame, hmem⟩ := (isActive_iff e resourceId).mp hactive
      have hone : e.activePredictions.countP (fun p => decide (p.1 = resourceId)) = 1 := by
        have hcount := List.count_eq_one_of_mem h.nodup (List.mem_map_of_mem hmem)
        rw [List.count, List.countP_map] at hcount
        exact hcount
      have hlength := List.length_eq_countP_add_countP (fun p => decide (p.1 = resourceId))
        (l := e.activePredictions)
      rw [hone, List.countP_eq_length_filter] at hlength
      rw [if_pos rfl, hlength, Nat.add_comm, UInt64.ofNat_add]
      simp

/-- A round keeps the accounts. -/
theorem predicted (h : Accounts frames e) {currentFrame : UInt64} {missed : Bool}
    (hround : Predicted currentFrame resourceId missed e e') (hframe : currentFrame ∈ frames) :
    Accounts frames e' := by
  refine ⟨?_, ?_, ?_⟩
  · rw [hround.active, List.map_append]
    have hnodup : ((e.activePredictions.filter fun p => p.1 ≠ resourceId).map Prod.fst).Nodup :=
      h.nodup.sublist (List.filter_sublist.map Prod.fst)
    cases missed with
    | false => exact (List.append_nil _).symm ▸ hnodup
    | true =>
        refine List.nodup_append.mpr ⟨hnodup, List.nodup_singleton _, ?_⟩
        rintro id hid _ hnew rfl
        obtain ⟨p, hp, rfl⟩ := List.mem_map.mp hid
        exact of_decide_eq_true (List.mem_filter.mp hp).2 (List.mem_singleton.mp hnew)
  · have hlength := h.length_filter resourceId
    rw [hround.total, hround.accurate, hround.wasted, h.balance, hlength, hround.active,
      List.length_append, UInt64.ofNat_add]
    cases missed <;> cases e.isActive resourceId <;> simp <;> grind
  · intro p hp
    rw [hround.active, List.mem_append] at hp
    rcases hp with hold | hnew
    · exact h.issued p (List.mem_filter.mp hold).1
    · split at hnew
      · rw [List.mem_singleton.mp hnew]
        exact hframe
      · cases hnew

/-- Pruned predictions are counted as wasted. -/
theorem prune (h : Accounts frames e) (currentFrame : UInt64) :
    Accounts frames (e.prune currentFrame) := by
  refine ⟨h.nodup.sublist (List.filter_sublist.map Prod.fst), ?_, ?_⟩
  · have hkept : (e.prune currentFrame).activePredictions.length =
        e.activePredictions.countP fun p =>
          !decide (currentFrame > p.2 + e.temporalWindow.toUInt64 + 5) :=
      List.countP_eq_length_filter.symm
    have hlength := List.length_eq_countP_add_countP
      (fun p : UInt64 × UInt64 => decide (currentFrame > p.2 + e.temporalWindow.toUInt64 + 5))
      (l := e.activePredictions)
    show e.stats.totalPredictions = e.stats.accuratePredictions + (e.stats.wastedPredictions +
      UInt64.ofNat (e.activePredictions.countP _)) + _
    rw [h.balance, hkept, hlength, UInt64.ofNat_add]
    simp only [Bool.not_eq_true, Bool.decide_eq_false]
    grind
  · intro p hp
    exact h.issued p (List.mem_filter.mp hp).1

variable (lookup) in
/-- The loop keeps the accounts, and does not fail. -/
theorem predictAll {state : PredictiveEngine σ × List Hint} (h : Accounts frames state.1)
    (hlinked : state.1.cacheController.IsLinked) {currentFrame : UInt64}
    (hframe : currentFrame ∈ frames) (tracker : DescriptorTracker) (resources : List UInt64) :
    ∃ state', PredictiveEngine.predictAll lookup currentFrame tracker resources state =
      some state' ∧ Accounts frames state'.1 := by
  induction resources generalizing state with
  | nil => exact ⟨state, rfl, h⟩
  | cons resourceId rest ih =>
      obtain ⟨missed, state₁, hpredict, hlinked₁, -, hround, -⟩ :=
        predict_spec hlinked currentFrame tracker resourceId
      obtain ⟨state', hrest, haccounts⟩ := ih (h.predicted hround hframe) hlinked₁
      refine ⟨state', ?_, haccounts⟩
      rw [PredictiveEngine.predictAll, hpredict]
      exact hrest

variable (lookup) in
/-- The accounts hold again behind a call. -/
theorem evaluateAndPredict {state : PredictiveEngine σ × List Hint} (h : Accounts frames state.1)
    (hlinked : state.1.cacheController.IsLinked) {currentFrame : UInt64}
    (hframe : currentFrame ∈ frames) (tracker : DescriptorTracker) (resources : List UInt64) :
    ∃ state', PredictiveEngine.evaluateAndPredict lookup currentFrame resources tracker state =
      some state' ∧ Accounts frames state'.1 := by
  obtain ⟨state', hall, haccounts⟩ :=
    h.predictAll lookup hlinked hframe tracker resources
  exact ⟨_, congrArg (Option.map _) hall, haccounts.prune currentFrame⟩

end Accounts

/-! ## Confirmations -/

variable (lookup) in
/-- Wherever a round of the loop counts an accurate prediction, the prefetch of its resource
was issued in an earlier frame. -/
def ConfirmsLater (currentFrame : UInt64) (tracker : DescriptorTracker) (resources : List UInt64)
    (state : PredictiveEngine σ × List Hint) : Prop :=
  ∀ front resourceId back, resources = front ++ resourceId :: back → ∀ before after,
    predictAll lookup currentFrame tracker front state = some before →
      predict lookup currentFrame tracker resourceId before = some after →
        after.1.stats.accuratePredictions ≠ before.1.stats.accuratePredictions →
          ∀ frame, (resourceId, frame) ∈ before.1.activePredictions → frame < currentFrame

/-- The condition of a call, for its first resource and for the others. -/
theorem confirmsLater_cons {currentFrame : UInt64} {tracker : DescriptorTracker}
    {resourceId : UInt64} {rest : List UInt64} {state state' : PredictiveEngine σ × List Hint}
    (hpredict : predict lookup currentFrame tracker resourceId state = some state') :
    ConfirmsLater lookup currentFrame tracker (resourceId :: rest) state ↔
      (state'.1.stats.accuratePredictions ≠ state.1.stats.accuratePredictions →
        ∀ frame, (resourceId, frame) ∈ state.1.activePredictions → frame < currentFrame) ∧
      ConfirmsLater lookup currentFrame tracker rest state' := by
  constructor
  · intro h
    refine ⟨h [] resourceId rest rfl state state' rfl hpredict, ?_⟩
    intro front id back heq before after hfront
    refine h (resourceId :: front) id back (by rw [heq]; rfl) before after ?_
    rw [predictAll, hpredict]
    exact hfront
  · rintro ⟨hfirst, hrest⟩ front id back heq before after hfront hround
    cases front with
    | nil =>
        obtain ⟨rfl, rfl⟩ := List.cons.inj heq
        obtain rfl := Option.some_injective _ hfront
        obtain rfl := Option.some_injective _ (hpredict.symm.trans hround)
        exact hfirst
    | cons c front =>
        obtain ⟨rfl, rfl⟩ := List.cons.inj heq
        rw [predictAll, hpredict] at hfront
        exact hrest front id back rfl before after hfront hround

/-- The first round counts a prediction exactly if there is an active one. -/
theorem Predicted.accurate_ne_iff {currentFrame : UInt64} {missed : Bool}
    (h : Predicted currentFrame resourceId missed e e') :
    e'.stats.accuratePredictions ≠ e.stats.accuratePredictions ↔ e.isActive resourceId = true := by
  rw [h.accurate]
  cases e.isActive resourceId <;> simp

/-- The resources of this frame's predictions, after a round. -/
theorem Predicted.mem_active_iff {currentFrame : UInt64} {missed : Bool}
    (h : Predicted currentFrame resourceId missed e e') (id : UInt64) :
    (id, currentFrame) ∈ e'.activePredictions ↔
      (id, currentFrame) ∈ e.activePredictions ∧ id ≠ resourceId ∨
        missed = true ∧ id = resourceId := by
  rw [h.active, List.mem_append, List.mem_filter]
  refine or_congr (and_congr_right fun _ => decide_eq_true_iff) ?_
  cases missed <;> simp

/-- **A prediction is confirmed by a later frame** exactly if none of the resources has been
prefetched in this one, by an earlier call or by an earlier round. -/
theorem confirmsLater_iff {state : PredictiveEngine σ × List Hint}
    (hlinked : state.1.cacheController.IsLinked) {currentFrame : UInt64}
    (hpast : ∀ p ∈ state.1.activePredictions, p.2 ≤ currentFrame) (tracker : DescriptorTracker)
    (resources : List UInt64) :
    ConfirmsLater lookup currentFrame tracker resources state ↔
      (∀ resourceId ∈ resources, (resourceId, currentFrame) ∉ state.1.activePredictions) ∧
        NotBoundAfterMiss lookup tracker resources state.1.cacheController := by
  induction resources generalizing state with
  | nil =>
      refine iff_of_true ?_ ⟨List.forall_mem_nil _, trivial⟩
      intro front _ back hnil
      exact absurd hnil.symm (List.append_ne_nil_of_right_ne_nil _ (List.cons_ne_nil _ _))
  | cons resourceId rest ih =>
      obtain ⟨missed, state', hpredict, hlinked', -, hround, hbound⟩ :=
        predict_spec hlinked currentFrame tracker resourceId
      have hpast' : ∀ p ∈ state'.1.activePredictions, p.2 ≤ currentFrame := by
        intro p hp
        rw [hround.active, List.mem_append] at hp
        rcases hp with hold | hnew
        · exact hpast p (List.mem_filter.mp hold).1
        · split at hnew
          · rw [List.mem_singleton.mp hnew]
            exact UInt64.le_refl _
          · cases hnew
      have hfirst : (state'.1.stats.accuratePredictions ≠ state.1.stats.accuratePredictions →
          ∀ frame, (resourceId, frame) ∈ state.1.activePredictions → frame < currentFrame) ↔
          (resourceId, currentFrame) ∉ state.1.activePredictions := by
        rw [hround.accurate_ne_iff]
        constructor
        · intro hlater hmem
          exact UInt64.lt_irrefl _ (hlater ((isActive_iff _ _).mpr ⟨_, hmem⟩) _ hmem)
        · intro hnot _ frame hmem
          refine UInt64.lt_of_le_of_ne (hpast _ hmem) ?_
          rintro rfl
          exact hnot hmem
      rw [confirmsLater_cons hpredict, ih hlinked' hpast', hfirst, hbound, List.forall_mem_cons]
      simp only [hround.mem_active_iff]
      constructor
      · rintro ⟨hnot, hrest, hmisses⟩
        refine ⟨⟨hnot, fun id hid hmem => ?_⟩, fun hmissed hid => ?_, hmisses⟩
        · have hne : id ≠ resourceId := by
            rintro rfl
            exact hnot hmem
          exact hrest id hid (Or.inl ⟨hmem, hne⟩)
        · exact hrest resourceId hid (Or.inr ⟨hmissed, rfl⟩)
      · rintro ⟨⟨hnot, hrest⟩, hmissed, hmisses⟩
        refine ⟨hnot, fun id hid => ?_, hmisses⟩
        rintro (⟨hmem, -⟩ | ⟨hm, rfl⟩)
        · exact hrest id hid hmem
        · exact hmissed hm hid

end PredictiveEngine

/-! ## Runs -/

/-- A call, and the cache as it is by then. -/
structure Evaluation (σ : Type*) where
  currentFrame : UInt64
  boundResources : List UInt64
  tracker : DescriptorTracker
  cache : { cache : ITSCacheController σ // cache.IsLinked }

/-- The engine, the hints it has emitted, and the frames it has been called in. -/
structure PredictionRun (σ : Type*) where
  engine : PredictiveEngine σ
  hints : List Hint
  frames : List UInt64

namespace PredictionRun

open PredictiveEngine

variable {σ : Type*} (lookup : σ → UInt64 → UInt64 × σ)

/-- A new engine. -/
def start (temporalWindow : UInt32) (cache : ITSCacheController σ) (sync : SyncManager) :
    PredictionRun σ where
  engine := {
    temporalWindow := temporalWindow
    cacheController := cache
    syncManager := sync }
  hints := []
  frames := []

/-- The engine and its hints when a call comes. -/
def atCall (s : PredictionRun σ) (a : Evaluation σ) : PredictiveEngine σ × List Hint :=
  ({ s.engine with cacheController := a.cache.1 }, s.hints)

/-- One call, with the cache and the tracker as they are then. -/
def step (s : PredictionRun σ) (a : Evaluation σ) : Option (PredictionRun σ) :=
  (evaluateAndPredict lookup a.currentFrame a.boundResources a.tracker (s.atCall a)).map
    fun state => {
      engine := state.1
      hints := state.2
      frames := s.frames ++ [a.currentFrame] }

/-- The accounts of the engine are right. -/
def Conserved (s : PredictionRun σ) : Prop := Accounts s.frames s.engine

/-- The frames do not go back. -/
def NeverBack (s : PredictionRun σ) (a : Evaluation σ) : Prop :=
  ∀ frame ∈ s.frames, frame ≤ a.currentFrame

/-- In a call, predictions are only confirmed that were issued in earlier frames. -/
def ConfirmsLater (s : PredictionRun σ) (a : Evaluation σ) : Prop :=
  PredictiveEngine.ConfirmsLater lookup a.currentFrame a.tracker a.boundResources (s.atCall a)

/-- No resource is bound in a frame in which it has been prefetched, be it by an earlier
call, as long as the prediction is active, or by an earlier round of the same call. -/
def BoundInLaterFrames (s : PredictionRun σ) (a : Evaluation σ) : Prop :=
  (∀ resourceId ∈ a.boundResources, (resourceId, a.currentFrame) ∉ s.engine.activePredictions) ∧
    NotBoundAfterMiss lookup a.tracker a.boundResources a.cache.1

variable {s : PredictionRun σ}

/-- Nothing has been predicted. -/
theorem conserved_start (temporalWindow : UInt32) (cache : ITSCacheController σ)
    (sync : SyncManager) : (start temporalWindow cache sync).Conserved where
  nodup := List.nodup_nil
  balance := rfl
  issued := nofun

/-- One call. -/
theorem Conserved.step (h : s.Conserved) (a : Evaluation σ) :
    ∃ s', s.step lookup a = some s' ∧ s'.Conserved := by
  have haccounts : Accounts (s.frames ++ [a.currentFrame]) (s.atCall a).1 :=
    ⟨h.nodup, h.balance, fun p hp => List.mem_append_left _ (h.issued p hp)⟩
  obtain ⟨state', hstate, hkept⟩ := haccounts.evaluateAndPredict lookup a.cache.2
    (List.mem_append_right _ (List.mem_singleton_self _)) a.tracker a.boundResources
  refine ⟨_, congrArg (Option.map _) hstate, hkept⟩

/-- **Predictions are conserved**: no call fails, and after each one every prediction is
accurate, wasted or active. -/
theorem predictions_conserved (temporalWindow : UInt32) (cache : ITSCacheController σ)
    (sync : SyncManager) (calls : List (Evaluation σ)) :
    Along (step lookup) (fun s a => ∀ s', s.step lookup a = some s' → s'.Conserved)
        (start temporalWindow cache sync) calls ∧
      ∃ s', exec (step lookup) (start temporalWindow cache sync) calls = some s' ∧
        s'.Conserved := by
  refine exec_of_progress _ (fun s a h => ?_) (conserved_start temporalWindow cache sync) calls
  obtain ⟨s', hs', hconserved⟩ := Conserved.step lookup h a
  exact ⟨(forall_step_iff _ hs' Conserved).mpr hconserved, s', hs', hconserved⟩

/-- **Predictions are confirmed by later frames** exactly if no resource is bound in the
frame in which it was prefetched. -/
theorem confirmed_later_iff (temporalWindow : UInt32) (cache : ITSCacheController σ)
    (sync : SyncManager) {calls : List (Evaluation σ)}
    (hforward : Along (step lookup) NeverBack (start temporalWindow cache sync) calls) :
    Along (step lookup) (ConfirmsLater lookup) (start temporalWindow cache sync) calls ↔
      Along (step lookup) (BoundInLaterFrames lookup) (start temporalWindow cache sync) calls := by
  refine along_iff_of_assumed _ ?_ ?_ (conserved_start temporalWindow cache sync) hforward
  · intro s a s' h _ hframes
    exact PredictiveEngine.confirmsLater_iff a.cache.2
      (fun p hp => hframes p.2 (h.issued p hp)) a.tracker a.boundResources
  · intro s a s' h hs' _ _
    obtain ⟨s'', hs'', hconserved⟩ := Conserved.step lookup h a
    obtain rfl := Option.some_injective _ (hs'.symm.trans hs'')
    exact hconserved

/-- A call in which every resource is a texture of 100 bytes, and nothing is in the cache. -/
def onTextures (currentFrame : UInt64) (boundResources : List UInt64) : Evaluation Unit where
  currentFrame := currentFrame
  boundResources := boundResources
  tracker := ⟨fun _ => some ⟨true, 100, 8, 1⟩⟩
  cache := ⟨.create 1000 (), .nil⟩

/-- One texture, bound in two frames. -/
theorem confirmed_in_next_frame :
    Along (step fun _ _ => (0, ())) (ConfirmsLater fun _ _ => (0, ()))
      (start 3 (.create 1000 ()) .create) [onTextures 1 [7], onTextures 2 [7]] := by
  refine (confirmed_later_iff (fun _ _ => (0, ())) 3 (.create 1000 ()) .create ?_).mpr ?_
  · refine along_of_step _ rfl (List.forall_mem_nil _) <| along_of_step _ rfl ?_ <|
      along_nil _ _ _
    intro frame hframe
    rw [List.mem_singleton.mp hframe]
    exact (show (1 : UInt64) ≤ 2 by decide)
  · refine along_of_step _ rfl ⟨fun _ _ => List.not_mem_nil, ?_⟩ <|
      along_of_step _ rfl ⟨?_, ?_⟩ <| along_nil _ _ _
    · exact ⟨fun _ => List.not_mem_nil, trivial⟩
    · intro resourceId _ hmem
      have hframe : (2 : UInt64) = 1 := congrArg Prod.snd (List.mem_singleton.mp hmem)
      exact absurd hframe (by decide)
    · exact ⟨fun _ => List.not_mem_nil, trivial⟩

/-- A texture bound twice in one call confirms its own prediction. -/
theorem confirmed_in_same_call :
    ¬ Along (step fun _ _ => (0, ())) (ConfirmsLater fun _ _ => (0, ()))
      (start 3 (.create 1000 ()) .create) [onTextures 1 [7, 7]] := by
  intro h
  obtain ⟨s', hs', -⟩ := Conserved.step (fun _ _ => (0, ()))
    (conserved_start 3 (.create 1000 ()) .create) (onTextures 1 [7, 7])
  have hlater := h [] _ [] rfl _ s' rfl hs'
  have hlinked := (onTextures 1 [7, 7]).cache.2
  have hbound := (PredictiveEngine.confirmsLater_iff hlinked (List.forall_mem_nil _) _ _).mp hlater
  -- the first binding misses the cache
  exact hbound.2.1 rfl (List.mem_singleton_self _)

end PredictionRun

end Synapse
