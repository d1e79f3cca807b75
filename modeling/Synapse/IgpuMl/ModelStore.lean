import Synapse.Foundations.Calls
import Synapse.Foundations.Numerals
import Synapse.Foundations.Runs
import Synapse.IgpuMl.Core

/-!
# `ModelStore` and the calls of the FFI

Any number of threads create, destroy and use models in one map.  A creation draws its
handle from a counter and inserts its model in a later, locked section; every other call has
one locked section.  The store never looks into a model, so the models are a parameter.

The `i`-th creation draws the number `i` (`Numbered`), so no two calls insert under one
handle; from its insertion on a handle lives a life of its own (`models_of_inserted`).

### The sections of a call

The map is behind a mutex, so a call acts on it in one step, and a call that has no locked
section does nothing.  A creation is the exception: it draws its number with `fetch_add`
before it locks the map, so between the drawing and the insertion its handle is already spent
but names nothing yet.  Handles are numbers that nobody checks, so other calls may use a
handle before its insertion, and a destruction that comes too early is lost.  All this is in
the runs; the statements are about a handle from its insertion on.

A life (`lifeStep`) is a model that only its own calls touch.  Two handles' lives are
independent because the calls name their handle, not because the store keeps them apart; so
the run lemma is a fold over all calls, most of which do nothing to the one life.
-/

namespace Synapse.IgpuMl

open Numerals Runs

/-- The two designs that a model can be created with. -/
inductive Kind where
  | dynamicTileTransformer
  | telemetryOptimizer
  deriving DecidableEq, Repr

/-- What the FFI calls of a `dyn Model`, and how a model of a kind with the default
configuration starts. -/
structure Methods (F M : Type*) where
  create : Kind → M
  infer : M → FeatureVector F → ActionScores F
  update : M → Experience F → M × Except IgpuMlError (UpdateResult F)
  explain : M → FeatureVector F → ModelExplanation F

/-- The strings are null pointers or C strings. -/
structure SynapseModelExplanation (F : Type*) where
  featureImportances : Fin 8 → F
  predictedScores : Backend → F
  confidence : F
  modelVersion : Option String
  notes : Option String

section raw

variable {F : Type*} [Scalar F]

/-- The conversion of features that come from C: each is cut off to the unit interval. -/
def featureVectorFromRaw (f : FeatureVector F) : FeatureVector F where
  shaderComplexityNorm := clampUnit f.shaderComplexityNorm
  vertexCountLogNorm := clampUnit f.vertexCountLogNorm
  drawCallRateNorm := clampUnit f.drawCallRateNorm
  cacheHitRate := clampUnit f.cacheHitRate
  dvfsHeadroom := clampUnit f.dvfsHeadroom
  thermalHeadroom := clampUnit f.thermalHeadroom
  predictorAccuracy := clampUnit f.predictorAccuracy
  isComputeDispatch := clampUnit f.isComputeDispatch

/-- The conversion of an experience; only its features are converted. -/
def experienceFromRaw (e : Experience F) : Experience F :=
  { e with features := featureVectorFromRaw e.features }

/-- `CString::new(s).unwrap_or_default()`. -/
def cString (s : String) : String := if '\x00' ∈ s.toList then "" else s

omit [Scalar F] in
/-- The conversion of an explanation, its texts as strings that end with a zero byte. -/
def explanationToRaw (ex : ModelExplanation F) : SynapseModelExplanation F where
  featureImportances := ex.featureImportances
  predictedScores := ex.predictedScores
  confidence := ex.confidence
  modelVersion := some (cString ex.modelVersion)
  notes := some (cString ex.notes)

/-- What `synapse_ml_explain` returns without a model or without features. -/
def emptyExplanation : SynapseModelExplanation F where
  featureImportances := fun _ => 0
  predictedScores := fun _ => 0
  confidence := 0
  modelVersion := none
  notes := none

end raw

/-- How far a call of `synapse_ml_create_model` has come. -/
inductive CreateCall where
  | drawn (kind : Kind) (id : UInt64)
  | returned (id : UInt64)

/-- The number that a creation has drawn. -/
def CreateCall.id : CreateCall → UInt64
  | drawn _ id => id
  | returned id => id

/-- What a call has returned. -/
def CreateCall.handle? : CreateCall → Option UInt64
  | drawn _ _ => none
  | returned id => some id

/-- A handle that has been returned is the number that was drawn. -/
theorem CreateCall.handle?_eq (c : CreateCall) : c.handle? = none ∨ c.handle? = some c.id := by
  cases c with
  | drawn kind id => exact Or.inl rfl
  | returned id => exact Or.inr rfl

/-- The store, and the creations that have drawn a number. -/
structure ModelStore (M : Type*) where
  models : UInt64 → Option M
  nextId : UInt64
  calls : List CreateCall

/-- The steps of the calls: the draw and the insertion of a creation, and the other calls,
whose pointers may be null. -/
inductive Action (F : Type*) where
  | create (modelName : Option Text)
  | insert (i : ℕ)
  | destroy (handle : UInt64)
  | infer (handle : UInt64) (features : Option (FeatureVector F))
  | observe (handle : UInt64) (experience : Option (Experience F))
  | explain (handle : UInt64) (features : Option (FeatureVector F))

/-- The kind of a name; a null pointer and other names have none, and the creation returns
`u64::MAX` at once. -/
def kindOf (modelName : Option Text) : Option Kind :=
  if modelName = some (ascii "dynamic-tile-transformer") then some .dynamicTileTransformer
  else if modelName = some (ascii "telemetry-optimizer") then some .telemetryOptimizer
  else none

namespace ModelStore

/-- `u64::MAX`. -/
def noHandle : UInt64 := 0xffffffffffffffff

variable {F M : Type*} [Scalar F] (methods : Methods F M)

/-- No model, no call, the counter at 0. -/
def start : ModelStore M where
  models := fun _ => none
  nextId := 0
  calls := []

/-! ## The calls -/

/-- `next_id.fetch_add(1)` of a creation. -/
def create (s : ModelStore M) (modelName : Option Text) : ModelStore M :=
  match kindOf modelName with
  | none => s
  | some kind => { s with nextId := s.nextId + 1, calls := s.calls ++ [.drawn kind s.nextId] }

/-- The locked section of creation `i`. -/
def insert (s : ModelStore M) (i : ℕ) : Option (ModelStore M) :=
  match s.calls[i]? with
  | some (.drawn kind id) =>
      some { s with
        models := Function.update s.models id (some (methods.create kind))
        calls := s.calls.set i (.returned id) }
  | _ => none

/-- `synapse_ml_destroy_model`, which succeeds for absent handles too. -/
def synapseMlDestroyModel (s : ModelStore M) (handle : UInt64) : ModelStore M × Int :=
  if handle = noHandle then (s, -1)
  else ({ s with models := Function.update s.models handle none }, 0)

/-- `synapse_ml_infer`, with the fallback scores for a null pointer or an absent handle. -/
def synapseMlInfer (s : ModelStore M) (handle : UInt64) (features : Option (FeatureVector F)) :
    ActionScores F :=
  match features with
  | none => .fallback
  | some f =>
      match s.models handle with
      | some m => methods.infer m (featureVectorFromRaw f)
      | none => .fallback

/-- `synapse_ml_observe`, which updates the model in place. -/
def synapseMlObserve (s : ModelStore M) (handle : UInt64) (experience : Option (Experience F)) :
    ModelStore M × UpdateResult F :=
  match experience with
  | none => (s, .default)
  | some e =>
      match s.models handle with
      | some m =>
          let (m', result) := methods.update m (experienceFromRaw e)
          ({ s with models := Function.update s.models handle (some m') },
            result.toOption.getD .default)
      | none => (s, .default)

/-- `synapse_ml_explain`. -/
def synapseMlExplain (s : ModelStore M) (handle : UInt64) (features : Option (FeatureVector F)) :
    SynapseModelExplanation F :=
  match features with
  | none => emptyExplanation
  | some f =>
      match s.models handle with
      | some m => explanationToRaw (methods.explain m (featureVectorFromRaw f))
      | none => emptyExplanation

/-- One step: the drawing of a number, or the locked section of a call. -/
def step (s : ModelStore M) : Action F → Option (ModelStore M)
  | .create modelName => some (s.create modelName)
  | .insert i => s.insert methods i
  | .destroy handle => some (s.synapseMlDestroyModel handle).1
  | .infer _ _ => some s
  | .observe handle experience => some (s.synapseMlObserve methods handle experience).1
  | .explain _ _ => some s

/-! ## Private models -/

/-- The results that the calls on one handle have. -/
structure Answers (F : Type*) where
  infer : Option (FeatureVector F) → ActionScores F
  observe : Option (Experience F) → UpdateResult F
  explain : Option (FeatureVector F) → SynapseModelExplanation F

/-- The results that calls on a handle have now. -/
def answers (s : ModelStore M) (handle : UInt64) : Answers F where
  infer := s.synapseMlInfer methods handle
  observe experience := (s.synapseMlObserve methods handle experience).2
  explain := s.synapseMlExplain methods handle

/-- The results of a model of one's own, or those without a model. -/
def privateAnswers : Option M → Answers F
  | none =>
      { infer := fun _ => .fallback
        observe := fun _ => .default
        explain := fun _ => emptyExplanation }
  | some m =>
      { infer := fun features =>
          features.elim .fallback fun f => methods.infer m (featureVectorFromRaw f)
        observe := fun experience =>
          experience.elim .default fun e =>
            (methods.update m (experienceFromRaw e)).2.toOption.getD .default
        explain := fun features =>
          features.elim emptyExplanation fun f =>
            explanationToRaw (methods.explain m (featureVectorFromRaw f)) }

/-- A model of a kind after some observations. -/
def privateModel (kind : Kind) (es : List (Experience F)) : M :=
  es.foldl (fun m e => (methods.update m (experienceFromRaw e)).1) (methods.create kind)

/-- The observations on a handle, in the order of their locked sections. -/
def observesOn (handle : UInt64) (as : List (Action F)) : List (Experience F) :=
  as.filterMap fun
    | .observe h (some e) => if h = handle then some e else none
    | _ => none

/-- The calls that end the life of a handle. -/
def isDestroy (handle : UInt64) : Action F → Bool
  | .destroy h => h = handle
  | _ => false

/-- What one step does to the model of a handle under which nothing is inserted. -/
def lifeStep (handle : UInt64) (m : Option M) : Action F → Option M
  | .destroy h => if h = handle ∧ h ≠ noHandle then none else m
  | .observe h (some e) =>
      if h = handle then m.map fun m => (methods.update m (experienceFromRaw e)).1 else m
  | _ => m

/-- What a handle answers depends on its own model. -/
theorem answers_eq (s : ModelStore M) (handle : UInt64) :
    s.answers methods handle = privateAnswers methods (s.models handle) := by
  unfold answers privateAnswers
  cases hm : s.models handle with
  | none =>
      congr 1
      · funext features
        cases features <;> simp [synapseMlInfer, hm]
      · funext experience
        cases experience <;> simp [synapseMlObserve, hm]
      · funext features
        cases features <;> simp [synapseMlExplain, hm]
  | some m =>
      congr 1
      · funext features
        cases features <;> simp [synapseMlInfer, hm]
      · funext experience
        cases experience <;> simp [synapseMlObserve, hm]
      · funext features
        cases features <;> simp [synapseMlExplain, hm]

/-- Without a model nothing is there to change. -/
theorem lifeStep_none (handle : UInt64) (a : Action F) :
    lifeStep methods handle none a = none := by
  unfold lifeStep
  split <;> simp

/-- A life that has ended does not begin again. -/
theorem foldl_lifeStep_none (handle : UInt64) (as : List (Action F)) :
    as.foldl (lifeStep methods handle) none = none := by
  induction as with
  | nil => rfl
  | cons a as ih => rw [List.foldl_cons, lifeStep_none, ih]

/-- **A model lives until it is destroyed, and learns from its own observations.** -/
theorem foldl_lifeStep_some {handle : UInt64} (hhandle : handle ≠ noHandle)
    (as : List (Action F)) (m : M) :
    as.foldl (lifeStep methods handle) (some m) =
      if as.any (isDestroy handle) then none
      else some ((observesOn handle as).foldl
        (fun m e => (methods.update m (experienceFromRaw e)).1) m) := by
  induction as generalizing m with
  | nil => rfl
  | cons a as ih =>
      rw [List.foldl_cons, List.any_cons]
      cases a with
      | destroy h =>
          by_cases hh : h = handle
          · subst hh
            simp [lifeStep, isDestroy, hhandle, foldl_lifeStep_none]
          · simp [lifeStep, isDestroy, hh, ih, observesOn]
      | observe h experience =>
          cases experience with
          | none => simp [lifeStep, isDestroy, ih, observesOn]
          | some e =>
              by_cases hh : h = handle
              · simp [lifeStep, isDestroy, hh, ih, observesOn]
              · simp [lifeStep, isDestroy, hh, ih, observesOn]
      | _ => simp [lifeStep, isDestroy, ih, observesOn]

/-! ## Handles -/

/-- The creations have drawn the numbers from zero on, in turn. -/
structure Numbered (s : ModelStore M) : Prop where
  ids : ∀ i c, s.calls[i]? = some c → c.id = UInt64.ofNat i
  next : s.nextId = UInt64.ofNat s.calls.length

/-- Numbers before any call. -/
theorem numbered_start : (start : ModelStore M).Numbered where
  ids _ _ h := absurd h (by simp [start])
  next := rfl

/-- A creation draws the next number. -/
theorem numbered_create {s : ModelStore M} (hs : s.Numbered) (modelName : Option Text) :
    (s.create modelName).Numbered := by
  unfold create
  split
  · exact hs
  · refine ⟨fun i c hc => ?_, ?_⟩
    · rcases Calls.getElem?_joined hc with hold | ⟨rfl, rfl⟩
      · exact hs.ids i c hold
      · exact hs.next
    · rw [List.length_append, hs.next, List.length_singleton, UInt64.ofNat_add]
      rfl

omit [Scalar F] in
/-- What an insertion finds and leaves. -/
theorem insert_cases {s s' : ModelStore M} {i : ℕ} (h : s.insert methods i = some s') :
    ∃ kind id, s.calls[i]? = some (.drawn kind id) ∧
      s' = { s with
        models := Function.update s.models id (some (methods.create kind))
        calls := s.calls.set i (.returned id) } := by
  unfold insert at h
  split at h
  · exact ⟨_, _, ‹_›, (Option.some_injective _ h).symm⟩
  · cases h

omit [Scalar F] in
/-- An insertion draws none. -/
theorem numbered_insert {s s' : ModelStore M} (hs : s.Numbered) {i : ℕ}
    (h : s.insert methods i = some s') : s'.Numbered := by
  obtain ⟨kind, id, hi, rfl⟩ := insert_cases methods h
  refine ⟨fun j c hc => ?_, by simpa using hs.next⟩
  rw [List.getElem?_set] at hc
  split_ifs at hc with hij hlt
  · obtain rfl := Option.some_injective _ hc
    have hid : id = UInt64.ofNat i := hs.ids i _ hi
    exact hij ▸ hid
  · exact hs.ids j c hc

/-- The other calls leave the creations alone. -/
theorem calls_step {s s' : ModelStore M} {a : Action F} (h : step methods s a = some s')
    (hcreate : ∀ modelName, a ≠ .create modelName) (hinsert : ∀ i, a ≠ .insert i) :
    s'.calls = s.calls ∧ s'.nextId = s.nextId := by
  cases a with
  | create modelName => exact absurd rfl (hcreate modelName)
  | insert i => exact absurd rfl (hinsert i)
  | destroy handle =>
      obtain rfl := Option.some_injective _ h
      unfold synapseMlDestroyModel
      split_ifs <;> exact ⟨rfl, rfl⟩
  | infer handle features =>
      obtain rfl := Option.some_injective _ h
      exact ⟨rfl, rfl⟩
  | observe handle experience =>
      obtain rfl := Option.some_injective _ h
      unfold synapseMlObserve
      split
      · exact ⟨rfl, rfl⟩
      · split <;> exact ⟨rfl, rfl⟩
  | explain handle features =>
      obtain rfl := Option.some_injective _ h
      exact ⟨rfl, rfl⟩

/-- The step lemma of the numbers. -/
theorem numbered_step {s s' : ModelStore M} {a : Action F} (hs : s.Numbered)
    (h : step methods s a = some s') : s'.Numbered := by
  cases a with
  | create modelName =>
      obtain rfl := Option.some_injective _ h
      exact numbered_create hs modelName
  | insert i => exact numbered_insert methods hs h
  | _ =>
      obtain ⟨hcalls, hnext⟩ := calls_step methods h (by simp) (by simp)
      exact ⟨hcalls ▸ hs.ids, by rw [hnext, hcalls, hs.next]⟩

/-- Creations are never forgotten. -/
theorem length_calls_step {s s' : ModelStore M} {a : Action F} (h : step methods s a = some s') :
    s.calls.length ≤ s'.calls.length := by
  cases a with
  | create modelName =>
      obtain rfl := Option.some_injective _ h
      unfold create
      split
      · exact le_rfl
      · simp
  | insert i =>
      obtain ⟨kind, id, -, rfl⟩ := insert_cases methods h
      simp
  | _ => rw [(calls_step methods h (by simp) (by simp)).1]

/-- Along a run. -/
theorem length_calls_exec {s s' : ModelStore M} {as : List (Action F)}
    (h : exec (step methods) s as = some s') : s.calls.length ≤ s'.calls.length := by
  induction as generalizing s with
  | nil => exact (Option.some_injective _ h) ▸ le_rfl
  | cons a as ih =>
      rw [exec, Option.bind_eq_some_iff] at h
      obtain ⟨t, ht, hrest⟩ := h
      exact (length_calls_step methods ht).trans (ih hrest)

/-- A creation that has returned stays so. -/
theorem returned_step {s s' : ModelStore M} {a : Action F} (h : step methods s a = some s')
    {j : ℕ} {id : UInt64} (hj : s.calls[j]? = some (.returned id)) :
    s'.calls[j]? = some (.returned id) := by
  cases a with
  | create modelName =>
      obtain rfl := Option.some_injective _ h
      unfold create
      split
      · exact hj
      · exact (List.getElem?_append_left (List.getElem?_eq_some_iff.mp hj).1).trans hj
  | insert i =>
      obtain ⟨kind, id', hi, rfl⟩ := insert_cases methods h
      have hij : i ≠ j := by
        rintro rfl
        cases hi.symm.trans hj
      rwa [List.getElem?_set_ne hij]
  | _ => rwa [(calls_step methods h (by simp) (by simp)).1]

/-- **What a step does to the model of a handle** under which it inserts nothing. -/
theorem models_step {s s' : ModelStore M} {a : Action F} (h : step methods s a = some s')
    {handle : UInt64} (hno : ∀ i kind, a = .insert i → s.calls[i]? ≠ some (.drawn kind handle)) :
    s'.models handle = lifeStep methods handle (s.models handle) a := by
  cases a with
  | create modelName =>
      obtain rfl := Option.some_injective _ h
      unfold create
      split <;> rfl
  | insert i =>
      obtain ⟨kind, id, hi, rfl⟩ := insert_cases methods h
      have hne : handle ≠ id := by
        rintro rfl
        exact hno i kind rfl hi
      exact Function.update_of_ne hne _ _
  | destroy handle' =>
      obtain rfl := Option.some_injective _ h
      unfold synapseMlDestroyModel lifeStep
      by_cases hnone : handle' = noHandle
      · simp [hnone]
      · by_cases hh : handle' = handle
        · subst hh
          simp [hnone]
        · simp [hnone, hh, Function.update_of_ne (Ne.symm hh)]
  | infer handle' features =>
      obtain rfl := Option.some_injective _ h
      rfl
  | observe handle' experience =>
      obtain rfl := Option.some_injective _ h
      cases experience with
      | none => rfl
      | some e =>
          unfold synapseMlObserve lifeStep
          cases hm : s.models handle' with
          | none =>
              by_cases hh : handle' = handle
              · simp [← hh, hm]
              · simp [hh]
          | some m =>
              by_cases hh : handle' = handle
              · subst hh
                simp [hm]
              · simp [hh, Function.update_of_ne (Ne.symm hh)]
  | explain handle' features =>
      obtain rfl := Option.some_injective _ h
      rfl

/-- Two creations have two numbers. -/
theorem Numbered.injective {s : ModelStore M} (hs : s.Numbered) (hfew : s.calls.length < 2 ^ 64)
    {i j : ℕ} {c d : CreateCall} (hi : s.calls[i]? = some c) (hj : s.calls[j]? = some d)
    (hid : c.id = d.id) : i = j := by
  have hlti := (List.getElem?_eq_some_iff.mp hi).1
  have hltj := (List.getElem?_eq_some_iff.mp hj).1
  rw [hs.ids i c hi, hs.ids j d hj] at hid
  have hnat := congrArg UInt64.toNat hid
  rwa [UInt64.toNat_ofNat_of_lt' (hlti.trans hfew), UInt64.toNat_ofNat_of_lt' (hltj.trans hfew)]
    at hnat

/-- Where a creation has returned, nothing is inserted under its handle again. -/
theorem Numbered.not_drawn {s : ModelStore M} (hs : s.Numbered) (hfew : s.calls.length < 2 ^ 64)
    {j : ℕ} {handle : UInt64} (hj : s.calls[j]? = some (.returned handle)) (i : ℕ) (kind : Kind) :
    s.calls[i]? ≠ some (.drawn kind handle) := by
  intro hi
  obtain rfl := hs.injective hfew hi hj rfl
  cases hi.symm.trans hj

/-- **From its insertion on a handle lives a life of its own.** -/
theorem models_of_inserted {s s' : ModelStore M} {as : List (Action F)} (hs : s.Numbered)
    (hexec : exec (step methods) s as = some s') (hfew : s'.calls.length < 2 ^ 64) {j : ℕ}
    {handle : UInt64} (hj : s.calls[j]? = some (.returned handle)) :
    s'.models handle = as.foldl (lifeStep methods handle) (s.models handle) := by
  induction as generalizing s with
  | nil =>
      obtain rfl := Option.some_injective _ hexec
      rfl
  | cons a as ih =>
      rw [exec, Option.bind_eq_some_iff] at hexec
      obtain ⟨t, ht, hrest⟩ := hexec
      have hlength := length_calls_exec methods hrest
      have hmodels := models_step methods ht
        fun i kind _ => hs.not_drawn ((length_calls_step methods ht).trans_lt (by omega)) hj i kind
      rw [List.foldl_cons, ← hmodels]
      exact ih (numbered_step methods hs ht) hrest (returned_step methods ht hj)

/-- Every model is that of a creation that has returned. -/
def Created (s : ModelStore M) : Prop :=
  ∀ handle, s.models handle ≠ none → .returned handle ∈ s.calls

/-- What is in the map has been created by a call that has returned. -/
theorem created_step {s s' : ModelStore M} {a : Action F} (hs : s.Created)
    (h : step methods s a = some s') : s'.Created := by
  intro handle hmodel
  by_cases hno : ∀ i kind, a = .insert i → s.calls[i]? ≠ some (.drawn kind handle)
  · -- Nothing is inserted under the handle: it had a model before.
    have hbefore : s.models handle ≠ none := by
      intro hnone
      exact hmodel (by rw [models_step methods h hno, hnone, lifeStep_none])
    obtain ⟨j, hj⟩ := List.mem_iff_getElem?.mp (hs handle hbefore)
    exact List.mem_iff_getElem?.mpr ⟨j, returned_step methods h hj⟩
  · push Not at hno
    obtain ⟨i, kind, rfl, hi⟩ := hno
    obtain ⟨kind', id, hi', rfl⟩ := insert_cases methods h
    obtain ⟨-, rfl⟩ := CreateCall.drawn.inj (Option.some_injective _ (hi.symm.trans hi'))
    exact List.mem_set (List.getElem?_eq_some_iff.mp hi).1 _

/-- The handles that have been returned are among the numbers drawn, in their order. -/
theorem sublist_ids (calls : List CreateCall) :
    (calls.filterMap CreateCall.handle?).Sublist (calls.map CreateCall.id) := by
  induction calls with
  | nil => exact List.Sublist.refl _
  | cons c calls ih =>
      rcases c.handle?_eq with hc | hc
      · rw [List.filterMap_cons_none hc]
        exact ih.cons _
      · rw [List.filterMap_cons_some hc]
        exact ih.cons_cons _

/-- No two creations return the same handle. -/
theorem Numbered.nodup {s : ModelStore M} (hs : s.Numbered) (hfew : s.calls.length < 2 ^ 64) :
    (s.calls.filterMap CreateCall.handle?).Nodup := by
  refine (sublist_ids s.calls).nodup (List.nodup_iff_injective_getElem.mpr ?_)
  intro i j hij
  simp only [List.getElem_map] at hij
  exact Fin.ext (hs.injective hfew (List.getElem?_eq_getElem _) (List.getElem?_eq_getElem _) hij)

/-- With fewer creations than numbers, none draws the value that stands for no handle. -/
theorem Numbered.ne_noHandle {s : ModelStore M} (hs : s.Numbered)
    (hfew : s.calls.length < 2 ^ 64 - 1) {i : ℕ} {c : CreateCall} (hi : s.calls[i]? = some c) :
    c.id ≠ noHandle := by
  intro heq
  have hlt := (List.getElem?_eq_some_iff.mp hi).1
  have hnat := congrArg UInt64.toNat ((hs.ids i c hi).symm.trans heq)
  have hsize : i < UInt64.size := (hlt.trans hfew).trans (by decide)
  rw [UInt64.toNat_ofNat_of_lt' hsize, show noHandle.toNat = 2 ^ 64 - 1 from rfl] at hnat
  omega

/-- The first step of a run that goes on from an insertion. -/
theorem exec_cons_insert {t s : ModelStore M} {i : ℕ} {after : List (Action F)} {kind : Kind}
    {handle : UInt64} (hi : t.calls[i]? = some (.drawn kind handle))
    (h : exec (step methods) t (.insert i :: after) = some s) :
    ∃ t', t'.models handle = some (methods.create kind) ∧
      t'.calls[i]? = some (.returned handle) ∧ step methods t (.insert i) = some t' ∧
      exec (step methods) t' after = some s := by
  rw [exec, Option.bind_eq_some_iff] at h
  obtain ⟨t', ht', hrest⟩ := h
  obtain ⟨kind', id, hi', rfl⟩ := insert_cases methods ht'
  obtain ⟨rfl, rfl⟩ := CreateCall.drawn.inj (Option.some_injective _ (hi.symm.trans hi'))
  refine ⟨_, Function.update_self .., ?_, ht', hrest⟩
  exact List.getElem?_set_self (List.getElem?_eq_some_iff.mp hi).1

/-- **Handles are isolated.**  Whatever the threads do, creations return distinct handles.  A
handle that no creation has returned answers like no model; one whose model has been inserted
answers like a model of its own that has learned exactly the observations on it since then,
and once it has been destroyed after that, like no model. -/
theorem handles_isolated {as : List (Action F)} {s : ModelStore M}
    (hrun : exec (step methods) start as = some s) (hfew : s.calls.length < 2 ^ 64 - 1) :
    (s.calls.filterMap CreateCall.handle?).Nodup ∧
      noHandle ∉ s.calls.filterMap CreateCall.handle? ∧
      (∀ handle ∉ s.calls.filterMap CreateCall.handle?,
        s.answers methods handle = privateAnswers methods none) ∧
      ∀ before i after t kind handle, as = before ++ .insert i :: after →
        exec (step methods) start before = some t →
        t.calls[i]? = some (.drawn kind handle) →
        s.answers methods handle = privateAnswers methods
          (if after.any (isDestroy handle) then none
          else some (privateModel methods kind (observesOn handle after))) := by
  have hnumbered : s.Numbered :=
    invariant_of_exec (step methods) (fun _ _ _ hs h => numbered_step methods hs h)
      numbered_start hrun
  have hcreated : s.Created :=
    invariant_of_exec (step methods) (fun _ _ _ hs h => created_step methods hs h)
      (fun _ h => absurd rfl h) hrun
  refine ⟨hnumbered.nodup (by omega), ?_, ?_, ?_⟩
  · intro hmem
    obtain ⟨c, hc, hhandle⟩ := List.mem_filterMap.mp hmem
    obtain ⟨i, hi⟩ := List.mem_iff_getElem?.mp hc
    rcases c.handle?_eq with hnone | hsome
    · cases hnone.symm.trans hhandle
    · exact hnumbered.ne_noHandle hfew hi (Option.some_injective _ (hsome.symm.trans hhandle))
  · intro handle hmem
    rw [answers_eq]
    congr 1
    by_contra hmodel
    exact hmem (List.mem_filterMap.mpr ⟨_, hcreated handle hmodel, rfl⟩)
  · rintro before i after t kind handle rfl ht hi
    rw [exec_append, ht, Option.bind_some] at hrun
    have hbefore : t.Numbered :=
      invariant_of_exec (step methods) (fun _ _ _ hs h => numbered_step methods hs h)
        numbered_start ht
    have hlength := length_calls_exec methods hrun
    obtain ⟨t', hmodel, hi', hstep, hrest⟩ := exec_cons_insert methods hi hrun
    have hlife := models_of_inserted methods (numbered_step methods hbefore hstep) hrest
      (by omega) hi'
    have hhandle : handle ≠ noHandle := hbefore.ne_noHandle (hlength.trans_lt hfew) hi
    rw [answers_eq, hlife, hmodel, foldl_lifeStep_some methods hhandle]
    rfl

/-- Models that count their updates. -/
noncomputable def countingMethods : Methods ℝ ℕ where
  create _ := 0
  infer _ _ := .fallback
  update m _ := (m + 1, .ok .default)
  explain m _ := ⟨fun _ => 0, fun _ => 0, m, "1.0.0", ""⟩

/-- Two creations, of which the first inserts late: an observation on its handle before that is
lost, two later ones count, and the other model is destroyed in between. -/
noncomputable def lateInsert : List (Action ℝ) :=
  let observed : Experience ℝ := ⟨.zero, 0, 1, 0, 0, 0, 0, 0⟩
  [.create (some (ascii "telemetry-optimizer")), .create (some (ascii "telemetry-optimizer")),
    .insert 1, .observe 0 (some observed), .observe 1 (some observed), .insert 0,
    .observe 0 (some observed), .destroy 1, .observe 0 (some observed)]

/-- Two handles, the second destroyed while the first goes on. -/
theorem handles_isolated_destroyed :
    ∃ s : ModelStore ℕ, exec (step countingMethods) start lateInsert = some s ∧
      s.answers countingMethods 0 = privateAnswers countingMethods (some 2) ∧
      s.answers countingMethods 1 = privateAnswers countingMethods none := by
  obtain ⟨s, hrun, hcalls⟩ : ∃ s : ModelStore ℕ,
      exec (step countingMethods) start lateInsert = some s ∧ s.calls.length = 2 := ⟨_, rfl, rfl⟩
  have hfew : s.calls.length < 2 ^ 64 - 1 := by
    rw [hcalls]
    decide
  have hisolated := (handles_isolated countingMethods hrun hfew).2.2.2
  have hfirst := hisolated (lateInsert.take 5) 0 (lateInsert.drop 6) _ .telemetryOptimizer 0 rfl
    rfl rfl
  have hsecond := hisolated (lateInsert.take 2) 1 (lateInsert.drop 3) _ .telemetryOptimizer 1 rfl
    rfl rfl
  exact ⟨s, hrun, hfirst, hsecond⟩

/-- A handle that is destroyed before its model is there is used all the same afterwards,
whatever the models do. -/
theorem early_destroy_forgotten :
    ¬∃ (F M : Type) (_ : Scalar F) (methods : Methods F M),
      ∀ (before after : List (Action F)) (handle : UInt64) (s : ModelStore M),
        exec (step methods) start (before ++ .destroy handle :: after) = some s →
          ∀ features, s.synapseMlExplain methods handle features = emptyExplanation := by
  rintro ⟨F, M, _, methods, h⟩
  have hempty := h []
    [.create (some (ascii "telemetry-optimizer")), .insert 0] 0 _ rfl (some .zero)
  exact absurd (congrArg SynapseModelExplanation.modelVersion hempty) (Option.some_ne_none _)

end ModelStore

end Synapse.IgpuMl
