import Synapse.Foundations.LazyLock
import Synapse.IgpuMl.TrainingSteps

/-!
# The dashboard

The handlers of `igpu_ml_dashboard` that work on the model.  Each of them takes the lock once
and makes the model if it is the first, so a run of the service is a list of requests, in
the order in which they get the lock.  A handler that panics drops its request and poisons
the lock, and from then on all of them answer with an internal server error.

No handler ever panics: the model is of the default configuration, whose first layer is wide
enough for the loss.  The service therefore answers as a model of its own would that has
been trained on the observations so far (`served_by_one_model`).

### One lock

All that the service keeps between requests is one model behind a lock, made at the first
request that gets there.  A handler has one critical section and does nothing to the model
outside it, so the order in which the sections run is the run (`Foundations.LazyLock`).  That
requests arrive concurrently is no part of the model beyond that order; the payloads are
decoded before the lock is taken, and a payload that does not decode never gets it.

A panic inside the section would poison the lock for good.  Whether one can happen is a matter
of sizes (`IgpuMl.TrainingSteps`), and the service's own configuration has 32 units in the
first layer.
-/

namespace Synapse.IgpuMl.Dashboard

open Network Runs LazyLock

variable {F : Type} [Scalar F]

/-! ## Requests -/

/-- The JSON of an observation: the features if there are any that can be read, `action` if it
is an unsigned integer, and `reward` if it is a number, rounded. -/
structure ObservePayload (F : Type) where
  features : Option (FeatureVector F)
  action : Option UInt64
  reward : Option F

/-- The requests that work on the model, with what their payloads say. -/
inductive Request (F : Type) where
  | infer (payload : FeatureVector F)
  | observe (payload : ObservePayload F) (timestampNs : UInt64)
  | explain (payload : FeatureVector F)

/-- The answer to an inference. -/
structure InferenceResponse (F : Type) where
  model : String
  chosen : UInt32
  scores : Backend → F
  confidence : F
  explanation : Fin 8 → F

/-- What a request is answered with. -/
inductive Response (F : Type) where
  | inferred (response : InferenceResponse F)
  | observed (result : UpdateResult F)
  | explained (featureImportances : Fin 8 → F)
  | badRequest
  | internalServerError
  /-- The handler has panicked. -/
  | dropped

/-- The experience of an observation.  An action of 64 bits is cut to 32. -/
def ObservePayload.experience (payload : ObservePayload F) (features : FeatureVector F)
    (timestampNs : UInt64) : Experience F where
  features := features
  action := (payload.action.getD 0).toUInt32
  reward := payload.reward.getD 0
  timestampNs := timestampNs
  sessionId := 0
  energyJoules := 0
  thermalEvents := 0
  confidence := 0

/-- What a request trains the model on. -/
def Request.experience : Request F → Option (Experience F)
  | .observe payload timestampNs =>
      payload.features.map fun features => payload.experience features timestampNs
  | _ => none

/-! ## The model -/

/-- The hidden layers of the default configuration. -/
theorem length_defaultDims : [(32 : UInt64), 16, 8].length < 2 ^ 60 := by decide

/-- `DynamicTileTransformerConfig::default()` -/
def defaultConfig : DynamicTileTransformerConfig F where
  inputDim := 8
  hiddenDims := [32, 16, 8]
  outputDim := 3
  learningRate := Scalar.literal 0.01
  epsilon := Scalar.literal 0.05
  l2Lambda := Scalar.literal 0.001
  energyWeight := Scalar.literal 0.7
  performanceWeight := Scalar.literal 0.3
  fits := length_defaultDims

/-- The model of the service. -/
abbrev Model (F : Type) := Network (DynamicTileTransformerConfig F) F

/-- The model is made with a fixed seed. -/
def makeModel (random : Random F) : Option (Model F) :=
  new (dynamicTileTransformer F) random defaultConfig 7

/-! ## Handlers -/

/-- `infer_backend`: inference and explanation of the same features. -/
def inferBackend (payload : FeatureVector F) (m : Model F) :
    Option (Model F × Response F) := do
  let scores ← m.infer payload
  let explanation ← m.explain payload
  return (m, .inferred {
    model := "dynamic-tile-transformer"
    chosen := scores.chosen
    scores := scores.scores
    confidence := scores.confidence
    explanation := explanation.featureImportances })

/-- `observe_outcome`; an update that is refused panics in its `unwrap`. -/
def observeOutcome (experience : Experience F) (m : Model F) :
    Option (Model F × Response F) := do
  let (m, result) ← m.update (dynamicTileTransformer F) experience
  match result with
  | .ok result => return (m, .observed result)
  | .error _ => none

/-- `explain_action` -/
def explainAction (payload : FeatureVector F) (m : Model F) :
    Option (Model F × Response F) := do
  let explanation ← m.explain payload
  return (m, .explained explanation.featureImportances)

/-- The critical section of a request.  One without features does not get that far. -/
def criticalSection : Request F → Option (Model F → Option (Model F × Response F))
  | .infer payload => some (inferBackend payload)
  | .observe payload timestampNs => payload.features.map fun features =>
      observeOutcome (payload.experience features timestampNs)
  | .explain payload => some (explainAction payload)

/-- The response to what became of the critical section. -/
def respond : Outcome (Response F) → Response F
  | .returned response => response
  | .panicked => .dropped
  | .refused => .internalServerError

/-- A request: its payload is checked, and then its section runs. -/
def handle (random : Random F) (s : Locked (Model F)) (request : Request F) :
    Locked (Model F) × Response F :=
  match criticalSection request with
  | none => (s, .badRequest)
  | some body => ((s.run (makeModel random) body).1, respond (s.run (makeModel random) body).2)

/-- The state after some requests. -/
def serve (random : Random F) (requests : List (Request F)) : Locked (Model F) :=
  requests.foldl (fun s request => (handle random s request).1) .fresh

/-- The response of a model of one's own. -/
def privateResponse (m : Model F) (request : Request F) : Option (Response F) :=
  match criticalSection request with
  | none => some .badRequest
  | some body => (body m).map Prod.snd

/-! ## No handler panics -/

variable {m m' : Model F}

/-- The default model can be made. -/
theorem exists_makeModel (random : Random F) : ∃ m, makeModel random = some m := ⟨_, rfl⟩

/-- A model as `new` and training leave it. -/
def Trained (m : Model F) : Prop := WidthsOf (dynamicTileTransformer F) defaultConfig m

/-- It is a trained one, before any training. -/
theorem trained_makeModel {random : Random F} (h : makeModel random = some m) : Trained m :=
  sized_new h

/-- `update` never returns an error. -/
theorem update_ok {experience : Experience F} {result : Except IgpuMlError (UpdateResult F)}
    (h : m.update (dynamicTileTransformer F) experience = some (m', result)) :
    ∃ r, result = .ok r := by
  unfold update at h
  split at h
  · obtain ⟨-, rfl⟩ := Prod.mk.inj (Option.some_injective _ h)
    exact ⟨_, rfl⟩
  · split_ifs at h
    · obtain ⟨-, rfl⟩ := Prod.mk.inj (Option.some_injective _ h)
      exact ⟨_, rfl⟩
    · simp only [Option.bind_eq_bind, Option.bind_eq_some_iff] at h
      obtain ⟨activations, -, logits, -, probs, -, s, -, loss, -, h⟩ := h
      obtain ⟨-, rfl⟩ := Prod.mk.inj (Option.some_injective _ h)
      exact ⟨_, rfl⟩

namespace Trained

/-- The first layer has more rows than there are actions. -/
theorem observe (h : Trained m) (experience : Experience F) :
    ∃ m' r, m.update (dynamicTileTransformer F) experience = some (m', .ok r) ∧ Trained m' := by
  obtain ⟨hconfig, hsized⟩ := h
  have hreturns : m.update (dynamicTileTransformer F) experience ≠ none := by
    refine (hsized.update_returns_iff rfl rfl .dynamicTileTransformer le_rfl experience).mpr ?_
    intro _ haction
    have hwide : 3 < 32 := by omega
    exact haction.trans hwide
  obtain ⟨⟨m', result⟩, hupdate⟩ := Option.ne_none_iff_exists'.mp hreturns
  obtain ⟨r, rfl⟩ := update_ok hupdate
  have hframe := update_frame _ hupdate
  exact ⟨m', r, hupdate, hframe.config.trans hconfig, hsized.of_frame hframe⟩

/-- A trained model infers. -/
theorem infer (h : Trained m) (payload : FeatureVector F) :
    ∃ scores, m.infer payload = some scores :=
  h.2.infer_eq_some rfl rfl payload

/-- And explains. -/
theorem explain (h : Trained m) (payload : FeatureVector F) :
    ∃ explanation, m.explain payload = some explanation := by
  obtain ⟨scores, hscores⟩ := h.infer payload
  rw [Network.explain, hscores]
  exact ⟨_, rfl⟩

end Trained

/-- What a model of one's own makes of a request. -/
structure Answered (m : Model F) (request : Request F) (m' : Model F) (response : Response F) :
    Prop where
  trained : Trained m'
  learnt : exec (train (dynamicTileTransformer F)) m request.experience.toList = some m'
  private_eq : privateResponse m request = some response
  ne_error : response ≠ .internalServerError
  ne_dropped : response ≠ .dropped

/-- Every critical section returns. -/
theorem Trained.returns (h : Trained m) {request : Request F}
    {body : Model F → Option (Model F × Response F)} (hbody : criticalSection request = some body) :
    ∃ m' response, body m = some (m', response) ∧ Answered m request m' response := by
  have hprivate : ∀ m' response, body m = some (m', response) →
      privateResponse m request = some response := by
    intro m' response hresult
    rw [privateResponse, hbody]
    show (body m).map Prod.snd = some response
    rw [hresult]
    rfl
  cases request with
  | infer payload =>
      obtain rfl := Option.some_injective _ hbody
      obtain ⟨scores, hscores⟩ := h.infer payload
      obtain ⟨explanation, hexplanation⟩ := h.explain payload
      have hresult : ∃ response, inferBackend payload m = some (m, .inferred response) := by
        rw [inferBackend, hscores, Option.bind_eq_bind, Option.bind_some, hexplanation]
        exact ⟨_, rfl⟩
      obtain ⟨response, hresult⟩ := hresult
      refine ⟨m, _, hresult, h, rfl, hprivate m _ hresult, ?_, ?_⟩ <;>
        intro hresponse <;> cases hresponse
  | observe payload timestampNs =>
      obtain ⟨features, hfeatures, rfl⟩ := Option.map_eq_some_iff.mp hbody
      obtain ⟨m', r, hupdate, htrained⟩ := h.observe (payload.experience features timestampNs)
      have hresult : observeOutcome (payload.experience features timestampNs) m =
          some (m', .observed r) := by
        rw [observeOutcome, hupdate]
        rfl
      have hlearnt : exec (train (dynamicTileTransformer F)) m
          (Request.observe payload timestampNs).experience.toList = some m' := by
        rw [Request.experience, hfeatures, Option.map_some, Option.toList_some, exec, train,
          hupdate]
        rfl
      refine ⟨m', _, hresult, htrained, hlearnt, hprivate m' _ hresult, ?_, ?_⟩ <;>
        intro hresponse <;> cases hresponse
  | explain payload =>
      obtain rfl := Option.some_injective _ hbody
      obtain ⟨explanation, hexplanation⟩ := h.explain payload
      have hresult : explainAction payload m =
          some (m, .explained explanation.featureImportances) := by
        rw [explainAction, hexplanation]
        rfl
      refine ⟨m, _, hresult, h, rfl, hprivate m _ hresult, ?_, ?_⟩ <;>
        intro hresponse <;> cases hresponse

variable {random : Random F} {s : Locked (Model F)}

/-- A request, on a lock that is not poisoned. -/
theorem handle_of_holds (hholds : s.Holds (makeModel random) m) (h : Trained m)
    (request : Request F) :
    ∃ m', (handle random s request).1.Holds (makeModel random) m' ∧
      Answered m request m' (handle random s request).2 := by
  cases hbody : criticalSection request with
  | none =>
      have hhandle : handle random s request = (s, .badRequest) := by
        rw [handle, hbody]
      have hnone : request.experience = none := by
        cases request with
        | observe payload timestampNs =>
            exact Option.map_eq_none_iff.mpr (Option.map_eq_none_iff.mp hbody)
        | infer _ | explain _ => cases hbody
      rw [hhandle]
      refine ⟨m, hholds, h, ?_, ?_, ?_, ?_⟩
      · rw [hnone]
        rfl
      · rw [privateResponse, hbody]
      · intro hresponse
        cases hresponse
      · intro hresponse
        cases hresponse
  | some body =>
      obtain ⟨m', response, hresult, hanswered⟩ := h.returns hbody
      obtain ⟨hafter, hreturned⟩ := hholds.run hresult
      have hhandle : handle random s request =
          ((s.run (makeModel random) body).1, respond (s.run (makeModel random) body).2) := by
        rw [handle, hbody]
      rw [hhandle, hreturned]
      exact ⟨m', hafter, hanswered⟩

/-- After some requests the lock holds the model that their observations have trained. -/
theorem holds_serve {m₀ : Model F} (hmake : makeModel random = some m₀)
    (requests : List (Request F)) :
    ∃ m, exec (train (dynamicTileTransformer F)) m₀ (requests.filterMap Request.experience) =
        some m ∧ Trained m ∧ (serve random requests).Holds (makeModel random) m := by
  induction requests using List.reverseRecOn with
  | nil => exact ⟨m₀, rfl, trained_makeModel hmake, Locked.holds_fresh hmake⟩
  | append_singleton requests request ih =>
      obtain ⟨m, hexec, htrained, hholds⟩ := ih
      obtain ⟨m', hafter, hanswered⟩ := handle_of_holds hholds htrained request
      refine ⟨m', ?_, hanswered.trained, ?_⟩
      · have hlast : [request].filterMap Request.experience = request.experience.toList := by
          cases hexperience : request.experience with
          | none => rw [List.filterMap_cons_none hexperience]; rfl
          | some _ => rw [List.filterMap_cons_some hexperience]; rfl
        rw [List.filterMap_append, exec_append, hexec, Option.bind_some, hlast]
        exact hanswered.learnt
      · rw [serve, List.foldl_append]
        exact hafter

/-- **One model answers everybody.**  Whatever requests there are and in whatever order they get
the lock, the model is never lost: the next response is that of a model of one's own that was
trained on the observations so far, and no request is dropped or fails in the server. -/
theorem served_by_one_model (random : Random F) (requests : List (Request F)) :
    ∃ m₀ m, makeModel random = some m₀ ∧
      exec (train (dynamicTileTransformer F)) m₀ (requests.filterMap Request.experience) =
        some m ∧
      ∀ request, privateResponse m request =
          some (handle random (serve random requests) request).2 ∧
        (handle random (serve random requests) request).2 ≠ .internalServerError ∧
        (handle random (serve random requests) request).2 ≠ .dropped := by
  obtain ⟨m₀, hmake⟩ := exists_makeModel random
  obtain ⟨m, hexec, htrained, hholds⟩ := holds_serve hmake requests
  refine ⟨m₀, m, hmake, hexec, fun request => ?_⟩
  obtain ⟨m', -, hanswered⟩ := handle_of_holds hholds htrained request
  exact ⟨hanswered.private_eq, hanswered.ne_error, hanswered.ne_dropped⟩

end Synapse.IgpuMl.Dashboard
