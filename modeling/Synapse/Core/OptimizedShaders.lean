import Synapse.Core.Workload
import Synapse.Foundations.MemoTable

/-!
# Compiled shaders found again

Calls of `get_optimized_shader` while the analyzer changes its recommendation.

The cache is a memo table (`step_memo`) in which a shader is looked up under
`backend_context_hash` and filed under its bare hash.  So a shader is only found again where
the two are the same number, and what is found under another hash belongs to another shader
(`shaders_found_again_iff`).

### What is counted

A compilation is known by the shader hash and the recommendation it was made under, and by its
number, so that two compilations of one pair can be told apart.  The source keeps neither;
both are there to say which compilation a call was answered with.
-/

namespace Synapse

open Runs MemoTable

/-- A call of `get_optimized_shader`, with the analyzer's recommendation at that time. -/
structure ShaderRequest where
  recommendation : ExecutionBackend
  shaderHash : UInt64
  source : List UInt32

namespace ShaderRequest

variable (a : ShaderRequest)

/-- What a shader is compiled for. -/
def pair : UInt64 × ExecutionBackend := (a.shaderHash, a.recommendation)

/-- `calculate_context_hash`. -/
def contextHash : UInt64 := backendContextHash a.shaderHash a.recommendation

end ShaderRequest

/-- A shader, with the pair it was compiled for and the number of compilations before. -/
abbrev CompiledShader := Made (UInt64 × ExecutionBackend) SpecializedShader

/-- The pipeline, the pair and the number of the compilation that each cached shader comes
from, the pairs that have been requested with a source, and what has been returned for which
pair. -/
structure PipelineRun where
  jit : JITPipeline
  compiledBy : UInt64 → (UInt64 × ExecutionBackend) × ℕ
  compilations : ℕ
  withSource : List (UInt64 × ExecutionBackend)
  returned : List ((UInt64 × ExecutionBackend) × CompiledShader)

namespace PipelineRun

/-- A pipeline that has compiled nothing. -/
def start : PipelineRun where
  jit := ⟨fun _ => none⟩
  compiledBy _ := ((0, .JIT), 0)
  compilations := 0
  withSource := []
  returned := []

variable (s : PipelineRun) (a : ShaderRequest)

/-- The call, with the pipeline after it. -/
def call : Option SpecializedShader × JITPipeline :=
  s.jit.getOptimizedShader a.recommendation a.shaderHash a.source

/-- Whether the call compiles. -/
def compiles : Bool := (s.jit.cache a.contextHash).isNone && !a.source.isEmpty

/-- The compilation that the returned shader comes from. -/
def compilation : (UInt64 × ExecutionBackend) × ℕ :=
  if s.compiles a then (a.pair, s.compilations) else s.compiledBy a.contextHash

def returns : Option CompiledShader :=
  (s.call a).1.map fun shader => ⟨(s.compilation a).1, (s.compilation a).2, shader⟩

/-- One call, with what it compiled and what it was answered with. -/
def step : Option PipelineRun := some {
  jit := (s.call a).2
  compiledBy :=
    if s.compiles a then Function.update s.compiledBy a.shaderHash (a.pair, s.compilations)
    else s.compiledBy
  compilations := if s.compiles a then s.compilations + 1 else s.compilations
  withSource := s.withSource ++ if a.source.isEmpty then [] else [a.pair]
  returned := s.returned ++ (s.returns a).toList.map fun shader => (a.pair, shader) }

/-! ## What is asked -/

/-- What was returned for the pair before is returned again, and nothing is compiled; and
what is returned was compiled for the pair. -/
def FoundAgain : Prop :=
  (∀ shader, (a.pair, shader) ∈ s.returned → s.returns a = some shader ∧ s.compiles a = false) ∧
    ∀ shader, s.returns a = some shader → shader.request = a.pair

/-- Of the pairs requested with a source so far, `backend_context_hash` of the requested one
is the bare hash of that one and of no other. -/
def KeysAgree : Prop :=
  ∀ pair ∈ s.withSource,
    backendContextHash a.shaderHash a.recommendation = pair.1 ↔
      pair = (a.shaderHash, a.recommendation)

/-! ## The memo table -/

/-- The cache, with what is known of its shaders. -/
def memo : Memo (UInt64 × ExecutionBackend) UInt64 SpecializedShader where
  table i := (s.jit.cache i).map fun shader => ⟨(s.compiledBy i).1, (s.compiledBy i).2, shader⟩
  made := s.compilations
  provided := s.withSource
  answers := s.returned

/-- The request to the table: the pair, and the shader that would be compiled for it. -/
def request : (UInt64 × ExecutionBackend) × Option SpecializedShader :=
  (a.pair, (JITPipeline.compileSpecialized a.shaderHash a.source ⟨fun _ => none⟩).1)

/-- Shaders are looked up under one hash. -/
def lookupKey (pair : UInt64 × ExecutionBackend) : UInt64 := backendContextHash pair.1 pair.2

/-- And filed under another. -/
def storeKey (pair : UInt64 × ExecutionBackend) : UInt64 := pair.1

/-- What a compilation makes does not depend on the cache. -/
theorem compileSpecialized_fst (hash : UInt64) (source : List UInt32) (jit jit' : JITPipeline) :
    (jit.compileSpecialized hash source).1 = (jit'.compileSpecialized hash source).1 := by
  unfold JITPipeline.compileSpecialized
  split <;> rfl

/-- Without source code nothing is filed. -/
theorem compileSpecialized_snd (hash : UInt64) (source : List UInt32) (jit : JITPipeline) :
    (jit.compileSpecialized hash source).2.cache =
      if source.isEmpty then jit.cache
      else Function.update jit.cache hash (jit.compileSpecialized hash source).1 := by
  unfold JITPipeline.compileSpecialized
  split <;> rfl

/-- Exactly the empty source code cannot be compiled. -/
theorem isSome_compileSpecialized (hash : UInt64) (source : List UInt32) (jit : JITPipeline) :
    (jit.compileSpecialized hash source).1.isSome = !source.isEmpty := by
  unfold JITPipeline.compileSpecialized
  split
  · rename_i hempty
    rw [hempty]
    rfl
  · rename_i hsource
    rw [Bool.eq_false_iff.mpr hsource]
    rfl

theorem isSome_request : (request a).2.isSome = !a.source.isEmpty :=
  isSome_compileSpecialized _ _ _

variable {s a} in
/-- A shader that is found is returned, and nothing changes. -/
theorem call_of_found {shader : SpecializedShader}
    (hcache : s.jit.cache a.contextHash = some shader) : s.call a = (some shader, s.jit) := by
  rw [ShaderRequest.contextHash] at hcache
  rw [call, JITPipeline.getOptimizedShader, hcache]

variable {s a} in
/-- One that is not found is compiled and filed under its bare hash. -/
theorem call_of_none (hcache : s.jit.cache a.contextHash = none) :
    s.call a = s.jit.compileSpecialized a.shaderHash a.source := by
  rw [ShaderRequest.contextHash] at hcache
  rw [call, JITPipeline.getOptimizedShader, hcache]

/-- The memo table makes a value where the pipeline compiles. -/
theorem makes_memo : makes lookupKey s.memo (request a) = s.compiles a := by
  show ((Option.map _ (s.jit.cache a.contextHash)).isNone && _) = _
  rw [Option.isNone_map, isSome_request]
  rfl

/-- The memo table answers as the pipeline does. -/
theorem answer_memo : answer lookupKey s.memo (request a) = s.returns a := by
  show (Option.map _ (s.jit.cache a.contextHash)).or _ = Option.map _ _
  rw [compilation, compiles]
  cases hcache : s.jit.cache a.contextHash with
  | some shader =>
      rw [call_of_found hcache]
      rfl
  | none =>
      rw [call_of_none hcache, compileSpecialized_fst _ _ _ ⟨fun _ => none⟩, ← isSome_request]
      show Option.map _ (request a).2 = Option.map _ (request a).2
      cases (request a).2 with
      | none => rfl
      | some shader => rfl

/-- Only a call that compiles changes the cache. -/
theorem cache_call : (s.call a).2.cache =
    if s.compiles a then Function.update s.jit.cache a.shaderHash (s.call a).1
    else s.jit.cache := by
  rw [compiles]
  cases hcache : s.jit.cache a.contextHash with
  | some shader =>
      rw [call_of_found hcache]
      rfl
  | none =>
      rw [call_of_none hcache, compileSpecialized_snd]
      cases a.source.isEmpty <;> rfl

theorem toList_request : (request a).2.toList.map (fun _ => a.pair) =
    if a.source.isEmpty then [] else [a.pair] := by
  have hsome := isSome_request a
  cases hvalue : (request a).2 with
  | none =>
      rw [hvalue] at hsome
      rw [if_pos (by simpa using hsome)]
      rfl
  | some shader =>
      rw [hvalue] at hsome
      rw [if_neg (by simpa using hsome)]
      rfl

/-- **The cache is a memo table** with these keys. -/
theorem step_memo :
    MemoTable.step lookupKey storeKey s.memo (request a) = (s.step a).map memo := by
  refine congrArg some ?_
  unfold ask
  rw [makes_memo, answer_memo]
  show Memo.mk _ _ (s.withSource ++ (request a).2.toList.map fun _ => a.pair) _ = memo _
  rw [toList_request]
  unfold memo
  congr 1
  funext i
  dsimp only
  rw [cache_call]
  cases hcompiles : s.compiles a with
  | false => rfl
  | true =>
      rw [if_pos rfl, if_pos rfl, if_pos rfl]
      simp only [Function.update_apply]
      show (if i = a.shaderHash then _ else _) = _
      split
      · rw [returns, compilation, hcompiles]
        rfl
      · rfl

/-! ## Runs -/

/-- **Compiled shaders are found again** exactly as long as each call looks under the bare
hash of its own shader, and under that of no other. -/
theorem shaders_found_again_iff (calls : List ShaderRequest) :
    Along step FoundAgain start calls ↔ Along step KeysAgree start calls := by
  have hfound : ∀ (s : PipelineRun) (a : ShaderRequest),
      s.FoundAgain a ↔ MemoTable.FoundAgain lookupKey s.memo (request a) := by
    intro s a
    unfold MemoTable.FoundAgain
    rw [answer_memo, makes_memo]
    rfl
  have hagree : ∀ (s : PipelineRun) (a : ShaderRequest),
      s.KeysAgree a ↔ MemoTable.KeysAgree lookupKey storeKey s.memo (request a) :=
    fun _ _ => Iff.rfl
  simp only [funext₂ fun s a => propext (hfound s a), funext₂ fun s a => propext (hagree s a)]
  rw [along_map step memo request step_memo, along_map step memo request step_memo]
  exact foundAgain_iff_keysAgree lookupKey storeKey (calls.map request)

/-- A shader that has been compiled is not found without its source. -/
theorem compiled_not_found :
    ¬ Along step FoundAgain start [⟨.Oracle, 7, [1]⟩, ⟨.Oracle, 7, []⟩] := by
  intro h
  have hfound := (h [⟨.Oracle, 7, [1]⟩] _ [] rfl _ _ rfl rfl).1 _ (List.mem_singleton_self _)
  exact absurd hfound.1 nofun

end PipelineRun

end Synapse
