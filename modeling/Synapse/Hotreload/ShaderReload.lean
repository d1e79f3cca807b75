import Synapse.Foundations.ByteRecords
import Synapse.Foundations.Calls
import Synapse.Foundations.Runs

/-!
# `ShaderHotReload`

Concurrent calls of `compile_and_add` and of the function behind `recompile_async`.
A call compiles, copies the active cache with its shader added, loads the active
pointer and exchanges it for its copy if it is still the loaded one.

The exchange compares with a pointer that was loaded after the copy was made, so its
success does not say that the copy is current.  If every copy is current when it is
exchanged (`CopyIsCurrent`), no shader is lost.

### An exchange that compares too late

A compare-and-exchange protects an update if the expected pointer is the one that the copy was
made from.  Here it is loaded once more after the copying, so an exchange between copy and
load goes unnoticed and its shader is lost.  The cleanup thread frees retired caches, and an
address that has been freed may come back, so an address does not tell when a copy was made;
the model counts the exchanges before it (`turn`).

The condition is put on the exchanging step: the cache that it replaces is the one that its
copy was made from (`CopyIsCurrent`).  Under it, what is in the active cache is what was there
at the start and what the calls have added (`NothingLost`).
-/

namespace Synapse.Hotreload

open ByteRecords Runs Calls

/-- A shader with the number of the call that has produced it; none for the shaders
of the cache at the start. -/
structure ShaderVersion where
  hash : UInt64
  version : UInt32
  isaBinary : Bytes
  compiledAt : UInt64
  producer : Option ℕ
  deriving DecidableEq

/-- The map of a cache, and the address at which the cache lies. -/
structure ShaderCache where
  address : ℕ
  shaders : UInt64 → Option ShaderVersion

/-- `compile_and_add`, or `recompile_shader` behind `recompile_async`. -/
inductive ReloadKind where
  | compileAndAdd
  | recompileShader
  deriving DecidableEq

/-- The version of the new shader. -/
def ReloadKind.nextVersion (existing : Option ShaderVersion) : ReloadKind → UInt32
  | compileAndAdd => 0
  | recompileShader =>
      match existing with
      | some existing => existing.version + 1
      | none => 1

/-- How far a call has come.  `turn` is how many exchanges came before its copy. -/
inductive ReloadCall where
  | called (kind : ReloadKind) (hash : UInt64)
  | compiled (kind : ReloadKind) (hash : UInt64) (isa : Bytes)
  | copied (hash : UInt64) (newCache : ShaderCache) (turn : ℕ)
  | loaded (hash : UInt64) (newCache : ShaderCache) (turn : ℕ) (expected : ℕ)
  | returned (hash : UInt64) (result : Bool)

namespace ReloadCall

/-- The cache that a call holds for its exchange. -/
def newCache : ReloadCall → Option (UInt64 × ShaderCache × ℕ)
  | copied hash newCache turn => some (hash, newCache, turn)
  | loaded hash newCache turn _ => some (hash, newCache, turn)
  | _ => none

end ReloadCall

/-- The active cache, the replaced ones that are still to be deleted, the calls, and
how many exchanges have succeeded. -/
structure ShaderHotReload where
  activeCache : ShaderCache
  retired : List ℕ
  calls : List ReloadCall
  exchanges : ℕ

namespace ShaderHotReload

/-- A call begins or takes its next step, or the cleanup frees a cache. -/
inductive Action where
  | call (kind : ReloadKind) (hash : UInt64)
  | compile (i : ℕ) (isa : Bytes)
  | copy (i : ℕ) (address : ℕ) (now : UInt64)
  | loadExpected (i : ℕ)
  | exchange (i : ℕ)
  | cleanup (address : ℕ)

/-- Some calls have filled the cache and none is under way. -/
def start (initial : ShaderCache) : ShaderHotReload where
  activeCache := initial
  retired := []
  calls := []
  exchanges := 0

/-- The addresses at which caches lie. -/
def inUse (s : ShaderHotReload) : List ℕ :=
  s.activeCache.address :: s.retired ++
    s.calls.filterMap fun c => c.newCache.map fun held => held.2.1.address

/-- `compiler_(shader_hash)` answers. -/
def compile (s : ShaderHotReload) (i : ℕ) (isa : Bytes) : ReloadCall → Option ShaderHotReload
  | .called kind hash =>
      some { s with
        calls := s.calls.set i
          (if isa = [] then .returned hash false else .compiled kind hash isa) }
  | _ => none

/-- The active cache is copied to a free address and the shader is added. -/
def copy (s : ShaderHotReload) (i address : ℕ) (now : UInt64) :
    ReloadCall → Option ShaderHotReload
  | .compiled kind hash isa =>
      if address ∈ s.inUse then none
      else
        let ver : ShaderVersion := {
          hash := hash
          version := kind.nextVersion (s.activeCache.shaders hash)
          isaBinary := isa
          compiledAt := now
          producer := some i }
        some { s with
          calls := s.calls.set i (.copied hash
            ⟨address, Function.update s.activeCache.shaders hash (some ver)⟩ s.exchanges) }
  | _ => none

/-- The load of `swap_cache`. -/
def loadExpected (s : ShaderHotReload) (i : ℕ) : ReloadCall → Option ShaderHotReload
  | .copied hash newCache turn =>
      some { s with
        calls := s.calls.set i (.loaded hash newCache turn s.activeCache.address) }
  | _ => none

/-- The compare-exchange of `swap_cache`. -/
def exchange (s : ShaderHotReload) (i : ℕ) : ReloadCall → Option ShaderHotReload
  | .loaded hash newCache _ expected =>
      if s.activeCache.address = expected then
        some { s with
          activeCache := newCache
          retired := expected :: s.retired
          calls := s.calls.set i (.returned hash true)
          exchanges := s.exchanges + 1 }
      else some { s with calls := s.calls.set i (.returned hash false) }
  | _ => none

/-- One step. -/
def step (s : ShaderHotReload) : Action → Option ShaderHotReload
  | .call kind hash => some { s with calls := s.calls ++ [.called kind hash] }
  | .compile i isa => s.calls[i]?.bind (s.compile i isa)
  | .copy i address now => s.calls[i]?.bind (s.copy i address now)
  | .loadExpected i => s.calls[i]?.bind (s.loadExpected i)
  | .exchange i => s.calls[i]?.bind (s.exchange i)
  | .cleanup address =>
      if address ∈ s.retired then some { s with retired := s.retired.erase address } else none

/-- `lookup(hash)`; the count of uses is not kept. -/
def lookup (s : ShaderHotReload) (hash : UInt64) : Option ShaderVersion :=
  s.activeCache.shaders hash

/-! ## What is asked -/

/-- The call has returned true. -/
def Succeeded (s : ShaderHotReload) (hash : UInt64) (i : ℕ) : Prop :=
  s.calls[i]? = some (.returned hash true)

/-- A hash with a successful call has the shader of a successful call, and a hash that
had a shader at the start has one. -/
structure NothingLost (initial : ShaderCache) (s : ShaderHotReload) : Prop where
  succeeded : ∀ hash i, s.Succeeded hash i →
    ∃ ver j, s.lookup hash = some ver ∧ ver.producer = some j ∧ s.Succeeded hash j
  present : ∀ hash, (initial.shaders hash).isSome → (s.lookup hash).isSome

/-- A copy that is exchanged is one of the active cache: no other exchange has
succeeded since it was made. -/
def CopyIsCurrent (s : ShaderHotReload) : Action → Prop
  | .exchange i =>
      match s.calls[i]? with
      | some (.loaded _ _ turn expected) => s.activeCache.address = expected → turn = s.exchanges
      | _ => True
  | _ => True

/-! ## One step -/

variable {initial : ShaderCache} {s s' : ShaderHotReload}

/-- What a step can do: get a call on with the caches unchanged, or exchange. -/
inductive Stepped (s : ShaderHotReload) : Action → ShaderHotReload → Prop
  | call (kind hash) : Stepped s (.call kind hash)
      { s with calls := s.calls ++ [.called kind hash] }
  | compiled {i kind hash} (isa) (hcall : s.calls[i]? = some (.called kind hash)) :
      Stepped s (.compile i isa)
        { s with calls := s.calls.set i (.compiled kind hash isa) }
  | failed {i kind hash} (isa) (hcall : s.calls[i]? = some (.called kind hash)) :
      Stepped s (.compile i isa) { s with calls := s.calls.set i (.returned hash false) }
  | copied {i kind hash isa} (address now ver)
      (hcall : s.calls[i]? = some (.compiled kind hash isa)) (hproducer : ver.producer = some i) :
      Stepped s (.copy i address now)
        { s with
          calls := s.calls.set i (.copied hash
            ⟨address, Function.update s.activeCache.shaders hash (some ver)⟩ s.exchanges) }
  | loaded {i hash newCache turn} (hcall : s.calls[i]? = some (.copied hash newCache turn)) :
      Stepped s (.loadExpected i)
        { s with calls := s.calls.set i (.loaded hash newCache turn s.activeCache.address) }
  | exchanged {i hash newCache turn}
      (hcall : s.calls[i]? = some (.loaded hash newCache turn s.activeCache.address)) :
      Stepped s (.exchange i)
        { s with
          activeCache := newCache
          retired := s.activeCache.address :: s.retired
          calls := s.calls.set i (.returned hash true)
          exchanges := s.exchanges + 1 }
  | refused {i hash newCache turn expected}
      (hcall : s.calls[i]? = some (.loaded hash newCache turn expected)) :
      Stepped s (.exchange i) { s with calls := s.calls.set i (.returned hash false) }
  | cleanup (address) : Stepped s (.cleanup address) { s with retired := s.retired.erase address }

/-- The shapes that a step can have; each call is in one stage. -/
theorem stepped_of_step {a : Action} (h : s.step a = some s') : s.Stepped a s' := by
  cases a with
  | call kind hash =>
      obtain rfl := Option.some_injective _ h
      exact .call kind hash
  | compile i isa =>
      obtain ⟨c, hcall, hcompile⟩ := Option.bind_eq_some_iff.mp h
      cases c with
      | called kind hash =>
          obtain rfl := Option.some_injective _ hcompile
          split
          · exact .failed isa hcall
          · exact .compiled isa hcall
      | compiled _ _ _ | copied _ _ _ | loaded _ _ _ _ | returned _ _ => cases hcompile
  | copy i address now =>
      obtain ⟨c, hcall, hcopy⟩ := Option.bind_eq_some_iff.mp h
      cases c with
      | compiled kind hash isa =>
          rw [copy] at hcopy
          split at hcopy
          · cases hcopy
          · obtain rfl := Option.some_injective _ hcopy
            exact .copied address now _ hcall rfl
      | called _ _ | copied _ _ _ | loaded _ _ _ _ | returned _ _ => cases hcopy
  | loadExpected i =>
      obtain ⟨c, hcall, hload⟩ := Option.bind_eq_some_iff.mp h
      cases c with
      | copied hash newCache turn =>
          obtain rfl := Option.some_injective _ hload
          exact .loaded hcall
      | called _ _ | compiled _ _ _ | loaded _ _ _ _ | returned _ _ => cases hload
  | exchange i =>
      obtain ⟨c, hcall, hexchange⟩ := Option.bind_eq_some_iff.mp h
      cases c with
      | loaded hash newCache turn expected =>
          rw [exchange] at hexchange
          split at hexchange
          · rename_i heq
            subst heq
            obtain rfl := Option.some_injective _ hexchange
            exact .exchanged hcall
          · obtain rfl := Option.some_injective _ hexchange
            exact .refused hcall
      | called _ _ | compiled _ _ _ | copied _ _ _ | returned _ _ => cases hexchange
  | cleanup address =>
      rw [step] at h
      split at h
      · obtain rfl := Option.some_injective _ h
        exact .cleanup address
      · cases h

/-- If no exchange has succeeded since, a held cache is the active one with a shader of
its call. -/
def HoldsCopy (s : ShaderHotReload) (i : ℕ) (c : ReloadCall) : Prop :=
  ∀ hash newCache turn, c.newCache = some (hash, newCache, turn) → turn ≤ s.exchanges ∧
    (turn = s.exchanges → ∃ ver : ShaderVersion, ver.producer = some i ∧
      newCache.shaders = Function.update s.activeCache.shaders hash (some ver))

/-- What every run keeps whose copies are current when they are exchanged. -/
structure Consistent (initial : ShaderCache) (s : ShaderHotReload) : Prop where
  nothing_lost : s.NothingLost initial
  holds_copy : ∀ i c, s.calls[i]? = some c → s.HoldsCopy i c

/-- It holds of the initial cache. -/
theorem consistent_start (initial : ShaderCache) : (start initial).Consistent initial where
  nothing_lost := ⟨nofun, fun _ h => h⟩
  holds_copy := nofun

/-- The call that gets on does not fall back from success. -/
theorem succeeded_set {i : ℕ} {old new : ReloadCall} (hcall : s.calls[i]? = some old)
    (hold : ∀ hash, old ≠ .returned hash true) (hash : UInt64) (j : ℕ) :
    (s.calls.set i new)[j]? = some (.returned hash true) ↔
      (j = i ∧ new = .returned hash true) ∨ s.Succeeded hash j := by
  obtain ⟨hi, hget⟩ := List.getElem?_eq_some_iff.mp hcall
  rcases eq_or_ne i j with rfl | hne
  · rw [List.getElem?_set_self hi, Option.some.injEq]
    constructor
    · exact fun h => Or.inl ⟨rfl, h⟩
    · rintro (⟨-, h⟩ | h)
      · exact h
      · exact absurd (Option.some_injective _ (hcall.symm.trans h)) (hold hash)
  · rw [List.getElem?_set_ne hne]
    constructor
    · exact Or.inr
    · rintro (⟨h, -⟩ | h)
      · exact absurd h.symm hne
      · exact h

/-- A call gets on, not to success, and the caches stay. -/
theorem Consistent.moved (h : s.Consistent initial) {i : ℕ} {old new : ReloadCall}
    (hcall : s.calls[i]? = some old) (hold : ∀ hash, old ≠ .returned hash true)
    (hnew : ∀ hash, new ≠ .returned hash true) (hcopy : s.HoldsCopy i new) :
    Consistent initial { s with calls := s.calls.set i new } := by
  have hsucceeded : ∀ hash j, Succeeded { s with calls := s.calls.set i new } hash j ↔
      s.Succeeded hash j := fun hash j =>
    (succeeded_set hcall hold hash j).trans (or_iff_right fun heq => hnew hash heq.2)
  refine ⟨⟨fun hash j hj => ?_, h.nothing_lost.present⟩, fun j c hc => ?_⟩
  · obtain ⟨ver, k, hlookup, hproducer, hk⟩ :=
      h.nothing_lost.succeeded hash j ((hsucceeded hash j).mp hj)
    exact ⟨ver, k, hlookup, hproducer, (hsucceeded hash k).mpr hk⟩
  · obtain ⟨hi, -⟩ := List.getElem?_eq_some_iff.mp hcall
    rcases eq_or_ne i j with rfl | hne
    · rw [List.getElem?_set_self hi] at hc
      obtain rfl := Option.some_injective _ hc
      exact hcopy
    · rw [List.getElem?_set_ne hne] at hc
      exact h.holds_copy j c hc

/-- A call that begins changes nothing. -/
theorem Consistent.called (h : s.Consistent initial) (kind : ReloadKind) (hash : UInt64) :
    Consistent initial { s with calls := s.calls ++ [.called kind hash] } := by
  refine ⟨⟨fun hash' i hi => ?_, h.nothing_lost.present⟩, fun i c hc => ?_⟩
  · have hi' : s.Succeeded hash' i := (getElem?_joined hi).resolve_right nofun
    obtain ⟨ver, j, hlookup, hproducer, hj⟩ := h.nothing_lost.succeeded hash' i hi'
    have hlt : j < s.calls.length := (List.getElem?_eq_some_iff.mp hj).1
    exact ⟨ver, j, hlookup, hproducer, (List.getElem?_append_left hlt).trans hj⟩
  · rcases getElem?_joined hc with hc | ⟨-, rfl⟩
    · exact h.holds_copy i c hc
    · exact nofun

/-- A current copy replaces the active cache. -/
theorem Consistent.exchanged (h : s.Consistent initial) {i : ℕ} {hash : UInt64}
    {newCache : ShaderCache} {turn expected : ℕ} (retired : List ℕ)
    (hcall : s.calls[i]? = some (.loaded hash newCache turn expected))
    (hcurrent : turn = s.exchanges) :
    Consistent initial
      { activeCache := newCache
        retired := retired
        calls := s.calls.set i (.returned hash true)
        exchanges := s.exchanges + 1 } := by
  obtain ⟨ver, hproducer, hshaders⟩ :=
    (h.holds_copy i _ hcall hash newCache turn rfl).2 hcurrent
  have hsucceeded : ∀ hash' j, (s.calls.set i (.returned hash true))[j]? =
      some (.returned hash' true) ↔
        (j = i ∧ ReloadCall.returned hash true = .returned hash' true) ∨ s.Succeeded hash' j :=
    succeeded_set hcall nofun
  refine ⟨⟨fun hash' j hj => ?_, fun hash' hhash' => ?_⟩, fun j c hc => ?_⟩
  · rcases eq_or_ne hash' hash with rfl | hne
    · refine ⟨ver, i, ?_, hproducer, (hsucceeded hash' i).mpr (Or.inl ⟨rfl, rfl⟩)⟩
      exact (congrFun hshaders hash').trans (Function.update_self _ _ _)
    · have hj' : s.Succeeded hash' j := by
        refine ((hsucceeded hash' j).mp hj).resolve_left ?_
        rintro ⟨-, ⟨⟩⟩
        exact hne rfl
      obtain ⟨ver', k, hlookup, hproducer', hk⟩ := h.nothing_lost.succeeded hash' j hj'
      refine ⟨ver', k, ?_, hproducer', (hsucceeded hash' k).mpr (Or.inr hk)⟩
      exact ((congrFun hshaders hash').trans (Function.update_of_ne hne _ _)).trans hlookup
  · change (newCache.shaders hash').isSome
    rw [hshaders]
    rcases eq_or_ne hash' hash with rfl | hne
    · rw [Function.update_self]
      rfl
    · rw [Function.update_of_ne hne]
      exact h.nothing_lost.present hash' hhash'
  · rintro hash' newCache' turn' hheld
    obtain ⟨hi, -⟩ := List.getElem?_eq_some_iff.mp hcall
    have hne : i ≠ j := by
      rintro rfl
      rw [List.getElem?_set_self hi] at hc
      obtain rfl := Option.some_injective _ hc
      cases hheld
    rw [List.getElem?_set_ne hne] at hc
    have hle := (h.holds_copy j c hc hash' newCache' turn' hheld).1
    exact ⟨hle.trans (Nat.le_succ _), fun heq => absurd (heq ▸ hle) (Nat.not_succ_le_self _)⟩

/-- The step lemma, one case for each stage. -/
theorem consistent_step {a : Action} (h : s.Consistent initial) (hcurrent : s.CopyIsCurrent a)
    (hstep : s.step a = some s') : s'.Consistent initial := by
  cases stepped_of_step hstep with
  | call kind hash => exact h.called kind hash
  | compiled isa hcall => exact h.moved hcall nofun nofun nofun
  | failed isa hcall => exact h.moved hcall nofun nofun nofun
  | copied address now ver hcall hproducer =>
      refine h.moved hcall nofun nofun ?_
      rintro _ _ _ ⟨⟩
      exact ⟨le_rfl, fun _ => ⟨ver, hproducer, rfl⟩⟩
  | @loaded i hash newCache turn hcall =>
      refine h.moved hcall nofun nofun ?_
      rintro _ _ _ ⟨⟩
      exact h.holds_copy i _ hcall hash newCache turn rfl
  | exchanged hcall =>
      simp only [CopyIsCurrent, hcall] at hcurrent
      exact h.exchanged _ hcall (hcurrent trivial)
  | refused hcall => exact h.moved hcall nofun nofun nofun
  | cleanup address => exact ⟨⟨h.nothing_lost.succeeded, h.nothing_lost.present⟩, h.holds_copy⟩

/-! ## Whole runs -/

/-- **No shader is lost** if every copy is current when it is exchanged. -/
theorem nothing_lost_of_copies_current {actions : List Action}
    (h : exec step (start initial) actions = some s)
    (hcurrent : Along step CopyIsCurrent (start initial) actions) : s.NothingLost initial := by
  have hconsistent : s.Consistent initial :=
    invariant_of_along step (fun _ _ _ hs ha hP => consistent_step hs hP ha)
      (consistent_start initial) hcurrent h
  exact hconsistent.nothing_lost

/-- Two calls on a cache with one shader.  The second has compiled before the first
exchanges, and copies after: both shaders are there, and so is the old one. -/
theorem nothing_lost_overlapping :
    let old : ShaderVersion :=
      { hash := 9, version := 4, isaBinary := [6], compiledAt := 0, producer := none }
    let initial : ShaderCache := ⟨0, Function.update (fun _ => none) 9 (some old)⟩
    ∃ s, exec step (start initial) [.call .compileAndAdd 1, .call .recompileShader 9,
      .compile 0 [7], .compile 1 [8], .copy 0 1 0, .loadExpected 0, .exchange 0, .copy 1 2 0,
      .loadExpected 1, .exchange 1] = some s ∧
      s.Succeeded 1 0 ∧ s.Succeeded 9 1 ∧
      (s.lookup 1).map ShaderVersion.isaBinary = some [7] ∧
      (s.lookup 9).map ShaderVersion.isaBinary = some [8] ∧
      (s.lookup 9).map ShaderVersion.version = some 5 ∧ s.NothingLost initial := by
  intro old initial
  obtain ⟨s, hrun, hfirst, hsecond, hnew, hold, hversion⟩ : ∃ s, exec step (start initial)
      [.call .compileAndAdd 1, .call .recompileShader 9, .compile 0 [7], .compile 1 [8],
        .copy 0 1 0, .loadExpected 0, .exchange 0, .copy 1 2 0, .loadExpected 1,
        .exchange 1] = some s ∧
      s.Succeeded 1 0 ∧ s.Succeeded 9 1 ∧
      (s.lookup 1).map ShaderVersion.isaBinary = some [7] ∧
      (s.lookup 9).map ShaderVersion.isaBinary = some [8] ∧
      (s.lookup 9).map ShaderVersion.version = some 5 :=
    ⟨_, rfl, rfl, rfl, rfl, rfl, rfl⟩
  refine ⟨s, hrun, hfirst, hsecond, hnew, hold, hversion,
    nothing_lost_of_copies_current hrun ?_⟩
  exact along_of_step step rfl trivial <| along_of_step step rfl trivial <|
    along_of_step step rfl trivial <| along_of_step step rfl trivial <|
    along_of_step step rfl trivial <| along_of_step step rfl trivial <|
    along_of_step step rfl (fun _ => rfl) <| along_of_step step rfl trivial <|
    along_of_step step rfl trivial <| along_of_step step rfl (fun _ => rfl) <| along_nil step _ _

/-- The first call copies the cache before the second exchanges it, and loads the
pointer after. -/
theorem stale_copy_loses_shader :
    ∃ s, exec step (start ⟨0, fun _ => none⟩) [.call .compileAndAdd 1, .call .compileAndAdd 2,
      .compile 0 [7], .compile 1 [8], .copy 0 1 0, .copy 1 2 0, .loadExpected 1, .exchange 1,
      .loadExpected 0, .exchange 0] = some s ∧
      s.Succeeded 2 1 ∧ s.lookup 2 = none ∧ ¬ s.NothingLost ⟨0, fun _ => none⟩ := by
  obtain ⟨s, hrun, hsucceeded, hlookup⟩ : ∃ s, exec step (start ⟨0, fun _ => none⟩)
      [.call .compileAndAdd 1, .call .compileAndAdd 2, .compile 0 [7], .compile 1 [8],
        .copy 0 1 0, .copy 1 2 0, .loadExpected 1, .exchange 1, .loadExpected 0, .exchange 0] =
      some s ∧ s.Succeeded 2 1 ∧ s.lookup 2 = none :=
    ⟨_, rfl, rfl, rfl⟩
  refine ⟨s, hrun, hsucceeded, hlookup, fun h => ?_⟩
  obtain ⟨ver, j, hver, -⟩ := h.succeeded 2 1 hsucceeded
  exact Option.some_ne_none ver (hver.symm.trans hlookup)

end ShaderHotReload

end Synapse.Hotreload
