import Synapse.Hotreload.ShaderReload

/-!
# Versions of shaders

The calls of `ShaderHotReload` one after the other, and the versions that `lookup`
shows.  A call alone takes the steps of `ShaderReload` without any other in between, so
its exchange succeeds (`serial_eq`).

`recompile_shader` counts on from the version it finds.  `compile_and_add` sets no
version, whatever there is, so a shader that is added again starts over at 0
(`versions_grow_iff`).
-/

namespace Synapse.Hotreload.ShaderHotReload

open ByteRecords Runs Calls

/-- A call with what the compiler answers to it, where its copy of the cache lies, and
the time; or the deletion of a replaced cache. -/
inductive SerialAction where
  | reload (kind : ReloadKind) (hash : UInt64) (isa : Bytes) (address : ℕ) (now : UInt64)
  | cleanup (address : ℕ)

/-- The steps of a call from its start to its return. -/
def SerialAction.actions (i : ℕ) : SerialAction → List Action
  | .reload kind hash isa address now =>
      .call kind hash :: .compile i isa ::
        if isa = [] then [] else [.copy i address now, .loadExpected i, .exchange i]
  | .cleanup address => [.cleanup address]

/-- A call by itself, from its first step to its last. -/
def serialStep (s : ShaderHotReload) (a : SerialAction) : Option ShaderHotReload :=
  exec step s (a.actions s.calls.length)

/-- The version `lookup(hash)` shows. -/
def versionOf (s : ShaderHotReload) (hash : UInt64) : Option UInt32 :=
  (s.lookup hash).map ShaderVersion.version

/-- The action is a call for the hash that compiles. -/
def SerialAction.compiles (hash : UInt64) : SerialAction → Prop
  | .reload _ hash' isa _ _ => hash' = hash ∧ isa ≠ []
  | .cleanup _ => False

/-- Every version grows if its hash is compiled again, and else stays. -/
def VersionsGrow (s : ShaderHotReload) (a : SerialAction) : Prop :=
  ∀ s', s.serialStep a = some s' → ∀ hash,
    (a.compiles hash → ∀ v, s.versionOf hash = some v →
      ∃ v', s'.versionOf hash = some v' ∧ v < v') ∧
    (¬ a.compiles hash → s'.versionOf hash = s.versionOf hash)

/-- A shader that has a version is recompiled, and its version is not the last. -/
def CountsOn (s : ShaderHotReload) : SerialAction → Prop
  | .reload kind hash isa _ _ => isa ≠ [] → ∀ v, s.versionOf hash = some v →
      kind = .recompileShader ∧ v.toNat + 1 < 2 ^ 32
  | .cleanup _ => True

/-! ## One call -/

variable {s s' : ShaderHotReload}

/-- **A call alone.**  It returns whether the compiler has answered, and then the active
cache has its shader. -/
theorem serial_eq (s : ShaderHotReload) (kind : ReloadKind) (hash : UInt64) (isa : Bytes)
    (address : ℕ) (now : UInt64) :
    s.serialStep (.reload kind hash isa address now) =
      if isa = [] then some { s with calls := s.calls ++ [.returned hash false] }
      else if address ∈ s.inUse then none
      else some {
        activeCache := ⟨address, Function.update s.activeCache.shaders hash (some {
          hash := hash
          version := kind.nextVersion (s.activeCache.shaders hash)
          isaBinary := isa
          compiledAt := now
          producer := some s.calls.length })⟩
        retired := s.activeCache.address :: s.retired
        calls := s.calls ++ [.returned hash true]
        exchanges := s.exchanges + 1 } := by
  rw [serialStep, SerialAction.actions]
  by_cases hisa : isa = []
  · rw [if_pos hisa, if_pos hisa]
    simp only [exec, step, Option.bind_some, List.getElem?_concat_length, compile, if_pos hisa,
      set_joined]
  · rw [if_neg hisa, if_neg hisa]
    have hinUse : inUse { s with calls := s.calls ++ [.compiled kind hash isa] } = s.inUse := by
      simp [inUse, ReloadCall.newCache]
    simp only [exec, step, Option.bind_some, List.getElem?_concat_length, compile, if_neg hisa,
      set_joined, copy, hinUse]
    by_cases haddress : address ∈ s.inUse
    · rw [if_pos haddress, if_pos haddress]
      rfl
    · rw [if_neg haddress, if_neg haddress]
      simp only [Option.bind_some, List.getElem?_concat_length, loadExpected, set_joined, exchange,
        if_true]

/-- What an action does to the shaders. -/
theorem lookup_serialStep {a : SerialAction} (h : s.serialStep a = some s') (hash : UInt64) :
    (¬ a.compiles hash → s'.lookup hash = s.lookup hash) ∧
      ∀ kind isa address now, a = .reload kind hash isa address now → isa ≠ [] →
        s'.versionOf hash = some (kind.nextVersion (s.lookup hash)) := by
  cases a with
  | cleanup address =>
      refine ⟨fun _ => ?_, nofun⟩
      obtain ⟨s₁, hstep, hs₁⟩ := Option.bind_eq_some_iff.mp h
      obtain rfl := Option.some_injective _ hs₁
      cases stepped_of_step hstep with
      | cleanup => rfl
  | reload kind hash' isa address now =>
      rw [serial_eq] at h
      split_ifs at h with hisa haddress
      · obtain rfl := Option.some_injective _ h
        refine ⟨fun _ => rfl, ?_⟩
        rintro _ _ _ _ ⟨⟩ hnonempty
        exact absurd hisa hnonempty
      · obtain rfl := Option.some_injective _ h
        refine ⟨fun hnot => ?_, ?_⟩
        · have hne : hash ≠ hash' := fun heq => hnot ⟨heq.symm, hisa⟩
          exact Function.update_of_ne hne _ _
        · rintro _ _ _ _ ⟨⟩ -
          exact congrArg (Option.map ShaderVersion.version)
            (Function.update_self hash _ s.activeCache.shaders)

/-- A version goes up unless it wraps. -/
theorem lt_add_one_iff (v : UInt32) : v < v + 1 ↔ v.toNat + 1 < 2 ^ 32 := by
  have hv := v.toNat_lt
  have hone : (1 : UInt32).toNat = 1 := rfl
  rw [UInt32.lt_iff_toNat_lt, UInt32.toNat_add, hone]
  rcases Nat.lt_or_ge (v.toNat + 1) (2 ^ 32) with hlt | hge
  · rw [Nat.mod_eq_of_lt hlt]
    exact iff_of_true (Nat.lt_succ_self _) hlt
  · have hlast : v.toNat + 1 = 2 ^ 32 := le_antisymm hv hge
    rw [hlast, Nat.mod_self]
    exact iff_of_false (Nat.not_lt_zero _) (lt_irrefl _)

/-- The new version is above the old one exactly for a recompilation with room. -/
theorem lt_nextVersion_iff (kind : ReloadKind) (ver : ShaderVersion) :
    ver.version < kind.nextVersion (some ver) ↔
      kind = .recompileShader ∧ ver.version.toNat + 1 < 2 ^ 32 := by
  cases kind with
  | compileAndAdd => exact iff_of_false (UInt32.not_lt.mpr UInt32.zero_le) nofun
  | recompileShader =>
      rw [and_iff_right rfl]
      exact lt_add_one_iff _

/-- The step lemma: which calls count on. -/
theorem versionsGrow_iff {a : SerialAction} (h : s.serialStep a = some s') :
    s.VersionsGrow a ↔ s.CountsOn a := by
  have hgrow : s.VersionsGrow a ↔ ∀ hash, a.compiles hash → ∀ v, s.versionOf hash = some v →
      ∃ v', s'.versionOf hash = some v' ∧ v < v' := by
    refine (forall_step_iff serialStep h _).trans (forall_congr' fun hash => ?_)
    exact and_iff_left fun hnot => congrArg _ ((lookup_serialStep h hash).1 hnot)
  rw [hgrow]
  cases a with
  | cleanup address => exact iff_of_true (fun _ hfalse => hfalse.elim) trivial
  | reload kind hash isa address now =>
      have hnew := (lookup_serialStep h hash).2 kind isa address now rfl
      have hcompared : ∀ v, isa ≠ [] → s.versionOf hash = some v →
          ((∃ v', s'.versionOf hash = some v' ∧ v < v') ↔
            kind = .recompileShader ∧ v.toNat + 1 < 2 ^ 32) := by
        intro v hisa hv
        obtain ⟨ver, hver, rfl⟩ := Option.map_eq_some_iff.mp hv
        rw [hnew hisa, hver, ← lt_nextVersion_iff]
        simp only [Option.some.injEq, exists_eq_left']
      constructor
      · intro hall hisa v hv
        exact (hcompared v hisa hv).mp (hall hash ⟨rfl, hisa⟩ v hv)
      · rintro hcounts _ ⟨rfl, hisa⟩ v hv
        exact (hcompared v hisa hv).mpr (hcounts hisa v hv)

/-! ## Runs -/

/-- **Versions only grow** in a run exactly if every shader it compiles again is
recompiled, at a version that is not the last. -/
theorem versions_grow_iff (address : ℕ) (actions : List SerialAction) :
    Along serialStep VersionsGrow (start ⟨address, fun _ => none⟩) actions ↔
      Along serialStep CountsOn (start ⟨address, fun _ => none⟩) actions :=
  @along_iff_of_invariant _ _ serialStep VersionsGrow CountsOn (fun _ => True)
    (fun _ _ _ _ hstep => versionsGrow_iff hstep) (fun _ _ _ _ _ _ => trivial) _ trivial actions

/-- A shader that is added after it was recompiled is at version 0 again. -/
theorem added_again_starts_over :
    ∃ s, exec serialStep (start ⟨0, fun _ => none⟩) [.reload .compileAndAdd 7 [1] 1 0,
        .reload .recompileShader 7 [2] 2 0, .reload .compileAndAdd 7 [3] 3 0] = some s ∧
      s.versionOf 7 = some 0 ∧
      ¬ Along serialStep VersionsGrow (start ⟨0, fun _ => none⟩)
        [.reload .compileAndAdd 7 [1] 1 0, .reload .recompileShader 7 [2] 2 0,
          .reload .compileAndAdd 7 [3] 3 0] := by
  obtain ⟨s₂, s₃, hfront, hlast, hversion⟩ : ∃ s₂ s₃,
      exec serialStep (start ⟨0, fun _ => none⟩)
        [.reload .compileAndAdd 7 [1] 1 0, .reload .recompileShader 7 [2] 2 0] = some s₂ ∧
      s₂.serialStep (.reload .compileAndAdd 7 [3] 3 0) = some s₃ ∧ s₂.versionOf 7 = some 1 :=
    ⟨_, _, rfl, rfl, rfl⟩
  refine ⟨_, rfl, rfl, fun h => ?_⟩
  have hgrow := h _ _ [] rfl s₂ s₃ hfront hlast
  exact absurd ((versionsGrow_iff hlast).mp hgrow (List.cons_ne_nil _ _) 1 hversion).1 nofun

end Synapse.Hotreload.ShaderHotReload
