import Synapse.Foundations.Calls
import Synapse.Foundations.Runs

/-!
# `AtomicModelSwap`

Concurrent calls of `load_model_async`, and readers that call `version()` and
`current()`.  A load runs its loader, forms its entry with the version after the
current one, and publishes it in a critical section.  `current()` loads the version
and reads its slot later; there are four slots.

The entries that have been current, the empty one of the constructor first, number
themselves as long as every load still finds the version that it has counted on
(`InTurn`); the slots hold the last four of them (`Published`).

### What one step is

A load forms its entry outside the lock and publishes it inside, so the version that it has
counted on may be gone by then; the publishing is one step here.  `Hotreload.ModelStores`
takes its stores apart, for readers hold no lock.  The versions that `version()` has returned
and the entries that `current()` has returned are kept in the state, so that the statements
about them are statements about a state.
-/

namespace Synapse.Hotreload

open Runs Calls

variable {Model : Type*}

/-- `ModelVersion` -/
structure ModelVersion (Model : Type*) where
  version : UInt64
  model : Option Model
  loadedAt : UInt64

/-- The entry of the constructor. -/
def ModelVersion.empty : ModelVersion Model where
  version := 0
  model := none
  loadedAt := 0

/-- How far a call of `load_model_async` has come. -/
inductive ModelLoad (Model : Type*) where
  | called
  | loaded (model : Model)
  | formed (newVer : ModelVersion Model)
  | published (newVer : ModelVersion Model)
  | failed

namespace ModelLoad

/-- The entry of a call that has returned true. -/
def success : ModelLoad Model → Option (ModelVersion Model)
  | published newVer => some newVer
  | _ => none

end ModelLoad

/-- How far a call of `current()` has come. -/
inductive ModelReader (Model : Type*) where
  | called
  | loaded (ver : UInt64)
  | returned (ver : UInt64) (model : Option Model)

/-- The fields, the calls, and the versions that readers have seen, latest last. -/
structure AtomicModelSwap (Model : Type*) where
  slots : ℕ → ModelVersion Model
  currentVersion : UInt64
  previousVersion : UInt64
  loads : List (ModelLoad Model)
  readers : List (ModelReader Model)
  seen : List UInt64

namespace AtomicModelSwap

/-- `kMaxVersions`. -/
def kMaxVersions : ℕ := 4

/-- A step of a load, a call of `version()`, or a step of a call of `current()`. -/
inductive Action (Model : Type*) where
  | load
  | runLoader (i : ℕ) (model : Option Model)
  | form (i : ℕ) (now : UInt64)
  | publish (i : ℕ)
  | version
  | current
  | loadVersion (i : ℕ)
  | readSlot (i : ℕ)

/-- The constructor. -/
def create : AtomicModelSwap Model where
  slots _ := .empty
  currentVersion := 0
  previousVersion := 0
  loads := []
  readers := []
  seen := []

/-- The loader answers; `validate_model` accepts every model that is there. -/
def runLoader (s : AtomicModelSwap Model) (i : ℕ) (model : Option Model) :
    ModelLoad Model → Option (AtomicModelSwap Model)
  | .called =>
      some { s with
        loads := s.loads.set i (match model with
          | some model => .loaded model
          | none => .failed) }
  | _ => none

/-- The new entry, with the version after the current one. -/
def form (s : AtomicModelSwap Model) (i : ℕ) (now : UInt64) :
    ModelLoad Model → Option (AtomicModelSwap Model)
  | .loaded model =>
      some { s with
        loads := s.loads.set i (.formed {
          version := s.currentVersion + 1
          model := some model
          loadedAt := now }) }
  | _ => none

/-- The critical section, with which a load returns. -/
def publish (s : AtomicModelSwap Model) (i : ℕ) :
    ModelLoad Model → Option (AtomicModelSwap Model)
  | .formed newVer =>
      some { s with
        previousVersion := s.currentVersion
        slots := Function.update s.slots (newVer.version.toNat % kMaxVersions) newVer
        currentVersion := newVer.version
        loads := s.loads.set i (.published newVer) }
  | _ => none

/-- The load of `current()`. -/
def loadVersion (s : AtomicModelSwap Model) (i : ℕ) :
    ModelReader Model → Option (AtomicModelSwap Model)
  | .called =>
      some { s with
        readers := s.readers.set i (.loaded s.currentVersion)
        seen := s.seen ++ [s.currentVersion] }
  | _ => none

/-- The read of `current()`. -/
def readSlot (s : AtomicModelSwap Model) (i : ℕ) :
    ModelReader Model → Option (AtomicModelSwap Model)
  | .loaded ver =>
      some { s with
        readers := s.readers.set i (.returned ver (s.slots (ver.toNat % kMaxVersions)).model) }
  | _ => none

/-- One step. -/
def step (s : AtomicModelSwap Model) : Action Model → Option (AtomicModelSwap Model)
  | .load => some { s with loads := s.loads ++ [.called] }
  | .runLoader i model => s.loads[i]?.bind (s.runLoader i model)
  | .form i now => s.loads[i]?.bind (s.form i now)
  | .publish i => s.loads[i]?.bind (s.publish i)
  | .version => some { s with seen := s.seen ++ [s.currentVersion] }
  | .current => some { s with readers := s.readers ++ [.called] }
  | .loadVersion i => s.readers[i]?.bind (s.loadVersion i)
  | .readSlot i => s.readers[i]?.bind (s.readSlot i)

/-! ## What is asked -/

/-- The entries of the loads that have returned true. -/
def successes (s : AtomicModelSwap Model) : List (ModelVersion Model) :=
  s.loads.filterMap ModelLoad.success

/-- Successful loads have versions of their own, as many as the current one says; what
readers see does not decrease; and a model that `current()` has returned is that of
the load which has published the version. -/
structure Coherent (s : AtomicModelSwap Model) : Prop where
  distinct : (s.successes.map ModelVersion.version).Nodup
  monotone : s.seen.Pairwise (· ≤ ·)
  counted : s.currentVersion.toNat = s.successes.length
  current : ∀ r ∈ s.readers, ∀ ver model, r = .returned ver model →
    (ver = 0 ∧ model = none) ∨ ∃ e ∈ s.successes, e.version = ver ∧ e.model = model

/-- A load publishes the version after the current one, and a reader reads the slot of
its version before four more are published. -/
def InTurn (s : AtomicModelSwap Model) : Action Model → Prop
  | .publish i =>
      match s.loads[i]? with
      | some (.formed newVer) => newVer.version.toNat = s.currentVersion.toNat + 1
      | _ => True
  | .readSlot i =>
      match s.readers[i]? with
      | some (.loaded ver) => s.currentVersion.toNat < ver.toNat + kMaxVersions
      | _ => True
  | _ => True

/-! ## The entries that have been current -/

/-- The entries number themselves, the last four are in their slots, and readers have
what was published. -/
structure Published (s : AtomicModelSwap Model) (entries : List (ModelVersion Model)) : Prop where
  length : entries.length = s.currentVersion.toNat + 1
  first : entries.head? = some .empty
  numbered : ∀ (k : ℕ) (e : ModelVersion Model), entries[k]? = some e → e.version.toNat = k
  slots : ∀ (k : ℕ) (e : ModelVersion Model), entries[k]? = some e →
    s.currentVersion.toNat < k + kMaxVersions → s.slots (k % kMaxVersions) = e
  successes : s.successes.Perm entries.tail
  loaded : ∀ r ∈ s.readers, ∀ ver, r = .loaded ver → ver ≤ s.currentVersion
  returned : ∀ r ∈ s.readers, ∀ ver model, r = .returned ver model →
    ∃ e, entries[ver.toNat]? = some e ∧ e.model = model
  seen_le : ∀ ver ∈ s.seen, ver ≤ s.currentVersion
  monotone : s.seen.Pairwise (· ≤ ·)

variable {s s' : AtomicModelSwap Model} {entries : List (ModelVersion Model)}

/-- The empty entry is in every slot at the start. -/
theorem published_create : (create : AtomicModelSwap Model).Published [.empty] where
  length := rfl
  first := rfl
  numbered k e he := by
    obtain ⟨hk, rfl⟩ := List.getElem?_eq_some_iff.mp he
    obtain rfl := Nat.lt_one_iff.mp hk
    rfl
  slots k e he _ := by
    obtain ⟨hk, rfl⟩ := List.getElem?_eq_some_iff.mp he
    obtain rfl := Nat.lt_one_iff.mp hk
    rfl
  successes := .nil
  loaded := nofun
  returned := nofun
  seen_le := nofun
  monotone := .nil

namespace Published

/-- A version up to the current one has had its entry. -/
theorem mem_of_le (h : s.Published entries) {ver : UInt64} (hver : ver ≤ s.currentVersion) :
    ∃ e, entries[ver.toNat]? = some e := by
  have hlt : ver.toNat < entries.length := by
    rw [h.length]
    exact Nat.lt_succ_of_le (UInt64.le_iff_toNat_le.mp hver)
  exact ⟨_, List.getElem?_eq_getElem hlt⟩

/-- A load gets on without publishing. -/
theorem moved (h : s.Published entries) {old : Option (ModelLoad Model)} {new : ModelLoad Model}
    {loads : List (ModelLoad Model)} (hmoved : Moved s.loads old new loads)
    (hsame : new.success = old.bind ModelLoad.success) :
    Published { s with loads := loads } entries where
  length := h.length
  first := h.first
  numbered := h.numbered
  slots := h.slots
  successes := (hmoved.filterMap_same hsame).trans h.successes
  loaded := h.loaded
  returned := h.returned
  seen_le := h.seen_le
  monotone := h.monotone

/-- A load publishes the next version. -/
theorem publish (h : s.Published entries) {i : ℕ} {newVer : ModelVersion Model}
    (hcall : s.loads[i]? = some (.formed newVer))
    (hturn : newVer.version.toNat = s.currentVersion.toNat + 1) (previousVersion : UInt64) :
    Published
      { s with
        previousVersion := previousVersion
        slots := Function.update s.slots (newVer.version.toNat % kMaxVersions) newVer
        currentVersion := newVer.version
        loads := s.loads.set i (.published newVer) } (entries ++ [newVer]) := by
  have hlength := h.length
  have hle : s.currentVersion ≤ newVer.version := by
    rw [UInt64.le_iff_toNat_le, hturn]
    exact Nat.le_succ _
  have hgained : ((s.loads.set i (.published newVer)).filterMap ModelLoad.success).Perm
      (newVer :: s.successes) := (moved_set hcall _).filterMap_gained rfl rfl
  obtain ⟨rest, rfl⟩ := List.head?_eq_some_iff.mp h.first
  refine ⟨?_, rfl, fun k e he => ?_, fun k e he hk => ?_, ?_, fun r hr ver heq => ?_,
    fun r hr ver model heq => ?_, fun ver hver => ?_, h.monotone⟩
  · rw [List.length_append, hlength, hturn]
    rfl
  · rcases getElem?_joined he with hold | ⟨rfl, rfl⟩
    · exact h.numbered k e hold
    · rw [hturn, hlength]
  · change newVer.version.toNat < k + 4 at hk
    rcases getElem?_joined he with hold | ⟨rfl, rfl⟩
    · -- only the entry four below the new one shares its slot, and it drops out
      have hlt := (List.getElem?_eq_some_iff.mp hold).1
      have hne : k % kMaxVersions ≠ newVer.version.toNat % kMaxVersions := by
        rw [kMaxVersions]
        omega
      refine (Function.update_of_ne hne _ _).trans (h.slots k e hold ?_)
      rw [kMaxVersions]
      omega
    · have heq : (ModelVersion.empty :: rest).length = e.version.toNat := by rw [hlength, hturn]
      rw [heq]
      exact Function.update_self _ _ _
  · exact (hgained.trans (h.successes.cons newVer)).trans
      (List.perm_append_singleton newVer rest).symm
  · exact UInt64.le_trans (h.loaded r hr ver heq) hle
  · obtain ⟨e, he, hmodel⟩ := h.returned r hr ver model heq
    exact ⟨e, (List.getElem?_append_left (List.getElem?_eq_some_iff.mp he).1).trans he, hmodel⟩
  · exact UInt64.le_trans (h.seen_le ver hver) hle

/-- A reader sees the current version. -/
theorem see (h : s.Published entries) {readers : List (ModelReader Model)}
    (hloaded : ∀ r ∈ readers, ∀ ver, r = .loaded ver → ver ≤ s.currentVersion)
    (hreturned : ∀ r ∈ readers, ∀ ver model, r = .returned ver model →
      ∃ e, entries[ver.toNat]? = some e ∧ e.model = model) :
    Published { s with readers := readers, seen := s.seen ++ [s.currentVersion] } entries where
  length := h.length
  first := h.first
  numbered := h.numbered
  slots := h.slots
  successes := h.successes
  loaded := hloaded
  returned := hreturned
  seen_le ver hver := by
    rcases List.mem_append.mp hver with hold | hnew
    · exact h.seen_le ver hold
    · rw [List.mem_singleton.mp hnew]
      exact UInt64.le_refl _
  monotone := by
    refine List.pairwise_append.mpr ⟨h.monotone, List.pairwise_singleton _ _, ?_⟩
    rintro ver hver _ hnew
    rw [List.mem_singleton.mp hnew]
    exact h.seen_le ver hver

/-- A reader reads the slot of its version in time. -/
theorem read (h : s.Published entries) {i : ℕ} {ver : UInt64}
    (hcall : s.readers[i]? = some (.loaded ver))
    (hturn : s.currentVersion.toNat < ver.toNat + kMaxVersions) :
    Published { s with
      readers := s.readers.set i
        (.returned ver (s.slots (ver.toNat % kMaxVersions)).model) } entries := by
  have hmoved := moved_set hcall (.returned ver (s.slots (ver.toNat % kMaxVersions)).model)
  obtain ⟨e, he⟩ := h.mem_of_le (h.loaded _ (List.mem_of_getElem? hcall) ver rfl)
  refine ⟨h.length, h.first, h.numbered, h.slots, h.successes, hmoved.forall_mem h.loaded nofun,
    hmoved.forall_mem h.returned ?_, h.seen_le, h.monotone⟩
  rintro _ _ ⟨⟩
  exact ⟨e, he, by rw [h.slots _ e he hturn]⟩

/-- The step lemma: a load adds the next entry. -/
theorem step {a : Action Model} (h : s.Published entries) (hturn : s.InTurn a)
    (hstep : s.step a = some s') : ∃ entries', s'.Published entries' := by
  cases a with
  | load =>
      obtain rfl := Option.some_injective _ hstep
      exact ⟨entries, h.moved (moved_append s.loads .called) rfl⟩
  | runLoader i model =>
      obtain ⟨c, hcall, hrun⟩ := Option.bind_eq_some_iff.mp hstep
      cases c with
      | called =>
          obtain rfl := Option.some_injective _ hrun
          refine ⟨entries, h.moved (moved_set hcall _) ?_⟩
          cases model <;> rfl
      | loaded _ | formed _ | published _ | failed => cases hrun
  | form i now =>
      obtain ⟨c, hcall, hform⟩ := Option.bind_eq_some_iff.mp hstep
      cases c with
      | loaded model =>
          obtain rfl := Option.some_injective _ hform
          exact ⟨entries, h.moved (moved_set hcall _) rfl⟩
      | called | formed _ | published _ | failed => cases hform
  | publish i =>
      obtain ⟨c, hcall, hpublish⟩ := Option.bind_eq_some_iff.mp hstep
      cases c with
      | formed newVer =>
          obtain rfl := Option.some_injective _ hpublish
          simp only [InTurn, hcall] at hturn
          exact ⟨entries ++ [newVer], h.publish hcall hturn s.currentVersion⟩
      | called | loaded _ | published _ | failed => cases hpublish
  | version =>
      obtain rfl := Option.some_injective _ hstep
      exact ⟨entries, h.see h.loaded h.returned⟩
  | current =>
      obtain rfl := Option.some_injective _ hstep
      have hmoved := moved_append s.readers .called
      exact ⟨entries, h.length, h.first, h.numbered, h.slots, h.successes,
        hmoved.forall_mem h.loaded nofun, hmoved.forall_mem h.returned nofun, h.seen_le,
        h.monotone⟩
  | loadVersion i =>
      obtain ⟨c, hcall, hload⟩ := Option.bind_eq_some_iff.mp hstep
      cases c with
      | called =>
          obtain rfl := Option.some_injective _ hload
          have hmoved := moved_set hcall (.loaded s.currentVersion)
          refine ⟨entries, h.see (hmoved.forall_mem h.loaded ?_)
            (hmoved.forall_mem h.returned nofun)⟩
          rintro _ ⟨⟩
          exact UInt64.le_refl _
      | loaded _ | returned _ _ => cases hload
  | readSlot i =>
      obtain ⟨c, hcall, hread⟩ := Option.bind_eq_some_iff.mp hstep
      cases c with
      | loaded ver =>
          obtain rfl := Option.some_injective _ hread
          simp only [InTurn, hcall] at hturn
          exact ⟨entries, h.read hcall hturn⟩
      | called | returned _ _ => cases hread

/-- The entries have their versions in order. -/
theorem versions_nodup (h : s.Published entries) : (entries.map ModelVersion.version).Nodup := by
  have hrange : (entries.map ModelVersion.version).map UInt64.toNat =
      List.range entries.length := by
    refine List.ext_getElem (by simp) fun k hk _ => ?_
    rw [List.getElem_range, List.getElem_map, List.getElem_map]
    exact h.numbered k _ (List.getElem?_eq_getElem (by simpa using hk))
  refine List.Nodup.of_map UInt64.toNat ?_
  rw [hrange]
  exact List.nodup_range

/-- What the readers have got is what was published under their version. -/
theorem coherent (h : s.Published entries) : s.Coherent where
  distinct := by
    refine ((h.successes.map ModelVersion.version).nodup_iff).mpr ?_
    exact h.versions_nodup.sublist ((List.tail_sublist entries).map ModelVersion.version)
  monotone := h.monotone
  counted := by
    rw [h.successes.length_eq, List.length_tail, h.length, Nat.add_sub_cancel]
  current r hr ver model heq := by
    obtain ⟨e, he, hmodel⟩ := h.returned r hr ver model heq
    have hversion : e.version = ver := UInt64.toNat_inj.mp (h.numbered _ e he)
    obtain ⟨rest, rfl⟩ := List.head?_eq_some_iff.mp h.first
    cases hk : ver.toNat with
    | zero =>
        rw [hk] at he
        obtain rfl := Option.some_injective _ he
        exact Or.inl ⟨hversion.symm, hmodel.symm⟩
    | succ k =>
        rw [hk] at he
        have hmem : e ∈ rest := List.mem_of_getElem? he
        exact Or.inr ⟨e, h.successes.mem_iff.mpr hmem, hversion, hmodel⟩

end Published

/-! ## Whole runs -/

/-- **Model reloads** get distinct and increasing versions, and readers the models of
their versions, if loads and readers come in turn. -/
theorem coherent_of_inTurn {actions : List (Action Model)}
    (h : exec step create actions = some s) (hturn : Along step InTurn create actions) :
    s.Coherent := by
  have hstep : ∀ (s : AtomicModelSwap Model) (a : Action Model) (s' : AtomicModelSwap Model),
      (∃ entries, s.Published entries) → s.step a = some s' → s.InTurn a →
      ∃ entries, s'.Published entries := fun _ _ _ ⟨_, hs⟩ ha hP => hs.step hP ha
  obtain ⟨entries, hentries⟩ : ∃ entries, s.Published entries :=
    invariant_of_along step hstep ⟨_, published_create⟩ hturn h
  exact hentries.coherent

/-- A reader overtakes the second of two loads and gets the model of the first. -/
theorem coherent_overtaking :
    ∃ s : AtomicModelSwap ℕ, exec step create [.load, .runLoader 0 (some 10), .form 0 1,
      .publish 0, .current, .loadVersion 0, .load, .runLoader 1 (some 20), .form 1 2, .publish 1,
      .readSlot 0] = some s ∧
      s.readers = [.returned 1 (some 10)] ∧ s.currentVersion = 2 ∧ s.Coherent := by
  obtain ⟨s, hrun, hreaders, hversion⟩ : ∃ s : AtomicModelSwap ℕ, exec step create [.load,
      .runLoader 0 (some 10), .form 0 1, .publish 0, .current, .loadVersion 0, .load,
      .runLoader 1 (some 20), .form 1 2, .publish 1, .readSlot 0] = some s ∧
      s.readers = [.returned 1 (some 10)] ∧ s.currentVersion = 2 :=
    ⟨_, rfl, rfl, rfl⟩
  refine ⟨s, hrun, hreaders, hversion, coherent_of_inTurn hrun ?_⟩
  exact along_of_step step rfl trivial <| along_of_step step rfl trivial <|
    along_of_step step rfl trivial <| along_of_step step rfl rfl <|
    along_of_step step rfl trivial <| along_of_step step rfl trivial <|
    along_of_step step rfl trivial <| along_of_step step rfl trivial <|
    along_of_step step rfl trivial <| along_of_step step rfl rfl <|
    along_of_step step rfl (show 2 < 1 + 4 by decide) <| along_nil step _ _

/-- Two loads form their entries before either publishes. -/
theorem loads_share_version :
    ∃ s : AtomicModelSwap ℕ, exec step create [.load, .load, .runLoader 0 (some 10),
      .runLoader 1 (some 20), .form 0 1, .form 1 1, .publish 0, .publish 1] = some s ∧
      s.successes.map ModelVersion.version = [1, 1] ∧ s.currentVersion = 1 ∧ ¬ s.Coherent := by
  obtain ⟨s, hrun, hversions, hversion⟩ : ∃ s : AtomicModelSwap ℕ, exec step create [.load, .load,
      .runLoader 0 (some 10), .runLoader 1 (some 20), .form 0 1, .form 1 1, .publish 0,
      .publish 1] = some s ∧
      s.successes.map ModelVersion.version = [1, 1] ∧ s.currentVersion = 1 :=
    ⟨_, rfl, rfl, rfl⟩
  refine ⟨s, hrun, hversions, hversion, fun h => ?_⟩
  have hnodup := h.distinct
  rw [hversions] at hnodup
  exact absurd hnodup (by decide)

end AtomicModelSwap

end Synapse.Hotreload
