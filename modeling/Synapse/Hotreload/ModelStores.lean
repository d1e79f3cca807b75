import Synapse.Hotreload.ModelSwap

/-!
# The three stores of a reload

`load_model_async` publishes under `load_mutex_`, but `decide_with_ab`, `current()` and
`record_inference` take no lock, so they can run between the stores that a reload makes there:
first `previous_version_`, then the slot, then `current_version_`.  `ModelStores` is
`AtomicModelSwap` with the critical section broken up at each of them.

The version after the current one is in its slot before it is current
(`ModelStores.placedVersion`).  What was in that slot, the version four before, is gone by then.
So a slot has to be read before the *slot* of the version four later is written
(`ModelStores.InTime`), and not only before that version is current.

### What is kept

`Sequential` is the invariant of reloads in turn: the entries that have been current number
themselves, the slots hold the last four of them, or the new one and the last three between the
second and the third store, and `previous_version_` is at most one behind.  A reader of a slot
in time gets what the load of its version has published (`Sequential.serves`).
-/

namespace Synapse.Hotreload

open Runs Calls

variable {Model : Type*}

/-- The entry that a load has made. -/
def ModelLoad.entry : ModelLoad Model → Option (ModelVersion Model)
  | formed newVer => some newVer
  | published newVer => some newVer
  | _ => none

/-- Who holds `load_mutex_`, and how far it has come. -/
inductive Critical (Model : Type*) where
  | free
  | recorded (i : ℕ) (newVer : ModelVersion Model)
  | placed (i : ℕ) (newVer : ModelVersion Model)

/-- The slot that the holder of the mutex is about to store to. -/
def Critical.slot : Critical Model → Option ℕ
  | recorded _ newVer => some (newVer.version.toNat % AtomicModelSwap.kMaxVersions)
  | _ => none

/-- The fields of the swap, the calls of `load_model_async`, and the mutex.  A call that holds
the mutex has formed its entry and has not returned. -/
structure ModelStores (Model : Type*) where
  slots : ℕ → ModelVersion Model
  currentVersion : UInt64
  previousVersion : UInt64
  loads : List (ModelLoad Model)
  critical : Critical Model

namespace ModelStores

open AtomicModelSwap (kMaxVersions)

/-- A load begins, its loader runs, it forms its entry, or one of the three stores is made. -/
inductive Action (Model : Type*) where
  | load
  | runLoader (i : ℕ) (model : Option Model)
  | form (i : ℕ) (now : UInt64)
  | recordPrevious (i : ℕ)
  | placeSlot
  | storeCurrent

/-- The constructor. -/
def create : ModelStores Model where
  slots _ := .empty
  currentVersion := 0
  previousVersion := 0
  loads := []
  critical := .free

/-- The loader answers; `validate_model` accepts every model that is there. -/
def runLoader (s : ModelStores Model) (i : ℕ) (model : Option Model) :
    ModelLoad Model → Option (ModelStores Model)
  | .called =>
      some { s with
        loads := s.loads.set i (match model with
          | some model => .loaded model
          | none => .failed) }
  | _ => none

/-- The new entry, with the version after the current one. -/
def form (s : ModelStores Model) (i : ℕ) (now : UInt64) :
    ModelLoad Model → Option (ModelStores Model)
  | .loaded model =>
      some { s with
        loads := s.loads.set i (.formed {
          version := s.currentVersion + 1
          model := some model
          loadedAt := now }) }
  | _ => none

/-- The mutex is taken and `old_ver` is stored to `previous_version_`.  Nobody without the mutex
stores to `current_version_`, so it does not matter when `old_ver` is loaded. -/
def recordPrevious (s : ModelStores Model) (i : ℕ) :
    ModelLoad Model → Option (ModelStores Model)
  | .formed newVer =>
      match s.critical with
      | .free =>
          some { s with previousVersion := s.currentVersion, critical := .recorded i newVer }
      | _ => none
  | _ => none

/-- `slots_[slot] = new_ver`. -/
def placeSlot (s : ModelStores Model) : Critical Model → Option (ModelStores Model)
  | .recorded i newVer =>
      some { s with
        slots := Function.update s.slots (newVer.version.toNat % kMaxVersions) newVer
        critical := .placed i newVer }
  | _ => none

/-- The store of `current_version_`; the mutex is released and the call returns true. -/
def storeCurrent (s : ModelStores Model) : Critical Model → Option (ModelStores Model)
  | .placed i newVer =>
      some { s with
        currentVersion := newVer.version
        loads := s.loads.set i (.published newVer)
        critical := .free }
  | _ => none

/-- One step.  The two later stores are those of the load that holds the lock. -/
def step (s : ModelStores Model) : Action Model → Option (ModelStores Model)
  | .load => some { s with loads := s.loads ++ [.called] }
  | .runLoader i model => s.loads[i]?.bind (s.runLoader i model)
  | .form i now => s.loads[i]?.bind (s.form i now)
  | .recordPrevious i => s.loads[i]?.bind (s.recordPrevious i)
  | .placeSlot => s.placeSlot s.critical
  | .storeCurrent => s.storeCurrent s.critical

/-- The entries of the loads that have returned true. -/
def successes (s : ModelStores Model) : List (ModelVersion Model) :=
  s.loads.filterMap ModelLoad.success

/-- The latest version that is in its slot: the current one, or the one after it between the
store of the slot and the store of the version. -/
def placedVersion (s : ModelStores Model) : ℕ :=
  match s.critical with
  | .placed _ _ => s.currentVersion.toNat + 1
  | _ => s.currentVersion.toNat

/-- Fewer than four versions have been put in their slots since this one. -/
def InTime (s : ModelStores Model) (ver : UInt64) : Prop :=
  s.placedVersion < ver.toNat + kMaxVersions

/-- A load takes the mutex while the version that it has counted on is current. -/
def InTurn (s : ModelStores Model) : Action Model → Prop
  | .recordPrevious i =>
      match s.loads[i]? with
      | some (.formed newVer) => newVer.version.toNat = s.currentVersion.toNat + 1
      | _ => True
  | _ => True

/-- What a reader of the slot of a version gets: the model of the load that has published the
version, or none for the version before the first load. -/
def Serves (s : ModelStores Model) (ver : UInt64) (model : Option Model) : Prop :=
  (ver = 0 ∧ model = none) ∨
    ∃ e ∈ s.successes, e.version = ver ∧ e.model = model ∧ model ≠ none

/-! ## The entries that have been current -/

/-- The holder of the mutex is about to publish the next version. -/
structure Publishes (s : ModelStores Model) (i : ℕ) (newVer : ModelVersion Model) : Prop where
  call : s.loads[i]? = some (.formed newVer)
  next : newVer.version.toNat = s.currentVersion.toNat + 1
  previous : s.previousVersion = s.currentVersion

/-- What the holder of the mutex has done so far. -/
def Holds (s : ModelStores Model) : Critical Model → Prop
  | .free => True
  | .recorded i newVer => s.Publishes i newVer
  | .placed i newVer =>
      s.Publishes i newVer ∧ s.slots (newVer.version.toNat % kMaxVersions) = newVer

/-- The entries number themselves, those in time are in their slots, the previous version is
the one before the current one or already the current one, and every entry has a model. -/
structure Sequential (s : ModelStores Model) (entries : List (ModelVersion Model)) : Prop where
  length : entries.length = s.currentVersion.toNat + 1
  first : entries.head? = some .empty
  numbered : ∀ (k : ℕ) (e : ModelVersion Model), entries[k]? = some e → e.version.toNat = k
  slots : ∀ (k : ℕ) (e : ModelVersion Model), entries[k]? = some e →
    s.placedVersion < k + kMaxVersions → s.slots (k % kMaxVersions) = e
  successes : s.successes.Perm entries.tail
  previous_le : s.previousVersion ≤ s.currentVersion
  le_previous : s.currentVersion.toNat ≤ s.previousVersion.toNat + 1
  models : ∀ c ∈ s.loads, ∀ e, c.entry = some e → e.model ≠ none
  holds : s.Holds s.critical

/-- Versions and entries stay. -/
structure Later (s s' : ModelStores Model) : Prop where
  version_le : s.currentVersion ≤ s'.currentVersion
  successes : ∀ e ∈ s.successes, e ∈ s'.successes

variable {s s' : ModelStores Model} {entries : List (ModelVersion Model)}

/-- No version is current before it is in its slot. -/
theorem currentVersion_le_placedVersion (s : ModelStores Model) :
    s.currentVersion.toNat ≤ s.placedVersion := by
  unfold placedVersion
  split
  · exact Nat.le_succ _
  · exact le_rfl

/-- The entry of the constructor is current, and in every slot. -/
theorem sequential_create : (create : ModelStores Model).Sequential [.empty] where
  length := rfl
  first := rfl
  numbered k e he := by
    obtain ⟨hk, rfl⟩ := List.getElem?_eq_some_iff.mp he
    obtain rfl := Nat.lt_one_iff.mp hk
    rfl
  slots k e he _ := by
    obtain ⟨hk, rfl⟩ := List.getElem?_eq_some_iff.mp he
    obtain rfl := Nat.lt_one_iff.mp hk
    rfl
  successes := .nil
  previous_le := UInt64.le_refl _
  le_previous := Nat.zero_le _
  models := nofun
  holds := trivial

/-- What a reader has been served stays what was published. -/
theorem Later.serves (h : s.Later s') {ver : UInt64} {model : Option Model}
    (hserves : s.Serves ver model) : s'.Serves ver model := by
  rcases hserves with hnone | ⟨e, he, hmodel⟩
  · exact Or.inl hnone
  · exact Or.inr ⟨e, h.successes e he, hmodel⟩

/-- A call outside the critical section does not touch the call inside. -/
theorem holds_of_set {critical : Critical Model} (h : s.Holds critical) {i : ℕ}
    {old new : ModelLoad Model} (hcall : s.loads[i]? = some old)
    (hold : old.entry = none) : Holds { s with loads := s.loads.set i new } critical := by
  have hother : ∀ (j : ℕ) (newVer : ModelVersion Model), s.loads[j]? = some (.formed newVer) →
      (s.loads.set i new)[j]? = some (.formed newVer) := by
    intro j newVer hj
    rcases eq_or_ne i j with rfl | hne
    · obtain rfl := Option.some_injective _ (hcall.symm.trans hj)
      cases hold
    · rwa [List.getElem?_set_ne hne]
  cases critical with
  | free => trivial
  | recorded j newVer => exact ⟨hother j newVer h.call, h.next, h.previous⟩
  | placed j newVer => exact ⟨⟨hother j newVer h.1.call, h.1.next, h.1.previous⟩, h.2⟩

/-- Nor does a new call. -/
theorem holds_of_append {critical : Critical Model} (h : s.Holds critical) {new : ModelLoad Model} :
    Holds { s with loads := s.loads ++ [new] } critical := by
  have hother : ∀ (j : ℕ) (newVer : ModelVersion Model), s.loads[j]? = some (.formed newVer) →
      (s.loads ++ [new])[j]? = some (.formed newVer) := fun j newVer hj =>
    (List.getElem?_append_left (List.getElem?_eq_some_iff.mp hj).1).trans hj
  cases critical with
  | free => trivial
  | recorded j newVer => exact ⟨hother j newVer h.call, h.next, h.previous⟩
  | placed j newVer => exact ⟨⟨hother j newVer h.1.call, h.1.next, h.1.previous⟩, h.2⟩

namespace Sequential

/-- A version up to the current one has had its entry. -/
theorem mem_of_le (h : s.Sequential entries) {ver : UInt64} (hver : ver ≤ s.currentVersion) :
    ∃ e, entries[ver.toNat]? = some e := by
  have hlt : ver.toNat < entries.length := by
    rw [h.length]
    exact Nat.lt_succ_of_le (UInt64.le_iff_toNat_le.mp hver)
  exact ⟨_, List.getElem?_eq_getElem hlt⟩

/-- **The slot of a version**, read in time, holds what its load has published. -/
theorem serves (h : s.Sequential entries) {ver : UInt64} (hver : ver ≤ s.currentVersion)
    (htime : s.InTime ver) : s.Serves ver (s.slots (ver.toNat % kMaxVersions)).model := by
  obtain ⟨e, he⟩ := h.mem_of_le hver
  rw [h.slots _ e he htime]
  have hversion : e.version = ver := UInt64.toNat_inj.mp (h.numbered _ e he)
  obtain ⟨rest, rfl⟩ := List.head?_eq_some_iff.mp h.first
  cases hk : ver.toNat with
  | zero =>
      rw [hk] at he
      obtain rfl := Option.some_injective _ he
      exact Or.inl ⟨hversion.symm, rfl⟩
  | succ k =>
      rw [hk] at he
      have hmem : e ∈ s.successes := h.successes.mem_iff.mpr (List.mem_of_getElem? he)
      obtain ⟨c, hc, hsuccess⟩ := List.mem_filterMap.mp hmem
      have hentry : c.entry = some e := by
        cases c with
        | published newVer => exact hsuccess
        | called | loaded | formed | failed => cases hsuccess
      exact Or.inr ⟨e, hmem, hversion, rfl, h.models c hc e hentry⟩

/-- A load that has no entry yet gets on. -/
theorem set (h : s.Sequential entries) {i : ℕ} {old : ModelLoad Model} (new : ModelLoad Model)
    (hcall : s.loads[i]? = some old) (hold : old.entry = none) (hnew : new.success = none)
    (hmodel : ∀ e, new.entry = some e → e.model ≠ none) :
    Sequential { s with loads := s.loads.set i new } entries ∧
      s.Later { s with loads := s.loads.set i new } := by
  have hmoved := moved_set hcall new
  have hsame : new.success = (some old).bind ModelLoad.success := by
    cases old with
    | called | loaded | failed => exact hnew
    | formed _ | published _ => cases hold
  have hperm : ((s.loads.set i new).filterMap ModelLoad.success).Perm s.successes :=
    hmoved.filterMap_same hsame
  refine ⟨⟨h.length, h.first, h.numbered, h.slots, hperm.trans h.successes, h.previous_le,
    h.le_previous, hmoved.forall_mem h.models hmodel, holds_of_set h.holds hcall hold⟩,
    UInt64.le_refl _, fun e he => ?_⟩
  exact hperm.mem_iff.mpr he

/-- A new call. -/
theorem call (h : s.Sequential entries) :
    Sequential { s with loads := s.loads ++ [.called] } entries ∧
      s.Later { s with loads := s.loads ++ [.called] } := by
  have hmoved := moved_append s.loads (ModelLoad.called : ModelLoad Model)
  have hperm : ((s.loads ++ [ModelLoad.called]).filterMap ModelLoad.success).Perm s.successes :=
    hmoved.filterMap_same rfl
  refine ⟨⟨h.length, h.first, h.numbered, h.slots, hperm.trans h.successes, h.previous_le,
    h.le_previous, hmoved.forall_mem h.models ?_, holds_of_append h.holds⟩,
    UInt64.le_refl _, fun e he => ?_⟩
  · rintro _ ⟨⟩
  · exact hperm.mem_iff.mpr he

/-- The first store. -/
theorem recordPrevious (h : s.Sequential entries) (hfree : s.critical = .free) {i : ℕ}
    {newVer : ModelVersion Model} (hcall : s.loads[i]? = some (.formed newVer))
    (hturn : newVer.version.toNat = s.currentVersion.toNat + 1) :
    Sequential { s with
      previousVersion := s.currentVersion
      critical := .recorded i newVer } entries where
  length := h.length
  first := h.first
  numbered := h.numbered
  slots k e he hk := by
    refine h.slots k e he ?_
    rw [placedVersion, hfree]
    exact hk
  successes := h.successes
  previous_le := UInt64.le_refl _
  le_previous := Nat.le_succ _
  models := h.models
  holds := ⟨hcall, hturn, rfl⟩

/-- The second store: the version four before the new one leaves its slot. -/
theorem placeSlot (h : s.Sequential entries) {i : ℕ} {newVer : ModelVersion Model}
    (hcritical : s.critical = .recorded i newVer) :
    Sequential { s with
      slots := Function.update s.slots (newVer.version.toNat % kMaxVersions) newVer
      critical := .placed i newVer } entries := by
  have hpublishes : s.Publishes i newVer := by
    have hholds := h.holds
    rwa [hcritical] at hholds
  refine ⟨h.length, h.first, h.numbered, fun k e he hk => ?_, h.successes, h.previous_le,
    h.le_previous, h.models, ⟨hpublishes.call, hpublishes.next, hpublishes.previous⟩,
    Function.update_self _ _ _⟩
  have hturn := hpublishes.next
  have hlt := (List.getElem?_eq_some_iff.mp he).1
  have hlength := h.length
  change s.currentVersion.toNat + 1 < k + 4 at hk
  -- of the entries so far only the one four before shares the slot
  have hne : k % kMaxVersions ≠ newVer.version.toNat % kMaxVersions := by
    rw [kMaxVersions]
    omega
  refine (Function.update_of_ne hne _ _).trans (h.slots k e he ?_)
  rw [placedVersion, hcritical, kMaxVersions]
  dsimp only
  omega

/-- The third store: the new version is current. -/
theorem storeCurrent (h : s.Sequential entries) {i : ℕ} {newVer : ModelVersion Model}
    (hcritical : s.critical = .placed i newVer) :
    Sequential { s with
        currentVersion := newVer.version
        loads := s.loads.set i (.published newVer)
        critical := .free } (entries ++ [newVer]) ∧
      newVer.version.toNat = s.currentVersion.toNat + 1 ∧
      ∀ e ∈ s.successes, e ∈ (s.loads.set i (.published newVer)).filterMap ModelLoad.success := by
  obtain ⟨⟨hcall, hturn, hprevious⟩, hslot⟩ : s.Publishes i newVer ∧
      s.slots (newVer.version.toNat % kMaxVersions) = newVer := by
    have hholds := h.holds
    rwa [hcritical] at hholds
  have hmoved := moved_set hcall (.published newVer)
  have hgained : ((s.loads.set i (.published newVer)).filterMap ModelLoad.success).Perm
      (newVer :: s.successes) := hmoved.filterMap_gained rfl rfl
  have hlength := h.length
  obtain ⟨rest, rfl⟩ := List.head?_eq_some_iff.mp h.first
  refine ⟨⟨?_, rfl, fun k e he => ?_, fun k e he hk => ?_, ?_, ?_, ?_,
    hmoved.forall_mem h.models ?_, trivial⟩, hturn,
    fun e he => hgained.mem_iff.mpr (List.mem_cons_of_mem _ he)⟩
  · rw [List.length_append, hlength, hturn]
    rfl
  · rcases getElem?_joined he with hold | ⟨rfl, rfl⟩
    · exact h.numbered k e hold
    · rw [hturn, hlength]
  · change newVer.version.toNat < k + kMaxVersions at hk
    rcases getElem?_joined he with hold | ⟨rfl, rfl⟩
    · refine h.slots k e hold ?_
      rw [placedVersion, hcritical]
      dsimp only
      rwa [← hturn]
    · have heq : (ModelVersion.empty :: rest).length = e.version.toNat := by rw [hlength, hturn]
      rw [heq]
      exact hslot
  · exact (hgained.trans (h.successes.cons newVer)).trans
      (List.perm_append_singleton newVer rest).symm
  · rw [UInt64.le_iff_toNat_le, hprevious, hturn]
    exact Nat.le_succ _
  · rw [hprevious, hturn]
  · rintro _ ⟨⟩
    exact h.models _ (List.mem_of_getElem? hcall) newVer rfl

/-- **One step** keeps the entries, or adds the one that is stored. -/
theorem step {a : Action Model} (h : s.Sequential entries) (hturn : s.InTurn a)
    (hstep : s.step a = some s') :
    (∃ entries', s'.Sequential entries') ∧ s.Later s' := by
  cases a with
  | load =>
      obtain rfl := Option.some_injective _ hstep
      exact ⟨⟨entries, h.call.1⟩, h.call.2⟩
  | runLoader i model =>
      obtain ⟨c, hcall, hrun⟩ := Option.bind_eq_some_iff.mp hstep
      cases c with
      | called =>
          cases model with
          | none =>
              obtain rfl := Option.some_injective _ hrun
              have hset := h.set .failed hcall rfl rfl (by rintro _ ⟨⟩)
              exact ⟨⟨entries, hset.1⟩, hset.2⟩
          | some model =>
              obtain rfl := Option.some_injective _ hrun
              have hset := h.set (.loaded model) hcall rfl rfl (by rintro _ ⟨⟩)
              exact ⟨⟨entries, hset.1⟩, hset.2⟩
      | loaded _ | formed _ | published _ | failed => cases hrun
  | form i now =>
      obtain ⟨c, hcall, hform⟩ := Option.bind_eq_some_iff.mp hstep
      cases c with
      | loaded model =>
          obtain rfl := Option.some_injective _ hform
          have hset := h.set (.formed ⟨s.currentVersion + 1, some model, now⟩) hcall rfl rfl
            (by rintro _ ⟨⟩; exact Option.some_ne_none model)
          exact ⟨⟨entries, hset.1⟩, hset.2⟩
      | called | formed _ | published _ | failed => cases hform
  | recordPrevious i =>
      obtain ⟨c, hcall, hrecord⟩ := Option.bind_eq_some_iff.mp hstep
      cases c with
      | formed newVer =>
          simp only [InTurn, hcall] at hturn
          cases hcritical : s.critical with
          | free =>
              simp only [ModelStores.recordPrevious, hcritical] at hrecord
              obtain rfl := Option.some_injective _ hrecord
              exact ⟨⟨entries, h.recordPrevious hcritical hcall hturn⟩, UInt64.le_refl _,
                fun _ he => he⟩
          | recorded _ _ | placed _ _ =>
              simp only [ModelStores.recordPrevious, hcritical] at hrecord
              cases hrecord
      | called | loaded _ | published _ | failed => cases hrecord
  | placeSlot =>
      rw [ModelStores.step] at hstep
      cases hcritical : s.critical with
      | recorded i newVer =>
          rw [hcritical] at hstep
          obtain rfl := Option.some_injective _ hstep
          exact ⟨⟨entries, h.placeSlot hcritical⟩, UInt64.le_refl _, fun _ he => he⟩
      | free | placed _ _ =>
          rw [hcritical] at hstep
          cases hstep
  | storeCurrent =>
      rw [ModelStores.step] at hstep
      cases hcritical : s.critical with
      | placed i newVer =>
          rw [hcritical] at hstep
          obtain rfl := Option.some_injective _ hstep
          obtain ⟨hsequential, hnext, hsuccesses⟩ := h.storeCurrent hcritical
          refine ⟨⟨_, hsequential⟩, ?_, hsuccesses⟩
          rw [UInt64.le_iff_toNat_le]
          show s.currentVersion.toNat ≤ newVer.version.toNat
          omega
      | free | recorded _ _ =>
          rw [hcritical] at hstep
          cases hstep

end Sequential

/-- Only the store to the slot puts a version in its slot, the one after those that are. -/
theorem placedVersion_step {a : Action Model} (h : s.Sequential entries)
    (hstep : s.step a = some s') :
    (a = .placeSlot ∧ s'.placedVersion = s.placedVersion + 1 ∧
      s.critical.slot = some (s'.placedVersion % kMaxVersions)) ∨
    (a ≠ .placeSlot ∧ s'.placedVersion = s.placedVersion) := by
  cases a with
  | load =>
      obtain rfl := Option.some_injective _ hstep
      exact Or.inr ⟨by rintro ⟨⟩, rfl⟩
  | runLoader i _ | form i _ =>
      obtain ⟨c, -, hcall⟩ := Option.bind_eq_some_iff.mp hstep
      refine Or.inr ⟨by rintro ⟨⟩, ?_⟩
      cases c <;> cases hcall
      rfl
  | recordPrevious i =>
      obtain ⟨c, -, hrecord⟩ := Option.bind_eq_some_iff.mp hstep
      refine Or.inr ⟨by rintro ⟨⟩, ?_⟩
      cases c with
      | formed newVer =>
          cases hcritical : s.critical with
          | free =>
              simp only [recordPrevious, hcritical] at hrecord
              obtain rfl := Option.some_injective _ hrecord
              rw [placedVersion, placedVersion, hcritical]
          | recorded _ _ | placed _ _ =>
              simp only [recordPrevious, hcritical] at hrecord
              cases hrecord
      | called | loaded _ | published _ | failed => cases hrecord
  | placeSlot =>
      rw [step] at hstep
      cases hcritical : s.critical with
      | recorded i newVer =>
          have hpublishes : s.Publishes i newVer := by
            have hholds := h.holds
            rwa [hcritical] at hholds
          rw [hcritical] at hstep
          obtain rfl := Option.some_injective _ hstep
          refine Or.inl ⟨rfl, ?_, ?_⟩
          · rw [placedVersion, placedVersion, hcritical]
          · rw [Critical.slot, hpublishes.next]
            rfl
      | free | placed _ _ =>
          rw [hcritical] at hstep
          cases hstep
  | storeCurrent =>
      rw [step] at hstep
      cases hcritical : s.critical with
      | placed i newVer =>
          rw [hcritical] at hstep
          obtain rfl := Option.some_injective _ hstep
          obtain ⟨-, hnext, -⟩ := h.storeCurrent hcritical
          refine Or.inr ⟨by rintro ⟨⟩, ?_⟩
          rw [placedVersion, placedVersion, hcritical]
          exact hnext
      | free | recorded _ _ =>
          rw [hcritical] at hstep
          cases hstep

end ModelStores

end Synapse.Hotreload
