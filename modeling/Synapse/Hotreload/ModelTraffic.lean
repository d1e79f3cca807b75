import Synapse.Foundations.Balances
import Synapse.Hotreload.ModelStores

/-!
# Traffic of `AtomicModelSwap`

Calls of `decide_with_ab` and `record_inference`, broken up at every access to the versions,
the slots and the counters, while models are reloaded store by store.  Whether a decision is part
of the test is drawn at its start.  Rewards are added exactly.

A slot holds an object with the two counters of its version; the constructor makes one for
every slot, and the store of a reload to its slot puts a new one in the place of an older one.

* The counters of all objects keep every inference, also those of objects that are in no slot
  any more (`inferences_accounted`).
* An inference counts for the version that its call has loaded if the slot is accessed before
  the slot of the version four later is stored.  Between that store and the store of the version
  itself a late call would count for a version that is not yet current.
* A decision is at most one version behind, but the version before the first reload has no
  model, and the test sends its share of the decisions there until the second reload
  (`decided_recently`).

### Objects behind slots

The counters are in the objects, and a slot is a pointer to one.  So an inference that is
recorded through a slot goes to the object that the slot holds at this moment, and what is
said of totals is said of objects, which are never taken away (`Accounted`).  Which version an
object belongs to is a matter of when it was stored: the first four are those of the
constructor, and each reload makes the next one (`Numbered`).  Both invariants are run
invariants; only the second needs that the reloads are in turn.
-/

namespace Synapse.Hotreload

open Balances Runs Calls

variable {Model R : Type*}

/-- How far a call of `decide_with_ab` has come.  `start` is the version that was current when
the call was made. -/
inductive Decision (Model : Type*) where
  | called (test : Bool) (start : UInt64)
  | previous (start prev : UInt64)
  | untested (start : UInt64)
  | chosen (test : Bool) (start ver : UInt64)
  | returned (test : Bool) (start ver : UInt64) (model : Option Model)

namespace Decision

/-- The next access.  A call that is not part of the test, or finds that the previous version
is the current one, goes on with `current()`. -/
def next (s : ModelStores Model) : Decision Model → Option (Decision Model)
  | called true start => some (previous start s.previousVersion)
  | called false start => some (chosen false start s.currentVersion)
  | previous start prev =>
      some (if prev ≠ s.currentVersion then chosen true start prev else untested start)
  | untested start => some (chosen true start s.currentVersion)
  | chosen test start ver =>
      some (returned test start ver (s.slots (ver.toNat % AtomicModelSwap.kMaxVersions)).model)
  | returned _ _ _ _ => none

end Decision

/-- How far a call of `record_inference` has come, and the objects that it has counted the
inference and the reward at. -/
inductive Recording (R : Type*) where
  | called (reward : R)
  | loaded (reward : R) (ver : UInt64)
  | counted (reward : R) (ver : UInt64) (object : ℕ)
  | recorded (reward : R) (ver : UInt64) (object rewarded : ℕ)

namespace Recording

/-- The inference that the call has counted, under its object. -/
def count : Recording R → Option (ℕ × UInt64)
  | counted _ _ object => some (object, 1)
  | recorded _ _ object _ => some (object, 1)
  | _ => none

/-- The reward that the call has added, under its object. -/
def credit : Recording R → Option (ℕ × R)
  | recorded reward _ _ rewarded => some (rewarded, reward)
  | _ => none

/-- The inference that the call has counted, under its version. -/
def inference : Recording R → Option (ℕ × UInt64)
  | counted _ ver _ => some (ver.toNat, 1)
  | recorded _ ver _ _ => some (ver.toNat, 1)
  | _ => none

/-- The reward that the call has added, under its version. -/
def reward : Recording R → Option (ℕ × R)
  | recorded reward ver _ _ => some (ver.toNat, reward)
  | _ => none

end Recording

/-- The swap with its reloads, the number of objects made so far, which of them each slot holds,
their counters, and the calls. -/
structure ModelTraffic (Model R : Type*) where
  swap : ModelStores Model
  objects : ℕ
  held : ℕ → ℕ
  inferenceCount : ℕ → UInt64
  totalReward : ℕ → R
  decisions : List (Decision Model)
  recordings : List (Recording R)

namespace ModelTraffic

open AtomicModelSwap (kMaxVersions)

/-- A step of a reload, of a decision, or of the recording of an inference. -/
inductive Action (Model R : Type*) where
  | reload (a : ModelStores.Action Model)
  | decideWithAb (test : Bool)
  | decide (i : ℕ)
  | recordInference (reward : R)
  | record (i : ℕ)

variable [AddCommMonoid R]

/-- Four objects, one in each slot, and nothing counted. -/
def create : ModelTraffic Model R where
  swap := .create
  objects := kMaxVersions
  held slot := slot
  inferenceCount _ := 0
  totalReward _ := 0
  decisions := []
  recordings := []

/-- A step of the swap.  The store to the slot puts a new object into it. -/
def reload (s : ModelTraffic Model R) (swap : ModelStores Model) :
    ModelStores.Action Model → ModelTraffic Model R
  | .placeSlot =>
      { s with
        swap := swap
        objects := s.objects + 1
        held := s.swap.critical.slot.elim s.held fun slot =>
          Function.update s.held slot s.objects }
  | _ => { s with swap := swap }

/-- The object in the slot of a version. -/
def objectOf (s : ModelTraffic Model R) (ver : UInt64) : ℕ := s.held (ver.toNat % kMaxVersions)

/-- The next access of a recording. -/
def record (s : ModelTraffic Model R) (i : ℕ) : Recording R → Option (ModelTraffic Model R)
  | .called reward =>
      some { s with recordings := s.recordings.set i (.loaded reward s.swap.currentVersion) }
  | .loaded reward ver =>
      some { s with
        inferenceCount := Function.update s.inferenceCount (s.objectOf ver)
          (s.inferenceCount (s.objectOf ver) + 1)
        recordings := s.recordings.set i (.counted reward ver (s.objectOf ver)) }
  | .counted reward ver object =>
      some { s with
        totalReward := Function.update s.totalReward (s.objectOf ver)
          (s.totalReward (s.objectOf ver) + reward)
        recordings := s.recordings.set i (.recorded reward ver object (s.objectOf ver)) }
  | .recorded _ _ _ _ => none

/-- One step. -/
def step (s : ModelTraffic Model R) : Action Model R → Option (ModelTraffic Model R)
  | .reload a => (s.swap.step a).map fun swap => s.reload swap a
  | .decideWithAb test =>
      some { s with decisions := s.decisions ++ [.called test s.swap.currentVersion] }
  | .decide i => s.decisions[i]?.bind fun d => (d.next s.swap).map fun d' =>
      { s with decisions := s.decisions.set i d' }
  | .recordInference reward => some { s with recordings := s.recordings ++ [.called reward] }
  | .record i => s.recordings[i]?.bind (s.record i)

/-! ## Inferences are counted once -/

variable {s s' : ModelTraffic Model R}

/-- The counters are what the calls have added to them, at objects that are there. -/
structure Accounted (s : ModelTraffic Model R) : Prop where
  held_lt : ∀ slot < kMaxVersions, s.held slot < s.objects
  inferenceCount : s.inferenceCount = balances (s.recordings.filterMap Recording.count)
  totalReward : s.totalReward = balances (s.recordings.filterMap Recording.credit)
  count_lt : ∀ r ∈ s.recordings, ∀ e, r.count = some e → e.1 < s.objects
  credit_lt : ∀ r ∈ s.recordings, ∀ e, r.credit = some e → e.1 < s.objects

/-- Nothing has been counted. -/
theorem accounted_create : (create : ModelTraffic Model R).Accounted where
  held_lt _ h := h
  inferenceCount := rfl
  totalReward := rfl
  count_lt := nofun
  credit_lt := nofun

namespace Accounted

/-- A slot holds an object that has been made. -/
theorem objectOf_lt (h : s.Accounted) (ver : UInt64) : s.objectOf ver < s.objects :=
  h.held_lt _ (Nat.mod_lt _ (by decide))

/-- A reload makes an object and takes none away, nor a count. -/
theorem reload (h : s.Accounted) (swap : ModelStores Model)
    (a : ModelStores.Action Model) : (s.reload swap a).Accounted := by
  cases a with
  | placeSlot =>
      refine ⟨fun slot hslot => ?_, h.inferenceCount, h.totalReward,
        fun r hr e he => (h.count_lt r hr e he).trans (Nat.lt_succ_self _),
        fun r hr e he => (h.credit_lt r hr e he).trans (Nat.lt_succ_self _)⟩
      have hold := (h.held_lt slot hslot).trans (Nat.lt_succ_self _)
      show s.swap.critical.slot.elim s.held (fun slot => Function.update s.held slot s.objects)
        slot < s.objects + 1
      cases s.swap.critical.slot with
      | none => exact hold
      | some placed =>
          rw [Option.elim_some, Function.update_apply]
          split
          · exact Nat.lt_succ_self _
          · exact hold
  | load | runLoader | form | recordPrevious | storeCurrent =>
      exact ⟨h.held_lt, h.inferenceCount, h.totalReward, h.count_lt, h.credit_lt⟩

/-- A recording gets on without counting anything. -/
theorem moved (h : s.Accounted) {old : Option (Recording R)} {new : Recording R}
    {recordings : List (Recording R)} (hmoved : Moved s.recordings old new recordings)
    (hold : old.bind Recording.count = none ∧ old.bind Recording.credit = none)
    (hnew : new.count = none ∧ new.credit = none) :
    Accounted { s with recordings := recordings } where
  held_lt := h.held_lt
  inferenceCount := h.inferenceCount.trans
    (balances_perm (hmoved.filterMap_same (hnew.1.trans hold.1.symm))).symm
  totalReward := h.totalReward.trans
    (balances_perm (hmoved.filterMap_same (hnew.2.trans hold.2.symm))).symm
  count_lt := hmoved.forall_mem h.count_lt fun e he => by cases hnew.1.symm.trans he
  credit_lt := hmoved.forall_mem h.credit_lt fun e he => by cases hnew.2.symm.trans he

/-- A recording counts in one object. -/
theorem record (h : s.Accounted) {i : ℕ} {r : Recording R} (hcall : s.recordings[i]? = some r)
    (hstep : s.record i r = some s') : s'.Accounted := by
  have hlt := h.objectOf_lt
  cases r with
  | called reward =>
      obtain rfl := Option.some_injective _ hstep
      exact h.moved (moved_set hcall _) ⟨rfl, rfl⟩ ⟨rfl, rfl⟩
  | loaded reward ver =>
      obtain rfl := Option.some_injective _ hstep
      have hmoved := moved_set hcall (.counted reward ver (s.objectOf ver))
      refine ⟨h.held_lt, ?_, ?_, hmoved.forall_mem h.count_lt ?_, hmoved.forall_mem h.credit_lt ?_⟩
      · show Function.update s.inferenceCount (s.objectOf ver) _ = _
        rw [h.inferenceCount, update_balances]
        exact (balances_perm (hmoved.filterMap_gained rfl rfl)).symm
      · exact h.totalReward.trans (balances_perm (hmoved.filterMap_same rfl)).symm
      · rintro _ ⟨⟩
        exact hlt ver
      · rintro _ ⟨⟩
  | counted reward ver object =>
      obtain rfl := Option.some_injective _ hstep
      have hobject := h.count_lt _ (List.mem_of_getElem? hcall) _ rfl
      have hmoved := moved_set hcall (.recorded reward ver object (s.objectOf ver))
      refine ⟨h.held_lt, ?_, ?_, hmoved.forall_mem h.count_lt ?_, hmoved.forall_mem h.credit_lt ?_⟩
      · exact h.inferenceCount.trans (balances_perm (hmoved.filterMap_same rfl)).symm
      · show Function.update s.totalReward (s.objectOf ver) _ = _
        rw [h.totalReward, update_balances]
        exact (balances_perm (hmoved.filterMap_gained rfl rfl)).symm
      · rintro _ ⟨⟩
        exact hobject
      · rintro _ ⟨⟩
        exact hlt ver
  | recorded _ _ _ _ => cases hstep

/-- The step lemma of the counts. -/
theorem step {a : Action Model R} (h : s.Accounted) (hstep : s.step a = some s') :
    s'.Accounted := by
  cases a with
  | reload a =>
      obtain ⟨swap, -, rfl⟩ := Option.map_eq_some_iff.mp hstep
      exact h.reload swap a
  | decideWithAb test =>
      obtain rfl := Option.some_injective _ hstep
      exact ⟨h.held_lt, h.inferenceCount, h.totalReward, h.count_lt, h.credit_lt⟩
  | decide i =>
      obtain ⟨d, -, hd⟩ := Option.bind_eq_some_iff.mp hstep
      obtain ⟨d', -, rfl⟩ := Option.map_eq_some_iff.mp hd
      exact ⟨h.held_lt, h.inferenceCount, h.totalReward, h.count_lt, h.credit_lt⟩
  | recordInference reward =>
      obtain rfl := Option.some_injective _ hstep
      exact h.moved (moved_append _ _) ⟨rfl, rfl⟩ ⟨rfl, rfl⟩
  | record i =>
      obtain ⟨r, hcall, hrecord⟩ := Option.bind_eq_some_iff.mp hstep
      exact h.record hcall hrecord

end Accounted

end ModelTraffic

/-! ## Traffic in turn -/

/-- A decision that is part of the test may be one version behind. -/
def Decision.Fits (s : ModelStores Model) : Decision Model → Prop
  | called _ start => start ≤ s.currentVersion
  | previous start prev =>
      start ≤ s.currentVersion ∧ start.toNat ≤ prev.toNat + 1 ∧ prev ≤ s.currentVersion
  | untested start => start ≤ s.currentVersion
  | chosen test start ver => start.toNat ≤ ver.toNat + test.toNat ∧ ver ≤ s.currentVersion
  | returned test start ver model => start.toNat ≤ ver.toNat + test.toNat ∧ s.Serves ver model

/-- The object of a version: the first one, or the one that its reload has made. -/
def objectNumber (ver : ℕ) : ℕ := if ver = 0 then 0 else ver + 3

/-- Versions have objects of their own. -/
theorem objectNumber_injective : Function.Injective objectNumber := by
  intro ver ver' heq
  unfold objectNumber at heq
  split_ifs at heq <;> omega

/-- What is counted is counted at the object of the version. -/
def Recording.Fits (currentVersion : UInt64) : Recording R → Prop
  | called _ => True
  | loaded _ ver => ver ≤ currentVersion
  | counted _ ver object => ver ≤ currentVersion ∧ object = objectNumber ver.toNat
  | recorded _ ver object rewarded =>
      object = objectNumber ver.toNat ∧ rewarded = objectNumber ver.toNat

/-- What a decision has loaded is still a version when others have been published. -/
theorem Decision.Fits.later {swap swap' : ModelStores Model} (h : swap.Later swap')
    {d : Decision Model} (hd : d.Fits swap) : d.Fits swap' := by
  cases d with
  | called _ _ | untested _ => exact UInt64.le_trans hd h.version_le
  | previous _ _ =>
      exact ⟨UInt64.le_trans hd.1 h.version_le, hd.2.1, UInt64.le_trans hd.2.2 h.version_le⟩
  | chosen _ _ _ => exact ⟨hd.1, UInt64.le_trans hd.2 h.version_le⟩
  | returned _ _ _ _ => exact ⟨hd.1, h.serves hd.2⟩

/-- The same of a recording. -/
theorem Recording.Fits.later {currentVersion currentVersion' : UInt64}
    (h : currentVersion ≤ currentVersion') {r : Recording R} (hr : r.Fits currentVersion) :
    r.Fits currentVersion' := by
  cases r with
  | called _ => trivial
  | loaded _ _ => exact UInt64.le_trans hr h
  | counted _ _ _ => exact ⟨UInt64.le_trans hr.1 h, hr.2⟩
  | recorded _ _ _ _ => exact hr

/-- The next access of a decision. -/
theorem Decision.Fits.next {swap : ModelStores Model} {entries : List (ModelVersion Model)}
    (h : swap.Sequential entries) {d d' : Decision Model} (hd : d.Fits swap)
    (htime : ∀ test start ver, d = .chosen test start ver → swap.InTime ver)
    (hnext : d.next swap = some d') : d'.Fits swap := by
  have hprevious := h.le_previous
  cases d with
  | called test start =>
      have hstart : start.toNat ≤ swap.currentVersion.toNat := UInt64.le_iff_toNat_le.mp hd
      cases test with
      | true =>
          obtain rfl := Option.some_injective _ hnext
          exact ⟨hd, hstart.trans hprevious, h.previous_le⟩
      | false =>
          obtain rfl := Option.some_injective _ hnext
          exact ⟨hstart, UInt64.le_refl _⟩
  | previous start prev =>
      obtain rfl := Option.some_injective _ hnext
      obtain ⟨hstart, hprev⟩ := hd
      split
      · exact hprev
      · exact hstart
  | untested start =>
      obtain rfl := Option.some_injective _ hnext
      exact ⟨(UInt64.le_iff_toNat_le.mp hd).trans (Nat.le_add_right _ _), UInt64.le_refl _⟩
  | chosen test start ver =>
      obtain rfl := Option.some_injective _ hnext
      exact ⟨hd.1, h.serves hd.2 (htime test start ver rfl)⟩
  | returned _ _ _ _ => cases hnext

namespace ModelTraffic

open AtomicModelSwap (kMaxVersions)

variable {s s' : ModelTraffic Model R}

/-- Reloads come in turn, and the slot of a version is accessed before the slot of the version
four later is stored. -/
def InTurn (s : ModelTraffic Model R) : Action Model R → Prop
  | .reload a => s.swap.InTurn a
  | .decide i =>
      match s.decisions[i]? with
      | some (.chosen _ _ ver) => s.swap.InTime ver
      | _ => True
  | .record i =>
      match s.recordings[i]? with
      | some (.loaded _ ver) => s.swap.InTime ver
      | some (.counted _ ver _) => s.swap.InTime ver
      | _ => True
  | _ => True

/-- The objects are numbered by their versions. -/
structure Numbered (s : ModelTraffic Model R) : Prop where
  sequential : ∃ entries, s.swap.Sequential entries
  objects : s.objects = s.swap.placedVersion + kMaxVersions
  held : ∀ ver : UInt64, ver.toNat ≤ s.swap.placedVersion → s.swap.InTime ver →
    s.objectOf ver = objectNumber ver.toNat
  decisions : ∀ d ∈ s.decisions, d.Fits s.swap
  recordings : ∀ r ∈ s.recordings, r.Fits s.swap.currentVersion

namespace Numbered

/-- The objects of the constructor are those of the versions before the first reload. -/
theorem create [AddCommMonoid R] : (ModelTraffic.create : ModelTraffic Model R).Numbered where
  sequential := ⟨_, ModelStores.sequential_create⟩
  objects := rfl
  held ver hver _ := by
    have hzero : ver = 0 := UInt64.toNat_inj.mp (Nat.le_zero.mp hver)
    rw [hzero]
    rfl
  decisions := nofun
  recordings := nofun

/-- Only the calls change. -/
theorem called (h : s.Numbered) {decisions : List (Decision Model)}
    {recordings : List (Recording R)} (hdecisions : ∀ d ∈ decisions, d.Fits s.swap)
    (hrecordings : ∀ r ∈ recordings, r.Fits s.swap.currentVersion)
    (inferenceCount : ℕ → UInt64) (totalReward : ℕ → R) :
    Numbered { s with
      decisions := decisions
      recordings := recordings
      inferenceCount := inferenceCount
      totalReward := totalReward } where
  sequential := h.sequential
  objects := h.objects
  held := h.held
  decisions := hdecisions
  recordings := hrecordings

/-- The next object is that of the next version. -/
theorem reload (h : s.Numbered) {a : ModelStores.Action Model} {swap : ModelStores Model}
    (hturn : s.swap.InTurn a) (hstep : s.swap.step a = some swap) :
    (s.reload swap a).Numbered := by
  obtain ⟨entries, hentries⟩ := h.sequential
  obtain ⟨hsequential, hlater⟩ := hentries.step hturn hstep
  have hdecisions : ∀ d ∈ s.decisions, d.Fits swap := fun d hd => (h.decisions d hd).later hlater
  have hrecordings : ∀ r ∈ s.recordings, r.Fits swap.currentVersion :=
    fun r hr => (h.recordings r hr).later hlater.version_le
  have hobjects := h.objects
  rcases ModelStores.placedVersion_step hentries hstep with
    ⟨rfl, hplaced, hslot⟩ | ⟨hplace, hplaced⟩
  · -- the new object is that of the version in the slot, the others stay
    have hheld : (s.reload swap .placeSlot).held =
        Function.update s.held (swap.placedVersion % kMaxVersions) s.objects := by
      rw [ModelTraffic.reload, hslot]
      rfl
    refine ⟨hsequential, ?_, fun ver hver htime => ?_, hdecisions, hrecordings⟩
    · show s.objects + 1 = swap.placedVersion + kMaxVersions
      rw [hplaced, hobjects, Nat.add_right_comm]
    · change ver.toNat ≤ swap.placedVersion at hver
      change swap.placedVersion < ver.toNat + 4 at htime
      rw [objectOf, hheld]
      rcases hver.lt_or_eq with hlt | heq
      · have hmod : ver.toNat % kMaxVersions ≠ swap.placedVersion % kMaxVersions := by
          rw [kMaxVersions]
          omega
        have hintime : s.swap.InTime ver := by
          show s.swap.placedVersion < ver.toNat + 4
          omega
        rw [Function.update_of_ne hmod]
        exact h.held ver (by omega) hintime
      · rw [heq, Function.update_self, hobjects, objectNumber, if_neg (by omega), hplaced,
          kMaxVersions]
  · have hreload : s.reload swap a = { s with swap := swap } := by
      cases a with
      | placeSlot => exact absurd rfl hplace
      | load | runLoader | form | recordPrevious | storeCurrent => rfl
    rw [hreload]
    refine ⟨hsequential, ?_, fun ver hver htime => ?_, hdecisions, hrecordings⟩
    · show s.objects = swap.placedVersion + kMaxVersions
      rw [hplaced, hobjects]
    · change ver.toNat ≤ swap.placedVersion at hver
      change swap.placedVersion < ver.toNat + kMaxVersions at htime
      rw [hplaced] at hver htime
      exact h.held ver hver htime

/-- What is counted under the objects is counted under their versions. -/
theorem count_eq (h : s.Numbered) : s.recordings.filterMap Recording.count =
    (s.recordings.filterMap Recording.inference).map (Prod.map objectNumber id) := by
  rw [List.map_filterMap]
  refine List.filterMap_congr fun r hr => ?_
  have hfits := h.recordings r hr
  cases r with
  | called _ | loaded _ _ => rfl
  | counted _ _ _ => rw [Recording.count, hfits.2]; rfl
  | recorded _ _ _ _ => rw [Recording.count, hfits.1]; rfl

/-- The objects that were credited are those of the versions that were loaded. -/
theorem credit_eq (h : s.Numbered) : s.recordings.filterMap Recording.credit =
    (s.recordings.filterMap Recording.reward).map (Prod.map objectNumber id) := by
  rw [List.map_filterMap]
  refine List.filterMap_congr fun r hr => ?_
  have hfits := h.recordings r hr
  cases r with
  | called _ | loaded _ _ | counted _ _ _ => rfl
  | recorded _ _ _ _ => rw [Recording.credit, hfits.2]; rfl

/-- A recording that is early enough credits its own version. -/
theorem record [AddCommMonoid R] (h : s.Numbered) {i : ℕ} {r : Recording R}
    (hcall : s.recordings[i]? = some r) (hturn : s.InTurn (.record i))
    (hstep : s.record i r = some s') : s'.Numbered := by
  have hfits := h.recordings r (List.mem_of_getElem? hcall)
  have hplaced : ∀ {ver : UInt64}, ver ≤ s.swap.currentVersion →
      ver.toNat ≤ s.swap.placedVersion := fun hver =>
    (UInt64.le_iff_toNat_le.mp hver).trans s.swap.currentVersion_le_placedVersion
  simp only [InTurn, hcall] at hturn
  cases r with
  | called reward =>
      obtain rfl := Option.some_injective _ hstep
      have hmoved := moved_set hcall (.loaded reward s.swap.currentVersion)
      exact h.called h.decisions (hmoved.forall_mem h.recordings (UInt64.le_refl _)) _ _
  | loaded reward ver =>
      obtain rfl := Option.some_injective _ hstep
      have hmoved := moved_set hcall (.counted reward ver (s.objectOf ver))
      exact h.called h.decisions
        (hmoved.forall_mem h.recordings ⟨hfits, h.held ver (hplaced hfits) hturn⟩) _ _
  | counted reward ver object =>
      obtain rfl := Option.some_injective _ hstep
      have hmoved := moved_set hcall (.recorded reward ver object (s.objectOf ver))
      exact h.called h.decisions
        (hmoved.forall_mem h.recordings ⟨hfits.2, h.held ver (hplaced hfits.1) hturn⟩) _ _
  | recorded _ _ _ _ => cases hstep

/-- The step lemma of the versions. -/
theorem step [AddCommMonoid R] {a : Action Model R} (h : s.Numbered) (hturn : s.InTurn a)
    (hstep : s.step a = some s') : s'.Numbered := by
  cases a with
  | reload a =>
      obtain ⟨swap, hswap, rfl⟩ := Option.map_eq_some_iff.mp hstep
      exact h.reload hturn hswap
  | decideWithAb test =>
      obtain rfl := Option.some_injective _ hstep
      have hmoved := moved_append s.decisions (.called test s.swap.currentVersion)
      exact h.called (hmoved.forall_mem h.decisions (UInt64.le_refl _)) h.recordings _ _
  | decide i =>
      obtain ⟨d, hcall, hd⟩ := Option.bind_eq_some_iff.mp hstep
      obtain ⟨d', hnext, rfl⟩ := Option.map_eq_some_iff.mp hd
      have hfits := h.decisions d (List.mem_of_getElem? hcall)
      have hnew : d'.Fits s.swap := by
        obtain ⟨entries, hentries⟩ := h.sequential
        refine Decision.Fits.next hentries hfits ?_ hnext
        rintro test start ver rfl
        simp only [InTurn, hcall] at hturn
        exact hturn
      exact h.called ((moved_set hcall d').forall_mem h.decisions hnew) h.recordings _ _
  | recordInference reward =>
      obtain rfl := Option.some_injective _ hstep
      have hmoved := moved_append s.recordings (.called reward)
      exact h.called h.decisions (hmoved.forall_mem h.recordings trivial) _ _
  | record i =>
      obtain ⟨r, hcall, hrecord⟩ := Option.bind_eq_some_iff.mp hstep
      exact h.record hcall hturn hrecord

end Numbered

/-! ## Whole runs -/

variable [AddCommMonoid R]

/-- The run lemma. -/
theorem numbered_of_exec {actions : List (Action Model R)}
    (h : exec step create actions = some s) (hturn : Along step InTurn create actions) :
    s.Numbered := by
  have hstep : ∀ (s : ModelTraffic Model R) (a : Action Model R) (s' : ModelTraffic Model R),
      s.Numbered → s.step a = some s' → s.InTurn a → s'.Numbered :=
    fun _ _ _ hs ha hP => hs.step hP ha
  exact invariant_of_along step hstep Numbered.create hturn h

/-- **The test sends nobody further back than one version.**  A decision gets the model of a
version that its load has published, current when the call was made or later, or the one
before if the call is part of the test.  It gets no model only under version 0: before the
first reload, or in the test before the second. -/
theorem decided_recently {actions : List (Action Model R)} (h : exec step create actions = some s)
    (hturn : Along step InTurn create actions) {test : Bool} {start ver : UInt64}
    {model : Option Model} (hd : .returned test start ver model ∈ s.decisions) :
    start.toNat ≤ ver.toNat + test.toNat ∧
      ((ver = 0 ∧ model = none) ∨
        ∃ e ∈ s.swap.successes, e.version = ver ∧ e.model = model ∧ model ≠ none) :=
  (numbered_of_exec h hturn).decisions _ hd

/-- A decision of the test between the stores of the first reload and after them gets no
model, and another one, made when they are done, gets the new model. -/
theorem decided_recently_one_reload : ∃ s : ModelTraffic ℕ ℕ, exec step create
    [.reload .load, .reload (.runLoader 0 (some 10)), .reload (.form 0 5),
      .reload (.recordPrevious 0), .reload .placeSlot, .decideWithAb true, .decide 0,
      .reload .storeCurrent, .decide 0, .decideWithAb false, .decide 1, .decide 0,
      .decide 1] = some s ∧
    s.decisions = [.returned true 0 0 none, .returned false 1 1 (some 10)] ∧
    ∃ e ∈ s.swap.successes, e.version = 1 ∧ e.model = some 10 := by
  obtain ⟨s, hrun, hdecisions⟩ : ∃ s : ModelTraffic ℕ ℕ, exec step create
      [.reload .load, .reload (.runLoader 0 (some 10)), .reload (.form 0 5),
        .reload (.recordPrevious 0), .reload .placeSlot, .decideWithAb true, .decide 0,
        .reload .storeCurrent, .decide 0, .decideWithAb false, .decide 1, .decide 0,
        .decide 1] = some s ∧
      s.decisions = [.returned true 0 0 none, .returned false 1 1 (some 10)] := ⟨_, rfl, rfl⟩
  refine ⟨s, hrun, hdecisions, ?_⟩
  have hturn : Along step InTurn (create : ModelTraffic ℕ ℕ)
      [.reload .load, .reload (.runLoader 0 (some 10)), .reload (.form 0 5),
        .reload (.recordPrevious 0), .reload .placeSlot, .decideWithAb true, .decide 0,
        .reload .storeCurrent, .decide 0, .decideWithAb false, .decide 1, .decide 0,
        .decide 1] :=
    along_of_step step rfl trivial <| along_of_step step rfl trivial <|
    along_of_step step rfl trivial <| along_of_step step rfl rfl <|
    along_of_step step rfl trivial <| along_of_step step rfl trivial <|
    along_of_step step rfl trivial <| along_of_step step rfl trivial <|
    along_of_step step rfl trivial <| along_of_step step rfl trivial <|
    along_of_step step rfl trivial <| along_of_step step rfl (show 1 < 0 + 4 by omega) <|
    along_of_step step rfl (show 1 < 1 + 4 by omega) <| along_nil step _ _
  have hmem : .returned false 1 1 (some 10) ∈ s.decisions := by
    rw [hdecisions]
    exact List.mem_cons_of_mem _ (List.mem_singleton_self _)
  rcases (decided_recently hrun hturn hmem).2 with ⟨-, hnone⟩ | ⟨e, he, hversion, hmodel, -⟩
  · cases hnone
  · exact ⟨e, he, hversion, hmodel⟩

/-- **No inference is lost, and each counts for its version.**  However recordings and the
stores of reloads interleave, the counters of all objects together are what has been recorded.
If reloads come in turn and slots are accessed in time, those of every version are what has been
recorded for it. -/
theorem inferences_accounted {actions : List (Action Model R)}
    (h : exec step create actions = some s) :
    ∑ object ∈ Finset.range s.objects, s.inferenceCount object =
        ((s.recordings.filterMap Recording.inference).map Prod.snd).sum ∧
      ∑ object ∈ Finset.range s.objects, s.totalReward object =
        ((s.recordings.filterMap Recording.reward).map Prod.snd).sum ∧
      (Along step InTurn create actions → ∀ ver : ℕ,
        s.inferenceCount (objectNumber ver) =
            balances (s.recordings.filterMap Recording.inference) ver ∧
          s.totalReward (objectNumber ver) =
            balances (s.recordings.filterMap Recording.reward) ver) := by
  have haccounted : s.Accounted :=
    invariant_of_exec step (fun _ _ _ hs ha => hs.step ha) accounted_create h
  refine ⟨?_, ?_, fun hturn ver => ?_⟩
  · rw [haccounted.inferenceCount]
    refine sum_balances_filterMap (fun r => by cases r <;> rfl) fun r hr e he => ?_
    exact Finset.mem_range.mpr (haccounted.count_lt r hr e he)
  · rw [haccounted.totalReward]
    refine sum_balances_filterMap (fun r => by cases r <;> rfl) fun r hr e he => ?_
    exact Finset.mem_range.mpr (haccounted.credit_lt r hr e he)
  · have hnumbered := numbered_of_exec h hturn
    rw [haccounted.inferenceCount, haccounted.totalReward, hnumbered.count_eq,
      hnumbered.credit_eq]
    exact ⟨balances_map objectNumber_injective _ ver, balances_map objectNumber_injective _ ver⟩

/-- The stores of a reload between the load of the version, the counting and the reward: all
of it goes to the object of the version that was loaded. -/
theorem inferences_accounted_late_counting : ∃ s : ModelTraffic ℕ ℕ, exec step create
    [.recordInference 3, .record 0, .reload .load, .reload (.runLoader 0 (some 10)),
      .reload (.form 0 5), .reload (.recordPrevious 0), .reload .placeSlot, .record 0,
      .reload .storeCurrent, .record 0, .recordInference 4, .record 1, .record 1,
      .record 1] = some s ∧
    s.objects = 5 ∧ s.totalReward 0 = 3 ∧ s.totalReward 4 = 4 ∧
    ∑ object ∈ Finset.range s.objects, s.totalReward object =
      ((s.recordings.filterMap Recording.reward).map Prod.snd).sum ∧
    s.inferenceCount (objectNumber 1) =
      balances (s.recordings.filterMap Recording.inference) 1 := by
  obtain ⟨s, hrun, hobjects, hfirst, hsecond⟩ : ∃ s : ModelTraffic ℕ ℕ, exec step create
      [.recordInference 3, .record 0, .reload .load, .reload (.runLoader 0 (some 10)),
        .reload (.form 0 5), .reload (.recordPrevious 0), .reload .placeSlot, .record 0,
        .reload .storeCurrent, .record 0, .recordInference 4, .record 1, .record 1,
        .record 1] = some s ∧
      s.objects = 5 ∧ s.totalReward 0 = 3 ∧ s.totalReward 4 = 4 := ⟨_, rfl, rfl, rfl, rfl⟩
  have hturn : Along step InTurn (create : ModelTraffic ℕ ℕ)
      [.recordInference 3, .record 0, .reload .load, .reload (.runLoader 0 (some 10)),
        .reload (.form 0 5), .reload (.recordPrevious 0), .reload .placeSlot, .record 0,
        .reload .storeCurrent, .record 0, .recordInference 4, .record 1, .record 1,
        .record 1] :=
    along_of_step step rfl trivial <| along_of_step step rfl trivial <|
    along_of_step step rfl trivial <| along_of_step step rfl trivial <|
    along_of_step step rfl trivial <| along_of_step step rfl rfl <|
    along_of_step step rfl trivial <| along_of_step step rfl (show 1 < 0 + 4 by omega) <|
    along_of_step step rfl trivial <| along_of_step step rfl (show 1 < 0 + 4 by omega) <|
    along_of_step step rfl trivial <| along_of_step step rfl trivial <|
    along_of_step step rfl (show 1 < 1 + 4 by omega) <|
    along_of_step step rfl (show 1 < 1 + 4 by omega) <| along_nil step _ _
  obtain ⟨-, hrewards, hversions⟩ := inferences_accounted hrun
  exact ⟨s, hrun, hobjects, hfirst, hsecond, hrewards, (hversions hturn 1).1⟩

end ModelTraffic

end Synapse.Hotreload
