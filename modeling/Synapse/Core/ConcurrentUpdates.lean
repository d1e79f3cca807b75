import Synapse.Core.Configuration
import Synapse.Foundations.Runs

/-!
# Concurrent updates of the configuration

`AtomicConfig::update` takes five steps: load the current snapshot, load the
version, mutate and validate the copy, store it, increment the version.  Here any
number of calls take them in any order.  `apply_config_content` reads a snapshot of
its own before, and its mutation overwrites the copy with what it made of that.

A store replaces whatever is current then.  If that is the snapshot the call took
its copy from, the call might as well have run alone; if every store is like that,
the calls have taken effect one after the other (`KeepsUpdates`).  A snapshot is
numbered by a counter that other calls may not have incremented yet, and by nothing
at all if the mutation overwrites the version; so for the versions to be distinct
the counter has to have caught up at each load, and no content may be applied.

### What is numbered and what is stored

The version of a snapshot is written by its call before the store and counted behind it, so
two calls may give their snapshots one number.  The two statements are separate for this
reason: that updates are kept speaks of the contents of the snapshots (`Ordered`, under
`StoresFresh`), that versions are distinct speaks of the numbers (`Numbered`, under
`CountsFresh` as well).

The stores are recorded with their calls, and `applyAll` runs these calls one after the other
from the first snapshot.  The invariant is that the result is the current snapshot, as long as
every store replaces the snapshot that its call has taken its copy from.
-/

namespace Synapse

open Numerals Atomic Runs

/-! ## Calls and their steps -/

/-- A call that may publish a snapshot. -/
inductive UpdateCall where
  | update (mutator : Atomic.ConfigSnapshot → Atomic.ConfigSnapshot)
  | applyContent (edit : Atomic.ConfigSnapshot → Except ConversionError Atomic.ConfigSnapshot)

namespace UpdateCall

/-- The call of `sync_config_from_profile`. -/
def syncConfigFromProfile (plan : OptimizationPlan) : UpdateCall := .update plan.apply

/-- `apply_config_content`. -/
def applyConfigContent (platform : Platform) (content : Text) : UpdateCall :=
  .applyContent (applyLines platform content)

/-- The snapshot that the call is to publish in place of `snap`, given the version it
stamps; none if it is to throw or to return false. -/
def applied (stamp : UInt64) (snap : Atomic.ConfigSnapshot) :
    UpdateCall → Option Atomic.ConfigSnapshot
  | update mutator => Option.guard Atomic.ConfigSnapshot.validate
      (mutator { snap with version := stamp })
  | applyContent edit => (edit snap).toOption.bind
      (Option.guard Atomic.ConfigSnapshot.validate)

end UpdateCall

/-- How far a call has come, with its local variables.  `seen` is how many snapshots
had been replaced when the call took the copy that it goes by. -/
inductive Stage where
  | called
  | hasRead (edited : Atomic.ConfigSnapshot) (seen : ℕ)
  | loaded (mutator : Atomic.ConfigSnapshot → Atomic.ConfigSnapshot)
      (copy : Atomic.ConfigSnapshot) (seen : ℕ)
  | stamped (mutator : Atomic.ConfigSnapshot → Atomic.ConfigSnapshot)
      (copy : Atomic.ConfigSnapshot) (seen : ℕ)
  | validated (new : Atomic.ConfigSnapshot) (stamp : UInt64) (seen : ℕ)
  | stored
  | returned (result : Bool)

/-- The call has published a snapshot. -/
def Stage.hasStored : Stage → Bool
  | stored => true
  | returned result => result
  | _ => false

/-- A call under way. -/
structure Running where
  call : UpdateCall
  stage : Stage

/-- A store: whose it was, and the version stamped on the copy. -/
structure Store where
  id : ℕ
  call : UpdateCall
  stamp : UInt64

/-- `current_` and `version_`, the calls, and the history: the snapshots that were
current before, the latest first, and the stores in order. -/
structure SharedConfig where
  current : Atomic.ConfigSnapshot
  version : UInt64
  running : ℕ → Option Running
  earlier : List Atomic.ConfigSnapshot
  stores : List Store

/-- A call begins under an id of its own, or the one with this id goes on. -/
inductive Action where
  | call (id : ℕ) (call : UpdateCall)
  | advance (id : ℕ)

namespace SharedConfig

/-- The constructor, before any call. -/
def create : SharedConfig where
  current := AtomicConfig.create.current
  version := AtomicConfig.create.version
  running _ := none
  earlier := []
  stores := []

/-- A call gets to a stage. -/
def moveTo (s : SharedConfig) (id : ℕ) (call : UpdateCall) (stage : Stage) : SharedConfig :=
  { s with running := Function.update s.running id (some ⟨call, stage⟩) }

/-- A call stores its snapshot. -/
def publish (s : SharedConfig) (id : ℕ) (call : UpdateCall) (new : Atomic.ConfigSnapshot)
    (stamp : UInt64) : SharedConfig :=
  { s.moveTo id call .stored with
    current := new
    earlier := s.current :: s.earlier
    stores := s.stores ++ [⟨id, call, stamp⟩] }

/-- A store is recorded. -/
@[simp] theorem publish_stores (s : SharedConfig) (id : ℕ) (call : UpdateCall)
    (new : Atomic.ConfigSnapshot) (stamp : UInt64) :
    (s.publish id call new stamp).stores = s.stores ++ [⟨id, call, stamp⟩] := rfl

/-- The counter is not the store's business. -/
@[simp] theorem publish_version (s : SharedConfig) (id : ℕ) (call : UpdateCall)
    (new : Atomic.ConfigSnapshot) (stamp : UInt64) :
    (s.publish id call new stamp).version = s.version := rfl

/-- The stored snapshot is current. -/
@[simp] theorem publish_current (s : SharedConfig) (id : ℕ) (call : UpdateCall)
    (new : Atomic.ConfigSnapshot) (stamp : UInt64) :
    (s.publish id call new stamp).current = new := rfl

/-- The one before it is not. -/
@[simp] theorem publish_earlier (s : SharedConfig) (id : ℕ) (call : UpdateCall)
    (new : Atomic.ConfigSnapshot) (stamp : UInt64) :
    (s.publish id call new stamp).earlier = s.current :: s.earlier := rfl

/-- The call goes on behind its store. -/
@[simp] theorem publish_running (s : SharedConfig) (id : ℕ) (call : UpdateCall)
    (new : Atomic.ConfigSnapshot) (stamp : UInt64) :
    (s.publish id call new stamp).running =
      Function.update s.running id (some ⟨call, .stored⟩) := rfl

/-- One step of one call, by its stage. -/
def step (s : SharedConfig) : Action → Option SharedConfig
  | .call id call => if (s.running id).isNone then some (s.moveTo id call .called) else none
  | .advance id =>
      match s.running id with
      | none => none
      | some ⟨call, .called⟩ =>
          match call with
          | .update mutator => some (s.moveTo id call (.loaded mutator s.current s.earlier.length))
          | .applyContent edit =>
              some (s.moveTo id call (match edit s.current with
                | .ok edited => .hasRead edited s.earlier.length
                -- the exception leaves the call, nothing has been published
                | .error _ => .returned false))
      | some ⟨call, .hasRead edited seen⟩ =>
          some (s.moveTo id call (.loaded (fun _ => edited) s.current seen))
      | some ⟨call, .loaded mutator copy seen⟩ =>
          some (s.moveTo id call (.stamped mutator { copy with version := s.version + 1 } seen))
      | some ⟨call, .stamped mutator copy seen⟩ =>
          some (s.moveTo id call
            (if (mutator copy).validate then .validated (mutator copy) copy.version seen
              else .returned false))
      | some ⟨call, .validated new stamp _⟩ =>
          some (s.publish id call new stamp)
      | some ⟨call, .stored⟩ =>
          some { s.moveTo id call (.returned true) with version := s.version + 1 }
      | some ⟨_, .returned _⟩ => none

/-! ### The steps -/

/-- A call gets from one stage to the next, and stores nothing. -/
inductive Moves (s : SharedConfig) : UpdateCall → Stage → Stage → Prop
  | load (mutator) : Moves s (.update mutator) .called (.loaded mutator s.current s.earlier.length)
  | read (edit edited) (h : edit s.current = .ok edited) :
      Moves s (.applyContent edit) .called (.hasRead edited s.earlier.length)
  | throw (edit e) (h : edit s.current = .error e) :
      Moves s (.applyContent edit) .called (.returned false)
  | loadAgain {call} (edited seen) :
      Moves s call (.hasRead edited seen) (.loaded (fun _ => edited) s.current seen)
  | stamp {call} (mutator copy seen) : Moves s call (.loaded mutator copy seen)
      (.stamped mutator { copy with version := s.version + 1 } seen)
  | validate {call} (mutator copy seen) (h : (mutator copy).validate = true) :
      Moves s call (.stamped mutator copy seen) (.validated (mutator copy) copy.version seen)
  | reject {call} (mutator copy seen) (h : (mutator copy).validate = false) :
      Moves s call (.stamped mutator copy seen) (.returned false)
  | count {call} : Moves s call .stored (.returned true)

/-- What a step can do. -/
inductive Stepped (s : SharedConfig) : Action → SharedConfig → Prop
  | call {id call} (hfree : s.running id = none) :
      Stepped s (.call id call) (s.moveTo id call .called)
  | store {id call new stamp seen} (hold : s.running id = some ⟨call, .validated new stamp seen⟩) :
      Stepped s (.advance id) (s.publish id call new stamp)
  | move {id call old stage s'} (hold : s.running id = some ⟨call, old⟩)
      (hcurrent : s'.current = s.current) (hearlier : s'.earlier = s.earlier)
      (hstores : s'.stores = s.stores)
      (hrunning : s'.running = Function.update s.running id (some ⟨call, stage⟩))
      (hmoves : s.Moves call old stage) : Stepped s (.advance id) s'

variable {s s' : SharedConfig}

/-- The shapes that a step can have. -/
theorem stepped_of_step {a : Action} (h : s.step a = some s') : s.Stepped a s' := by
  cases a with
  | call id call =>
      obtain ⟨hfree, hs'⟩ := Option.ite_none_right_eq_some.mp h
      obtain rfl := Option.some_injective _ hs'
      exact .call (Option.isNone_iff_eq_none.mp hfree)
  | advance id =>
      cases hrunning : s.running id with
      | none =>
          simp only [step, hrunning] at h
          cases h
      | some r =>
          obtain ⟨call, stage⟩ := r
          cases stage with
          | called =>
              cases call with
              | update mutator =>
                  simp only [step, hrunning] at h
                  obtain rfl := Option.some_injective _ h
                  exact .move hrunning rfl rfl rfl rfl (.load mutator)
              | applyContent edit =>
                  simp only [step, hrunning] at h
                  obtain rfl := Option.some_injective _ h
                  cases hedit : edit s.current with
                  | ok edited => exact .move hrunning rfl rfl rfl rfl (.read edit edited hedit)
                  | error e => exact .move hrunning rfl rfl rfl rfl (.throw edit e hedit)
          | hasRead edited seen =>
              simp only [step, hrunning] at h
              obtain rfl := Option.some_injective _ h
              exact .move hrunning rfl rfl rfl rfl (.loadAgain edited seen)
          | loaded mutator copy seen =>
              simp only [step, hrunning] at h
              obtain rfl := Option.some_injective _ h
              exact .move hrunning rfl rfl rfl rfl (.stamp mutator copy seen)
          | stamped mutator copy seen =>
              simp only [step, hrunning] at h
              obtain rfl := Option.some_injective _ h
              cases hvalid : (mutator copy).validate with
              | true => exact .move hrunning rfl rfl rfl rfl (.validate mutator copy seen hvalid)
              | false => exact .move hrunning rfl rfl rfl rfl (.reject mutator copy seen hvalid)
          | validated new stamp seen =>
              simp only [step, hrunning] at h
              obtain rfl := Option.some_injective _ h
              exact .store hrunning
          | stored =>
              simp only [step, hrunning] at h
              obtain rfl := Option.some_injective _ h
              exact .move hrunning rfl rfl rfl rfl .count
          | returned result =>
              simp only [step, hrunning] at h
              cases h

/-! ### One call alone -/

/-- **Alone**, the steps of a call are those of `AtomicConfig.update`. -/
theorem alone_eq_update (config : AtomicConfig) {id : ℕ} (hcurrent : s.current = config.current)
    (hversion : s.version = config.version) (hfree : s.running id = none)
    (mutator : Atomic.ConfigSnapshot → Atomic.ConfigSnapshot) :
    ∃ n, (exec step s (.call id (.update mutator) :: List.replicate n (.advance id))).map
        (fun s' => (s'.current, s'.version, s'.running id)) =
      some ((config.update mutator).2.current, (config.update mutator).2.version,
        some ⟨.update mutator, .returned (config.update mutator).1⟩) := by
  cases hvalid : (mutator { config.current with version := config.version + 1 }).validate with
  | true =>
      refine ⟨5, ?_⟩
      rw [AtomicConfig.update_of_valid hvalid]
      simp [exec, step, moveTo, hfree, hcurrent, hversion, hvalid]
  | false =>
      refine ⟨3, ?_⟩
      rw [AtomicConfig.update, dif_neg (by simp [hvalid])]
      simp [exec, step, moveTo, hfree, hcurrent, hversion, hvalid]

/-! ## What is asked -/

/-- All calls have returned. -/
def AtRest (s : SharedConfig) : Prop :=
  ∀ id r, s.running id = some r → ∃ result, r.stage = .returned result

/-- Calls taking effect one after the other, each of them publishing. -/
def applyAll (stores : List Store) (snap : Atomic.ConfigSnapshot) :
    Option Atomic.ConfigSnapshot :=
  stores.foldlM (fun snap store => store.call.applied store.stamp snap) snap

/-- The calls that returned true have stored once each, and the current snapshot is
what they make of the first one in some order. -/
structure KeepsUpdates (s : SharedConfig) : Prop where
  once : (s.stores.map Store.id).Nodup
  succeeded : ∀ id call, (∃ stamp, ⟨id, call, stamp⟩ ∈ s.stores) ↔
    s.running id = some ⟨call, .returned true⟩
  serial : ∃ order : List Store, order.Perm s.stores ∧
    applyAll order AtomicConfig.create.current = some s.current

/-- No two snapshots that were ever current have the same version. -/
def VersionsDistinct (s : SharedConfig) : Prop :=
  ((s.current :: s.earlier).map Atomic.ConfigSnapshot.version).Nodup

/-- A store replaces the snapshot that the call took its copy from. -/
def StoresFresh (s : SharedConfig) : Action → Prop
  | .call _ _ => True
  | .advance id =>
      match s.running id with
      | some ⟨_, .validated _ _ seen⟩ => seen = s.earlier.length
      | _ => True

/-- The version is loaded when every store has been counted, and a snapshot is
stored with the version it was stamped with, which is not past the largest. -/
def CountsFresh (s : SharedConfig) : Action → Prop
  | .call _ _ => True
  | .advance id =>
      match s.running id with
      | some ⟨_, .loaded _ _ _⟩ => s.version.toNat = s.earlier.length
      | some ⟨_, .validated new stamp _⟩ =>
          new.version = stamp ∧ s.earlier.length + 1 < 2 ^ 64
      | _ => True

/-! ## The order of the stores -/

/-- If the call's copy was taken from the current snapshot, the call makes of it what
it would make of the current snapshot. -/
def Fits (s : SharedConfig) (r : Running) : Prop :=
  match r.stage with
  | .hasRead edited seen => seen ≤ s.earlier.length ∧ (seen = s.earlier.length → ∀ stamp,
      r.call.applied stamp s.current = Option.guard Atomic.ConfigSnapshot.validate edited)
  | .loaded mutator copy seen => seen ≤ s.earlier.length ∧ (seen = s.earlier.length → ∀ stamp,
      r.call.applied stamp s.current = Option.guard Atomic.ConfigSnapshot.validate
        (mutator { copy with version := stamp }))
  | .stamped mutator copy seen => seen ≤ s.earlier.length ∧ (seen = s.earlier.length →
      r.call.applied copy.version s.current = Option.guard Atomic.ConfigSnapshot.validate
        (mutator copy))
  | .validated new stamp seen => seen ≤ s.earlier.length ∧ (seen = s.earlier.length →
      r.call.applied stamp s.current = some new)
  | _ => True

/-- What every run keeps whose stores replace what their calls have loaded. -/
structure Ordered (s : SharedConfig) : Prop where
  fits : ∀ id r, s.running id = some r → s.Fits r
  current : applyAll s.stores AtomicConfig.create.current = some s.current
  once : (s.stores.map Store.id).Nodup
  booked : ∀ id call, (∃ stamp, ⟨id, call, stamp⟩ ∈ s.stores) ↔
    ∃ stage, s.running id = some ⟨call, stage⟩ ∧ stage.hasStored = true

/-- It holds before any call. -/
theorem ordered_create : create.Ordered where
  fits _ _ h := nomatch h
  current := rfl
  once := List.nodup_nil
  booked _ _ := iff_of_false (fun ⟨_, h⟩ => List.not_mem_nil h) (fun ⟨_, h, _⟩ => nomatch h)

/-- What a call has loaded stays loaded. -/
theorem fits_congr (hcurrent : s'.current = s.current) (hearlier : s'.earlier = s.earlier)
    (r : Running) : s'.Fits r ↔ s.Fits r := by
  unfold Fits
  rw [hcurrent, hearlier]

/-- Nothing of what was taken from the snapshots before is fresh after a store. -/
theorem fits_of_stored (h : s.earlier.length < s'.earlier.length) {r : Running} (hr : s.Fits r) :
    s'.Fits r := by
  obtain ⟨call, stage⟩ := r
  cases stage with
  | called => trivial
  | hasRead edited seen => exact ⟨hr.1.trans h.le, fun heq => absurd (heq ▸ hr.1) (by omega)⟩
  | loaded mutator copy seen =>
      exact ⟨hr.1.trans h.le, fun heq => absurd (heq ▸ hr.1) (by omega)⟩
  | stamped mutator copy seen =>
      exact ⟨hr.1.trans h.le, fun heq => absurd (heq ▸ hr.1) (by omega)⟩
  | validated new stamp seen =>
      exact ⟨hr.1.trans h.le, fun heq => absurd (heq ▸ hr.1) (by omega)⟩
  | stored => trivial
  | returned result => trivial

/-- What every call satisfies, and the one that gets on. -/
theorem forall_running_update {P : Running → Prop} {id : ℕ} {running : ℕ → Option Running}
    (h : ∀ id r, running id = some r → P r) {r : Running} (hr : P r) (id' : ℕ) (r' : Running)
    (hr' : Function.update running id (some r) id' = some r') : P r' := by
  by_cases hid : id' = id
  · subst hid
    rw [Function.update_self] at hr'
    obtain rfl := Option.some_injective _ hr'
    exact hr
  · rw [Function.update_of_ne hid] at hr'
    exact h id' r' hr'

/-- One call gets on, and neither stores nor forgets that it has stored. -/
theorem Ordered.move (h : s.Ordered) {id : ℕ} {call : UpdateCall} {stage : Stage}
    (hcurrent : s'.current = s.current) (hearlier : s'.earlier = s.earlier)
    (hstores : s'.stores = s.stores)
    (hrunning : s'.running = Function.update s.running id (some ⟨call, stage⟩))
    (hfits : s.Fits ⟨call, stage⟩)
    (hstored : ∀ call', (∃ old, s.running id = some ⟨call', old⟩ ∧ old.hasStored = true) ↔
      call = call' ∧ stage.hasStored = true) : s'.Ordered where
  fits id' r hr := by
    rw [hrunning] at hr
    exact (fits_congr hcurrent hearlier r).mpr (forall_running_update h.fits hfits id' r hr)
  current := by rw [hcurrent, hstores, h.current]
  once := by rw [hstores]; exact h.once
  booked id' call' := by
    rw [hstores, h.booked, hrunning]
    by_cases hid : id' = id
    · subst hid
      rw [Function.update_self, hstored]
      constructor
      · rintro ⟨rfl, hstage⟩
        exact ⟨stage, rfl, hstage⟩
      · rintro ⟨stage', heq, hstage⟩
        obtain ⟨rfl, rfl⟩ := Running.mk.inj (Option.some_injective _ heq)
        exact ⟨rfl, hstage⟩
    · rw [Function.update_of_ne hid]

/-- A call that had started gets on. -/
theorem Ordered.advance (h : s.Ordered) {id : ℕ} {call : UpdateCall} {old stage : Stage}
    (hold : s.running id = some ⟨call, old⟩) (hcurrent : s'.current = s.current)
    (hearlier : s'.earlier = s.earlier) (hstores : s'.stores = s.stores)
    (hrunning : s'.running = Function.update s.running id (some ⟨call, stage⟩))
    (hfits : s.Fits ⟨call, stage⟩) (hsame : stage.hasStored = old.hasStored) : s'.Ordered := by
  refine h.move hcurrent hearlier hstores hrunning hfits fun call' => ?_
  rw [hold, hsame]
  constructor
  · rintro ⟨old', heq, hstored⟩
    obtain ⟨rfl, rfl⟩ := Running.mk.inj (Option.some_injective _ heq)
    exact ⟨rfl, hstored⟩
  · rintro ⟨rfl, hstored⟩
    exact ⟨old, rfl, hstored⟩

/-- A fresh store takes effect after all the others. -/
theorem Ordered.store (h : s.Ordered) {id : ℕ} {call : UpdateCall} {new : Atomic.ConfigSnapshot}
    {stamp : UInt64} {seen : ℕ} (hold : s.running id = some ⟨call, .validated new stamp seen⟩)
    (hfresh : seen = s.earlier.length) : (s.publish id call new stamp).Ordered where
  fits := forall_running_update
    (fun id' r hr => fits_of_stored (Nat.lt_succ_self _) (h.fits id' r hr)) trivial
  current := by
    have hnew : call.applied stamp s.current = some new := (h.fits id _ hold).2 hfresh
    rw [publish_stores, applyAll, List.foldlM_append, ← applyAll, h.current]
    simpa using hnew
  once := by
    have hnot : id ∉ s.stores.map Store.id := by
      intro hmem
      obtain ⟨store, hstore, rfl⟩ := List.mem_map.mp hmem
      obtain ⟨stage, heq, hstored⟩ := (h.booked store.id store.call).mp ⟨store.stamp, hstore⟩
      rw [hold] at heq
      obtain ⟨-, rfl⟩ := Running.mk.inj (Option.some_injective _ heq)
      cases hstored
    rw [publish_stores, List.map_append, List.map_singleton, ← List.concat_eq_append]
    exact h.once.concat hnot
  booked id' call' := by
    rw [publish_running]
    simp only [publish_stores, List.mem_append, List.mem_singleton, exists_or, h.booked id' call']
    by_cases hid : id' = id
    · subst hid
      rw [Function.update_self, hold]
      constructor
      · rintro (⟨stage, heq, hstored⟩ | ⟨stamp', heq⟩)
        · obtain ⟨-, rfl⟩ := Running.mk.inj (Option.some_injective _ heq)
          cases hstored
        · obtain ⟨-, rfl, -⟩ := Store.mk.inj heq
          exact ⟨.stored, rfl, rfl⟩
      · rintro ⟨stage, heq, -⟩
        obtain ⟨rfl, -⟩ := Running.mk.inj (Option.some_injective _ heq)
        exact Or.inr ⟨stamp, rfl⟩
    · rw [Function.update_of_ne hid]
      refine or_iff_left ?_
      rintro ⟨stamp', heq⟩
      exact hid (Store.mk.inj heq).1

/-- **One step.** -/
theorem ordered_step {a : Action} (h : s.Ordered) (hstep : s.step a = some s')
    (hfresh : s.StoresFresh a) : s'.Ordered := by
  cases stepped_of_step hstep with
  | call hfree =>
      refine h.move rfl rfl rfl rfl trivial fun call' => iff_of_false ?_ nofun
      rintro ⟨old, heq, -⟩
      rw [hfree] at heq
      cases heq
  | store hold =>
      simp only [StoresFresh, hold] at hfresh
      exact h.store hold hfresh
  | @move id call _ _ _ hold hcurrent hearlier hstores hrunning hmoves =>
      have hfits := h.fits id _ hold
      cases hmoves with
      | load mutator =>
          exact h.advance hold hcurrent hearlier hstores hrunning ⟨le_rfl, fun _ _ => rfl⟩ rfl
      | read edit edited hedit =>
          have happlied (stamp : UInt64) : (UpdateCall.applyContent edit).applied stamp s.current =
              Option.guard Atomic.ConfigSnapshot.validate edited := by
            rw [UpdateCall.applied, hedit]
            rfl
          exact h.advance hold hcurrent hearlier hstores hrunning ⟨le_rfl, fun _ => happlied⟩ rfl
      | throw edit e hedit => exact h.advance hold hcurrent hearlier hstores hrunning trivial rfl
      | loadAgain edited seen =>
          exact h.advance hold hcurrent hearlier hstores hrunning hfits rfl
      | stamp mutator copy seen =>
          exact h.advance hold hcurrent hearlier hstores hrunning
            ⟨hfits.1, fun heq => hfits.2 heq _⟩ rfl
      | validate mutator copy seen hvalid =>
          have happlied (heq : seen = s.earlier.length) :
              call.applied copy.version s.current = some (mutator copy) := by
            rw [hfits.2 heq, Option.guard, if_pos hvalid]
          exact h.advance hold hcurrent hearlier hstores hrunning ⟨hfits.1, happlied⟩ rfl
      | reject mutator copy seen hvalid =>
          exact h.advance hold hcurrent hearlier hstores hrunning trivial rfl
      | count => exact h.advance hold hcurrent hearlier hstores hrunning trivial rfl

/-! ## The numbers of the snapshots -/

/-- If no store has come since the copy was taken, it is stamped with the number of
the snapshots so far. -/
def StampFits (s : SharedConfig) (r : Running) : Prop :=
  match r.stage with
  | .stamped _ copy seen => seen = s.earlier.length →
      copy.version = UInt64.ofNat (s.earlier.length + 1)
  | .validated _ stamp seen => seen = s.earlier.length →
      stamp = UInt64.ofNat (s.earlier.length + 1)
  | _ => True

/-- The snapshots are numbered from zero on. -/
structure Numbered (s : SharedConfig) : Prop where
  ordered : s.Ordered
  stamps : ∀ id r, s.running id = some r → s.StampFits r
  versions : (s.current :: s.earlier).map (fun snap => snap.version.toNat) =
    (List.range (s.earlier.length + 1)).reverse

/-- The numbers before any call. -/
theorem numbered_create : create.Numbered where
  ordered := ordered_create
  stamps _ _ h := nomatch h
  versions := rfl

/-- Ordered numbers are distinct. -/
theorem Numbered.versionsDistinct (h : s.Numbered) : s.VersionsDistinct := by
  have hnodup : ((s.current :: s.earlier).map fun snap => snap.version.toNat).Nodup := by
    rw [h.versions]
    exact List.nodup_reverse.mpr List.nodup_range
  rw [VersionsDistinct]
  refine List.Nodup.of_map UInt64.toNat ?_
  rw [List.map_map]
  exact hnodup

/-- A number that a call has loaded stays the one it has loaded. -/
theorem stampFits_congr (hearlier : s'.earlier = s.earlier) (r : Running) :
    s'.StampFits r ↔ s.StampFits r := by
  unfold StampFits
  rw [hearlier]

/-- A copy taken before a store is not fresh after it. -/
theorem stampFits_of_stored (h : s.earlier.length < s'.earlier.length) {r : Running}
    (hr : s.Fits r) : s'.StampFits r := by
  obtain ⟨call, stage⟩ := r
  cases stage with
  | stamped mutator copy seen => exact fun heq => absurd (heq ▸ hr.1) (by omega)
  | validated new stamp seen => exact fun heq => absurd (heq ▸ hr.1) (by omega)
  | called => trivial
  | hasRead edited seen => trivial
  | loaded mutator copy seen => trivial
  | stored => trivial
  | returned result => trivial

/-- One call gets on, and does not store. -/
theorem Numbered.move (h : s.Numbered) {id : ℕ} {call : UpdateCall} {stage : Stage}
    (hordered : s'.Ordered) (hcurrent : s'.current = s.current)
    (hearlier : s'.earlier = s.earlier)
    (hrunning : s'.running = Function.update s.running id (some ⟨call, stage⟩))
    (hstamp : s.StampFits ⟨call, stage⟩) : s'.Numbered where
  ordered := hordered
  stamps id' r hr := by
    rw [hrunning] at hr
    exact (stampFits_congr hearlier r).mpr (forall_running_update h.stamps hstamp id' r hr)
  versions := by rw [hcurrent, hearlier]; exact h.versions

/-- The next number, when all stores have been counted. -/
theorem next_version (h : s.version.toNat = s.earlier.length) :
    s.version + 1 = UInt64.ofNat (s.earlier.length + 1) := by
  rw [← h, UInt64.ofNat_add, UInt64.ofNat_toNat]
  rfl

/-- A fresh store of a snapshot with the number stamped on it. -/
theorem Numbered.store (h : s.Numbered) {id : ℕ} {call : UpdateCall}
    {new : Atomic.ConfigSnapshot} {stamp : UInt64} {seen : ℕ}
    (hold : s.running id = some ⟨call, .validated new stamp seen⟩)
    (hfresh : seen = s.earlier.length) (hversion : new.version = stamp)
    (hbound : s.earlier.length + 1 < 2 ^ 64) : (s.publish id call new stamp).Numbered where
  ordered := h.ordered.store hold hfresh
  stamps := forall_running_update
    (fun id' r hr => stampFits_of_stored (Nat.lt_succ_self _) (h.ordered.fits id' r hr)) trivial
  versions := by
    have hstamp : stamp = UInt64.ofNat (s.earlier.length + 1) := h.stamps id _ hold hfresh
    have hnumber : new.version.toNat = s.earlier.length + 1 := by
      rw [hversion, hstamp, UInt64.toNat_ofNat_of_lt' hbound]
    rw [publish_current, publish_earlier, List.map_cons, hnumber, h.versions, List.length_cons,
      List.range_succ (n := s.earlier.length + 1), List.reverse_append]
    rfl

/-- **One step.** -/
theorem numbered_step {a : Action} (h : s.Numbered) (hstep : s.step a = some s')
    (hfresh : s.StoresFresh a) (hcount : s.CountsFresh a) : s'.Numbered := by
  have hordered : s'.Ordered := ordered_step h.ordered hstep hfresh
  cases stepped_of_step hstep with
  | call hfree => exact h.move hordered rfl rfl rfl trivial
  | store hold =>
      simp only [StoresFresh, hold] at hfresh
      simp only [CountsFresh, hold] at hcount
      exact h.store hold hfresh hcount.1 hcount.2
  | move hold hcurrent hearlier hstores hrunning hmoves =>
      have hstamp := h.stamps _ _ hold
      refine h.move hordered hcurrent hearlier hrunning ?_
      cases hmoves with
      | stamp mutator copy seen =>
          simp only [CountsFresh, hold] at hcount
          exact fun _ => next_version hcount
      | validate mutator copy seen hvalid => exact hstamp
      | load mutator => trivial
      | read edit edited hedit => trivial
      | throw edit e hedit => trivial
      | loadAgain edited seen => trivial
      | reject mutator copy seen hvalid => trivial
      | count => trivial

/-! ## Whole runs -/

/-- At rest, having stored is having returned true. -/
theorem Ordered.keepsUpdates (h : s.Ordered) (hrest : s.AtRest) : s.KeepsUpdates where
  once := h.once
  succeeded id call := by
    rw [h.booked]
    constructor
    · rintro ⟨stage, hrunning, hstored⟩
      obtain ⟨result, hresult⟩ := hrest id _ hrunning
      obtain rfl : stage = .returned result := hresult
      obtain rfl : result = true := hstored
      exact hrunning
    · intro hrunning
      exact ⟨_, hrunning, rfl⟩
  serial := ⟨s.stores, .rfl, h.current⟩

/-- **Any number of calls**, in any order of their steps. -/
theorem updates_kept {actions : List Action} (h : exec step create actions = some s)
    (hfresh : Along step StoresFresh create actions) :
    (s.AtRest → s.KeepsUpdates) ∧
      (Along step CountsFresh create actions → s.VersionsDistinct) := by
  constructor
  · have hordered : s.Ordered :=
      invariant_of_along step (fun _ _ _ hs ha hP => ordered_step hs ha hP) ordered_create hfresh h
    exact hordered.keepsUpdates
  · intro hcount
    have hboth : Along step (fun s a => s.StoresFresh a ∧ s.CountsFresh a) create actions :=
      fun front a back heq s₁ s₂ hexec hstep =>
        ⟨hfresh front a back heq s₁ s₂ hexec hstep, hcount front a back heq s₁ s₂ hexec hstep⟩
    have hnumbered : s.Numbered :=
      invariant_of_along step (fun _ _ _ hs ha hP => numbered_step hs ha hP.1 hP.2)
        numbered_create hboth h
    exact hnumbered.versionsDistinct

/-- Two calls that have returned, and no others. -/
theorem atRest_of_two {call₀ call₁ : UpdateCall} {result₀ result₁ : Bool}
    (h₀ : s.running 0 = some ⟨call₀, .returned result₀⟩)
    (h₁ : s.running 1 = some ⟨call₁, .returned result₁⟩)
    (hothers : ∀ id, id ≠ 0 → id ≠ 1 → s.running id = none) : s.AtRest := by
  intro id r hr
  by_cases hzero : id = 0
  · subst hzero
    obtain rfl := Option.some_injective _ (hr.symm.trans h₀)
    exact ⟨result₀, rfl⟩
  by_cases hone : id = 1
  · subst hone
    obtain rfl := Option.some_injective _ (hr.symm.trans h₁)
    exact ⟨result₁, rfl⟩
  exact absurd (hr.symm.trans (hothers id hzero hone)) (Option.some_ne_none r)

/-- The second call loads the snapshot that the first has just stored, and waits with the
version until the first has counted.  The steps overlap, and both calls take effect: a
preset over a saved file, and two updates with versions of their own. -/
theorem overlapping_updates_kept :
    let reload := UpdateCall.applyConfigContent .quiet64 (ascii "jit_enabled = false\n")
    let preset := UpdateCall.syncConfigFromProfile
      (UserProfile.applyPreset (ascii "performance") {}).plan
    let budget := UpdateCall.update fun snap => { snap with powerBudgetWatts := 20 }
    let target := UpdateCall.update fun snap => { snap with thermalTargetCelsius := 70 }
    (∃ s, exec step create [.call 0 reload, .call 1 preset, .advance 0, .advance 0, .advance 0,
        .advance 0, .advance 0, .advance 1, .advance 0, .advance 1, .advance 1, .advance 1,
        .advance 1] = some s ∧
      s.current.jitEnabled = false ∧ s.current.powerBudgetWatts = 25 ∧ s.KeepsUpdates) ∧
    ∃ s, exec step create [.call 0 budget, .call 1 target, .advance 0, .advance 0, .advance 0,
        .advance 0, .advance 1, .advance 0, .advance 1, .advance 1, .advance 1,
        .advance 1] = some s ∧
      s.current.powerBudgetWatts = 20 ∧ s.current.thermalTargetCelsius = 70 ∧
        s.KeepsUpdates ∧ s.VersionsDistinct := by
  intro reload preset budget target
  constructor
  · refine ⟨_, rfl, rfl, rfl, ?_⟩
    have hfresh : Along step StoresFresh create [.call 0 reload, .call 1 preset, .advance 0,
        .advance 0, .advance 0, .advance 0, .advance 0, .advance 1, .advance 0, .advance 1,
        .advance 1, .advance 1, .advance 1] :=
      along_of_step step rfl trivial <| along_of_step step rfl trivial <|
        along_of_step step rfl trivial <| along_of_step step rfl trivial <|
        along_of_step step rfl trivial <| along_of_step step rfl trivial <|
        along_of_step step rfl rfl <| along_of_step step rfl trivial <|
        along_of_step step rfl trivial <| along_of_step step rfl trivial <|
        along_of_step step rfl trivial <| along_of_step step rfl rfl <|
        along_of_step step rfl trivial <| along_nil step _ _
    refine (updates_kept rfl hfresh).1 (atRest_of_two rfl rfl fun id h₀ h₁ => ?_)
    simp [h₀, h₁, create, moveTo, publish]
  · refine ⟨_, rfl, rfl, rfl, ?_⟩
    have hfresh : Along step StoresFresh create [.call 0 budget, .call 1 target, .advance 0,
        .advance 0, .advance 0, .advance 0, .advance 1, .advance 0, .advance 1, .advance 1,
        .advance 1, .advance 1] :=
      along_of_step step rfl trivial <| along_of_step step rfl trivial <|
        along_of_step step rfl trivial <| along_of_step step rfl trivial <|
        along_of_step step rfl trivial <| along_of_step step rfl rfl <|
        along_of_step step rfl trivial <| along_of_step step rfl trivial <|
        along_of_step step rfl trivial <| along_of_step step rfl trivial <|
        along_of_step step rfl rfl <| along_of_step step rfl trivial <| along_nil step _ _
    have hcount : Along step CountsFresh create [.call 0 budget, .call 1 target, .advance 0,
        .advance 0, .advance 0, .advance 0, .advance 1, .advance 0, .advance 1, .advance 1,
        .advance 1, .advance 1] :=
      along_of_step step rfl trivial <| along_of_step step rfl trivial <|
        along_of_step step rfl trivial <| along_of_step step rfl rfl <|
        along_of_step step rfl trivial <| along_of_step step rfl ⟨rfl, by decide⟩ <|
        along_of_step step rfl trivial <| along_of_step step rfl trivial <|
        along_of_step step rfl rfl <| along_of_step step rfl trivial <|
        along_of_step step rfl ⟨rfl, by decide⟩ <| along_of_step step rfl trivial <|
        along_nil step _ _
    obtain ⟨hkept, hdistinct⟩ := updates_kept rfl hfresh
    refine ⟨hkept (atRest_of_two rfl rfl fun id h₀ h₁ => ?_), hdistinct hcount⟩
    simp [h₀, h₁, create, moveTo, publish]

/-- A preset is applied while a saved file is being applied, and is lost. -/
theorem preset_lost :
    let reload := UpdateCall.applyConfigContent .quiet64
      (ascii "jit_enabled = false\n")
    let preset := UpdateCall.syncConfigFromProfile
      (UserProfile.applyPreset (ascii "performance") {}).plan
    ∃ s, exec step create ([Action.call 0 reload, Action.advance 0, Action.call 1 preset] ++
        List.replicate 5 (Action.advance 1) ++ List.replicate 5 (Action.advance 0)) = some s ∧
      s.AtRest ∧ ¬ s.KeepsUpdates ∧ ¬ s.VersionsDistinct := by
  intro reload preset
  refine ⟨_, rfl, ?_, ?_, ?_⟩
  · refine atRest_of_two rfl rfl fun id h₀ h₁ => ?_
    simp [h₀, h₁, create, moveTo, publish]
  · rintro ⟨-, -, order, hperm, hresult⟩
    -- both orders end with the preset's power budget
    have hpower := congrArg (Option.map Atomic.ConfigSnapshot.powerBudgetWatts) hresult
    obtain rfl | rfl := List.perm_pair.mp hperm
    · exact absurd (show some (25 : UInt32) = some 15 from hpower) (by decide)
    · exact absurd (show some (25 : UInt32) = some 15 from hpower) (by decide)
  · intro hdistinct
    exact absurd (show ([0, 1, 0] : List UInt64).Nodup from hdistinct) (by decide)

end SharedConfig

end Synapse
