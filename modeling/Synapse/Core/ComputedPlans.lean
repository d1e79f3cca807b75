import Synapse.Core.Configuration
import Synapse.Foundations.Runs

/-!
# Plans that reach the configuration

Whether the plans a profile computes are accepted by `sync_config_from_profile`, over
runs of the profile's methods.

`AtomicConfig` checks the whole snapshot, and an update it rejects is dropped without a
word.  The other fields of a snapshot are valid already, so an update with a plan is
accepted exactly if the plan is in range (`validate_apply_iff`).  That leaves the plans of
1 watt that a night rounds to 0 (`plans_accepted_iff`).
-/

namespace Synapse

open Numerals Atomic Runs

/-! ## A plan and a snapshot -/

/-- A snapshot with a plan is valid if the plan is in range. -/
theorem OptimizationPlan.validate_apply_iff (plan : OptimizationPlan)
    {snap : Atomic.ConfigSnapshot} (h : snap.validate = true) :
    (plan.apply snap).validate = true ↔ plan.Acceptable := by
  rw [Atomic.ConfigSnapshot.validate_iff] at h ⊢
  obtain ⟨-, -, hrest⟩ := h
  have hpower : plan.powerBudgetWatts ≠ 0 ↔ 1 ≤ plan.powerBudgetWatts.toNat := by
    rw [ne_eq, ← UInt32.toNat_inj, Nat.one_le_iff_ne_zero]
    rfl
  constructor
  · rintro ⟨⟨hzero, hhigh⟩, ⟨hlow, hhot⟩, -⟩
    exact ⟨⟨hpower.mp hzero, UInt32.le_iff_toNat_le.mp hhigh⟩,
      ⟨UInt32.le_iff_toNat_le.mp hlow, UInt32.le_iff_toNat_le.mp hhot⟩⟩
  · rintro ⟨⟨hone, hhigh⟩, ⟨hlow, hhot⟩⟩
    exact ⟨⟨hpower.mpr hone, UInt32.le_iff_toNat_le.mpr hhigh⟩,
      ⟨UInt32.le_iff_toNat_le.mpr hlow, UInt32.le_iff_toNat_le.mpr hhot⟩, hrest⟩

/-- The plan of a profile passes the check in any configuration, the update with it is
accepted, and the configuration has its values. -/
def UserProfile.Syncs (u : UserProfile) : Prop :=
  ∀ c : ConfiguredCore, c.profile = u →
    (u.plan.apply { c.config.current with version := c.config.version + 1 }).validate = true ∧
    (c.config.update u.plan.apply).1 = true ∧
    c.syncConfigFromProfile.config.current.powerBudgetWatts = u.plan.powerBudgetWatts ∧
    c.syncConfigFromProfile.config.current.thermalTargetCelsius = u.plan.thermalTargetCelsius ∧
    c.syncConfigFromProfile.config.current.mlAggressive = u.plan.mlAggressive

/-- So a plan reaches the configuration if it is in range. -/
theorem UserProfile.syncs_iff (u : UserProfile) : u.Syncs ↔ u.plan.Acceptable := by
  have hstamped : ∀ c : ConfiguredCore,
      ({ c.config.current with version := c.config.version + 1 } :
        Atomic.ConfigSnapshot).validate = true := fun c => c.config.valid
  constructor
  · intro h
    let c : ConfiguredCore :=
      { ConfiguredCore.create ⟨true, true, true, true, true⟩ with profile := u }
    exact (u.plan.validate_apply_iff (hstamped c)).mp (h c rfl).1
  · rintro h c rfl
    have hvalid := (c.profile.plan.validate_apply_iff (hstamped c)).mpr h
    have hupdate := AtomicConfig.update_of_valid hvalid
    refine ⟨hvalid, congrArg Prod.fst hupdate, ?_⟩
    have hcurrent : c.syncConfigFromProfile.config.current =
        c.profile.plan.apply { c.config.current with version := c.config.version + 1 } :=
      congrArg (fun r => r.2.current) hupdate
    rw [hcurrent]
    exact ⟨rfl, rfl, rfl⟩

/-! ## Runs -/

namespace UserProfile

/-- The methods, with the full hours since the epoch where they read the clock. -/
inductive ProfileCall where
  | updateUsage (hours : ℕ) (stats : UsageStats)
  | setPreferences (hours : ℕ) (prefs : Preferences)
  | applyPreset (name : Text)

/-- One method of the profile, at its hour. -/
def step (u : UserProfile) : ProfileCall → Option UserProfile
  | .updateUsage hours stats => some (u.updateUsage hours stats)
  | .setPreferences hours prefs => some (u.setPreferences hours prefs)
  | .applyPreset name => some (u.applyPreset name)

/-- Preferences that are set allow 1 to 100 watts. -/
def ProfileCall.InRange : ProfileCall → Prop
  | .setPreferences _ prefs => prefs.InRange
  | _ => True

/-- The plan after the call reaches the configuration. -/
def PlanAccepted (u : UserProfile) (call : ProfileCall) : Prop :=
  ∀ u', u.step call = some u' → u'.Syncs

/-- The call does not scale 1 watt down to none. -/
def SparesOneWatt (u : UserProfile) : ProfileCall → Prop
  | .updateUsage hours stats => ¬ RoundsToZero hours stats u.prefs
  | .setPreferences hours prefs => ¬ RoundsToZero hours u.usage prefs
  | .applyPreset _ => True

/-- What holds between the calls. -/
structure Sound (u : UserProfile) : Prop where
  prefs : u.prefs.InRange
  plan : u.plan.Acceptable

/-- A preset leaves the watts of the preferences alone. -/
theorem prefs_applyPreset (name : Text) (u : UserProfile) :
    (u.applyPreset name).prefs.maxPowerWatts = u.prefs.maxPowerWatts := by
  unfold applyPreset
  split <;> rfl

/-- Preferences in range stay so, if those that are set are. -/
theorem prefs_step {u u' : UserProfile} (h : u.prefs.InRange) {call : ProfileCall}
    (hcall : call.InRange) (hstep : u.step call = some u') : u'.prefs.InRange := by
  cases call with
  | updateUsage hours stats =>
      obtain rfl := Option.some_injective _ hstep
      exact h
  | setPreferences hours prefs =>
      obtain rfl := Option.some_injective _ hstep
      exact hcall
  | applyPreset name =>
      obtain rfl := Option.some_injective _ hstep
      rw [Preferences.InRange, prefs_applyPreset]
      exact h

/-- The step lemma. -/
theorem acceptable_step_iff {u u' : UserProfile} (h : u.Sound) {call : ProfileCall}
    (hcall : call.InRange) (hstep : u.step call = some u') :
    u'.plan.Acceptable ↔ u.SparesOneWatt call := by
  cases call with
  | updateUsage hours stats =>
      obtain rfl := Option.some_injective _ hstep
      have hprefs : ({ u with usage := stats } : UserProfile).prefs.InRange := h.prefs
      exact acceptable_recomputePlan_iff hprefs hours
  | setPreferences hours prefs =>
      obtain rfl := Option.some_injective _ hstep
      have hprefs : ({ u with prefs := prefs } : UserProfile).prefs.InRange := hcall
      exact acceptable_recomputePlan_iff hprefs hours
  | applyPreset name =>
      obtain rfl := Option.some_injective _ hstep
      exact iff_of_true (acceptable_applyPreset h.plan name) trivial

/-- What a step is asked for is about the plan behind it. -/
theorem planAccepted_iff {u u' : UserProfile} {call : ProfileCall}
    (hstep : u.step call = some u') : u.PlanAccepted call ↔ u'.plan.Acceptable :=
  (forall_step_iff step hstep Syncs).trans u'.syncs_iff

/-- The default profile is in range. -/
theorem sound_default : ({} : UserProfile).Sound :=
  ⟨⟨by decide, by decide⟩, ⟨by decide, by decide⟩⟩

/-- **Plans over runs.**  Every plan reaches the configuration exactly if no call scales
1 watt down. -/
theorem plans_accepted_iff {calls : List ProfileCall} (h : ∀ call ∈ calls, call.InRange) :
    Along step PlanAccepted {} calls ↔ Along step SparesOneWatt {} calls := by
  have hcalls : Along step (fun _ call => call.InRange) {} calls :=
    fun front call back heq _ _ _ _ => h call (by rw [heq]; simp)
  refine along_iff_of_assumed step (fun u call u' hu hstep hcall => ?_)
    (fun u call u' hu hstep hcall haccepted => ?_) sound_default hcalls
  · rw [planAccepted_iff hstep, acceptable_step_iff hu hcall hstep]
  · exact ⟨prefs_step hu.prefs hcall hstep, (planAccepted_iff hstep).mp haccepted⟩

/-- One watt from noon on, kept in the evening by a user who saves battery; then a preset, and
two watts at night. -/
def savingDay : List ProfileCall :=
  [.setPreferences 12 { maxPowerWatts := 1 }, .updateUsage 23 { prefersBatteryLife := true },
    .applyPreset (ascii "silent"), .setPreferences 24 { maxPowerWatts := 2 }]

/-- Preferences of one watt, portable use at night, a preset, and other preferences. -/
theorem plans_accepted_all_day : Along step PlanAccepted {} savingDay := by
  refine (plans_accepted_iff fun call hcall => ?_).mpr ?_
  · simp only [savingDay, List.mem_cons, List.not_mem_nil, or_false] at hcall
    rcases hcall with rfl | rfl | rfl | rfl
    · exact ⟨by decide, by decide⟩
    · trivial
    · trivial
    · exact ⟨by decide, by decide⟩
  · exact along_of_step step rfl (fun h => absurd h.night (by decide)) <|
      along_of_step step rfl (fun h => absurd h.notPortable (by decide)) <|
      along_of_step step rfl trivial <|
      along_of_step step rfl (fun h => absurd h.watts (by decide)) <| along_nil step _ _

/-- One watt set at 23:00 is no configuration. -/
theorem one_watt_dropped_at_night :
    ProfileCall.InRange (.setPreferences 23 { maxPowerWatts := 1 }) ∧
      ¬ Along step PlanAccepted {} [.setPreferences 23 { maxPowerWatts := 1 }] := by
  refine ⟨⟨by decide, by decide⟩, fun h => ?_⟩
  have haccepted := h [] _ [] rfl _ _ rfl rfl
  have hplan := (planAccepted_iff rfl).mp haccepted
  exact absurd hplan.power.1 (by decide)

end UserProfile

end Synapse
