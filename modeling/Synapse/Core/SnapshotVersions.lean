import Synapse.Core.Configuration
import Synapse.Foundations.Runs

/-!
# The version a snapshot carries

`AtomicConfig` counts the snapshots it publishes and stamps the count on each.
Whether the current snapshot carries the count, over runs of the calls that update
the configuration.

The stamp is put on the copy before it is mutated.  `sync_config_from_profile` leaves
it there.  `apply_config_content` assigns a whole snapshot that it read before, and
with it the old version.  So a run keeps the versions together exactly if no content is
applied in it (`versions_carried_iff`).
-/

namespace Synapse

open Numerals Atomic Runs

namespace Atomic.AtomicConfig

/-- The current snapshot carries the count. -/
def CarriesVersion (c : AtomicConfig) : Prop := c.current.version = c.version

/-- An update that is accepted is counted. -/
theorem version_update (mutator : ConfigSnapshot → ConfigSnapshot) (c : AtomicConfig) :
    (c.update mutator).2.version =
      if (c.update mutator).1 = true then c.version + 1 else c.version := by
  unfold update
  dsimp only
  split <;> rfl

/-- A mutation that leaves the stamp alone. -/
theorem CarriesVersion.update {c : AtomicConfig} (h : c.CarriesVersion)
    {mutator : ConfigSnapshot → ConfigSnapshot}
    (hmutator : ∀ snap, (mutator snap).version = snap.version) :
    (c.update mutator).2.CarriesVersion := by
  unfold AtomicConfig.update
  dsimp only
  split
  · exact hmutator _
  · exact h

end Atomic.AtomicConfig

namespace ConfiguredCore

/-- The calls that update the configuration, and uses of `user_profile()` between them. -/
inductive ConfigCall where
  | editProfile (edit : UserProfile → UserProfile)
  | syncConfigFromProfile
  | applyPreset (now : UInt64) (name : Text)
  | applyConfigContent (content : Text)

/-- One call, if it returns. -/
def configStep (platform : Platform) (c : ConfiguredCore) : ConfigCall → Option ConfiguredCore
  | .editProfile edit => some { c with profile := edit c.profile }
  | .syncConfigFromProfile => some c.syncConfigFromProfile
  | .applyPreset now name => some (c.applyPreset now name)
  | .applyConfigContent content => (c.applyConfigContent platform content).toOption

/-- Whether the call makes an update that is accepted. -/
def accepts (platform : Platform) (c : ConfiguredCore) : ConfigCall → Bool
  | .editProfile _ => false
  | .syncConfigFromProfile => (c.config.update c.profile.plan.apply).1
  | .applyPreset _ name => (c.config.update (c.profile.applyPreset name).plan.apply).1
  | .applyConfigContent content =>
      (applyLines platform content c.config.read).toOption.any fun snap =>
        (c.config.update fun _ => snap).1

/-- After the call the snapshot carries the count, which has grown by one if the
update was accepted. -/
def KeepsVersions (platform : Platform) (c : ConfiguredCore) (call : ConfigCall) : Prop :=
  ∀ c', c.configStep platform call = some c' → c'.config.CarriesVersion ∧
    c'.config.version =
      if c.accepts platform call = true then c.config.version + 1 else c.config.version

/-- The call is not `apply_config_content`. -/
def ConfigCall.isNotContent : ConfigCall → Bool
  | .applyConfigContent _ => false
  | _ => true

variable {platform : Platform} {c : ConfiguredCore}

/-- The synchronisation updates the configuration with the profile's plan. -/
theorem config_syncConfigFromProfile (c : ConfiguredCore) :
    c.syncConfigFromProfile.config = (c.config.update c.profile.plan.apply).2 := rfl

/-- So does a preset, once the profile has it. -/
theorem config_applyPreset (now : UInt64) (name : Text) (c : ConfiguredCore) :
    (c.applyPreset now name).config =
      (c.config.update (c.profile.applyPreset name).plan.apply).2 := rfl

/-- A content that is applied is counted, but its snapshot keeps the old version. -/
theorem versions_applyConfigContent {c' : ConfiguredCore} {content : Text}
    (h : c.applyConfigContent platform content = .ok c') :
    c'.config.version = c.config.version + 1 ∧
      c'.config.current.version = c.config.current.version ∧
      c.accepts platform (.applyConfigContent content) = true := by
  unfold applyConfigContent at h
  cases hlines : applyLines platform content c.config.read with
  | error e =>
      rw [hlines] at h
      cases h
  | ok snap =>
      rw [hlines] at h
      have hsettles := settles_applyLines hlines
      have hvalid : snap.validate = true := hsettles.valid c.config.valid
      obtain rfl := Except.ok.inj h
      have hupdate : c.config.update (fun _ => snap) =
          (true, ⟨snap, c.config.version + 1, hvalid⟩) := AtomicConfig.update_of_valid hvalid
      refine ⟨?_, ?_, ?_⟩
      · change (c.config.update fun _ => snap).2.version = _
        rw [hupdate]
      · change (c.config.update fun _ => snap).2.current.version = _
        rw [hupdate]
        exact hsettles.version
      · rw [accepts, hlines, Except.toOption, Option.any_some, hupdate]

/-- A content that is a step has been applied. -/
theorem applyConfigContent_of_configStep {c' : ConfiguredCore} {content : Text}
    (h : c.configStep platform (.applyConfigContent content) = some c') :
    c.applyConfigContent platform content = .ok c' := by
  rw [configStep] at h
  cases hcontent : c.applyConfigContent platform content with
  | error e =>
      rw [hcontent] at h
      cases h
  | ok c₁ =>
      rw [hcontent] at h
      exact congrArg Except.ok (Option.some_injective _ h)

/-- **Accepted updates are counted**, whoever makes them. -/
theorem version_configStep {call : ConfigCall} {c' : ConfiguredCore}
    (hstep : c.configStep platform call = some c') : c'.config.version =
      if c.accepts platform call = true then c.config.version + 1 else c.config.version := by
  cases call with
  | editProfile edit =>
      obtain rfl := Option.some_injective _ hstep
      rfl
  | syncConfigFromProfile =>
      obtain rfl := Option.some_injective _ hstep
      exact AtomicConfig.version_update _ _
  | applyPreset now name =>
      obtain rfl := Option.some_injective _ hstep
      rw [config_applyPreset]
      exact AtomicConfig.version_update _ _
  | applyConfigContent content =>
      obtain ⟨hversion, -, haccepted⟩ :=
        versions_applyConfigContent (applyConfigContent_of_configStep hstep)
      rw [hversion, if_pos haccepted]

/-- A call keeps the version exactly if it applies no content. -/
theorem carriesVersion_configStep_iff (h : c.config.CarriesVersion) {call : ConfigCall}
    {c' : ConfiguredCore} (hstep : c.configStep platform call = some c') :
    c'.config.CarriesVersion ↔ call.isNotContent = true := by
  cases call with
  | editProfile edit =>
      obtain rfl := Option.some_injective _ hstep
      exact iff_of_true h rfl
  | syncConfigFromProfile =>
      obtain rfl := Option.some_injective _ hstep
      rw [config_syncConfigFromProfile]
      exact iff_of_true (h.update fun _ => rfl) rfl
  | applyPreset now name =>
      obtain rfl := Option.some_injective _ hstep
      rw [config_applyPreset]
      exact iff_of_true (h.update fun _ => rfl) rfl
  | applyConfigContent content =>
      refine iff_of_false (fun hcarries => ?_) Bool.false_ne_true
      obtain ⟨hversion, hcurrent, -⟩ :=
        versions_applyConfigContent (applyConfigContent_of_configStep hstep)
      rw [AtomicConfig.CarriesVersion, hversion, hcurrent, h, left_eq_add] at hcarries
      exact absurd hcarries (by decide)

/-- The same as a property of the step. -/
theorem keepsVersions_iff (h : c.config.CarriesVersion) {call : ConfigCall} {c' : ConfiguredCore}
    (hstep : c.configStep platform call = some c') :
    c.KeepsVersions platform call ↔ call.isNotContent = true := by
  rw [KeepsVersions, forall_step_iff (configStep platform) hstep fun c' =>
    c'.config.CarriesVersion ∧ c'.config.version =
      if c.accepts platform call = true then c.config.version + 1 else c.config.version]
  exact (and_iff_left (version_configStep hstep)).trans (carriesVersion_configStep_iff h hstep)

/-- The first snapshot carries the first version. -/
theorem carriesVersion_create (orig : OrigPointers) : (create orig).config.CarriesVersion := by
  have hinitial : AtomicConfig.create.CarriesVersion := rfl
  exact hinitial.update fun _ => rfl

/-- An empty content can be applied. -/
theorem exists_configStep_nil (c : ConfiguredCore) :
    ∃ c', c.configStep platform (.applyConfigContent []) = some c' := by
  have hlines : applyLines platform [] c.config.read = .ok c.config.read := rfl
  exact ⟨_, by rw [configStep, applyConfigContent, hlines]; rfl⟩

/-- **Versions over runs.**  Every call keeps them together exactly if none is
`apply_config_content`. -/
theorem versions_carried_iff (platform : Platform) (orig : OrigPointers)
    (calls : List ConfigCall) :
    Along (configStep platform) (KeepsVersions platform) (create orig) calls ↔
      Along (configStep platform) (fun _ call => call.isNotContent = true) (create orig) calls :=
  along_iff_of_invariant (configStep platform)
    (fun _ _ _ h hstep => keepsVersions_iff h hstep)
    (fun _ _ c' _ hstep hkeeps => (hkeeps c' hstep).1)
    (carriesVersion_create orig) calls

/-- An empty content is enough. -/
theorem empty_content_keeps_old_version :
    ¬ Along (configStep .quiet64) (KeepsVersions .quiet64)
      (create ⟨true, true, true, true, true⟩) [.applyConfigContent []] := by
  obtain ⟨c', hstep⟩ := exists_configStep_nil (create ⟨true, true, true, true, true⟩)
  have hnot := (keepsVersions_iff (carriesVersion_create _) hstep).not.mpr Bool.false_ne_true
  exact fun h => hnot (h [] _ [] rfl _ _ rfl hstep)

end ConfiguredCore

end Synapse
