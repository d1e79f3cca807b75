import Synapse.Atomic.AtomicConfig

/-!
# `user_profile.h`

The profile of a user and the plan computed from it.

A plan is made afresh each time.  It starts from the watts in the preferences and is
then adjusted four times, in this order: for portable use, for heavy use, at night
and by the user's override.  Only the night works with the watts it finds: it takes
seven tenths of them, rounded down, so 1 watt becomes 0
(`acceptable_recomputePlan_iff`).

Each of the four adjustments is a function on plans, under the source's name for what it looks
at, and recomputing composes them in order.  They are described one by one, by what they do to
the watts and to the target, so that the composite is in range if the preferences are, apart
from the one case that the night makes.
-/

namespace Synapse

open Numerals

/-- The statistics a plan is computed from. -/
structure UsageStats where
  dailyUsageHours : UInt32 := 0
  prefersBatteryLife : Bool := false
  deriving DecidableEq, Repr

/-- The preferences a plan is computed from. -/
structure Preferences where
  autoOptimize : Bool := true
  maxPowerWatts : UInt32 := 15
  performanceProfile : Text := ascii "balanced"
  deriving DecidableEq, Repr

/-- `OptimizationPlan`, with its defaults. -/
structure OptimizationPlan where
  powerBudgetWatts : UInt32 := 15
  thermalTargetCelsius : UInt32 := 80
  mlAggressive : Bool := true
  fanCurve : Text := ascii "balanced"
  deriving DecidableEq, Repr

/-- A row of the table of presets. -/
structure PresetProfile where
  name : String
  powerBudget : UInt32
  thermalTarget : UInt32
  mlAggressive : Bool
  fanCurve : String
  deriving DecidableEq, Repr

/-- The presets. -/
def kPresets : List PresetProfile :=
  [⟨"battery-saver", 8, 70, false, "silent"⟩, ⟨"balanced", 15, 80, true, "balanced"⟩,
    ⟨"performance", 25, 85, true, "performance"⟩, ⟨"silent", 10, 65, false, "silent"⟩]

/-- `UserProfile` -/
structure UserProfile where
  usage : UsageStats := {}
  prefs : Preferences := {}
  plan : OptimizationPlan := {}
  deriving DecidableEq, Repr

/-! ## The plan -/

namespace OptimizationPlan

/-- The defaults a plan starts from. -/
def initial (prefs : Preferences) : OptimizationPlan where
  powerBudgetWatts := prefs.maxPowerWatts
  thermalTargetCelsius := 80
  mlAggressive := true
  fanCurve := ascii "balanced"

/-- Battery first for portable use. -/
def forPortableUse (usage : UsageStats) (plan : OptimizationPlan) : OptimizationPlan :=
  if usage.prefersBatteryLife then ⟨8, 75, false, ascii "silent"⟩ else plan

/-- Performance for heavy use. -/
def forHeavyUse (usage : UsageStats) (plan : OptimizationPlan) : OptimizationPlan :=
  if usage.dailyUsageHours > 8 then ⟨25, 85, true, ascii "performance"⟩ else plan

/-- From 22:00 to 06:00. -/
def isNight (h : UInt32) : Bool := h ≥ 22 || h < 6

/-- Silence at night. -/
def atHour (h : UInt32) (plan : OptimizationPlan) : OptimizationPlan :=
  if isNight h then
    { plan with
      fanCurve := ascii "silent"
      powerBudgetWatts := plan.powerBudgetWatts * 7 / 10 }
  else plan

/-- The user's override. -/
def overriddenBy (prefs : Preferences) (plan : OptimizationPlan) : OptimizationPlan :=
  if !prefs.autoOptimize then
    { plan with powerBudgetWatts := prefs.maxPowerWatts, fanCurve := prefs.performanceProfile }
  else plan

end OptimizationPlan

/-- The hour of the day, given the full hours since the epoch. -/
def hourOfDay (hours : ℕ) : UInt32 := UInt32.ofNat (hours % 24)

namespace UserProfile

/-- `recompute_plan()`, when the clock shows the given full hours since the epoch. -/
def recomputePlan (hours : ℕ) (u : UserProfile) : UserProfile :=
  { u with
    plan := ((((OptimizationPlan.initial u.prefs).forPortableUse u.usage).forHeavyUse
      u.usage).atHour (hourOfDay hours)).overriddenBy u.prefs }

/-- `update_usage`, which recomputes the plan at its hour. -/
def updateUsage (hours : ℕ) (stats : UsageStats) (u : UserProfile) : UserProfile :=
  { u with usage := stats }.recomputePlan hours

/-- `set_preferences`, which does so too. -/
def setPreferences (hours : ℕ) (prefs : Preferences) (u : UserProfile) : UserProfile :=
  { u with prefs := prefs }.recomputePlan hours

/-- `UserProfile::apply_preset(name)`: an unknown name changes nothing. -/
def applyPreset (name : Text) (u : UserProfile) : UserProfile :=
  match kPresets.find? fun p => ascii p.name = name with
  | none => u
  | some p =>
      { u with
        plan := ⟨p.powerBudget, p.thermalTarget, p.mlAggressive, ascii p.fanCurve⟩
        prefs := { u.prefs with performanceProfile := name } }

end UserProfile

/-! ## Plans in range -/

/-- The values a snapshot may have. -/
structure OptimizationPlan.Acceptable (plan : OptimizationPlan) : Prop where
  power : 1 ≤ plan.powerBudgetWatts.toNat ∧ plan.powerBudgetWatts.toNat ≤ 100
  thermal : 40 ≤ plan.thermalTargetCelsius.toNat ∧ plan.thermalTargetCelsius.toNat ≤ 105

/-- The watts a plan may be computed from. -/
def Preferences.InRange (prefs : Preferences) : Prop :=
  1 ≤ prefs.maxPowerWatts.toNat ∧ prefs.maxPowerWatts.toNat ≤ 100

namespace OptimizationPlan

variable {plan : OptimizationPlan}

/-- The plan starts in range. -/
theorem acceptable_initial {prefs : Preferences} (h : prefs.InRange) :
    (initial prefs).Acceptable where
  power := h
  thermal := show 40 ≤ (80 : UInt32).toNat ∧ (80 : UInt32).toNat ≤ 105 by decide

/-- Portable use keeps it there. -/
theorem Acceptable.forPortableUse (h : plan.Acceptable) (usage : UsageStats) :
    (plan.forPortableUse usage).Acceptable := by
  unfold OptimizationPlan.forPortableUse
  split
  · exact ⟨by decide, by decide⟩
  · exact h

/-- So does heavy use. -/
theorem Acceptable.forHeavyUse (h : plan.Acceptable) (usage : UsageStats) :
    (plan.forHeavyUse usage).Acceptable := by
  unfold OptimizationPlan.forHeavyUse
  split
  · exact ⟨by decide, by decide⟩
  · exact h

/-- Seven tenths, rounded down, without wrapping. -/
theorem toNat_scaled {watts : UInt32} (h : watts.toNat ≤ 100) :
    (watts * 7 / 10).toNat = watts.toNat * 7 / 10 := by
  rw [UInt32.toNat_div, UInt32.toNat_mul]
  have hseven : (7 : UInt32).toNat = 7 := rfl
  have hten : (10 : UInt32).toNat = 10 := rfl
  rw [hseven, hten, Nat.mod_eq_of_lt (by omega)]

/-- A night keeps all plans in range but that of 1 watt. -/
theorem Acceptable.atHour_iff (h : plan.Acceptable) (hour : UInt32) :
    (plan.atHour hour).Acceptable ↔ ¬ (isNight hour = true ∧ plan.powerBudgetWatts.toNat = 1) := by
  unfold OptimizationPlan.atHour
  split
  · rename_i hnight
    have hpower := h.power
    have hscaled := toNat_scaled hpower.2
    constructor
    · rintro ⟨⟨hone, -⟩, -⟩ ⟨-, hwatts⟩
      rw [hscaled, hwatts] at hone
      exact absurd hone (by decide)
    · intro hnot
      refine ⟨?_, h.thermal⟩
      rw [hscaled]
      have hwatts : plan.powerBudgetWatts.toNat ≠ 1 := fun hwatts => hnot ⟨hnight, hwatts⟩
      omega
  · rename_i hday
    exact iff_of_true h fun hnight => hday hnight.1

/-- The night leaves the target alone. -/
theorem thermal_atHour (hour : UInt32) :
    (plan.atHour hour).thermalTargetCelsius = plan.thermalTargetCelsius := by
  unfold atHour
  split <;> rfl

/-- With the override a plan has the user's watts. -/
theorem acceptable_overriddenBy_iff {prefs : Preferences} (hprefs : prefs.InRange)
    (hthermal : 40 ≤ plan.thermalTargetCelsius.toNat ∧ plan.thermalTargetCelsius.toNat ≤ 105) :
    (plan.overriddenBy prefs).Acceptable ↔ prefs.autoOptimize = true → plan.Acceptable := by
  unfold overriddenBy
  cases prefs.autoOptimize with
  | true => exact ⟨fun h _ => h, fun h => h rfl⟩
  | false => exact iff_of_true ⟨hprefs, hthermal⟩ nofun

end OptimizationPlan

namespace UserProfile

/-- At night, 1 watt that neither an adjustment nor the override replaces. -/
structure RoundsToZero (hours : ℕ) (usage : UsageStats) (prefs : Preferences) : Prop where
  night : OptimizationPlan.isNight (hourOfDay hours) = true
  watts : prefs.maxPowerWatts = 1
  notPortable : usage.prefersBatteryLife = false
  notHeavy : usage.dailyUsageHours ≤ 8
  automatic : prefs.autoOptimize = true

/-- The adjustments by use leave 1 watt only if they do nothing. -/
theorem power_adjusted_eq_one_iff (usage : UsageStats) (prefs : Preferences) :
    (((OptimizationPlan.initial prefs).forPortableUse usage).forHeavyUse
        usage).powerBudgetWatts.toNat = 1 ↔
      prefs.maxPowerWatts = 1 ∧ usage.prefersBatteryLife = false ∧ usage.dailyUsageHours ≤ 8 := by
  unfold OptimizationPlan.forHeavyUse OptimizationPlan.forPortableUse
  by_cases hheavy : usage.dailyUsageHours > 8
  · rw [if_pos hheavy]
    exact iff_of_false (by decide) fun h => absurd h.2.2 (UInt32.not_le.mpr hheavy)
  · rw [if_neg hheavy, and_iff_left (UInt32.not_lt.mp hheavy)]
    cases usage.prefersBatteryLife with
    | true =>
        rw [if_pos rfl]
        exact iff_of_false (by decide) fun h => absurd h.2 (by decide)
    | false =>
        rw [and_iff_left rfl, ← UInt32.toNat_inj]
        rfl

/-- **A computed plan is in range** unless 1 watt is scaled down at night. -/
theorem acceptable_recomputePlan_iff {u : UserProfile} (h : u.prefs.InRange) (hours : ℕ) :
    (u.recomputePlan hours).plan.Acceptable ↔ ¬ RoundsToZero hours u.usage u.prefs := by
  have hadjusted := ((OptimizationPlan.acceptable_initial h).forPortableUse u.usage).forHeavyUse
    u.usage
  have hthermal := hadjusted.thermal
  rw [← OptimizationPlan.thermal_atHour (hourOfDay hours)] at hthermal
  refine (OptimizationPlan.acceptable_overriddenBy_iff h hthermal).trans ?_
  rw [hadjusted.atHour_iff, power_adjusted_eq_one_iff]
  constructor
  · exact fun h hzero => h hzero.automatic
      ⟨hzero.night, hzero.watts, hzero.notPortable, hzero.notHeavy⟩
  · exact fun h hauto hzero =>
      h ⟨hzero.1, hzero.2.1, hzero.2.2.1, hzero.2.2.2, hauto⟩

/-- Every preset is in range. -/
theorem acceptable_applyPreset {u : UserProfile} (h : u.plan.Acceptable) (name : Text) :
    (u.applyPreset name).plan.Acceptable := by
  unfold applyPreset
  split
  · exact h
  · rename_i p hp
    have hmem := List.mem_of_find?_eq_some hp
    have hall : ∀ p ∈ kPresets, (⟨p.powerBudget, p.thermalTarget, p.mlAggressive,
        ascii p.fanCurve⟩ : OptimizationPlan).Acceptable := by
      intro p hp
      fin_cases hp <;> exact ⟨by decide, by decide⟩
    exact hall p hmem

end UserProfile

end Synapse
