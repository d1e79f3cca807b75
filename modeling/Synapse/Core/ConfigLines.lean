import Synapse.Core.Configuration

/-!
# Good and bad lines of `config.toml`

What a content should do to the configuration, line by line: a value that is a
number of the kind its setting expects, and nothing else, takes effect if it is in
range, and any other value of a number is passed over (`Heeded`).

Two things come between.  A value no number stands at the front of, or one too
large, makes the conversion throw, and nothing is applied.  And the conversions
read the number at the front of a value and do not look at the rest, so a value
like `12.5` or `15W` is not passed over but taken for 12 or 15 (`heeded_iff`).
-/

namespace Synapse

open Numerals Atomic LastValue

namespace Setting

/-- The text is a value of the kind the setting expects, from its first to its last
byte.  Any text is a flag. -/
def isWhole : Setting → Text → Bool
  | powerBudget, text => (wholeUnsigned text).any (· < 2 ^ 32)
  | thermalTarget, text => (wholeUnsigned text).any (· < 2 ^ 32)
  | learningRate, text => isWholeFloating text
  | epsilon, text => isWholeFloating text
  | mlAggressive, _ => true
  | jitEnabled, _ => true
  | haiEnabled, _ => true
  | telemetryEnabled, _ => true

/-- The value a text states: it is one from the first to the last byte, and in
range. -/
def stated (platform : Platform) (setting : Setting) : Text → Option setting.Value :=
  good setting.isWhole (setting.accepted platform)

end Setting

/-- The value a setting should have after a list of assignments. -/
def statedValue (platform : Platform) (assigned : List (Setting × Text)) (setting : Setting)
    (old : setting.Value) : setting.Value :=
  (lastSome (setting.stated platform) (textsFor setting assigned)).getD old

/-- The last acceptable text of a setting. -/
def lastAcceptable (platform : Platform) (assigned : List (Setting × Text)) (setting : Setting) :
    Option Text :=
  lastEntry (setting.accepted platform) (textsFor setting assigned)

/-- The last acceptable text is a whole value, or the number at its front is the one
the setting should have anyway. -/
def EndsWhole (platform : Platform) (assigned : List (Setting × Text)) (setting : Setting)
    (old : setting.Value) : Prop :=
  ∀ text, lastAcceptable platform assigned setting = some text → setting.isWhole text = true ∨
    setting.accepted platform text = some (statedValue platform assigned setting old)

theorem settled_eq_statedValue_iff (platform : Platform) (assigned : List (Setting × Text))
    (setting : Setting) (old : setting.Value) :
    settled platform assigned setting old = statedValue platform assigned setting old ↔
      EndsWhole platform assigned setting old :=
  getD_lastSome_eq_good_iff _ _ _ _

namespace ConfiguredCore

/-- The content is applied, and each setting has the last value stated for it, or
else the old one. -/
def Heeded (platform : Platform) (content : Text) (c : ConfiguredCore) : Prop :=
  ∃ c', c.applyConfigContent platform content = .ok c' ∧
    ∀ setting : Setting, setting.read c'.config.current =
      statedValue platform (assignments content) setting (setting.read c.config.current)

/-- Every setting has its last acceptable value after a content. -/
theorem read_applyConfigContent {platform : Platform} {content : Text} {c c' : ConfiguredCore}
    (h : c.applyConfigContent platform content = .ok c') (setting : Setting) :
    setting.read c'.config.current =
      settled platform (assignments content) setting (setting.read c.config.current) := by
  obtain ⟨snap, config, hlines, rfl, rfl⟩ := applyConfigContent_eq h
  exact (settles_applyLines hlines).read setting

theorem exists_applyConfigContent_iff (platform : Platform) (content : Text)
    (c : ConfiguredCore) :
    (∃ c', c.applyConfigContent platform content = .ok c') ↔
      Convertible platform (assignments content) := by
  rw [← applyLines_ok_iff platform content c.config.current]
  constructor
  · rintro ⟨c', h⟩
    obtain ⟨snap, config, hlines, -⟩ := applyConfigContent_eq h
    exact ⟨snap, hlines⟩
  · rintro ⟨snap, hlines⟩
    exact ⟨_, by rw [applyConfigContent, AtomicConfig.read, hlines]; rfl⟩

/-- **A content is heeded** exactly if all values of known keys convert, and for each
setting the last acceptable one is a whole value or changes nothing. -/
theorem heeded_iff (platform : Platform) (content : Text) (c : ConfiguredCore) :
    c.Heeded platform content ↔ Convertible platform (assignments content) ∧
      ∀ setting : Setting, EndsWhole platform (assignments content) setting
        (setting.read c.config.current) := by
  constructor
  · rintro ⟨c', hc', hread⟩
    refine ⟨(c.exists_applyConfigContent_iff platform content).mp ⟨c', hc'⟩, fun setting => ?_⟩
    rw [← settled_eq_statedValue_iff, ← read_applyConfigContent hc']
    exact hread setting
  · rintro ⟨hconvertible, hwhole⟩
    obtain ⟨c', hc'⟩ := (c.exists_applyConfigContent_iff platform content).mpr hconvertible
    refine ⟨c', hc', fun setting => ?_⟩
    rw [read_applyConfigContent hc', settled_eq_statedValue_iff]
    exact hwhole setting

/-- A file saved before the number was typed. -/
theorem half_typed_not_heeded :
    ¬ (create ⟨true, true, true, true, true⟩).Heeded .quiet64
      (ascii "power_budget = \nthermal_target = 70\n") := by
  rintro ⟨c', hc', -⟩
  have hassigned : assignments (ascii "power_budget = \nthermal_target = 70\n") =
      [(.powerBudget, []), (.thermalTarget, ascii "70")] := by decide
  have hconvertible := (exists_applyConfigContent_iff _ _ _).mp ⟨c', hc'⟩
  rw [hassigned] at hconvertible
  obtain ⟨v, hv⟩ := hconvertible _ List.mem_cons_self
  cases hv

end ConfiguredCore

end Synapse
