import Synapse.Atomic.AtomicConfig
import Synapse.Foundations.LastValue

/-!
# The text of `config.toml`

How `apply_config_content` reads its argument and what the lines make of a
snapshot.

A line is an assignment if it is not empty, does not start with `#`, contains `=`
and has a known key.  Assignments are carried out from the first to the last, so
in each setting the last acceptable value stays (`settles_applyLines`).  A value is
acceptable if it converts and is in range.  If it does not convert, the exception
leaves the loop, and all of the content is lost (`applyLines_ok_iff`).

### Settings as a family

The six settings are handled by six branches of one `else if`, each with its conversion, its
range and its field.  In the model a setting is a value of an enumeration, the type of its
values depends on it, and the branches are functions on it; the keys, the ranges and the
conversions are the source's, setting by setting.  Then reading and writing a field are two
functions with the usual laws, and the loop is a fold that is described for one setting at a
time (`settled`).
-/

namespace Synapse

open Numerals Atomic LastValue

/-! ## Lines -/

/-- `std::getline` until it fails. -/
def getlines (content : Text) : List Text :=
  let pieces := content.splitOn 0x0a
  if pieces.getLast? = some [] then pieces.dropLast else pieces

/-- `trim`: blanks and tabs in front, line ends too at the end. -/
def trim (s : Text) : Text :=
  (s.dropWhile fun c => c = 0x20 || c = 0x09).rdropWhile
    fun c => c = 0x20 || c = 0x09 || c = 0x0d || c = 0x0a

/-- The key and the value of a line. -/
def keyAndValue (line : Text) : Option (Text × Text) :=
  if line = [] ∨ line.head? = some 0x23 then none
  else
    let line := trim line
    if 0x3d ∈ line then
      some (trim (line.takeWhile fun c => c ≠ 0x3d), trim (line.dropWhile fun c => c ≠ 0x3d).tail)
    else none

/-! ## Settings -/

/-- The settings that a file may have. -/
inductive Setting where
  | powerBudget
  | thermalTarget
  | mlAggressive
  | jitEnabled
  | haiEnabled
  | telemetryEnabled
  | learningRate
  | epsilon
  deriving DecidableEq, Repr

namespace Setting

/-- The type of a setting. -/
abbrev Value : Setting → Type
  | powerBudget => UInt32
  | thermalTarget => UInt32
  | mlAggressive => Bool
  | jitEnabled => Bool
  | haiEnabled => Bool
  | telemetryEnabled => Bool
  | learningRate => Binary32
  | epsilon => Binary32

/-- Which setting a key names, the comparisons in their order. -/
def ofKey (key : Text) : Option Setting :=
  if key = ascii "power_budget" then some powerBudget
  else if key = ascii "thermal_target" then some thermalTarget
  else if key = ascii "ml_aggressive" then some mlAggressive
  else if key = ascii "jit_enabled" then some jitEnabled
  else if key = ascii "hai_enabled" then some haiEnabled
  else if key = ascii "telemetry_enabled" then some telemetryEnabled
  else if key = ascii "learning_rate" then some learningRate
  else if key = ascii "epsilon" then some epsilon
  else none

/-- The field of a setting. -/
def read : (setting : Setting) → Atomic.ConfigSnapshot → setting.Value
  | powerBudget, snap => snap.powerBudgetWatts
  | thermalTarget, snap => snap.thermalTargetCelsius
  | mlAggressive, snap => snap.mlAggressive
  | jitEnabled, snap => snap.jitEnabled
  | haiEnabled, snap => snap.haiEnabled
  | telemetryEnabled, snap => snap.telemetryEnabled
  | learningRate, snap => snap.learningRate
  | epsilon, snap => snap.epsilon

/-- The field replaced. -/
def write : (setting : Setting) → setting.Value → Atomic.ConfigSnapshot → Atomic.ConfigSnapshot
  | powerBudget, v, snap => { snap with powerBudgetWatts := v }
  | thermalTarget, v, snap => { snap with thermalTargetCelsius := v }
  | mlAggressive, v, snap => { snap with mlAggressive := v }
  | jitEnabled, v, snap => { snap with jitEnabled := v }
  | haiEnabled, v, snap => { snap with haiEnabled := v }
  | telemetryEnabled, v, snap => { snap with telemetryEnabled := v }
  | learningRate, v, snap => { snap with learningRate := v }
  | epsilon, v, snap => { snap with epsilon := v }

/-- `val == "true" || val == "1"`. -/
def parseFlag (val : Text) : Bool := val = ascii "true" || val = ascii "1"

/-- How the value is converted: a number of 32 bits is cut out of what `std::stoul`
returns. -/
def convert (platform : Platform) :
    (setting : Setting) → Text → Except ConversionError setting.Value
  | powerBudget, val => (stoul platform val).map UInt32.ofNat
  | thermalTarget, val => (stoul platform val).map UInt32.ofNat
  | mlAggressive, val => .ok (parseFlag val)
  | jitEnabled, val => .ok (parseFlag val)
  | haiEnabled, val => .ok (parseFlag val)
  | telemetryEnabled, val => .ok (parseFlag val)
  | learningRate, val => stof platform val
  | epsilon, val => stof platform val

/-- The check that follows. -/
def inRange : (setting : Setting) → setting.Value → Bool
  | powerBudget, v => v > 0 && v ≤ 100
  | thermalTarget, v => v ≥ 40 && v ≤ 105
  | mlAggressive, _ => true
  | jitEnabled, _ => true
  | haiEnabled, _ => true
  | telemetryEnabled, _ => true
  | learningRate, v => Binary32.zero.lt v && v.le .one
  | epsilon, v => Binary32.zero.le v && v.le .one

/-- The value of an acceptable text. -/
def accepted (platform : Platform) (setting : Setting) (val : Text) : Option setting.Value :=
  (setting.convert platform val).toOption.filter setting.inRange

end Setting

/-- The assignment in a line. -/
def assignment (line : Text) : Option (Setting × Text) :=
  (keyAndValue line).bind fun (key, val) => (Setting.ofKey key).map fun setting => (setting, val)

/-- What the branch of a known key does. -/
def assign (platform : Platform) (snap : Atomic.ConfigSnapshot) (a : Setting × Text) :
    Except ConversionError Atomic.ConfigSnapshot :=
  (a.1.convert platform a.2).map fun v => if a.1.inRange v then a.1.write v snap else snap

/-- One iteration of the loop. -/
def applyLine (platform : Platform) (snap : Atomic.ConfigSnapshot) (line : Text) :
    Except ConversionError Atomic.ConfigSnapshot :=
  match assignment line with
  | none => .ok snap
  | some a => assign platform snap a

/-- The loop of `apply_config_content`. -/
def applyLines (platform : Platform) (content : Text) (snap : Atomic.ConfigSnapshot) :
    Except ConversionError Atomic.ConfigSnapshot :=
  (getlines content).foldlM (applyLine platform) snap

/-- The assignments of a content, in order. -/
def assignments (content : Text) : List (Setting × Text) := (getlines content).filterMap assignment

/-- The texts assigned to a setting, in order. -/
def textsFor (setting : Setting) (assigned : List (Setting × Text)) : List Text :=
  assigned.filterMap fun a => if a.1 = setting then some a.2 else none

/-! ## What the lines make of a snapshot -/

namespace Setting

/-- What has been written is read. -/
theorem read_write_self (setting : Setting) (v : setting.Value) (snap : Atomic.ConfigSnapshot) :
    setting.read (setting.write v snap) = v := by
  cases setting <;> rfl

/-- The other fields are not written. -/
theorem read_write_of_ne {setting other : Setting} (h : other ≠ setting) (v : setting.Value)
    (snap : Atomic.ConfigSnapshot) : other.read (setting.write v snap) = other.read snap := by
  cases setting <;> cases other <;> first | rfl | exact absurd rfl h

/-- Nor is the version. -/
theorem version_write (setting : Setting) (v : setting.Value) (snap : Atomic.ConfigSnapshot) :
    (setting.write v snap).version = snap.version := by
  cases setting <;> rfl

/-- A value in range keeps a snapshot valid. -/
theorem validate_write {setting : Setting} {v : setting.Value} (h : setting.inRange v = true)
    {snap : Atomic.ConfigSnapshot} (hsnap : snap.validate = true) :
    (setting.write v snap).validate = true := by
  rw [Atomic.ConfigSnapshot.validate_iff] at hsnap ⊢
  obtain ⟨hpower, hthermal, hrate, hepsilon, hbuffer⟩ := hsnap
  cases setting with
  | powerBudget =>
      simp only [inRange, Bool.and_eq_true, decide_eq_true_eq] at h
      exact ⟨⟨(UInt32.ne_of_lt h.1).symm, h.2⟩, hthermal, hrate, hepsilon, hbuffer⟩
  | thermalTarget =>
      simp only [inRange, Bool.and_eq_true, decide_eq_true_eq] at h
      exact ⟨hpower, h, hrate, hepsilon, hbuffer⟩
  | learningRate =>
      simp only [inRange, Bool.and_eq_true] at h
      exact ⟨hpower, hthermal, ⟨Binary32.not_le_of_lt h.1, Binary32.not_lt_of_le h.2⟩, hepsilon,
        hbuffer⟩
  | epsilon =>
      simp only [inRange, Bool.and_eq_true] at h
      exact ⟨hpower, hthermal, hrate, ⟨Binary32.not_lt_of_le h.1, Binary32.not_lt_of_le h.2⟩,
        hbuffer⟩
  | mlAggressive => exact ⟨hpower, hthermal, hrate, hepsilon, hbuffer⟩
  | jitEnabled => exact ⟨hpower, hthermal, hrate, hepsilon, hbuffer⟩
  | haiEnabled => exact ⟨hpower, hthermal, hrate, hepsilon, hbuffer⟩
  | telemetryEnabled => exact ⟨hpower, hthermal, hrate, hepsilon, hbuffer⟩

end Setting

/-- Every value of a known key converts. -/
def Convertible (platform : Platform) (assigned : List (Setting × Text)) : Prop :=
  ∀ a ∈ assigned, ∃ v, a.1.convert platform a.2 = .ok v

/-- The value a setting has after a list of assignments. -/
def settled (platform : Platform) (assigned : List (Setting × Text)) (setting : Setting)
    (old : setting.Value) : setting.Value :=
  (lastSome (setting.accepted platform) (textsFor setting assigned)).getD old

/-- Each setting has its last acceptable value or the old one. -/
structure Settles (platform : Platform) (assigned : List (Setting × Text))
    (snap snap' : Atomic.ConfigSnapshot) : Prop where
  read : ∀ setting : Setting, setting.read snap' =
    settled platform assigned setting (setting.read snap)
  version : snap'.version = snap.version
  valid : snap.validate = true → snap'.validate = true

/-- The texts that are assigned to a setting, in order. -/
theorem textsFor_cons_self (setting : Setting) (val : Text) (assigned : List (Setting × Text)) :
    textsFor setting ((setting, val) :: assigned) = val :: textsFor setting assigned :=
  List.filterMap_cons_some (if_pos rfl)

/-- Assignments to another setting are not among them. -/
theorem textsFor_cons_of_ne {a : Setting × Text} {setting : Setting} (h : a.1 ≠ setting)
    (assigned : List (Setting × Text)) :
    textsFor setting (a :: assigned) = textsFor setting assigned :=
  List.filterMap_cons_none (if_neg h)

/-- They are the assigned ones. -/
theorem mem_textsFor {setting : Setting} {val : Text} {assigned : List (Setting × Text)} :
    val ∈ textsFor setting assigned ↔ (setting, val) ∈ assigned := by
  rw [textsFor, List.mem_filterMap]
  constructor
  · rintro ⟨⟨other, val'⟩, hmem, hsome⟩
    obtain ⟨rfl, hval⟩ := Option.ite_none_right_eq_some.mp hsome
    obtain rfl := Option.some_injective _ hval
    exact hmem
  · exact fun hmem => ⟨_, hmem, if_pos rfl⟩

section Single

variable (platform : Platform) (setting : Setting) (val : Text)

/-- One assignment: its value, if it is acceptable. -/
theorem settled_singleton_self (old : setting.Value) :
    settled platform [(setting, val)] setting old = (setting.accepted platform val).getD old := by
  rw [settled, textsFor_cons_self, lastSome_cons]
  rfl

/-- One assignment to another setting. -/
theorem settled_singleton_of_ne {other : Setting} (h : setting ≠ other) (old : other.Value) :
    settled platform [(setting, val)] other old = old := by
  rw [settled, textsFor_cons_of_ne h]
  rfl

end Single

/-- One assignment sets its setting if the value is acceptable. -/
theorem settles_assign {platform : Platform} {a : Setting × Text} {v : a.1.Value}
    (h : a.1.convert platform a.2 = .ok v) (snap : Atomic.ConfigSnapshot) :
    ∃ snap', assign platform snap a = .ok snap' ∧ Settles platform [a] snap snap' := by
  obtain ⟨setting, val⟩ := a
  refine ⟨if setting.inRange v then setting.write v snap else snap, by rw [assign, h]; rfl, ?_⟩
  have haccepted : setting.accepted platform val = if setting.inRange v then some v else none := by
    rw [Setting.accepted, h]
    exact Option.filter_some
  by_cases hrange : setting.inRange v = true
  · rw [if_pos hrange]
    rw [if_pos hrange] at haccepted
    refine ⟨fun other => ?_, setting.version_write v snap, Setting.validate_write hrange⟩
    by_cases hother : setting = other
    · subst hother
      rw [Setting.read_write_self, settled_singleton_self, haccepted]
      rfl
    · rw [Setting.read_write_of_ne (Ne.symm hother), settled_singleton_of_ne _ _ _ hother]
  · rw [if_neg hrange]
    rw [if_neg hrange] at haccepted
    refine ⟨fun other => ?_, rfl, id⟩
    by_cases hother : setting = other
    · subst hother
      rw [settled_singleton_self, haccepted]
      rfl
    · rw [settled_singleton_of_ne _ _ _ hother]

/-- The first assignment, and then the others. -/
theorem settled_cons (platform : Platform) (a : Setting × Text) (assigned : List (Setting × Text))
    (setting : Setting) (old : setting.Value) :
    settled platform (a :: assigned) setting old =
      settled platform assigned setting (settled platform [a] setting old) := by
  by_cases h : a.1 = setting
  · obtain ⟨setting, val⟩ := a
    subst h
    rw [settled_singleton_self, settled, settled, textsFor_cons_self, getD_lastSome_cons]
  · obtain ⟨other, val⟩ := a
    rw [settled_singleton_of_ne _ _ _ h, settled, settled, textsFor_cons_of_ne h]

/-- A loop that goes on. -/
theorem Settles.trans {platform : Platform} {a : Setting × Text}
    {assigned : List (Setting × Text)} {snap snap₁ snap₂ : Atomic.ConfigSnapshot}
    (h : Settles platform [a] snap snap₁) (h' : Settles platform assigned snap₁ snap₂) :
    Settles platform (a :: assigned) snap snap₂ where
  read setting := by rw [settled_cons, ← h.read, h'.read]
  version := h'.version.trans h.version
  valid hsnap := h'.valid (h.valid hsnap)

/-- **Assignments that all convert** settle the snapshot. -/
theorem settles_foldlM {platform : Platform} {assigned : List (Setting × Text)}
    (h : Convertible platform assigned) (snap : Atomic.ConfigSnapshot) :
    ∃ snap', assigned.foldlM (assign platform) snap = .ok snap' ∧
      Settles platform assigned snap snap' := by
  induction assigned generalizing snap with
  | nil => exact ⟨snap, rfl, fun _ => rfl, rfl, id⟩
  | cons a assigned ih =>
      obtain ⟨⟨v, hv⟩, hrest⟩ := List.forall_mem_cons.mp h
      obtain ⟨snap₁, hfirst, hsettles₁⟩ := settles_assign hv snap
      obtain ⟨snap₂, hrest, hsettles₂⟩ := ih hrest snap₁
      refine ⟨snap₂, ?_, hsettles₁.trans hsettles₂⟩
      rw [List.foldlM_cons, hfirst]
      exact hrest

/-- One that does not convert loses all of them. -/
theorem convertible_of_foldlM {platform : Platform} {assigned : List (Setting × Text)}
    {snap snap' : Atomic.ConfigSnapshot} (h : assigned.foldlM (assign platform) snap = .ok snap') :
    Convertible platform assigned := by
  induction assigned generalizing snap with
  | nil => exact fun _ ha => absurd ha List.not_mem_nil
  | cons a assigned ih =>
      rw [List.foldlM_cons] at h
      cases hconvert : a.1.convert platform a.2 with
      | error e =>
          rw [assign, hconvert] at h
          cases h
      | ok v =>
          rw [assign, hconvert] at h
          exact List.forall_mem_cons.mpr ⟨⟨v, hconvert⟩, ih h⟩

/-- Lines without an assignment do nothing. -/
theorem applyLines_eq (platform : Platform) (content : Text) (snap : Atomic.ConfigSnapshot) :
    applyLines platform content snap = (assignments content).foldlM (assign platform) snap := by
  unfold applyLines assignments
  induction getlines content generalizing snap with
  | nil => rfl
  | cons line lines ih =>
      rw [List.foldlM_cons, applyLine]
      cases hline : assignment line with
      | none =>
          rw [List.filterMap_cons_none hline]
          exact ih snap
      | some a =>
          rw [List.filterMap_cons_some hline, List.foldlM_cons]
          exact bind_congr fun snap' => ih snap'

/-- **The loop returns** exactly if every value of a known key converts. -/
theorem applyLines_ok_iff (platform : Platform) (content : Text) (snap : Atomic.ConfigSnapshot) :
    (∃ snap', applyLines platform content snap = .ok snap') ↔
      Convertible platform (assignments content) := by
  rw [applyLines_eq]
  constructor
  · rintro ⟨snap', h⟩
    exact convertible_of_foldlM h
  · intro h
    obtain ⟨snap', hsnap', -⟩ := settles_foldlM h snap
    exact ⟨snap', hsnap'⟩

/-- The loop does what its assignments say, by induction on the lines. -/
theorem settles_applyLines {platform : Platform} {content : Text}
    {snap snap' : Atomic.ConfigSnapshot}
    (h : applyLines platform content snap = .ok snap') :
    Settles platform (assignments content) snap snap' := by
  obtain ⟨snap₁, hsnap₁, hsettles⟩ :=
    settles_foldlM ((applyLines_ok_iff platform content snap).mp ⟨snap', h⟩) snap
  rw [← applyLines_eq, h] at hsnap₁
  obtain rfl := Except.ok.inj hsnap₁
  exact hsettles

end Synapse
