import Synapse.Core.ConfigLines

/-!
# The numbers in `config.toml`

What a content makes of the power budget and the thermal target, as numbers.  A
line should take effect if the number `std::stoul` reads is in range.

The number is cut to 32 bits before it is checked.  So a line also takes effect if
its number is too large by a multiple of `2 ^ 32`, unless a later line of the same
key replaces it or it is the number the setting should have anyway
(`appliesExactly_iff`).

The statement is about one setting at a time, with its range as two numbers, and both settings
are the same statement at their own ranges.  Which of several lines decides is
`Foundations.LastValue`.
-/

namespace Synapse

open Numerals Atomic LastValue

/-- The number of a line, if it is in range. -/
def numberWithin (platform : Platform) (lo hi : ℕ) (text : Text) : Option ℕ :=
  (stoul platform text).toOption.filter fun n => lo ≤ n && n ≤ hi

/-- The number the code checks, if it is in range. -/
def narrowedWithin (platform : Platform) (lo hi : ℕ) (text : Text) : Option ℕ :=
  ((stoul platform text).toOption.map (· % 2 ^ 32)).filter fun n => lo ≤ n && n ≤ hi

/-- The number of the last line in range, or the old one. -/
def numberAfter (platform : Platform) (lo hi : ℕ) (texts : List Text) (old : ℕ) : ℕ :=
  (lastSome (numberWithin platform lo hi) texts).getD old

/-- The last line that takes effect has a number of 32 bits, or the one the setting
should have anyway. -/
def EndsUncut (platform : Platform) (lo hi : ℕ) (texts : List Text) (old : ℕ) : Prop :=
  ∀ text n, lastEntry (narrowedWithin platform lo hi) texts = some text →
    stoul platform text = .ok n → n < 2 ^ 32 ∨ n % 2 ^ 32 = numberAfter platform lo hi texts old

/-- A content has set both numbers as they are written. -/
structure AppliesExactly (platform : Platform) (content : Text)
    (snap snap' : Atomic.ConfigSnapshot) : Prop where
  powerBudget : snap'.powerBudgetWatts.toNat = numberAfter platform 1 100
    (textsFor .powerBudget (assignments content)) snap.powerBudgetWatts.toNat
  thermalTarget : snap'.thermalTargetCelsius.toNat = numberAfter platform 40 105
    (textsFor .thermalTarget (assignments content)) snap.thermalTargetCelsius.toNat

section Narrowing

variable {platform : Platform} {lo hi : ℕ}

/-- Among the lines with a number of 32 bits nothing is cut. -/
theorem good_narrowedWithin (hhi : hi < 2 ^ 32) :
    good (fun text => (stoul platform text).toOption.any (· < 2 ^ 32))
      (narrowedWithin platform lo hi) = numberWithin platform lo hi := by
  funext text
  rw [good, narrowedWithin, numberWithin]
  cases stoul platform text with
  | error e => rfl
  | ok n =>
      by_cases hn : n < 2 ^ 32
      · have huncut : (Except.ok n : Except ConversionError ℕ).toOption.map (· % 2 ^ 32) =
            (Except.ok n : Except ConversionError ℕ).toOption :=
          congrArg some (Nat.mod_eq_of_lt hn)
        rw [huncut]
        exact if_pos (decide_eq_true hn)
      · have hcheck : (decide (lo ≤ n) && decide (n ≤ hi)) = false := by
          rw [Bool.and_eq_false_iff, decide_eq_false_iff_not, decide_eq_false_iff_not]
          omega
        rw [if_neg (by simpa [Except.toOption] using hn)]
        exact (Option.filter_eq_none_iff.mpr fun m hm => by
          obtain rfl := Option.some_injective _ hm
          rw [hcheck]
          decide).symm

/-- The check on 32 bits is one on the number cut to 32 bits. -/
theorem map_toNat_filter {check : UInt32 → Bool}
    (hcheck : ∀ v, check v = (lo ≤ v.toNat && v.toNat ≤ hi)) (text : Text) :
    ((((stoul platform text).map UInt32.ofNat).toOption).filter check).map UInt32.toNat =
      narrowedWithin platform lo hi text := by
  rw [narrowedWithin]
  cases stoul platform text with
  | error e => rfl
  | ok n =>
      have htoNat : (UInt32.ofNat n).toNat = n % 2 ^ 32 := UInt32.toNat_ofNat
      simp only [Except.map, Except.toOption, Option.map_some, Option.filter_some, hcheck, htoNat]
      split
      · rw [Option.map_some, htoNat]
      · rfl

/-- The budget as a number, from 1 to 100. -/
theorem map_accepted_powerBudget (text : Text) :
    (Setting.powerBudget.accepted platform text).map UInt32.toNat =
      narrowedWithin platform 1 100 text :=
  map_toNat_filter (fun v => by
    simp only [Setting.inRange, gt_iff_lt, UInt32.lt_iff_toNat_lt, UInt32.le_iff_toNat_le]
    rfl) text

/-- The target as a number, from 40 to 105. -/
theorem map_accepted_thermalTarget (text : Text) :
    (Setting.thermalTarget.accepted platform text).map UInt32.toNat =
      narrowedWithin platform 40 105 text :=
  map_toNat_filter (fun v => by
    simp only [Setting.inRange, ge_iff_le, UInt32.le_iff_toNat_le]
    rfl) text

/-- A setting of 32 bits after its lines, as a number. -/
theorem toNat_getD_lastSome {accepted : Text → Option UInt32}
    (haccepted : ∀ text, (accepted text).map UInt32.toNat = narrowedWithin platform lo hi text)
    (texts : List Text) (old : UInt32) :
    ((lastSome accepted texts).getD old).toNat =
      (lastSome (narrowedWithin platform lo hi) texts).getD old.toNat := by
  rw [← funext haccepted, lastSome_map, Option.getD_map]

/-- Reading cut numbers gives the same exactly if the last line that counts is not cut. -/
theorem getD_lastSome_eq_numberAfter_iff (hhi : hi < 2 ^ 32) (texts : List Text) (old : ℕ) :
    (lastSome (narrowedWithin platform lo hi) texts).getD old =
        numberAfter platform lo hi texts old ↔ EndsUncut platform lo hi texts old := by
  rw [numberAfter, ← good_narrowedWithin hhi, getD_lastSome_eq_good_iff, good_narrowedWithin hhi,
    ← numberAfter]
  refine forall_congr' fun text => ?_
  rw [forall_comm]
  refine forall_congr' fun hlast => ?_
  -- the last line that takes effect has a number
  obtain ⟨_, hvalue, -⟩ := lastSome_of_lastEntry hlast
  rw [narrowedWithin] at hvalue ⊢
  cases hn : stoul platform text with
  | error e =>
      rw [hn] at hvalue
      cases hvalue
  | ok n =>
      rw [hn] at hvalue
      simp only [Except.toOption, Option.map_some, Option.filter_eq_some_iff] at hvalue
      simp only [Except.toOption, Option.map_some, Option.any_some, decide_eq_true_eq,
        Option.filter_eq_some_iff, Except.ok.injEq, forall_eq', Option.some.injEq]
      obtain ⟨rfl, hin⟩ := (and_congr_left fun _ => Option.some_inj).mp hvalue
      exact or_congr_right ⟨fun h => h.1, fun h => ⟨h, h ▸ hin⟩⟩

end Narrowing

/-- **Numbers are applied exactly** if and only if no number beyond 32 bits is the last
that takes effect. -/
theorem appliesExactly_iff {platform : Platform} {content : Text} {c c' : ConfiguredCore}
    (h : c.applyConfigContent platform content = .ok c') :
    AppliesExactly platform content c.config.current c'.config.current ↔
      EndsUncut platform 1 100 (textsFor .powerBudget (assignments content))
        c.config.current.powerBudgetWatts.toNat ∧
      EndsUncut platform 40 105 (textsFor .thermalTarget (assignments content))
        c.config.current.thermalTargetCelsius.toNat := by
  have hpower := ConfiguredCore.read_applyConfigContent h .powerBudget
  have hthermal := ConfiguredCore.read_applyConfigContent h .thermalTarget
  rw [← getD_lastSome_eq_numberAfter_iff (by decide),
    ← getD_lastSome_eq_numberAfter_iff (by decide), ← toNat_getD_lastSome map_accepted_powerBudget,
    ← toNat_getD_lastSome map_accepted_thermalTarget]
  constructor
  · exact fun h => ⟨(congrArg _ hpower.symm).trans h.powerBudget,
      (congrArg _ hthermal.symm).trans h.thermalTarget⟩
  · exact fun h => ⟨(congrArg _ hpower).trans h.1, (congrArg _ hthermal).trans h.2⟩

/-- A thermal target out of range is passed over. -/
theorem appliesExactly_two_lines :
    ∃ c', (ConfiguredCore.create ⟨true, true, true, true, true⟩).applyConfigContent .quiet64
        (ascii "power_budget = 20\nthermal_target = 300\n") = .ok c' ∧
      (AppliesExactly .quiet64 (ascii "power_budget = 20\nthermal_target = 300\n")
          (ConfiguredCore.create ⟨true, true, true, true, true⟩).config.current
          c'.config.current ↔
        EndsUncut .quiet64 1 100 [ascii "20"] 15 ∧ EndsUncut .quiet64 40 105 [ascii "300"] 80) := by
  have hassigned : assignments (ascii "power_budget = 20\nthermal_target = 300\n") =
      [(.powerBudget, ascii "20"), (.thermalTarget, ascii "300")] := by decide
  obtain ⟨c', hc'⟩ := (ConfiguredCore.exists_applyConfigContent_iff .quiet64
    (ascii "power_budget = 20\nthermal_target = 300\n")
    (.create ⟨true, true, true, true, true⟩)).mpr <| by
      rw [hassigned]
      exact List.forall_mem_cons.mpr ⟨⟨_, rfl⟩, List.forall_mem_singleton.mpr ⟨_, rfl⟩⟩
  refine ⟨c', hc', ?_⟩
  have h := appliesExactly_iff hc'
  rwa [hassigned] at h

/-- 50 and `2 ^ 32` watts are taken for 50. -/
theorem large_number_applied :
    ∃ c', (ConfiguredCore.create ⟨true, true, true, true, true⟩).applyConfigContent .quiet64
        (ascii "power_budget = 4294967346\n") = .ok c' ∧
      c'.config.current.powerBudgetWatts = 50 ∧
      ¬ AppliesExactly .quiet64 (ascii "power_budget = 4294967346\n")
        (ConfiguredCore.create ⟨true, true, true, true, true⟩).config.current
        c'.config.current := by
  have hassigned : assignments (ascii "power_budget = 4294967346\n") =
      [(.powerBudget, ascii "4294967346")] := by decide
  obtain ⟨c', hc'⟩ := (ConfiguredCore.exists_applyConfigContent_iff .quiet64
    (ascii "power_budget = 4294967346\n") (.create ⟨true, true, true, true, true⟩)).mpr <| by
      rw [hassigned]
      exact List.forall_mem_singleton.mpr ⟨_, rfl⟩
  have hpower : c'.config.current.powerBudgetWatts = 50 := by
    have h := ConfiguredCore.read_applyConfigContent hc' .powerBudget
    rw [hassigned, settled_singleton_self] at h
    exact h
  refine ⟨c', hc', hpower, fun h => ?_⟩
  have hexact := h.powerBudget
  rw [hpower, hassigned] at hexact
  exact absurd hexact (by decide)

end Synapse
