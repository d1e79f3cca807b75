import Synapse.Core.ConfigLines

/-!
# The default `config.toml`

What `start_config_watcher()` writes if there is no file.  The file is written by
one function and read by another; `stated_defaultContent` says that what is read is
what was written.

### Two functions that know of each other

The writer prints comments, a blank line, and one assignment for each setting, with a blank on
either side of the equality sign; the reader cuts comments off, trims, and splits at the first
equality sign.  Nothing but the texts connects them.  The proof goes through what the texts
have in common: the values and the names are `Plain`, they contain none of the bytes that the
reader takes for something else, and whatever is plain survives the trimming with blanks
around it.
-/

namespace Synapse.Hotreload

open Numerals Atomic LastValue

/-- The assignments in the file: three current settings, and three flags that are
always on. -/
def defaultAssignments (snap : Atomic.ConfigSnapshot) : List (String × Text) :=
  [("power_budget", decimal snap.powerBudgetWatts.toNat),
    ("thermal_target", decimal snap.thermalTargetCelsius.toNat),
    ("ml_aggressive", ascii (if snap.mlAggressive then "true" else "false")),
    ("jit_enabled", ascii "true"), ("hai_enabled", ascii "true"),
    ("telemetry_enabled", ascii "true")]

/-- The comments on top of it. -/
def defaultComments : List Text :=
  [ascii "# Synapse configuration",
    ascii "# Edit while the layer is running " ++ [0xe2, 0x80, 0x94] ++
      ascii " changes take effect immediately."]

/-- A line of the file that sets something. -/
def assignmentLine (a : String × Text) : Text := ascii a.1 ++ ascii " = " ++ a.2

/-- The lines of the file, the comments first. -/
def defaultLines (snap : Atomic.ConfigSnapshot) : List Text :=
  defaultComments ++ (defaultAssignments snap).map assignmentLine

/-- The file, with a line feed behind every line. -/
def defaultContent (snap : Atomic.ConfigSnapshot) : Text :=
  (defaultLines snap).flatMap fun line => line ++ [0x0a]

/-! ## Reading it -/

/-- Not a blank, a line end, `=` or `#`. -/
def isPlain (c : UInt8) : Bool :=
  c ≠ 0x20 && c ≠ 0x09 && c ≠ 0x0d && c ≠ 0x0a && c ≠ 0x3d && c ≠ 0x23

/-- A word of plain bytes. -/
structure Plain (s : Text) : Prop where
  ne_nil : s ≠ []
  plain : ∀ c ∈ s, isPlain c = true

/-- Plainness can be computed. -/
theorem plain_of_all {s : Text} (h : (!s.isEmpty && s.all isPlain) = true) : Plain s := by
  rw [Bool.and_eq_true, Bool.not_eq_true', List.isEmpty_eq_false_iff, List.all_eq_true] at h
  exact ⟨h.1, h.2⟩

/-- Lines that are written with a line feed behind each are the lines that are read. -/
theorem getlines_flatMap {lines : List Text} (h : ∀ line ∈ lines, (0x0a : UInt8) ∉ line) :
    getlines (lines.flatMap fun line => line ++ [0x0a]) = lines := by
  have hsplit : (lines.flatMap fun line => line ++ [0x0a]).splitOn 0x0a = lines ++ [[]] := by
    induction lines with
    | nil => rfl
    | cons line lines ih =>
        obtain ⟨hline, hlines⟩ := List.forall_mem_cons.mp h
        rw [List.flatMap_cons, List.append_assoc, List.singleton_append,
          List.splitOn_append_cons_self, List.splitOn_eq_singleton hline, ih hlines]
        rfl
  unfold getlines
  rw [hsplit]
  simp

/-- The bytes that end a text are plain. -/
structure Bounded (s : Text) : Prop where
  front : ∀ c, s.head? = some c → isPlain c = true
  back : ∀ c, s.getLast? = some c → isPlain c = true

/-- A plain text neither begins nor ends with what is trimmed off. -/
theorem Plain.bounded {s : Text} (h : Plain s) : Bounded s where
  front c hc := h.plain c (List.mem_of_mem_head? hc)
  back c hc := h.plain c (List.mem_of_getLast? hc)

/-- Nor does a text that begins and ends with plain ones. -/
theorem Plain.append {s t : Text} (hs : Plain s) (ht : Plain t) (mid : Text) :
    Bounded (s ++ mid ++ t) where
  front c hc := by
    rw [List.append_assoc, List.head?_append_of_ne_nil _ hs.ne_nil] at hc
    exact hs.bounded.front c hc
  back c hc := by
    rw [List.getLast?_append_of_ne_nil _ ht.ne_nil] at hc
    exact ht.bounded.back c hc

/-- What is plain is not trimmed off in front. -/
theorem isPlain_front {c : UInt8} (h : isPlain c = true) :
    ¬ (decide (c = 0x20) || decide (c = 0x09)) = true := by
  simp only [isPlain, Bool.and_eq_true, decide_eq_true_eq] at h
  simp [h.1.1.1.1.1, h.1.1.1.1.2]

/-- Nor behind. -/
theorem isPlain_back {c : UInt8} (h : isPlain c = true) :
    ¬ (decide (c = 0x20) || decide (c = 0x09) || decide (c = 0x0d) ||
        decide (c = 0x0a)) = true := by
  simp only [isPlain, Bool.and_eq_true, decide_eq_true_eq] at h
  simp [h.1.1.1.1.1, h.1.1.1.1.2, h.1.1.1.2, h.1.1.2]

/-- Nothing is trimmed between plain bytes. -/
theorem Bounded.trim {s : Text} (h : Bounded s) : trim s = s := by
  have hfront : s.dropWhile (fun c => c = 0x20 || c = 0x09) = s := by
    cases s with
    | nil => rfl
    | cons c s => exact List.dropWhile_cons_of_neg (isPlain_front (h.front c rfl))
  unfold Synapse.trim
  rw [hfront, List.rdropWhile_eq_self_iff]
  exact fun hne => isPlain_back (h.back _ (List.getLast?_eq_getLast_of_ne_nil hne))

/-- The blank in front of a value is trimmed off, and nothing else. -/
theorem trim_blank_append {s : Text} (h : Plain s) : trim (0x20 :: s) = s := by
  have hdrop : trim (0x20 :: s) = trim s := rfl
  rw [hdrop, h.bounded.trim]

/-- The same of the blank behind a name. -/
theorem trim_append_blank {s : Text} (h : Plain s) : trim (s ++ [0x20]) = s := by
  have hfront : (s ++ [0x20]).dropWhile (fun c => c = 0x20 || c = 0x09) = s ++ [0x20] := by
    cases s with
    | nil => exact absurd rfl h.ne_nil
    | cons c s => exact List.dropWhile_cons_of_neg (isPlain_front (h.plain c List.mem_cons_self))
  unfold Synapse.trim
  rw [hfront, List.rdropWhile_concat_pos _ _ _ rfl, List.rdropWhile_eq_self_iff]
  exact fun hne => isPlain_back (h.plain _ (List.getLast_mem hne))

/-- The line of a key and a value is read as that. -/
theorem keyAndValue_line {key val : Text} (hkey : Plain key) (hval : Plain val) :
    keyAndValue (key ++ ascii " = " ++ val) = some (key, val) := by
  have hline : key ++ ascii " = " ++ val = key ++ [0x20] ++ 0x3d :: 0x20 :: val := by
    simp [show ascii " = " = [0x20, 0x3d, 0x20] from rfl]
  have hbefore : ∀ c ∈ key ++ [0x20], decide (c ≠ 0x3d) = true := by
    intro c hc
    rcases List.mem_append.mp hc with hc | hc
    · have hplain := hkey.plain c hc
      simp only [isPlain, Bool.and_eq_true] at hplain
      exact hplain.1.2
    · rw [List.mem_singleton.mp hc]
      decide
  have htrim : trim (key ++ ascii " = " ++ val) = key ++ ascii " = " ++ val :=
    (hkey.append hval _).trim
  have hcomment : ¬ (key ++ ascii " = " ++ val = [] ∨
      (key ++ ascii " = " ++ val).head? = some 0x23) := by
    rintro (hnil | hhash)
    · simp [hkey.ne_nil] at hnil
    · have hplain := (hkey.append hval _).front _ hhash
      exact absurd hplain (by decide)
  unfold keyAndValue
  rw [if_neg hcomment, htrim, hline]
  dsimp only
  rw [if_pos (by simp), List.takeWhile_append_of_pos hbefore, List.dropWhile_append_of_pos hbefore]
  change some (trim (key ++ [0x20] ++ []), trim (0x20 :: val)) = some (key, val)
  rw [List.append_nil, trim_append_blank hkey, trim_blank_append hval]

/-- Decimals are plain. -/
theorem plain_decimal (n : ℕ) : Plain (decimal n) := by
  refine ⟨decimal_ne_nil n, fun c hc => ?_⟩
  obtain ⟨d, hd, rfl⟩ := exists_digit_of_mem_decimal hc
  interval_cases d <;> decide

/-- So are the two flags. -/
theorem plain_flag (b : Bool) : Plain (ascii (if b then "true" else "false")) := by
  cases b <;> exact plain_of_all (by decide)

/-- There is no line feed in a plain text, so it stays in its line. -/
theorem not_mem_of_plain {s : Text} (h : Plain s) : (0x0a : UInt8) ∉ s :=
  fun hmem => absurd (h.plain _ hmem) (by decide)

/-- The key and the value of every assignment are plain. -/
theorem plain_defaultAssignments {snap : Atomic.ConfigSnapshot} {a : String × Text}
    (h : a ∈ defaultAssignments snap) : Plain (ascii a.1) ∧ Plain a.2 := by
  have hkeys : ∀ key ∈ ["power_budget", "thermal_target", "ml_aggressive", "jit_enabled",
      "hai_enabled", "telemetry_enabled"],
      (!(ascii key).isEmpty && (ascii key).all isPlain) = true := by decide
  refine ⟨plain_of_all (hkeys _ (List.mem_map_of_mem (f := Prod.fst) h)), ?_⟩
  simp only [defaultAssignments, List.mem_cons, List.not_mem_nil, or_false] at h
  rcases h with rfl | rfl | rfl | rfl | rfl | rfl
  · exact plain_decimal _
  · exact plain_decimal _
  · exact plain_flag _
  · exact plain_flag true
  · exact plain_flag true
  · exact plain_flag true

/-- The file is read by its lines. -/
theorem getlines_defaultContent (snap : Atomic.ConfigSnapshot) :
    getlines (defaultContent snap) = defaultLines snap := by
  have hcomments : ∀ line ∈ defaultComments, (0x0a : UInt8) ∉ line := by decide
  refine getlines_flatMap fun line hline => ?_
  rcases List.mem_append.mp hline with hcomment | hassigned
  · exact hcomments line hcomment
  · obtain ⟨a, ha, rfl⟩ := List.mem_map.mp hassigned
    obtain ⟨hkey, hval⟩ := plain_defaultAssignments ha
    have hequals : (0x0a : UInt8) ∉ ascii " = " := by decide
    rw [assignmentLine, List.mem_append, List.mem_append, not_or, not_or]
    exact ⟨⟨not_mem_of_plain hkey, hequals⟩, not_mem_of_plain hval⟩

/-- **What is read is what was written.** -/
theorem assignments_defaultContent (snap : Atomic.ConfigSnapshot) :
    assignments (defaultContent snap) =
      [(.powerBudget, decimal snap.powerBudgetWatts.toNat),
        (.thermalTarget, decimal snap.thermalTargetCelsius.toNat),
        (.mlAggressive, ascii (if snap.mlAggressive then "true" else "false")),
        (.jitEnabled, ascii "true"), (.haiEnabled, ascii "true"),
        (.telemetryEnabled, ascii "true")] := by
  have hcomments : defaultComments.filterMap assignment = [] := by decide
  have hkeys : ["power_budget", "thermal_target", "ml_aggressive", "jit_enabled", "hai_enabled",
      "telemetry_enabled"].map (fun key => Setting.ofKey (ascii key)) =
      [some .powerBudget, some .thermalTarget, some .mlAggressive, some .jitEnabled,
        some .haiEnabled, some .telemetryEnabled] := by decide
  simp only [List.map_cons, List.map_nil, List.cons.injEq, and_true] at hkeys
  have hlines : ((defaultAssignments snap).map assignmentLine).filterMap assignment =
      (defaultAssignments snap).filterMap fun a =>
        (Setting.ofKey (ascii a.1)).map fun setting => (setting, a.2) := by
    rw [List.filterMap_map]
    refine List.filterMap_congr fun a ha => ?_
    obtain ⟨hkey, hval⟩ := plain_defaultAssignments ha
    rw [Function.comp_apply, assignment, assignmentLine, keyAndValue_line hkey hval]
    rfl
  rw [assignments, getlines_defaultContent, defaultLines, List.filterMap_append, hcomments, hlines]
  simp [defaultAssignments, hkeys]

/-! ## What it states -/

/-- A text that is a whole number in its range states its value. -/
theorem stated_of_convert {platform : Platform} {setting : Setting} {text : Text}
    {v : setting.Value} (hwhole : setting.isWhole text = true)
    (hconvert : setting.convert platform text = .ok v) (hrange : setting.inRange v = true) :
    setting.stated platform text = some v := by
  rw [Setting.stated, good, if_pos hwhole, Setting.accepted, hconvert]
  exact Option.filter_some_pos hrange

/-- `std::stoul` gives back the number whose decimals it is given. -/
theorem stoul_decimal (platform : Platform) (v : UInt32) :
    (stoul platform (decimal v.toNat)).map UInt32.ofNat = .ok v := by
  have hbits : v.toNat < 2 ^ platform.ulongBits :=
    lt_of_lt_of_le v.toNat_lt (Nat.pow_le_pow_right (by decide) platform.le_ulongBits)
  rw [stoul_of_wholeUnsigned platform (wholeUnsigned_decimal v.toNat) hbits]
  exact congrArg Except.ok UInt32.ofNat_toNat

/-- The decimals of a word are a number that fits. -/
theorem isWhole_decimal (v : UInt32) :
    (wholeUnsigned (decimal v.toNat)).any (· < 2 ^ 32) = true := by
  rw [wholeUnsigned_decimal]
  exact decide_eq_true v.toNat_lt

/-- The flags that are written are the ones that are read. -/
theorem parseFlag_ascii (b : Bool) :
    Setting.parseFlag (ascii (if b then "true" else "false")) = b := by
  cases b <;> decide

/-- The numbers and flags of a valid snapshot are stated. -/
theorem stated_defaultContent (platform : Platform) {snap : Atomic.ConfigSnapshot}
    (hvalid : snap.validate = true) (hjit : snap.jitEnabled = true) (hhai : snap.haiEnabled = true)
    (htelemetry : snap.telemetryEnabled = true) {setting : Setting} {text : Text}
    (h : (setting, text) ∈ assignments (defaultContent snap)) :
    setting.stated platform text = some (setting.read snap) := by
  obtain ⟨hpower, hthermal, -⟩ := snap.validate_iff.mp hvalid
  simp only [assignments_defaultContent, List.mem_cons, List.not_mem_nil, or_false,
    Prod.mk.injEq] at h
  rcases h with ⟨rfl, rfl⟩ | ⟨rfl, rfl⟩ | ⟨rfl, rfl⟩ | ⟨rfl, rfl⟩ | ⟨rfl, rfl⟩ | ⟨rfl, rfl⟩
  · refine stated_of_convert (isWhole_decimal _) (stoul_decimal platform _) ?_
    change (decide (0 < snap.powerBudgetWatts) && decide (snap.powerBudgetWatts ≤ 100)) = true
    rw [Bool.and_eq_true, decide_eq_true_iff, decide_eq_true_iff, UInt32.pos_iff_ne_zero]
    exact hpower
  · refine stated_of_convert (isWhole_decimal _) (stoul_decimal platform _) ?_
    change (decide (40 ≤ snap.thermalTargetCelsius) &&
      decide (snap.thermalTargetCelsius ≤ 105)) = true
    rw [Bool.and_eq_true, decide_eq_true_iff, decide_eq_true_iff]
    exact hthermal
  · exact stated_of_convert rfl (congrArg Except.ok (parseFlag_ascii _)) rfl
  · exact stated_of_convert rfl (congrArg Except.ok hjit.symm) rfl
  · exact stated_of_convert rfl (congrArg Except.ok hhai.symm) rfl
  · exact stated_of_convert rfl (congrArg Except.ok htelemetry.symm) rfl

end Synapse.Hotreload
