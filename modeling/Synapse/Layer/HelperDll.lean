import Synapse.Foundations.Runs
import Synapse.Layer.D3D12

/-!
# The hook table of the helper DLL

`synapse_d3d12_helper_dll.cpp`: eight records of pointer cells whose contents have
been replaced.  Changing a cell needs a call of `VirtualProtect`, which may fail; the
second one, which gives the old protection back, is not looked at.

Cells are named by their addresses and do not overlap.  The table mirrors them
(`Mirrors`), whatever calls are made.

### Cells and records

A record of the table is a cell, what it held, and what has been written into it, and the
table is a prefix of an array of eight.  Removing a record moves the ones behind it down, in a
loop (`moveDown`), and a shutdown restores from the first to the last and forgets them all,
whatever the restoring has returned.  `Mirrors` is what is true of the table and the cells at
any time: the targets are distinct, each cell holds its replacement, and what stood there
before is the record's original, while all other cells are untouched.

Writing to a cell needs its page to be writable, so each call takes how `VirtualProtect`
answers as an argument.  A refusal comes before anything is written; that is why a failed call
changes nothing (`unchangedUnlessOk`).
-/

namespace Synapse.D3D12

open Runs

/-- An address, or what a pointer cell holds; 0 is the null pointer. -/
abbrev Address := UInt64

/-- The result when the table is full. -/
def E_OUTOFMEMORY : HRESULT := 0x8007000E

/-- The error of a cell that is hooked already. -/
def ERROR_ALREADY_INITIALIZED : UInt32 := 1247

/-- `HRESULT_FROM_WIN32(x)`; words from `2 ^ 31` on are the negative ones. -/
def hresultFromWin32 (x : UInt32) : HRESULT :=
  if x = 0 ∨ 0x80000000 ≤ x then x
  else (x &&& (0xFFFF : UInt32)) ||| ((7 : UInt32) <<< 16) ||| 0x80000000

/-- What `VirtualProtect` does, with the error that `GetLastError` returns then. -/
abbrev Protection := Except UInt32 Unit

/-- A record of the table. -/
structure HookRecord where
  target : Address
  original : Address
  replacement : Address
  active : Bool
  deriving DecidableEq

/-- `{}`. -/
def HookRecord.zeroed : HookRecord where
  target := 0
  original := 0
  replacement := 0
  active := false

/-- `sizeof(g_hooks) / sizeof(g_hooks[0])`. -/
def kMaxHooks : ℕ := 8

/-- The globals of the file, and the pointer cells of the process. -/
structure HelperDll where
  hooks : ℕ → HookRecord
  hookCount : ℕ
  hookCount_le : hookCount ≤ kMaxHooks
  ready : Bool
  cells : Address → Address

namespace HelperDll

/-- The DLL is loaded into a process. -/
def load (initial : Address → Address) : HelperDll where
  hooks _ := .zeroed
  hookCount := 0
  hookCount_le := Nat.zero_le _
  ready := false
  cells := initial

/-! ## Cells -/

/-- `replace_function_pointer`: the old content and the cells. -/
def replaceFunctionPointer (cells : Address → Address) (target replacement : Address) :
    Protection → Except UInt32 (Address × (Address → Address))
  | .error lastError => .error lastError
  | .ok () => .ok (cells target, Function.update cells target replacement)

/-- `restore_function_pointer`. -/
def restoreFunctionPointer (cells : Address → Address) (target original : Address) :
    Protection → Except UInt32 (Address → Address)
  | .error lastError => .error lastError
  | .ok () => .ok (Function.update cells target original)

/-! ## The API -/

/-- `find_hook`: the index of the record. -/
def findHook (s : HelperDll) (target : Address) : Option ℕ :=
  (List.range s.hookCount).find? fun i => (s.hooks i).target = target

/-- `g_hooks[g_hook_count++] = record`, with the cells that go with it. -/
def appendRecord (s : HelperDll) (hcount : s.hookCount < kMaxHooks) (record : HookRecord)
    (cells : Address → Address) : HelperDll where
  hooks := Function.update s.hooks s.hookCount record
  hookCount := s.hookCount + 1
  hookCount_le := hcount
  ready := true
  cells := cells

/-- `install_hook`: the result, what is written to `*out_original`, and the state.
`outOriginal` is a null pointer or not. -/
def installHook (s : HelperDll) (target replacement : Address) (outOriginal : Bool)
    (protection : Protection) : HRESULT × Option Address × HelperDll :=
  if target = 0 ∨ replacement = 0 ∨ outOriginal = false then (E_INVALIDARG, none, s)
  else if (s.findHook target).isSome then
    (hresultFromWin32 ERROR_ALREADY_INITIALIZED, none, s)
  else if hcount : s.hookCount ≥ kMaxHooks then (E_OUTOFMEMORY, none, s)
  else
    match replaceFunctionPointer s.cells target replacement protection with
    | .error lastError => (hresultFromWin32 lastError, none, s)
    | .ok (original, cells) =>
        (S_OK, some original, s.appendRecord (Nat.lt_of_not_le hcount)
          ⟨target, original, replacement, true⟩ cells)

/-- The loop of `remove_hook` that moves the later records down, from index `i` on for
the given number of rounds. -/
def moveDown : ℕ → ℕ → (ℕ → HookRecord) → ℕ → HookRecord
  | _, 0, hooks => hooks
  | i, rounds + 1, hooks => moveDown (i + 1) rounds (Function.update hooks i (hooks (i + 1)))

/-- What `remove_hook` does to the table, with the cells that go with it. -/
def eraseRecord (s : HelperDll) (index : ℕ) (cells : Address → Address) : HelperDll :=
  let hooks := Function.update s.hooks index { s.hooks index with active := false }
  let hooks := moveDown index (s.hookCount - 1 - index) hooks
  { hooks := Function.update hooks (s.hookCount - 1) .zeroed
    hookCount := s.hookCount - 1
    hookCount_le := (Nat.sub_le _ _).trans s.hookCount_le
    ready := s.hookCount - 1 > 0
    cells := cells }

/-- `remove_hook`. -/
def removeHook (s : HelperDll) (target original : Address) (protection : Protection) :
    HRESULT × HelperDll :=
  if target = 0 ∨ original = 0 then (E_INVALIDARG, s)
  else
    match s.findHook target with
    | none => (E_INVALIDARG, s)
    | some index =>
        if (s.hooks index).original ≠ original then (E_INVALIDARG, s)
        else
          match restoreFunctionPointer s.cells target original protection with
          | .error lastError => (hresultFromWin32 lastError, s)
          | .ok cells => (S_OK, s.eraseRecord index cells)

/-- The first rounds of the loop of `shutdown`; `VirtualProtect` succeeds in it. -/
def restoreHooks (s : HelperDll) : ℕ → (ℕ → HookRecord) × (Address → Address)
  | 0 => (s.hooks, s.cells)
  | i + 1 =>
      let (hooks, cells) := s.restoreHooks i
      if (hooks i).active then
        (Function.update hooks i { hooks i with active := false },
          match restoreFunctionPointer cells (hooks i).target (hooks i).original (.ok ()) with
          | .error _ => cells
          | .ok cells => cells)
      else (hooks, cells)

/-- `shutdown`: every record is restored, and the table is empty. -/
def shutdown (s : HelperDll) : HelperDll where
  hooks := (s.restoreHooks s.hookCount).1
  hookCount := 0
  hookCount_le := Nat.zero_le _
  ready := false
  cells := (s.restoreHooks s.hookCount).2

/-- `attach_process_hooks()`; the initialization result is always `S_OK`. -/
def attachProcessHooks (s : HelperDll) : HRESULT × HelperDll :=
  (S_OK, { s with ready := true })

/-- `detach_process_hooks` -/
def detachProcessHooks (s : HelperDll) : HelperDll := s.shutdown

/-- The calls of the DLL, with what Windows answers. -/
inductive Call where
  | installHook (target replacement : Address) (outOriginal : Bool) (protection : Protection)
  | removeHook (target original : Address) (protection : Protection)
  | shutdown
  | attachProcessHooks
  | detachProcessHooks

/-- The result of a call that has one, and the state after it. -/
def run (s : HelperDll) : Call → Option HRESULT × HelperDll
  | .installHook target replacement outOriginal protection =>
      let (result, _, s') := s.installHook target replacement outOriginal protection
      (some result, s')
  | .removeHook target original protection =>
      let (result, s') := s.removeHook target original protection
      (some result, s')
  | .shutdown => (none, s.shutdown)
  | .attachProcessHooks =>
      let (result, s') := s.attachProcessHooks
      (some result, s')
  | .detachProcessHooks => (none, s.detachProcessHooks)

/-- A call as a step; it never fails. -/
def step (s : HelperDll) (c : Call) : Option HelperDll := some (s.run c).2

/-! ## What is asked -/

/-- The table mirrors the cells: recorded cells hold their replacements, all others
what they held at the start. -/
structure Mirrors (initial : Address → Address) (s : HelperDll) : Prop where
  distinct : ∀ i j, i < s.hookCount → j < s.hookCount →
    (s.hooks i).target = (s.hooks j).target → i = j
  active : ∀ i < s.hookCount, (s.hooks i).active = true
  recorded : ∀ i < s.hookCount, s.cells (s.hooks i).target = (s.hooks i).replacement
  original : ∀ i < s.hookCount, (s.hooks i).original = initial (s.hooks i).target
  unrecorded : ∀ address, (∀ i < s.hookCount, (s.hooks i).target ≠ address) →
    s.cells address = initial address

/-- A call that has another result than `S_OK` has changed neither table nor cells. -/
def UnchangedUnlessOk (s : HelperDll) (c : Call) : Prop :=
  ∀ result, (s.run c).1 = some result → result ≠ S_OK →
    (s.run c).2.hooks = s.hooks ∧ (s.run c).2.hookCount = s.hookCount ∧
      (s.run c).2.cells = s.cells

variable {initial : Address → Address} {s s' : HelperDll}

/-- A fresh table mirrors the cells as they are. -/
theorem mirrors_load : (load initial).Mirrors initial where
  distinct := nofun
  active := nofun
  recorded := nofun
  original := nofun
  unrecorded _ _ := rfl

/-! ## Finding a record -/

/-- A cell without a record. -/
theorem findHook_eq_none {target : Address} (h : s.findHook target = none) :
    ∀ i < s.hookCount, (s.hooks i).target ≠ target := by
  intro i hi heq
  have hnot := List.find?_eq_none.mp h i (List.mem_range.mpr hi)
  exact hnot (decide_eq_true heq)

/-- The record of a cell. -/
theorem findHook_eq_some {target : Address} {index : ℕ} (h : s.findHook target = some index) :
    index < s.hookCount ∧ (s.hooks index).target = target :=
  ⟨List.mem_range.mp (List.mem_of_find?_eq_some h),
    of_decide_eq_true (List.find?_some (p := fun i => decide ((s.hooks i).target = target)) h)⟩

/-! ## What the calls can do -/

/-- An installation adds a record, or changes nothing. -/
theorem installHook_cases (s : HelperDll) (target replacement : Address) (outOriginal : Bool)
    (protection : Protection) :
    (∃ hcount, s.findHook target = none ∧
        s.installHook target replacement outOriginal protection =
          (S_OK, some (s.cells target), s.appendRecord hcount
            ⟨target, s.cells target, replacement, true⟩
            (Function.update s.cells target replacement))) ∨
      (s.installHook target replacement outOriginal protection).2.2 = s := by
  rw [installHook]
  split
  · exact Or.inr rfl
  split
  · exact Or.inr rfl
  rename_i hfind
  split
  · exact Or.inr rfl
  rename_i hcount
  cases protection with
  | error lastError => exact Or.inr rfl
  | ok _ => exact Or.inl ⟨Nat.lt_of_not_le hcount, Option.not_isSome_iff_eq_none.mp hfind, rfl⟩

/-- A removal restores its cell and erases its record, or changes nothing. -/
theorem removeHook_cases (s : HelperDll) (target original : Address) (protection : Protection) :
    (∃ index, s.findHook target = some index ∧ (s.hooks index).original = original ∧
        s.removeHook target original protection =
          (S_OK, s.eraseRecord index (Function.update s.cells target original))) ∨
      (s.removeHook target original protection).2 = s := by
  rw [removeHook]
  split
  · exact Or.inr rfl
  split
  · exact Or.inr rfl
  rename_i index hfind
  split
  · exact Or.inr rfl
  rename_i horiginal
  cases protection with
  | error lastError => exact Or.inr rfl
  | ok _ => exact Or.inl ⟨index, hfind, not_not.mp horiginal, rfl⟩

/-- A call that does not succeed leaves table and cells alone. -/
theorem unchangedUnlessOk (s : HelperDll) (c : Call) : s.UnchangedUnlessOk c := by
  intro result hresult hne
  cases c with
  | installHook target replacement outOriginal protection =>
      rcases s.installHook_cases target replacement outOriginal protection with
        ⟨hcount, -, heq⟩ | hsame
      · rw [run, heq] at hresult
        exact absurd (Option.some_injective _ hresult).symm hne
      · exact ⟨congrArg hooks hsame, congrArg hookCount hsame, congrArg cells hsame⟩
  | removeHook target original protection =>
      rcases s.removeHook_cases target original protection with ⟨index, -, -, heq⟩ | hsame
      · rw [run, heq] at hresult
        exact absurd (Option.some_injective _ hresult).symm hne
      · exact ⟨congrArg hooks hsame, congrArg hookCount hsame, congrArg cells hsame⟩
  | shutdown => cases hresult
  | attachProcessHooks => exact absurd (Option.some_injective _ hresult).symm hne
  | detachProcessHooks => cases hresult

/-! ## The table after a removal -/

/-- The records behind the gap, one place further down. -/
theorem moveDown_apply (i rounds : ℕ) (hooks : ℕ → HookRecord) (j : ℕ) :
    moveDown i rounds hooks j = if i ≤ j ∧ j < i + rounds then hooks (j + 1) else hooks j := by
  induction rounds generalizing i hooks with
  | zero =>
      rw [if_neg (by omega)]
      rfl
  | succ rounds ih =>
      rw [moveDown, ih]
      rcases Nat.lt_trichotomy j i with hlt | rfl | hlt
      · rw [if_neg (by omega), if_neg (by omega), Function.update_of_ne (by omega)]
      · rw [if_neg (by omega), if_pos (by omega), Function.update_self]
      · rw [Function.update_of_ne (by omega), Function.update_of_ne (by omega)]
        exact if_congr (by omega) rfl rfl

/-- Where a record was before the removal of another. -/
def skip (index i : ℕ) : ℕ := if i < index then i else i + 1

/-- The records that stay, numbered around the gap. -/
theorem skip_ne (index i : ℕ) : skip index i ≠ index := by
  unfold skip
  split_ifs <;> omega

/-- No record comes twice. -/
theorem skip_injective (index : ℕ) : Function.Injective (skip index) := by
  intro i j h
  unfold skip at h
  split_ifs at h <;> omega

/-- They were all in the table. -/
theorem skip_lt {index i count : ℕ} (h : i < count - 1) : skip index i < count := by
  unfold skip
  split_ifs <;> omega

/-- Every record but the removed one is the former of some index. -/
theorem exists_skip {index i count : ℕ} (hi : i < count) (hne : i ≠ index)
    (hindex : index < count) : ∃ j < count - 1, skip index j = i := by
  rcases Nat.lt_or_gt_of_ne hne with hlt | hgt
  · exact ⟨i, by omega, if_pos hlt⟩
  · refine ⟨i - 1, by omega, ?_⟩
    rw [skip, if_neg (by omega)]
    omega

/-- Behind the removal each record is one that was there. -/
theorem eraseRecord_hooks (s : HelperDll) {index i : ℕ} (cells : Address → Address)
    (hi : i < s.hookCount - 1) :
    (s.eraseRecord index cells).hooks i = s.hooks (skip index i) := by
  rw [eraseRecord]
  simp only
  rw [Function.update_of_ne hi.ne, moveDown_apply, skip]
  split_ifs with hrange hlt hlt
  · omega
  · rw [Function.update_of_ne (by omega)]
  · rw [Function.update_of_ne (by omega)]
  · omega

/-! ## One call -/

/-- Restoring one more record. -/
theorem restoreHooks_succ {n : ℕ} (hactive : ((s.restoreHooks n).1 n).active = true) :
    s.restoreHooks (n + 1) =
      (Function.update (s.restoreHooks n).1 n { (s.restoreHooks n).1 n with active := false },
        Function.update (s.restoreHooks n).2 ((s.restoreHooks n).1 n).target
          ((s.restoreHooks n).1 n).original) :=
  if_pos hactive

namespace Mirrors

/-- A new record keeps the mirror. -/
theorem append (h : s.Mirrors initial) {target replacement : Address}
    (hcount : s.hookCount < kMaxHooks) (hfind : s.findHook target = none) :
    (s.appendRecord hcount ⟨target, s.cells target, replacement, true⟩
      (Function.update s.cells target replacement)).Mirrors initial := by
  have hfresh := findHook_eq_none hfind
  have hold : ∀ i < s.hookCount, Function.update s.hooks s.hookCount
      ⟨target, s.cells target, replacement, true⟩ i = s.hooks i :=
    fun i hi => Function.update_of_ne hi.ne _ _
  have hnew : Function.update s.hooks s.hookCount
      ⟨target, s.cells target, replacement, true⟩ s.hookCount =
        ⟨target, s.cells target, replacement, true⟩ := Function.update_self _ _ _
  refine ⟨fun i j hi hj heq => ?_, fun i hi => ?_, fun i hi => ?_, fun i hi => ?_,
    fun address haddress => ?_⟩
  all_goals simp only [appendRecord] at *
  · rcases Nat.lt_succ_iff_lt_or_eq.mp hi with hi | rfl <;>
      rcases Nat.lt_succ_iff_lt_or_eq.mp hj with hj | rfl
    · rw [hold i hi, hold j hj] at heq
      exact h.distinct i j hi hj heq
    · rw [hold i hi, hnew] at heq
      exact absurd heq (hfresh i hi)
    · rw [hold j hj, hnew] at heq
      exact absurd heq.symm (hfresh j hj)
    · rfl
  · rcases Nat.lt_succ_iff_lt_or_eq.mp hi with hi | rfl
    · rw [hold i hi]
      exact h.active i hi
    · rw [hnew]
  · rcases Nat.lt_succ_iff_lt_or_eq.mp hi with hi | rfl
    · rw [hold i hi, Function.update_of_ne (hfresh i hi)]
      exact h.recorded i hi
    · rw [hnew, Function.update_self]
  · rcases Nat.lt_succ_iff_lt_or_eq.mp hi with hi | rfl
    · rw [hold i hi]
      exact h.original i hi
    · rw [hnew]
      exact h.unrecorded target hfresh
  · have hne : address ≠ target := by
      rintro rfl
      exact haddress s.hookCount (Nat.lt_succ_self _) (by rw [hnew])
    rw [Function.update_of_ne hne]
    refine h.unrecorded address fun i hi => ?_
    rw [← hold i hi]
    exact haddress i (Nat.lt_succ_of_lt hi)

/-- So does the removal of one. -/
theorem erase (h : s.Mirrors initial) {target original : Address} {index : ℕ}
    (hfind : s.findHook target = some index) (horiginal : (s.hooks index).original = original) :
    (s.eraseRecord index (Function.update s.cells target original)).Mirrors initial := by
  obtain ⟨hindex, htarget⟩ := findHook_eq_some hfind
  set s' := s.eraseRecord index (Function.update s.cells target original) with hs'
  have hcells : s'.cells = Function.update s.cells target original := rfl
  have hhooks : ∀ i < s'.hookCount, s'.hooks i = s.hooks (skip index i) :=
    fun i hi => s.eraseRecord_hooks _ hi
  have hother : ∀ i < s'.hookCount, (s.hooks (skip index i)).target ≠ target := by
    intro i hi heq
    exact skip_ne index i (h.distinct _ _ (skip_lt hi) hindex (heq.trans htarget.symm))
  refine ⟨fun i j hi hj heq => ?_, fun i hi => ?_, fun i hi => ?_, fun i hi => ?_,
    fun address haddress => ?_⟩
  · rw [hhooks i hi, hhooks j hj] at heq
    exact skip_injective index (h.distinct _ _ (skip_lt hi) (skip_lt hj) heq)
  · rw [hhooks i hi]
    exact h.active _ (skip_lt hi)
  · rw [hhooks i hi, hcells, Function.update_of_ne (hother i hi)]
    exact h.recorded _ (skip_lt hi)
  · rw [hhooks i hi]
    exact h.original _ (skip_lt hi)
  · rw [hcells]
    rcases eq_or_ne address target with rfl | hne
    · rw [Function.update_self, ← horiginal, h.original index hindex, htarget]
    · rw [Function.update_of_ne hne]
      refine h.unrecorded address fun i hi heq => ?_
      rcases eq_or_ne i index with rfl | hi'
      · exact hne (heq.symm.trans htarget)
      · obtain ⟨j, hj, rfl⟩ := exists_skip hi hi' hindex
        exact haddress j hj (by rw [hhooks j hj, heq])

/-- After some rounds of the loop the first records are inactive and their cells
restored. -/
theorem restoreHooks (h : s.Mirrors initial) {rounds : ℕ} (hrounds : rounds ≤ s.hookCount) :
    (∀ i, rounds ≤ i → (s.restoreHooks rounds).1 i = s.hooks i) ∧
      ∀ address, (s.restoreHooks rounds).2 address =
        if ∃ i < rounds, (s.hooks i).target = address then initial address
        else s.cells address := by
  induction rounds with
  | zero => exact ⟨fun _ _ => rfl, fun address => (if_neg (by simp)).symm⟩
  | succ n ih =>
      obtain ⟨hhooks, hcells⟩ := ih (Nat.le_of_succ_le hrounds)
      have hn := hhooks n le_rfl
      rw [restoreHooks_succ (by rw [hn, h.active n hrounds]), hn]
      refine ⟨fun i hi => ?_, fun address => ?_⟩
      · exact (Function.update_of_ne (by omega) _ _).trans (hhooks i (by omega))
      · change Function.update (s.restoreHooks n).2 (s.hooks n).target (s.hooks n).original
          address = _
        rcases eq_or_ne address (s.hooks n).target with rfl | hne
        · rw [Function.update_self, if_pos ⟨n, Nat.lt_succ_self n, rfl⟩]
          exact h.original n hrounds
        · rw [Function.update_of_ne hne, hcells]
          refine if_congr ?_ rfl rfl
          constructor
          · rintro ⟨i, hi, rfl⟩
            exact ⟨i, Nat.lt_succ_of_lt hi, rfl⟩
          · rintro ⟨i, hi, rfl⟩
            rcases Nat.lt_succ_iff_lt_or_eq.mp hi with hi | rfl
            · exact ⟨i, hi, rfl⟩
            · exact absurd rfl hne

/-- A shutdown restores all cells. -/
theorem shutdown_cells (h : s.Mirrors initial) : s.shutdown.cells = initial := by
  funext address
  refine ((h.restoreHooks le_rfl).2 address).trans ?_
  split
  · rfl
  · rename_i hnone
    exact h.unrecorded address fun i hi heq => hnone ⟨i, hi, heq⟩

/-- So does a shutdown, which leaves no records. -/
theorem shutdown (h : s.Mirrors initial) : s.shutdown.Mirrors initial where
  distinct := nofun
  active := nofun
  recorded := nofun
  original := nofun
  unrecorded address _ := congrFun h.shutdown_cells address

/-- The step lemma. -/
theorem run (h : s.Mirrors initial) (c : Call) : (s.run c).2.Mirrors initial := by
  cases c with
  | installHook target replacement outOriginal protection =>
      rcases s.installHook_cases target replacement outOriginal protection with
        ⟨hcount, hfind, heq⟩ | hsame
      · rw [HelperDll.run, heq]
        exact h.append hcount hfind
      · exact hsame.symm ▸ h
  | removeHook target original protection =>
      rcases s.removeHook_cases target original protection with
        ⟨index, hfind, horiginal, heq⟩ | hsame
      · rw [HelperDll.run, heq]
        exact h.erase hfind horiginal
      · exact hsame.symm ▸ h
  | shutdown => exact h.shutdown
  | attachProcessHooks => exact ⟨h.distinct, h.active, h.recorded, h.original, h.unrecorded⟩
  | detachProcessHooks => exact h.shutdown

end Mirrors

/-! ## Whole runs -/

/-- **The table mirrors memory** after every run.  A call without success changes
nothing, and a shutdown restores all cells. -/
theorem mirrors_of_exec {calls : List Call} (h : exec step (load initial) calls = some s) :
    s.hookCount ≤ 8 ∧ s.Mirrors initial ∧ (∀ c, s.UnchangedUnlessOk c) ∧
      s.shutdown.cells = initial ∧ s.detachProcessHooks.cells = initial := by
  have hstep : ∀ (s : HelperDll) (c : Call) (s' : HelperDll), s.Mirrors initial →
      s.step c = some s' → s'.Mirrors initial := by
    rintro s c s' hs heq
    obtain rfl := Option.some_injective _ heq
    exact hs.run c
  have hmirrors : s.Mirrors initial := invariant_of_exec step hstep mirrors_load h
  exact ⟨s.hookCount_le, hmirrors, s.unchangedUnlessOk, hmirrors.shutdown_cells,
    hmirrors.shutdown_cells⟩

/-- Three hooks, of which the second is removed.  A second hook of one cell is refused,
and so is a removal without access. -/
theorem mirrors_removed :
    ∃ s, exec step (load fun _ => 1) [.installHook 8 2 true (.ok ()),
        .installHook 16 3 true (.ok ()), .installHook 24 4 true (.ok ()),
        .installHook 24 5 true (.ok ()), .removeHook 16 1 (.ok ()),
        .removeHook 8 1 (.error 5)] = some s ∧
      s.hookCount = 2 ∧ s.cells 16 = 1 ∧ s.cells 24 = 4 ∧ s.Mirrors fun _ => 1 := by
  obtain ⟨s, hrun, hcount, hremoved, hkept⟩ : ∃ s, exec step (load fun _ => 1)
      [.installHook 8 2 true (.ok ()), .installHook 16 3 true (.ok ()),
        .installHook 24 4 true (.ok ()), .installHook 24 5 true (.ok ()),
        .removeHook 16 1 (.ok ()), .removeHook 8 1 (.error 5)] = some s ∧
      s.hookCount = 2 ∧ s.cells 16 = 1 ∧ s.cells 24 = 4 :=
    ⟨_, rfl, by decide, by decide, by decide⟩
  exact ⟨s, hrun, hcount, hremoved, hkept, (mirrors_of_exec hrun).2.1⟩

end HelperDll

end Synapse.D3D12
