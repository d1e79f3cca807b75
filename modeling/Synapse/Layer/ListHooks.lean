import Synapse.Foundations.Runs
import Synapse.Layer.D3D12

/-!
# Hooks of command lists

A list is hooked in three slots but has one record, whose `original` is written three
times and ends as the function of the last slot, that of `Dispatch`.  All three
trampolines forward to it, and `detach` writes it into all three slots
(`reaches_iff`, `detachList_slots`).

### One record, three slots

The invariants are about what a slot forwards to.  For `Dispatch` this is what a reader of the
code expects, since the record's `original` ends as the function of that slot
(`DispatchSound`).  For the other two slots the same record leads to `Dispatch`, so their
statements say exactly when the detour shows.  Lists share a table of functions if they are of
one class, so a record of one list and the slots of another meet there; `vtableOf` injective
is the case in which they do not.
-/

namespace Synapse.D3D12

open Runs

/-- The hooked methods of a command list. -/
inductive ListMethod where
  | drawInstanced
  | drawIndexedInstanced
  | dispatch
  deriving DecidableEq

namespace ListMethod

/-- The slot of a vtable. -/
def index : ListMethod → ℕ
  | drawInstanced => kList_DrawInstanced
  | drawIndexedInstanced => kList_DrawIndexedInstanced
  | dispatch => kList_Dispatch

/-- How many arguments the application passes. -/
def arity : ListMethod → ℕ
  | drawInstanced => 4
  | drawIndexedInstanced => 5
  | dispatch => 3

/-- How many arguments the trampoline declares. -/
def forwarded : ListMethod → ℕ
  | drawInstanced => 3
  | drawIndexedInstanced => 5
  | dispatch => 3

/-- The function that a slot is patched with. -/
def trampoline {Code : Type*} : ListMethod → Pointer Code
  | drawInstanced => .trampolineDrawInstanced
  | drawIndexedInstanced => .trampolineDrawIndexedInstanced
  | dispatch => .trampolineDispatch

/-- The three slots are three places of the table. -/
theorem index_injective : Function.Injective index := by
  intro m n h
  cases m <;> cases n <;> first | rfl | exact absurd h (by decide)

end ListMethod

namespace Layer

variable {Object Vtable Code : Type*} (vtableOf : Object → Vtable) (initial : Vtable → ℕ → Code)

/-! ## What is asked -/

/-- While a list is attached, the method runs the function that its slot had at the
start, with all arguments; otherwise the slot holds this function. -/
structure Apart (m : ListMethod) (s : Layer Object Vtable Code) : Prop where
  reaches : ∀ list, (s.listHooks list).isSome → ∀ args : List UInt64, args.length = m.arity →
    s.Reaches (s.slots (vtableOf list) m.index) list args (initial (vtableOf list) m.index)
  restored : ∀ list, s.listHooks list = none →
    s.slots (vtableOf list) m.index = .function (initial (vtableOf list) m.index)

variable {vtableOf initial} {s : Layer Object Vtable Code}

/-! ## Calls -/

/-- A call of a hooked slot: the record's function with the arguments that are forwarded, then
the hook is told. -/
theorem call_trampoline (m : ListMethod) (depth : ℕ) (list : Object) (args : List UInt64) :
    s.call (depth + 1) m.trampoline list args =
      (forward (s.listHooks list) fun original =>
        s.call depth original list (args.take m.forwarded)).map (· ++ tell s.listHook list 0) := by
  cases m <;> rfl

/-- A method of a recorded list reaches what the record has, with as many arguments as
the trampoline declares. -/
theorem reaches_iff {list : Object} {state : HookState Code} {f : Code}
    (hstate : s.listHooks list = some state) (horiginal : state.original = .function f)
    (m : ListMethod) (args : List UInt64) (g : Code) :
    s.Reaches m.trampoline list args g ↔ f = g ∧ args.take m.forwarded = args := by
  have hcall (depth : ℕ) : s.call (depth + 2) m.trampoline list args =
      some ([Event.ran f list (args.take m.forwarded)] ++ tell s.listHook list 0) := by
    rw [call_trampoline, hstate, forward, horiginal]
    rfl
  have hran : ([Event.ran f list (args.take m.forwarded)] ++ tell s.listHook list 0).filter
      Event.isRan = [Event.ran f list (args.take m.forwarded)] := by
    rw [List.filter_append, filter_tell]
    rfl
  constructor
  · rintro ⟨depth, events, hevents, hfilter⟩
    match depth with
    | 0 => cases hevents
    | 1 =>
        rw [call_trampoline, hstate, forward, horiginal] at hevents
        cases hevents
    | depth + 2 =>
        rw [hcall] at hevents
        obtain rfl := Option.some_injective _ hevents
        rw [hran] at hfilter
        injection List.singleton_inj.mp hfilter with hf _ hargs
        exact ⟨hf, hargs⟩
  · rintro ⟨rfl, hargs⟩
    exact ⟨2, _, hcall 0, by rw [hran, hargs]⟩

/-! ## `attach` and `detach` -/

variable [DecidableEq Object] [DecidableEq Vtable]

section Patches

variable (slots : Vtable → ℕ → Pointer Code) (vt : Vtable) (pointer : ListMethod → Pointer Code)

/-- `attach` and `detach` write the three slots in the same order; each slot keeps what
is written to it. -/
theorem patch_index (m : ListMethod) :
    patch (patch (patch slots vt kList_DrawIndexedInstanced (pointer .drawIndexedInstanced))
      vt kList_DrawInstanced (pointer .drawInstanced)) vt kList_Dispatch (pointer .dispatch)
      vt m.index = pointer m := by
  cases m with
  | drawInstanced =>
      exact (patch_of_ne fun h => absurd h.2 (by decide)).trans patch_self
  | drawIndexedInstanced =>
      exact ((patch_of_ne fun h => absurd h.2 (by decide)).trans
        (patch_of_ne fun h => absurd h.2 (by decide))).trans patch_self
  | dispatch => exact patch_self

/-- The tables of other classes are not written. -/
theorem patch_other {other : Vtable} (h : other ≠ vt) (index : ℕ) :
    patch (patch (patch slots vt kList_DrawIndexedInstanced (pointer .drawIndexedInstanced))
      vt kList_DrawInstanced (pointer .drawInstanced)) vt kList_Dispatch (pointer .dispatch)
      other index = slots other index :=
  ((patch_of_ne fun heq => h heq.1).trans (patch_of_ne fun heq => h heq.1)).trans
    (patch_of_ne fun heq => h heq.1)

end Patches

/-- The record that hooking leaves has the function of `Dispatch`. -/
theorem hookList_listHooks (s : Layer Object Vtable Code) (list : Object) (hook : Code) :
    (s.hookList vtableOf list hook).listHooks = Function.update s.listHooks list
      (some ⟨s.slots (vtableOf list) kList_Dispatch, .trampolineDispatch⟩) := by
  have horiginal : patch (patch s.slots (vtableOf list) kList_DrawIndexedInstanced
      .trampolineDrawIndexedInstanced) (vtableOf list) kList_DrawInstanced
      .trampolineDrawInstanced (vtableOf list) kList_Dispatch =
      s.slots (vtableOf list) kList_Dispatch := by
    rw [patch_of_ne fun h => absurd h.2 (by decide), patch_of_ne fun h => absurd h.2 (by decide)]
  rw [hookList, horiginal]

/-- An attached list has the trampolines in its slots. -/
theorem hookList_slots (s : Layer Object Vtable Code) (list : Object) (hook : Code)
    (m : ListMethod) :
    (s.hookList vtableOf list hook).slots (vtableOf list) m.index = m.trampoline :=
  patch_index s.slots (vtableOf list) ListMethod.trampoline m

/-- Other tables keep their slots. -/
theorem hookList_slots_of_ne (s : Layer Object Vtable Code) (list : Object) (hook : Code)
    {vt : Vtable} (h : vt ≠ vtableOf list) (index : ℕ) :
    (s.hookList vtableOf list hook).slots vt index = s.slots vt index :=
  patch_other s.slots (vtableOf list) ListMethod.trampoline h index

/-- A list without a record is left as it is. -/
theorem detachList_of_none {list : Object} (h : s.listHooks list = none) :
    s.detachList vtableOf (some list) = s := by
  simp only [detachList, h]

/-- Detaching removes the record. -/
theorem detachList_listHooks {list : Object} {state : HookState Code}
    (h : s.listHooks list = some state) :
    (s.detachList vtableOf (some list)).listHooks = Function.update s.listHooks list none := by
  simp only [detachList, h]

/-- A detached list has the `original` of its record in all three slots. -/
theorem detachList_slots {list : Object} {state : HookState Code}
    (h : s.listHooks list = some state) (m : ListMethod) :
    (s.detachList vtableOf (some list)).slots (vtableOf list) m.index = state.original := by
  simp only [detachList, h]
  exact patch_index s.slots (vtableOf list) (fun _ => state.original) m

/-- And writes no other table. -/
theorem detachList_slots_of_ne {list : Object} {state : HookState Code}
    (h : s.listHooks list = some state) {vt : Vtable} (hne : vt ≠ vtableOf list) (index : ℕ) :
    (s.detachList vtableOf (some list)).slots vt index = s.slots vt index := by
  simp only [detachList, h]
  exact patch_other s.slots (vtableOf list) (fun _ => state.original) hne index

/-! ## Runs -/

section Calls

variable (vtableOf)

/-- A call of `GraphicsCommandListInterceptor`. -/
def listCall (s : Layer Object Vtable Code) : HookCall Object Code → Layer Object Vtable Code
  | .attach list hook => (s.attachList vtableOf list hook).2
  | .detach list => s.detachList vtableOf list

/-- A call of the helper as a step; it never fails. -/
def listStep (s : Layer Object Vtable Code) (c : HookCall Object Code) :
    Option (Layer Object Vtable Code) :=
  some (s.listCall vtableOf c)

end Calls

/-- The call attaches no list. -/
def AttachesNone (s : Layer Object Vtable Code) : HookCall Object Code → Prop
  | .attach list hook => ∀ l, list = some l → hook.isSome → ¬ s.CanAttach s.listHooks l
  | .detach _ => True

/-- Nothing is attached, and the slots are what they were. -/
structure Unhooked (vtableOf : Object → Vtable) (initial : Vtable → ℕ → Code)
    (s : Layer Object Vtable Code) : Prop where
  unrecorded : ∀ list, s.listHooks list = none
  slots : ∀ list (m : ListMethod),
    s.slots (vtableOf list) m.index = .function (initial (vtableOf list) m.index)

omit [DecidableEq Object] [DecidableEq Vtable] in
/-- Nothing is hooked at the start. -/
theorem unhooked_start (enabled : Bool) :
    (start enabled initial : Layer Object Vtable Code).Unhooked vtableOf initial where
  unrecorded _ := rfl
  slots _ _ := rfl

omit [DecidableEq Object] [DecidableEq Vtable] in
/-- Then every slot reaches its own function. -/
theorem Unhooked.apart (h : s.Unhooked vtableOf initial) (m : ListMethod) :
    s.Apart vtableOf initial m where
  reaches list hsome := by
    rw [h.unrecorded list] at hsome
    cases hsome
  restored list _ := h.slots list m

/-- And calls that hook nothing keep it so. -/
theorem Unhooked.listCall (h : s.Unhooked vtableOf initial) {c : HookCall Object Code}
    (hc : s.AttachesNone c) : s.listCall vtableOf c = s := by
  cases c with
  | attach list hook =>
      rw [Layer.listCall, attachList]
      rcases s.attach_cases s.listHooks (s.hookList vtableOf) list hook with
        ⟨l, f, rfl, rfl, hcan, -⟩ | ⟨-, hsame⟩
      · exact absurd hcan (hc l rfl rfl)
      · exact hsame
  | detach list =>
      obtain rfl | ⟨l, rfl⟩ := list.eq_none_or_eq_some
      · rfl
      · exact detachList_of_none (h.unrecorded l)

/-- Attaching a list spoils two of its methods. -/
theorem Unhooked.attachesNone (hdistinct : ∀ list : Object,
      Function.Injective fun m : ListMethod => initial (vtableOf list) m.index)
    (h : s.Unhooked vtableOf initial) {m : ListMethod} (hm : m ≠ .dispatch)
    {c : HookCall Object Code} (hc : (s.listCall vtableOf c).Apart vtableOf initial m) :
    s.AttachesNone c := by
  cases c with
  | attach list hook =>
      rintro l rfl hhook hcan
      obtain ⟨f, rfl⟩ := Option.isSome_iff_exists.mp hhook
      rw [Layer.listCall, attachList] at hc
      rcases s.attach_cases s.listHooks (s.hookList vtableOf) (some l) (some f) with
        ⟨_, _, ⟨⟩, ⟨⟩, -, hattach⟩ | ⟨hcannot, -⟩
      · rw [hattach] at hc
        have hstate : (s.hookList vtableOf l f).listHooks l =
            some ⟨s.slots (vtableOf l) kList_Dispatch, .trampolineDispatch⟩ := by
          rw [hookList_listHooks, Function.update_self]
        have hreaches := hc.reaches l (by rw [hstate]; rfl) (List.replicate m.arity 0)
          List.length_replicate
        rw [hookList_slots, reaches_iff hstate (h.slots l .dispatch)] at hreaches
        exact hm (hdistinct l hreaches.1).symm
      · exact hcannot l f rfl rfl hcan
  | detach list => trivial

/-- The slot of `Dispatch` and the record belong together. -/
structure DispatchSound (vtableOf : Object → Vtable) (initial : Vtable → ℕ → Code)
    (s : Layer Object Vtable Code) : Prop where
  original : ∀ list state, s.listHooks list = some state →
    state.original = .function (initial (vtableOf list) kList_Dispatch)
  patched : ∀ list state, s.listHooks list = some state →
    s.slots (vtableOf list) kList_Dispatch = .trampolineDispatch
  restored : ∀ list, s.listHooks list = none →
    s.slots (vtableOf list) kList_Dispatch = .function (initial (vtableOf list) kList_Dispatch)

omit [DecidableEq Object] [DecidableEq Vtable] in
/-- `Dispatch` is sound at the start. -/
theorem dispatchSound_start (enabled : Bool) :
    (start enabled initial : Layer Object Vtable Code).DispatchSound vtableOf initial where
  original := nofun
  patched := nofun
  restored _ _ := rfl

omit [DecidableEq Object] [DecidableEq Vtable] in
/-- Soundness is what the forwarding of `Dispatch` needs. -/
theorem DispatchSound.apart (h : s.DispatchSound vtableOf initial) :
    s.Apart vtableOf initial .dispatch where
  reaches list hsome args hargs := by
    obtain ⟨state, hstate⟩ := Option.isSome_iff_exists.mp hsome
    have hslot : s.slots (vtableOf list) ListMethod.dispatch.index =
        ListMethod.dispatch.trampoline := h.patched list state hstate
    rw [hslot, reaches_iff hstate (h.original list state hstate)]
    exact ⟨rfl, List.take_of_length_le hargs.le⟩
  restored := h.restored

/-- Hooking another list keeps it, on classes of their own. -/
theorem DispatchSound.hookList (hinjective : Function.Injective vtableOf)
    (h : s.DispatchSound vtableOf initial) {list : Object} (hnone : s.listHooks list = none)
    (hook : Code) : (s.hookList vtableOf list hook).DispatchSound vtableOf initial := by
  refine ⟨fun other state hstate => ?_, fun other state hstate => ?_, fun other hother => ?_⟩
  · rw [hookList_listHooks] at hstate
    rcases eq_or_ne other list with rfl | hne
    · rw [Function.update_self] at hstate
      obtain rfl := Option.some_injective _ hstate
      exact h.restored other hnone
    · rw [Function.update_of_ne hne] at hstate
      exact h.original other state hstate
  · rcases eq_or_ne other list with rfl | hne
    · exact hookList_slots s other hook .dispatch
    · rw [hookList_listHooks, Function.update_of_ne hne] at hstate
      rw [hookList_slots_of_ne s list hook (hinjective.ne hne)]
      exact h.patched other state hstate
  · rw [hookList_listHooks] at hother
    rcases eq_or_ne other list with rfl | hne
    · rw [Function.update_self] at hother
      cases hother
    · rw [Function.update_of_ne hne] at hother
      rw [hookList_slots_of_ne s list hook (hinjective.ne hne)]
      exact h.restored other hother

/-- So does detaching. -/
theorem DispatchSound.detachList (hinjective : Function.Injective vtableOf)
    (h : s.DispatchSound vtableOf initial) {list : Object} {state : HookState Code}
    (hstate : s.listHooks list = some state) :
    (s.detachList vtableOf (some list)).DispatchSound vtableOf initial := by
  have hrecord : ∀ other state', (s.detachList vtableOf (some list)).listHooks other =
      some state' → other ≠ list ∧ s.listHooks other = some state' := by
    intro other state' hother
    rw [detachList_listHooks hstate] at hother
    rcases eq_or_ne other list with rfl | hne
    · rw [Function.update_self] at hother
      cases hother
    · rw [Function.update_of_ne hne] at hother
      exact ⟨hne, hother⟩
  refine ⟨fun other state' hother => h.original other state' (hrecord other state' hother).2,
    fun other state' hother => ?_, fun other hother => ?_⟩
  · obtain ⟨hne, hold⟩ := hrecord other state' hother
    rw [detachList_slots_of_ne hstate (hinjective.ne hne)]
    exact h.patched other state' hold
  · rcases eq_or_ne other list with rfl | hne
    · exact (detachList_slots hstate .dispatch).trans (h.original other state hstate)
    · rw [detachList_listHooks hstate, Function.update_of_ne hne] at hother
      rw [detachList_slots_of_ne hstate (hinjective.ne hne)]
      exact h.restored other hother

/-- The step lemma. -/
theorem DispatchSound.listCall (hinjective : Function.Injective vtableOf)
    (h : s.DispatchSound vtableOf initial) (c : HookCall Object Code) :
    (s.listCall vtableOf c).DispatchSound vtableOf initial := by
  cases c with
  | attach list hook =>
      rw [Layer.listCall, attachList]
      rcases s.attach_cases s.listHooks (s.hookList vtableOf) list hook with
        ⟨l, f, rfl, rfl, hcan, hattach⟩ | ⟨-, hsame⟩
      · rw [hattach]
        exact h.hookList hinjective hcan.2 f
      · rw [hsame]
        exact h
  | detach list =>
      obtain rfl | ⟨l, rfl⟩ := list.eq_none_or_eq_some
      · exact h
      rw [Layer.listCall]
      cases hstate : s.listHooks l with
      | none =>
          rw [detachList_of_none hstate]
          exact h
      | some state => exact h.detachList hinjective hstate

/-- `Dispatch` is intact in every run. -/
theorem apart_dispatch (hinjective : Function.Injective vtableOf)
    (initial : Vtable → ℕ → Code) (calls : List (HookCall Object Code)) :
    Along (listStep vtableOf) (fun s c => (s.listCall vtableOf c).Apart vtableOf initial .dispatch)
      (start true initial) calls := by
  have hiff : ∀ (s : Layer Object Vtable Code) (c : HookCall Object Code)
      (s' : Layer Object Vtable Code), s.DispatchSound vtableOf initial →
      s.listStep vtableOf c = some s' →
      ((s.listCall vtableOf c).Apart vtableOf initial .dispatch ↔ True) :=
    fun _ c _ hs _ => iff_true_intro (hs.listCall hinjective c).apart
  refine (along_iff_of_invariant (listStep vtableOf) hiff (fun s c s' hs hstep _ => ?_)
    (dispatchSound_start true) calls).mpr fun _ _ _ _ _ _ _ _ => trivial
  obtain rfl := Option.some_injective _ hstep
  exact hs.listCall hinjective c

/-- The draws are intact as long as nothing is attached. -/
theorem apart_iff_attachesNone {initial : Vtable → ℕ → Code}
    (hdistinct : ∀ list : Object,
      Function.Injective fun m : ListMethod => initial (vtableOf list) m.index)
    {m : ListMethod} (hm : m ≠ .dispatch) (calls : List (HookCall Object Code)) :
    Along (listStep vtableOf) (fun s c => (s.listCall vtableOf c).Apart vtableOf initial m)
        (start true initial) calls ↔
      Along (listStep vtableOf) AttachesNone (start true initial) calls := by
  have hiff : ∀ (s : Layer Object Vtable Code) (c : HookCall Object Code)
      (s' : Layer Object Vtable Code), s.Unhooked vtableOf initial →
      s.listStep vtableOf c = some s' →
      ((s.listCall vtableOf c).Apart vtableOf initial m ↔ s.AttachesNone c) := by
    refine fun s c s' hs _ => ⟨hs.attachesNone hdistinct hm, fun hc => ?_⟩
    rw [hs.listCall hc]
    exact hs.apart m
  refine along_iff_of_invariant (listStep vtableOf) hiff (fun s c s' hs hstep hc => ?_)
    (unhooked_start true) calls
  obtain rfl := Option.some_injective _ hstep
  rw [hs.listCall ((hiff s c _ hs rfl).mp hc)]
  exact hs

/-- **Hooks of command lists.**  All methods are intact after every call exactly if
nothing is ever attached, and a single method exactly if this is so or it is
`Dispatch`. -/
theorem apart_iff {vtableOf : Object → Vtable} {initial : Vtable → ℕ → Code}
    (hinjective : Function.Injective vtableOf)
    (hdistinct : ∀ list : Object,
      Function.Injective fun m : ListMethod => initial (vtableOf list) m.index)
    (calls : List (HookCall Object Code)) :
    (Along (listStep vtableOf)
        (fun s c => ∀ m, (s.listCall vtableOf c).Apart vtableOf initial m)
        (start true initial) calls ↔
      Along (listStep vtableOf) AttachesNone (start true initial) calls) ∧
    ∀ m, (Along (listStep vtableOf) (fun s c => (s.listCall vtableOf c).Apart vtableOf initial m)
        (start true initial) calls ↔
      m = .dispatch ∨ Along (listStep vtableOf) AttachesNone (start true initial) calls) := by
  have hmethod : ∀ m, (Along (listStep vtableOf)
        (fun s c => (s.listCall vtableOf c).Apart vtableOf initial m) (start true initial) calls ↔
      m = .dispatch ∨ Along (listStep vtableOf) AttachesNone (start true initial) calls) := by
    intro m
    rcases eq_or_ne m .dispatch with rfl | hm
    · exact iff_of_true (apart_dispatch hinjective initial calls) (Or.inl rfl)
    · rw [apart_iff_attachesNone hdistinct hm, or_iff_right hm]
  refine ⟨?_, hmethod⟩
  rw [along_forall]
  constructor
  · intro h
    exact ((hmethod .drawInstanced).mp (h .drawInstanced)).resolve_left nofun
  · intro h m
    exact (hmethod m).mpr (Or.inr h)

/-- `Dispatch` on a list that is attached and detached, and the draws before. -/
theorem apart_dispatched :
    Along (listStep (id : ℕ → ℕ)) (fun s c => (s.listCall id c).Apart id (fun _ i => i) .dispatch)
        (start true fun _ i => i) [.attach (some 0) (some 7), .detach (some 0)] ∧
      Along (listStep (id : ℕ → ℕ)) (fun s c => ∀ m, (s.listCall id c).Apart id (fun _ i => i) m)
        (start true fun _ i => i) [.attach (some 0) none, .detach (some 0)] := by
  have hinjective : Function.Injective (id : ℕ → ℕ) := Function.injective_id
  constructor
  · exact ((apart_iff hinjective (fun _ => ListMethod.index_injective) _).2 .dispatch).mpr
      (Or.inl rfl)
  · refine (apart_iff hinjective (fun _ => ListMethod.index_injective) _).1.mpr ?_
    exact along_of_step _ rfl nofun <| along_of_step _ rfl trivial <| along_nil _ _ _

/-- An attached list draws by the function of `Dispatch`, with one argument less, and
keeps this function in all three slots. -/
theorem attached_list_dispatches :
    ∃ s s', exec (listStep (id : ℕ → ℕ)) (start true fun _ i => i) [.attach (some 0) (some 7)] =
        some s ∧
      s.call 2 (s.slots 0 kList_DrawInstanced) 0 [3, 1, 0, 0] =
        some [.ran kList_Dispatch 0 [3, 1, 0], .hooked 7 0 0] ∧
      ¬ s.Apart id (fun _ i => i) .drawInstanced ∧
      exec (listStep (id : ℕ → ℕ)) s [.detach (some 0)] = some s' ∧
      s'.slots 0 kList_DrawInstanced = .function kList_Dispatch := by
  obtain ⟨s, hrun, hslot, hstate, hcall, hdetach⟩ : ∃ s, exec (listStep (id : ℕ → ℕ))
        (start true fun _ i => i) [.attach (some 0) (some 7)] = some s ∧
      s.slots 0 kList_DrawInstanced = .trampolineDrawInstanced ∧
      s.listHooks 0 = some ⟨.function kList_Dispatch, .trampolineDispatch⟩ ∧
      s.call 2 (s.slots 0 kList_DrawInstanced) 0 [3, 1, 0, 0] =
        some [.ran kList_Dispatch 0 [3, 1, 0], .hooked 7 0 0] ∧
      (s.detachList id (some 0)).slots 0 kList_DrawInstanced = .function kList_Dispatch :=
    ⟨_, rfl, rfl, rfl, rfl, rfl⟩
  refine ⟨s, s.detachList id (some 0), hrun, hcall, fun h => ?_, rfl, hdetach⟩
  have hreaches := h.reaches 0 (by rw [hstate]; rfl) [3, 1, 0, 0] rfl
  have htrampoline : s.slots (id 0) ListMethod.drawInstanced.index =
      ListMethod.drawInstanced.trampoline := hslot
  rw [htrampoline, reaches_iff hstate rfl] at hreaches
  exact absurd hreaches.1 (by decide)

end Layer

end Synapse.D3D12
