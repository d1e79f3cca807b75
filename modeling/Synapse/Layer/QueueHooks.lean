import Synapse.Foundations.Runs
import Synapse.Layer.D3D12

/-!
# Hooks of command queues

A queue is hooked by a record for the queue and a slot of its vtable, which other
queues may have too.  As long as every recorded queue has its vtable for itself, a
record and its slot belong together (`Sound`), and calls reach the functions of the
application.

Runs of `attach` and `detach` over vtables that may be shared, and runs of the whole
API over vtables that are not.

### Records and slots

The record of a queue remembers what its slot held when the queue was hooked.  If the slot was
hooked already, through another queue of the same class, then this is the trampoline, and a
call that is forwarded to it comes back to itself.  In the model a call has a depth (`call`),
and such a call has no result however deep it may go.  `Sound` says when this cannot happen: a
recorded original is a function of the application, and it is the one that its slot had at the
start.

`executes` is stated for one queue and both ways it may be called, hooked by itself or not at
all; the statements about runs follow from it at every queue.
-/

namespace Synapse.D3D12.Layer

open Runs

variable {Object Vtable Code : Type*} (vtableOf : Object → Vtable) (initial : Vtable → ℕ → Code)

/-! ## What is asked -/

/-- `queue->ExecuteCommandLists(numLists, ppLists)` runs the function that the slot
had at the start. -/
def Executes (s : Layer Object Vtable Code) (queue : Object) : Prop :=
  ∀ numLists ppLists, s.Reaches (s.slots (vtableOf queue) kQueue_ExecuteCommandLists) queue
    [numLists, ppLists] (initial (vtableOf queue) kQueue_ExecuteCommandLists)

/-- A queue that is attached or has a patched vtable executes its lists; with no queue
attached, every slot is what it was. -/
structure Intact (s : Layer Object Vtable Code) : Prop where
  executes : ∀ queue, (s.queueHooks queue).isSome ∨
    s.slots (vtableOf queue) kQueue_ExecuteCommandLists = .trampolineExecuteCommandLists →
    s.Executes vtableOf initial queue
  restored : (∀ queue, s.queueHooks queue = none) →
    ∀ vt index, s.slots vt index = .function (initial vt index)

/-! ## Records and their slots -/

/-- A recorded queue has its vtable for itself, the slot holds the trampoline and the
record the function.  All other slots are what they were. -/
structure Sound (s : Layer Object Vtable Code) : Prop where
  original : ∀ queue state, s.queueHooks queue = some state →
    state.original = .function (initial (vtableOf queue) kQueue_ExecuteCommandLists)
  patched : ∀ queue state, s.queueHooks queue = some state →
    s.slots (vtableOf queue) kQueue_ExecuteCommandLists = .trampolineExecuteCommandLists
  unshared : ∀ queue state, s.queueHooks queue = some state →
    ∀ other, vtableOf other = vtableOf queue → other = queue
  unpatched : ∀ vt index,
    (index = kQueue_ExecuteCommandLists → ∀ queue, vtableOf queue = vt →
      s.queueHooks queue = none) →
    s.slots vt index = .function (initial vt index)

variable {vtableOf initial} {s s' : Layer Object Vtable Code}

/-- Nothing is recorded and nothing patched. -/
theorem sound_start (enabled : Bool) :
    (start enabled initial : Layer Object Vtable Code).Sound vtableOf initial where
  original := nofun
  patched := nofun
  unshared := nofun
  unpatched _ _ _ := rfl

/-- The trampoline on a recorded queue. -/
theorem reaches_recorded {queue : Object} {state : HookState Code} {f : Code}
    (hstate : s.queueHooks queue = some state) (horiginal : state.original = .function f)
    (numLists ppLists : UInt64) :
    s.Reaches .trampolineExecuteCommandLists queue [numLists, ppLists] f := by
  refine ⟨2, [.ran f queue [numLists, ppLists]] ++ tell s.queueHook queue ppLists, ?_, ?_⟩
  · rw [call, hstate, forward, horiginal]
    rfl
  · rw [List.filter_append, filter_tell]
    rfl

/-- The trampoline on another queue runs nothing. -/
theorem not_reaches_unrecorded {queue : Object} (hnone : s.queueHooks queue = none)
    (args : List UInt64) (f : Code) :
    ¬ s.Reaches .trampolineExecuteCommandLists queue args f := by
  rintro ⟨depth, events, hcall, hran⟩
  cases depth with
  | zero => cases hcall
  | succ depth =>
      rw [call, hnone] at hcall
      obtain rfl := Option.some_injective _ hcall
      cases (filter_tell s.queueHook queue (args.getD 1 0)).symm.trans hran

namespace Sound

/-- Under `Sound` a call reaches the application's function, through its own record or through
none. -/
theorem executes (h : s.Sound vtableOf initial) {queue : Object}
    (hqueue : (s.queueHooks queue).isSome ∨
      ∀ other, vtableOf other = vtableOf queue → s.queueHooks other = none) :
    s.Executes vtableOf initial queue := by
  intro numLists ppLists
  rcases hqueue with hsome | hnone
  · obtain ⟨state, hstate⟩ := Option.isSome_iff_exists.mp hsome
    rw [h.patched queue state hstate]
    exact reaches_recorded hstate (h.original queue state hstate) numLists ppLists
  · rw [h.unpatched _ _ fun _ => hnone]
    exact reaches_function s _ queue [numLists, ppLists]

/-- So all of them do. -/
theorem intact (h : s.Sound vtableOf initial) : s.Intact vtableOf initial where
  executes queue hqueue := by
    refine h.executes (or_iff_not_imp_left.mpr fun hnone other hother => ?_)
    -- a patched slot is that of a recorded queue, which is this one
    by_contra hsome
    obtain ⟨state, hstate⟩ := Option.ne_none_iff_exists'.mp hsome
    obtain rfl := h.unshared other state hstate queue hother.symm
    exact hnone (Option.isSome_iff_exists.mpr ⟨state, hstate⟩)
  restored hnone vt index := h.unpatched vt index fun _ queue _ => hnone queue

end Sound

/-! ## The calls -/

variable [DecidableEq Object] [DecidableEq Vtable]

/-- Hooking records what the slot holds. -/
theorem hookQueue_queueHooks (s : Layer Object Vtable Code) (queue : Object) (hook : Code) :
    (s.hookQueue vtableOf queue hook).queueHooks = Function.update s.queueHooks queue
      (some ⟨s.slots (vtableOf queue) kQueue_ExecuteCommandLists,
        .trampolineExecuteCommandLists⟩) :=
  rfl

/-- Attaching a queue that has its vtable for itself. -/
theorem Sound.hookQueue (h : s.Sound vtableOf initial) {queue : Object}
    (hnone : s.queueHooks queue = none)
    (hunshared : ∀ other, vtableOf other = vtableOf queue → other = queue) (hook : Code) :
    (s.hookQueue vtableOf queue hook).Sound vtableOf initial := by
  have hslot : s.slots (vtableOf queue) kQueue_ExecuteCommandLists =
      .function (initial (vtableOf queue) kQueue_ExecuteCommandLists) := by
    -- a recorded queue with this vtable could only be this one
    refine h.unpatched _ _ fun _ other hother => ?_
    rw [hunshared other hother]
    exact hnone
  have hrecord : ∀ other state, (s.hookQueue vtableOf queue hook).queueHooks other = some state →
      other = queue ∧ state.original = s.slots (vtableOf queue) kQueue_ExecuteCommandLists ∨
        other ≠ queue ∧ s.queueHooks other = some state := by
    intro other state hstate
    rw [hookQueue_queueHooks] at hstate
    rcases eq_or_ne other queue with rfl | hne
    · rw [Function.update_self] at hstate
      obtain rfl := Option.some_injective _ hstate
      exact Or.inl ⟨rfl, rfl⟩
    · rw [Function.update_of_ne hne] at hstate
      exact Or.inr ⟨hne, hstate⟩
  refine ⟨fun other state hstate => ?_, fun other state hstate => ?_, fun other state hstate => ?_,
    fun vt index hindex => ?_⟩
  · rcases hrecord other state hstate with ⟨rfl, horiginal⟩ | ⟨-, hold⟩
    · rw [horiginal, hslot]
    · exact h.original other state hold
  · rcases hrecord other state hstate with ⟨rfl, -⟩ | ⟨hne, hold⟩
    · exact patch_self
    · refine (patch_of_ne fun heq => hne (hunshared other heq.1)).trans ?_
      exact h.patched other state hold
  · rcases hrecord other state hstate with ⟨rfl, -⟩ | ⟨-, hold⟩
    · exact hunshared
    · exact h.unshared other state hold
  · have hne : ¬ (vt = vtableOf queue ∧ index = kQueue_ExecuteCommandLists) := by
      rintro ⟨rfl, rfl⟩
      have hnew := hindex rfl queue rfl
      rw [hookQueue_queueHooks, Function.update_self] at hnew
      cases hnew
    refine (patch_of_ne hne).trans (h.unpatched vt index fun heq other hother => ?_)
    have hother' : other ≠ queue := by
      rintro rfl
      exact hne ⟨hother.symm, heq⟩
    exact (Function.update_of_ne hother' _ _).symm.trans (hindex heq other hother)

/-- A queue without a record is left as it is. -/
theorem detachQueue_of_none {queue : Object} (h : s.queueHooks queue = none) :
    s.detachQueue vtableOf (some queue) = s := by
  simp only [Layer.detachQueue, h]

/-- Detaching writes the original back and removes the record. -/
theorem detachQueue_of_some {queue : Object} {state : HookState Code}
    (h : s.queueHooks queue = some state) : s.detachQueue vtableOf (some queue) =
      { s with
        slots := patch s.slots (vtableOf queue) kQueue_ExecuteCommandLists state.original
        queueHooks := Function.update s.queueHooks queue none } := by
  simp only [Layer.detachQueue, h]

/-- Detaching restores the slot of the record. -/
theorem Sound.detachQueue (h : s.Sound vtableOf initial) (queue : Option Object) :
    (s.detachQueue vtableOf queue).Sound vtableOf initial := by
  obtain rfl | ⟨queue, rfl⟩ := queue.eq_none_or_eq_some
  · exact h
  cases hstate : s.queueHooks queue with
  | none =>
      rw [detachQueue_of_none hstate]
      exact h
  | some state =>
      rw [detachQueue_of_some hstate]
      have hrecord : ∀ other state', Function.update s.queueHooks queue none other = some state' →
          other ≠ queue ∧ s.queueHooks other = some state' := by
        intro other state' hstate'
        have hne : other ≠ queue := by
          rintro rfl
          rw [Function.update_self] at hstate'
          cases hstate'
        exact ⟨hne, (Function.update_of_ne hne _ _).symm.trans hstate'⟩
      refine ⟨fun other state' hstate' => h.original other state' (hrecord other state' hstate').2,
        fun other state' hstate' => ?_,
        fun other state' hstate' => h.unshared other state' (hrecord other state' hstate').2,
        fun vt index hindex => ?_⟩
      · -- the other recorded queues have other vtables
        obtain ⟨hne, hold⟩ := hrecord other state' hstate'
        refine (patch_of_ne fun heq => ?_).trans (h.patched other state' hold)
        exact hne (h.unshared queue state hstate other heq.1)
      · by_cases heq : vt = vtableOf queue ∧ index = kQueue_ExecuteCommandLists
        · obtain ⟨rfl, rfl⟩ := heq
          exact patch_self.trans (h.original queue state hstate)
        · refine (patch_of_ne heq).trans (h.unpatched vt index fun hindex' other hother => ?_)
          have hne : other ≠ queue := by
            rintro rfl
            exact heq ⟨hother.symm, hindex'⟩
          exact (Function.update_of_ne hne _ _).symm.trans (hindex hindex' other hother)

/-! ## Runs of `attach` and `detach` -/

section Hooks

variable (vtableOf)

/-- A call of `CommandQueueInterceptor`. -/
def queueCall (s : Layer Object Vtable Code) : HookCall Object Code → Layer Object Vtable Code
  | .attach queue hook => (s.attachQueue vtableOf queue hook).2
  | .detach queue => s.detachQueue vtableOf queue

/-- A call as a step; it never fails. -/
def queueStep (s : Layer Object Vtable Code) (c : HookCall Object Code) :
    Option (Layer Object Vtable Code) :=
  some (s.queueCall vtableOf c)

/-- A queue is only attached if no other queue has its vtable. -/
def OnOwnVtable (s : Layer Object Vtable Code) : HookCall Object Code → Prop
  | .attach queue hook => ∀ q, queue = some q → hook.isSome → s.CanAttach s.queueHooks q →
      ∀ other, vtableOf other = vtableOf q → other = q
  | .detach _ => True

end Hooks

/-- The step lemma, for calls on a vtable that no other recorded queue has. -/
theorem Sound.queueCall (h : s.Sound vtableOf initial) {c : HookCall Object Code}
    (hc : s.OnOwnVtable vtableOf c) : (s.queueCall vtableOf c).Sound vtableOf initial := by
  cases c with
  | attach queue hook =>
      rw [Layer.queueCall, attachQueue]
      rcases s.attach_cases s.queueHooks (s.hookQueue vtableOf) queue hook with
        ⟨q, f, rfl, rfl, hcan, hattach⟩ | ⟨-, hsame⟩
      · rw [hattach]
        exact h.hookQueue hcan.2 (hc q rfl rfl hcan) f
      · rw [hsame]
        exact h
  | detach queue => exact h.detachQueue queue

/-- The other queues of a vtable lose their calls to the first that is attached. -/
theorem Sound.onOwnVtable (h : s.Sound vtableOf initial) {c : HookCall Object Code}
    (hc : (s.queueCall vtableOf c).Intact vtableOf initial) : s.OnOwnVtable vtableOf c := by
  cases c with
  | attach queue hook =>
      rintro q rfl hhook hcan other hother
      obtain ⟨f, rfl⟩ := Option.isSome_iff_exists.mp hhook
      by_contra hne
      rw [Layer.queueCall, attachQueue] at hc
      rcases s.attach_cases s.queueHooks (s.hookQueue vtableOf) (some q) (some f) with
        ⟨_, _, ⟨⟩, ⟨⟩, -, hattach⟩ | ⟨hcannot, -⟩
      · rw [hattach] at hc
        have hpatched : (s.hookQueue vtableOf q f).slots (vtableOf other)
            kQueue_ExecuteCommandLists = .trampolineExecuteCommandLists := by
          rw [hother]
          exact patch_self
        have hunrecorded : (s.hookQueue vtableOf q f).queueHooks other = none := by
          rw [hookQueue_queueHooks, Function.update_of_ne hne]
          by_contra hsome
          obtain ⟨state, hstate⟩ := Option.ne_none_iff_exists'.mp hsome
          exact hne (h.unshared other state hstate q hother.symm).symm
        have hexecutes := hc.executes other (Or.inr hpatched) 0 0
        rw [hpatched] at hexecutes
        exact not_reaches_unrecorded hunrecorded _ _ hexecutes
      · exact hcannot q f rfl rfl hcan
  | detach queue => trivial

/-- **Queue hooks and shared vtables.**  The hooks stay intact exactly as long as every
queue that is attached has its vtable for itself. -/
theorem intact_iff_onOwnVtable (vtableOf : Object → Vtable) (initial : Vtable → ℕ → Code)
    (calls : List (HookCall Object Code)) :
    Along (queueStep vtableOf) (fun s c => (s.queueCall vtableOf c).Intact vtableOf initial)
        (start true initial) calls ↔
      Along (queueStep vtableOf) (OnOwnVtable vtableOf) (start true initial) calls := by
  have hiff : ∀ (s : Layer Object Vtable Code) (c : HookCall Object Code)
      (s' : Layer Object Vtable Code), s.Sound vtableOf initial →
      s.queueStep vtableOf c = some s' →
      ((s.queueCall vtableOf c).Intact vtableOf initial ↔ s.OnOwnVtable vtableOf c) :=
    fun _ _ _ hs _ => ⟨hs.onOwnVtable, fun hc => (hs.queueCall hc).intact⟩
  refine along_iff_of_invariant (queueStep vtableOf) hiff (fun s c s' hs hstep hc => ?_)
    (sound_start true) calls
  obtain rfl := Option.some_injective _ hstep
  exact hs.queueCall (hs.onOwnVtable hc)

/-- The second of two attached queues of one vtable has the trampoline for its
original. -/
theorem shared_vtable_never_returns :
    ∃ s, exec (queueStep fun _ : ℕ => ()) (start true fun _ _ => 3)
        [.attach (some 0) (some 7), .attach (some 1) (some 7)] = some s ∧
      (∀ depth args, s.call depth (s.slots () kQueue_ExecuteCommandLists) 1 args = none) ∧
      ¬ s.Intact (fun _ => ()) fun _ _ => 3 := by
  obtain ⟨s, hrun, hslot, hstate⟩ : ∃ s, exec (queueStep fun _ : ℕ => ()) (start true fun _ _ => 3)
      [.attach (some 0) (some 7), .attach (some 1) (some 7)] = some s ∧
      s.slots () kQueue_ExecuteCommandLists = .trampolineExecuteCommandLists ∧
      s.queueHooks 1 =
        some ⟨.trampolineExecuteCommandLists, .trampolineExecuteCommandLists⟩ :=
    ⟨_, rfl, rfl, rfl⟩
  have hnever : ∀ depth args, s.call depth .trampolineExecuteCommandLists 1 args = none := by
    intro depth
    induction depth with
    | zero => exact fun _ => rfl
    | succ depth ih =>
        intro args
        rw [call, hstate]
        change Option.map _ (s.call depth .trampolineExecuteCommandLists 1 _) = none
        rw [ih]
        rfl
  refine ⟨s, hrun, fun depth args => hslot ▸ hnever depth args, fun h => ?_⟩
  obtain ⟨depth, events, hcall, -⟩ := h.executes 1 (Or.inr hslot) 0 0
  rw [hslot, hnever] at hcall
  cases hcall

/-! ## Runs of the whole API -/

/-- A call of the API of command queues. -/
inductive LayerCall (Object Code : Type*) where
  | hooks (c : HookCall Object Code)
  | enable (enabled : Bool)
  | shutdown

section Api

variable (vtableOf)

/-- The calls of the whole API. -/
def layerCall (s : Layer Object Vtable Code) : LayerCall Object Code → Layer Object Vtable Code
  | .hooks c => s.queueCall vtableOf c
  | .enable enabled => (s.enableD3d12Interception enabled).2
  | .shutdown => s.shutdown

/-- Such a call as a step. -/
def layerStep (s : Layer Object Vtable Code) (c : LayerCall Object Code) :
    Option (Layer Object Vtable Code) :=
  some (s.layerCall vtableOf c)

/-- The layer is shut down with no queue recorded. -/
def ShutDownDetached (s : Layer Object Vtable Code) : LayerCall Object Code → Prop
  | .shutdown => ∀ queue, s.queueHooks queue = none
  | _ => True

end Api

/-- The step lemma of the API, where a shutdown comes after the last detachment. -/
theorem Sound.layerCall (hinjective : Function.Injective vtableOf)
    (h : s.Sound vtableOf initial) {c : LayerCall Object Code} (hc : s.ShutDownDetached c) :
    (s.layerCall vtableOf c).Sound vtableOf initial := by
  cases c with
  | hooks c =>
      refine h.queueCall ?_
      cases c with
      | attach queue hook => exact fun q _ _ _ other hother => hinjective hother
      | detach queue => trivial
  | enable enabled => exact ⟨h.original, h.patched, h.unshared, h.unpatched⟩
  | shutdown =>
      exact ⟨nofun, nofun, nofun, fun vt index _ => h.unpatched vt index fun _ queue _ => hc queue⟩

omit [DecidableEq Object] [DecidableEq Vtable] in
/-- With vtables of their own, all queues execute their lists. -/
theorem Sound.executes_all (hinjective : Function.Injective vtableOf)
    (h : s.Sound vtableOf initial) (queue : Object) : s.Executes vtableOf initial queue := by
  refine h.executes (or_iff_not_imp_left.mpr fun hnone other hother => ?_)
  rw [hinjective hother]
  exact Option.not_isSome_iff_eq_none.mp hnone

/-- A shutdown forgets the function of a queue that is still attached. -/
theorem Sound.shutDownDetached (h : s.Sound vtableOf initial) {c : LayerCall Object Code}
    (hc : ∀ queue, (s.layerCall vtableOf c).Executes vtableOf initial queue) :
    s.ShutDownDetached c := by
  cases c with
  | hooks c => trivial
  | enable enabled => trivial
  | shutdown =>
      intro queue
      by_contra hsome
      obtain ⟨state, hstate⟩ := Option.ne_none_iff_exists'.mp hsome
      have hpatched : s.shutdown.slots (vtableOf queue) kQueue_ExecuteCommandLists =
          .trampolineExecuteCommandLists := h.patched queue state hstate
      have hexecutes : s.shutdown.Executes vtableOf initial queue := hc queue
      have hreaches := hexecutes 0 0
      rw [hpatched] at hreaches
      exact not_reaches_unrecorded rfl _ _ hreaches

/-- **Shutting the layer down.**  All queues execute their lists after every call
exactly if the layer is only shut down with no queue recorded. -/
theorem executes_iff_shutDownDetached {vtableOf : Object → Vtable}
    (hinjective : Function.Injective vtableOf) (enabled : Bool) (initial : Vtable → ℕ → Code)
    (calls : List (LayerCall Object Code)) :
    Along (layerStep vtableOf)
        (fun s c => ∀ queue, (s.layerCall vtableOf c).Executes vtableOf initial queue)
        (start enabled initial) calls ↔
      Along (layerStep vtableOf) ShutDownDetached (start enabled initial) calls := by
  have hiff : ∀ (s : Layer Object Vtable Code) (c : LayerCall Object Code)
      (s' : Layer Object Vtable Code), s.Sound vtableOf initial →
      s.layerStep vtableOf c = some s' →
      ((∀ queue, (s.layerCall vtableOf c).Executes vtableOf initial queue) ↔
        s.ShutDownDetached c) :=
    fun _ _ _ hs _ => ⟨hs.shutDownDetached, fun hc =>
      (hs.layerCall hinjective hc).executes_all hinjective⟩
  refine along_iff_of_invariant (layerStep vtableOf) hiff (fun s c s' hs hstep hc => ?_)
    (sound_start enabled) calls
  obtain rfl := Option.some_injective _ hstep
  exact hs.layerCall hinjective (hs.shutDownDetached hc)

/-- A queue is attached and detached, and the layer shut down. -/
theorem executes_detached :
    Along (layerStep (id : ℕ → ℕ))
      (fun s c => ∀ queue, (s.layerCall id c).Executes id (fun vt _ => vt) queue)
      (start false fun vt _ => vt)
      [.enable true, .hooks (.attach (some 0) (some 7)), .hooks (.detach (some 0)),
        .shutdown] := by
  refine (executes_iff_shutDownDetached Function.injective_id false _ _).mpr ?_
  refine along_of_step _ rfl trivial <| along_of_step _ rfl trivial <|
    along_of_step _ rfl trivial <| along_of_step _ rfl (fun queue => ?_) <| along_nil _ _ _
  by_cases hqueue : queue = 0
  · subst hqueue
    rfl
  · exact (Function.update_of_ne hqueue _ _).trans (Function.update_of_ne hqueue _ _)

/-- The layer is shut down with a queue attached, whose calls then run nothing. -/
theorem shutdown_swallows_calls :
    ∃ s, exec (layerStep (id : ℕ → ℕ)) (start false fun vt _ => vt)
        [.enable true, .hooks (.attach (some 0) (some 7)), .shutdown] = some s ∧
      (∀ args, s.call 1 (s.slots 0 kQueue_ExecuteCommandLists) 0 args = some []) ∧
      ¬ s.Executes id (fun vt _ => vt) 0 := by
  obtain ⟨s, hrun, hslot, hnone, hhook⟩ : ∃ s, exec (layerStep (id : ℕ → ℕ))
        (start false fun vt _ => vt)
        [.enable true, .hooks (.attach (some 0) (some 7)), .shutdown] = some s ∧
      s.slots 0 kQueue_ExecuteCommandLists = .trampolineExecuteCommandLists ∧
      s.queueHooks 0 = none ∧ s.queueHook = none :=
    ⟨_, rfl, rfl, rfl, rfl⟩
  refine ⟨s, hrun, fun args => ?_, fun h => ?_⟩
  · rw [hslot, call, hnone, hhook]
    rfl
  · have hreaches := h 0 0
    rw [id, hslot] at hreaches
    exact not_reaches_unrecorded hnone _ _ hreaches

end Synapse.D3D12.Layer
