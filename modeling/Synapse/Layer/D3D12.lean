import Mathlib

/-!
# The D3D12 layer

`synapse_d3d12_layer.cpp` on Windows: command queues and command lists, the slots of
their vtables, the hook tables, and the four trampolines.

An object keeps its vtable, and several objects may have the same one.  A call
through a slot is followed until it returns; the functions that the application's
objects had at the start are not looked into.

### Calls with a depth

A call goes from slot to function, and a function may be a trampoline, which forwards to the
original of a record, which may be a trampoline again.  In the model a call takes a depth and
has no result when it runs out; that a call returns means that some depth is enough, and a
chain that comes back to itself has no result at any.  The application's own functions are
atoms, and what a call does is the list of the atoms that it reaches and the hooks that it
tells.
-/

namespace Synapse.D3D12

/-! ## Results and slots -/

/-- `HRESULT` -/
abbrev HRESULT := UInt32

/-- Success. -/
def S_OK : HRESULT := 0

/-- The result for an object that is hooked already. -/
def E_ABORT : HRESULT := 0x80004004

/-- The result for a null pointer, or while interception is disabled. -/
def E_INVALIDARG : HRESULT := 0x80070057

/-- The slot of `ExecuteCommandLists`. -/
def kQueue_ExecuteCommandLists : ℕ := 10

/-- The slot of `DrawInstanced`. -/
def kList_DrawInstanced : ℕ := 12

/-- The slot of `DrawIndexedInstanced`. -/
def kList_DrawIndexedInstanced : ℕ := 13

/-- The slot of `Dispatch`. -/
def kList_Dispatch : ℕ := 14

/-- What a slot or a hook record points to: nothing, a function of the application, or
a trampoline. -/
inductive Pointer (Code : Type*) where
  | null
  | function (f : Code)
  | trampolineExecuteCommandLists
  | trampolineDrawIndexedInstanced
  | trampolineDrawInstanced
  | trampolineDispatch

/-- The record of a hook. -/
structure HookState (Code : Type*) where
  original : Pointer Code
  patched : Pointer Code

/-- What a call does, in order: functions that run, and hooks that are told. -/
inductive Event (Object Code : Type*) where
  | ran (f : Code) (object : Object) (args : List UInt64)
  | hooked (hook : Code) (object : Object) (recordedState : UInt64)

/-- The application's functions, without the hooks that are told. -/
def Event.isRan {Object Code : Type*} : Event Object Code → Bool
  | ran _ _ _ => true
  | hooked _ _ _ => false

variable {Object Vtable Code : Type*}

/-- The globals of the file, and the slots of all vtables. -/
structure Layer (Object Vtable Code : Type*) where
  enabled : Bool
  queueHooks : Object → Option (HookState Code)
  listHooks : Object → Option (HookState Code)
  queueHook : Option Code
  listHook : Option Code
  slots : Vtable → ℕ → Pointer Code

/-- A call of one of the two interceptors; null pointers are `none`. -/
inductive HookCall (Object Code : Type*) where
  | attach (object : Option Object) (hook : Option Code)
  | detach (object : Option Object)

namespace Layer

/-- Nothing is hooked, and the vtables are those of the application. -/
def start (enabled : Bool) (initial : Vtable → ℕ → Code) : Layer Object Vtable Code where
  enabled := enabled
  queueHooks _ := none
  listHooks _ := none
  queueHook := none
  listHook := none
  slots vtable index := .function (initial vtable index)

/-! ## Calls through a slot -/

/-- What a trampoline does with the record of its object. -/
def forward (state : Option (HookState Code))
    (run : Pointer Code → Option (List (Event Object Code))) :
    Option (List (Event Object Code)) :=
  match state with
  | none => some []
  | some state =>
      match state.original with
      | .null => some []
      | original => run original

/-- What a trampoline tells the hook. -/
def tell (hook : Option Code) (object : Object) (recordedState : UInt64) :
    List (Event Object Code) :=
  hook.toList.map fun hook => .hooked hook object recordedState

/-- The call of a pointer on an object, if it returns within the given depth.  A
trampoline forwards as many arguments as it declares, which for `DrawInstanced` is
three. -/
def call (s : Layer Object Vtable Code) :
    ℕ → Pointer Code → Object → List UInt64 → Option (List (Event Object Code))
  | 0, _, _, _ => none
  | _ + 1, .null, _, _ => none
  | _ + 1, .function f, object, args => some [.ran f object args]
  | depth + 1, .trampolineExecuteCommandLists, queue, args =>
      (forward (s.queueHooks queue) fun original => s.call depth original queue (args.take 2)).map
        (· ++ tell s.queueHook queue (args.getD 1 0))
  | depth + 1, .trampolineDrawIndexedInstanced, list, args =>
      (forward (s.listHooks list) fun original => s.call depth original list (args.take 5)).map
        (· ++ tell s.listHook list 0)
  | depth + 1, .trampolineDrawInstanced, list, args =>
      (forward (s.listHooks list) fun original => s.call depth original list (args.take 3)).map
        (· ++ tell s.listHook list 0)
  | depth + 1, .trampolineDispatch, list, args =>
      (forward (s.listHooks list) fun original => s.call depth original list (args.take 3)).map
        (· ++ tell s.listHook list 0)

/-- The call returns, and of the application's functions it has run this one, once
and with these arguments. -/
def Reaches (s : Layer Object Vtable Code) (pointer : Pointer Code) (object : Object)
    (args : List UInt64) (f : Code) : Prop :=
  ∃ depth events, s.call depth pointer object args = some events ∧
    events.filter Event.isRan = [.ran f object args]

/-! ## The API -/

section Api

variable [DecidableEq Object] [DecidableEq Vtable]

/-- `vt[index] = pointer`. -/
def patch (slots : Vtable → ℕ → Pointer Code) (vt : Vtable) (index : ℕ)
    (pointer : Pointer Code) : Vtable → ℕ → Pointer Code :=
  Function.update slots vt (Function.update (slots vt) index pointer)

/-- `shutdown`, which forgets the records and patches nothing back. -/
def shutdown (s : Layer Object Vtable Code) : Layer Object Vtable Code :=
  { s with
    enabled := false
    queueHook := none
    listHook := none
    queueHooks := fun _ => none
    listHooks := fun _ => none }

/-- `enable_d3d12_interception(enabled)`; the initialization result is always `S_OK`. -/
def enableD3d12Interception (s : Layer Object Vtable Code) (enabled : Bool) :
    HRESULT × Layer Object Vtable Code :=
  (S_OK, { s with enabled := enabled })

/-- The checks of both `attach` functions, and what they do when these are passed. -/
def attach (s : Layer Object Vtable Code) (hooks : Object → Option (HookState Code))
    (record : Object → Code → Layer Object Vtable Code) (object : Option Object)
    (hook : Option Code) : HRESULT × Layer Object Vtable Code :=
  match object, hook with
  | some object, some hook =>
      if s.enabled = false then (E_INVALIDARG, s)
      else if (hooks object).isSome then (E_ABORT, s)
      else (S_OK, record object hook)
  | _, _ => (E_INVALIDARG, s)

variable (vtableOf : Object → Vtable)

/-- The state after `CommandQueueInterceptor::attach` has passed its checks. -/
def hookQueue (s : Layer Object Vtable Code) (queue : Object) (hook : Code) :
    Layer Object Vtable Code :=
  let vt := vtableOf queue
  let state : HookState Code := {
    original := s.slots vt kQueue_ExecuteCommandLists
    patched := .trampolineExecuteCommandLists }
  { s with
    slots := patch s.slots vt kQueue_ExecuteCommandLists state.patched
    queueHooks := Function.update s.queueHooks queue (some state)
    queueHook := some hook }

/-- `CommandQueueInterceptor::attach(queue, hook)`. -/
def attachQueue (s : Layer Object Vtable Code) (queue : Option Object) (hook : Option Code) :
    HRESULT × Layer Object Vtable Code :=
  s.attach s.queueHooks (s.hookQueue vtableOf) queue hook

/-- `CommandQueueInterceptor::detach(queue)`. -/
def detachQueue (s : Layer Object Vtable Code) (queue : Option Object) :
    Layer Object Vtable Code :=
  match queue with
  | none => s
  | some queue =>
      match s.queueHooks queue with
      | none => s
      | some state =>
          { s with
            slots := patch s.slots (vtableOf queue) kQueue_ExecuteCommandLists state.original
            queueHooks := Function.update s.queueHooks queue none }

/-- The state after `GraphicsCommandListInterceptor::attach` has passed its checks.
The one record is written for each of the three slots in turn. -/
def hookList (s : Layer Object Vtable Code) (list : Object) (hook : Code) :
    Layer Object Vtable Code :=
  let vt := vtableOf list
  let slots := s.slots
  let state : HookState Code := {
    original := slots vt kList_DrawIndexedInstanced
    patched := .trampolineDrawIndexedInstanced }
  let slots := patch slots vt kList_DrawIndexedInstanced state.patched
  let state : HookState Code := {
    original := slots vt kList_DrawInstanced
    patched := .trampolineDrawInstanced }
  let slots := patch slots vt kList_DrawInstanced state.patched
  let state : HookState Code := {
    original := slots vt kList_Dispatch
    patched := .trampolineDispatch }
  let slots := patch slots vt kList_Dispatch state.patched
  { s with
    slots := slots
    listHooks := Function.update s.listHooks list (some state)
    listHook := some hook }

/-- `GraphicsCommandListInterceptor::attach(list, hook)`. -/
def attachList (s : Layer Object Vtable Code) (list : Option Object) (hook : Option Code) :
    HRESULT × Layer Object Vtable Code :=
  s.attach s.listHooks (s.hookList vtableOf) list hook

/-- `GraphicsCommandListInterceptor::detach(list)`. -/
def detachList (s : Layer Object Vtable Code) (list : Option Object) :
    Layer Object Vtable Code :=
  match list with
  | none => s
  | some list =>
      match s.listHooks list with
      | none => s
      | some state =>
          let vt := vtableOf list
          let slots := patch s.slots vt kList_DrawIndexedInstanced state.original
          let slots := patch slots vt kList_DrawInstanced state.original
          let slots := patch slots vt kList_Dispatch state.original
          { s with
            slots := slots
            listHooks := Function.update s.listHooks list none }

end Api

/-! ## Lemmas -/

/-- An object can be attached. -/
def CanAttach (s : Layer Object Vtable Code) (hooks : Object → Option (HookState Code))
    (object : Object) : Prop :=
  s.enabled = true ∧ hooks object = none

/-- `attach` hooks the object, or changes nothing. -/
theorem attach_cases (s : Layer Object Vtable Code) (hooks : Object → Option (HookState Code))
    (record : Object → Code → Layer Object Vtable Code) (object : Option Object)
    (hook : Option Code) :
    (∃ o f, object = some o ∧ hook = some f ∧ s.CanAttach hooks o ∧
        (s.attach hooks record object hook).2 = record o f) ∨
      (∀ o f, object = some o → hook = some f → ¬ s.CanAttach hooks o) ∧
        (s.attach hooks record object hook).2 = s := by
  cases object with
  | none => exact Or.inr ⟨nofun, rfl⟩
  | some o =>
      cases hook with
      | none => exact Or.inr ⟨nofun, rfl⟩
      | some f =>
          rw [attach]
          split
          · rename_i hdisabled
            refine Or.inr ⟨?_, rfl⟩
            rintro _ _ ⟨⟩ ⟨⟩ ⟨henabled, -⟩
            exact Bool.false_ne_true (hdisabled.symm.trans henabled)
          · rename_i henabled
            split
            · rename_i hsome
              refine Or.inr ⟨?_, rfl⟩
              rintro _ _ ⟨⟩ ⟨⟩ ⟨-, hnone⟩
              rw [hnone] at hsome
              cases hsome
            · rename_i hnone
              exact Or.inl ⟨o, f, rfl, rfl,
                ⟨Bool.eq_true_of_not_eq_false henabled, Option.not_isSome_iff_eq_none.mp hnone⟩,
                rfl⟩

/-- A slot that holds a function of the application. -/
theorem reaches_function (s : Layer Object Vtable Code) (f : Code) (object : Object)
    (args : List UInt64) : s.Reaches (.function f) object args f :=
  ⟨1, _, rfl, rfl⟩

/-- Telling a hook runs no function of the application. -/
@[simp] theorem filter_tell (hook : Option Code) (object : Object) (recordedState : UInt64) :
    (tell hook object recordedState).filter Event.isRan = [] := by
  cases hook <;> rfl

section Lemmas

variable [DecidableEq Vtable]
  {slots : Vtable → ℕ → Pointer Code} {vt other : Vtable} {index i : ℕ} {pointer : Pointer Code}

/-- The slot that is patched. -/
@[simp] theorem patch_self : patch slots vt index pointer vt index = pointer := by
  rw [patch, Function.update_self, Function.update_self]

/-- The other slots. -/
theorem patch_of_ne (h : ¬ (other = vt ∧ i = index)) :
    patch slots vt index pointer other i = slots other i := by
  rw [patch]
  by_cases hvt : other = vt
  · subst hvt
    rw [Function.update_self, Function.update_of_ne fun hi => h ⟨rfl, hi⟩]
  · rw [Function.update_of_ne hvt]

end Lemmas

end Layer

end Synapse.D3D12
