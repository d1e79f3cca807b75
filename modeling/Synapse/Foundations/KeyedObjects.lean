import Synapse.Foundations.Calls
import Synapse.Foundations.Runs

/-!
# Objects behind keys that are used again

A layer between an application and the owner of its objects.  The owner creates objects,
each behind a key that no live object has, and may use the key again once the object is
gone.  The layer keeps what it knows of an object in a table under its key.  Calls of the
layer create, use and destroy objects, any number at once, and only some of their steps are
the layer's: the others belong to the owner.

Every live object is in one place, with the application or in a call, and the place tells
whether the table has an entry for it (`Stands`).  Where there is one, it is the entry of
that object, whatever the key stood for before.

### Places instead of histories

A key says little about an object, for it is used again, and the table of the layer is under
keys.  What keeps the two together is that an object is destroyed by a call that holds it and
that nobody else can name: a live object is in exactly one place.  So the invariant is about
places, a list of references with what each of them is for (`Placed`), and a step moves one
reference from one place to another or adds or removes one.  That the list is only known up to
its order is the lemma `perm`; every step uses it once.

What the layer does is given by an interface (`I`): the entry of a new object, what a command
makes of its entry, and the function that it is destroyed with.  The statements need nothing
else of it.
-/

namespace KeyedObjects

open Runs Calls

/-- A handle of the application, with the key behind it. -/
structure Ref (H K : Type*) where
  handle : H
  key : K
  deriving DecidableEq

/-- A live object: its handle, what it was created with, and the commands it was given. -/
structure Object (H C α : Type*) where
  handle : H
  context : C
  commands : List α
  deriving DecidableEq

/-- What the layer keeps of an object, what a command does to that, and the function with
which it destroys the object, if it finds one. -/
structure Interface (H C D σ α : Type*) where
  init : C → H → σ
  act : σ → α → σ
  destroyer : C → H → Option D

variable {H K C D σ α : Type*}

/-- The entry that an object should have. -/
def Interface.entry (I : Interface H C D σ α) (o : Object H C α) : C × σ :=
  (o.context, o.commands.foldl I.act (I.init o.context o.handle))

/-- How far a call has come.  A call that finds no function to destroy its object leaves it
alone. -/
inductive Call (H K C D : Type*) where
  | creating (context : C)
  | created (ref : Ref H K) (context : C)
  | destroying (ref : Ref H K)
  | removed (ref : Ref H K) (destroyer : Option D)
  | abandoned (ref : Ref H K)
  | returned
  deriving DecidableEq

/-- Where a live object is. -/
inductive Place (C D : Type*) where
  | application
  | created (context : C)
  | destroying
  | removed (destroyer : Option D)
  | abandoned

/-- The object a call has in hand. -/
def Call.holding : Call H K C D → Option (Ref H K × Place C D)
  | creating _ => none
  | created ref context => some (ref, .created context)
  | destroying ref => some (ref, .destroying)
  | removed ref destroyer => some (ref, .removed destroyer)
  | abandoned ref => some (ref, .abandoned)
  | returned => none

/-! ## Every live object in its place -/

/-- The entry of an object in its place. -/
def Stands (I : Interface H C D σ α) (o : Object H C α) (entry : Option (C × σ)) :
    Place C D → Prop
  | .application | .destroying => entry = some (I.entry o)
  | .created context => entry = none ∧ o.context = context ∧ o.commands = []
  | .removed destroyer => entry = none ∧ destroyer = I.destroyer o.context o.handle
  | .abandoned => entry = none ∧ I.destroyer o.context o.handle = none

/-- The live objects are those with a place, and no two have one key. -/
structure Placed (I : Interface H C D σ α) (objects : K → Option (Object H C α))
    (table : K → Option (C × σ)) (places : List (Ref H K × Place C D)) : Prop where
  nodup : (places.map fun p => p.1.key).Nodup
  stands : ∀ p ∈ places, ∃ o, objects p.1.key = some o ∧ o.handle = p.1.handle ∧
    Stands I o (table p.1.key) p.2
  elsewhere : ∀ k, k ∉ places.map (fun p => p.1.key) → objects k = none ∧ table k = none

namespace Placed

variable {I : Interface H C D σ α} {objects objects' : K → Option (Object H C α)}
  {table table' : K → Option (C × σ)} {places places' : List (Ref H K × Place C D)}
  {ref : Ref H K} {x y : Place C D} {o : Object H C α}

/-- The order of the places does not matter. -/
theorem perm (h : Placed I objects table places) (hperm : places'.Perm places) :
    Placed I objects table places' where
  nodup := (hperm.map _).nodup_iff.mpr h.nodup
  stands p hp := h.stands p (hperm.mem_iff.mp hp)
  elsewhere k hk := h.elsewhere k fun hmem => hk ((hperm.map _).mem_iff.mpr hmem)

/-- The objects in all other places stay. -/
theorem stands_rest (h : Placed I objects table ((ref, x) :: places))
    (hobjects : ∀ k, k ≠ ref.key → objects' k = objects k)
    (htable : ∀ k, k ≠ ref.key → table' k = table k) (p) (hp : p ∈ places) :
    ∃ o, objects' p.1.key = some o ∧ o.handle = p.1.handle ∧
      Stands I o (table' p.1.key) p.2 := by
  have hne : p.1.key ≠ ref.key := by
    intro heq
    exact (List.nodup_cons.mp h.nodup).1 (List.mem_map.mpr ⟨p, hp, heq⟩)
  rw [hobjects _ hne, htable _ hne]
  exact h.stands p (List.mem_cons_of_mem _ hp)

/-- An object changes, or its place. -/
theorem replace (h : Placed I objects table ((ref, x) :: places))
    (hobjects : ∀ k, k ≠ ref.key → objects' k = objects k)
    (htable : ∀ k, k ≠ ref.key → table' k = table k)
    (ho : objects' ref.key = some o) (hhandle : o.handle = ref.handle)
    (hstands : Stands I o (table' ref.key) y) :
    Placed I objects' table' ((ref, y) :: places) where
  nodup := h.nodup
  stands p hp := by
    rcases List.mem_cons.mp hp with rfl | hrest
    · exact ⟨o, ho, hhandle, hstands⟩
    · exact h.stands_rest hobjects htable p hrest
  elsewhere k hk := by
    have hne : k ≠ ref.key := List.ne_of_not_mem_cons hk
    rw [hobjects k hne, htable k hne]
    exact h.elsewhere k hk

/-- There is no entry without an object. -/
theorem table_of_free (h : Placed I objects table places) {k : K} (hfree : objects k = none) :
    table k = none := by
  refine (h.elsewhere k fun hmem => ?_).2
  obtain ⟨p, hp, rfl⟩ := List.mem_map.mp hmem
  obtain ⟨o, ho, -⟩ := h.stands p hp
  rw [hfree] at ho
  cases ho

/-- An object is created. -/
theorem add (h : Placed I objects table places) (hfree : objects ref.key = none)
    (hobjects : ∀ k, k ≠ ref.key → objects' k = objects k) (ho : objects' ref.key = some o)
    (hhandle : o.handle = ref.handle) (hstands : Stands I o (table ref.key) x) :
    Placed I objects' table ((ref, x) :: places) := by
  have hnew : ref.key ∉ places.map fun p => p.1.key := by
    intro hmem
    obtain ⟨p, hp, heq⟩ := List.mem_map.mp hmem
    obtain ⟨o', ho', -⟩ := h.stands p hp
    rw [heq, hfree] at ho'
    cases ho'
  refine ⟨List.nodup_cons.mpr ⟨hnew, h.nodup⟩, fun p hp => ?_, fun k hk => ?_⟩
  · rcases List.mem_cons.mp hp with rfl | hrest
    · exact ⟨o, ho, hhandle, hstands⟩
    · have hne : p.1.key ≠ ref.key := by
        intro heq
        exact hnew (List.mem_map.mpr ⟨p, hrest, heq⟩)
      rw [hobjects _ hne]
      exact h.stands p hrest
  · obtain ⟨hne, hrest⟩ := not_or.mp (mt List.mem_cons.mpr hk)
    rw [hobjects k hne]
    exact h.elsewhere k hrest

/-- An object is gone. -/
theorem drop (h : Placed I objects table ((ref, x) :: places))
    (hobjects : ∀ k, k ≠ ref.key → objects' k = objects k) (hgone : objects' ref.key = none)
    (htable : table ref.key = none) : Placed I objects' table places where
  nodup := (List.nodup_cons.mp h.nodup).2
  stands := h.stands_rest hobjects fun _ _ => rfl
  elsewhere k hk := by
    rcases eq_or_ne k ref.key with rfl | hne
    · exact ⟨hgone, htable⟩
    · rw [hobjects k hne]
      refine h.elsewhere k fun hmem => ?_
      rcases List.mem_cons.mp hmem with heq | hrest
      · exact hne heq
      · exact hk hrest

end Placed

/-! ## The system -/

/-- The live objects by their keys, the table of the layer, the handles of the application,
the calls, and what was destroyed, as it was when its destroyer was called. -/
structure System (H K C D σ α : Type*) where
  objects : K → Option (Object H C α)
  table : K → Option (C × σ)
  owned : List (Ref H K)
  calls : List (Call H K C D)
  destroyed : List (Option (Object H C α) × D)

namespace System

/-- A new call, a step of a call under way, or a command. -/
inductive Action (H K C α : Type*) where
  | create (context : C)
  | answer (i : ℕ) (answer : Option (Ref H K))
  | register (i : ℕ)
  | use (ref : Ref H K) (command : α)
  | destroy (ref : Ref H K)
  | remove (i : ℕ)
  | forward (i : ℕ)

/-- No objects, no entries, no calls. -/
def empty : System H K C D σ α where
  objects _ := none
  table _ := none
  owned := []
  calls := []
  destroyed := []

/-- The objects of the application and of calls, with their places. -/
def placesOf (owned : List (Ref H K)) (calls : List (Call H K C D)) :
    List (Ref H K × Place C D) :=
  owned.map (fun ref => (ref, .application)) ++ calls.filterMap Call.holding

/-- Where the objects are: with the application, or in calls. -/
def places (s : System H K C D σ α) : List (Ref H K × Place C D) := placesOf s.owned s.calls

/-- Every object is in its place, and what was destroyed was destroyed by its own destroyer. -/
structure Consistent (I : Interface H C D σ α) (s : System H K C D σ α) : Prop where
  placed : Placed I s.objects s.table s.places
  destroyed : ∀ e ∈ s.destroyed,
    ∃ o, e.1 = some o ∧ I.destroyer o.context o.handle = some e.2

variable {I : Interface H C D σ α} {s s' : System H K C D σ α}

/-- The empty system is consistent. -/
theorem consistent_empty : (empty : System H K C D σ α).Consistent I where
  placed := ⟨List.nodup_nil, nofun, fun _ _ => ⟨rfl, rfl⟩⟩
  destroyed := nofun

/-- One call gets on, and the objects of all others stay in their places. -/
theorem places_moved {calls calls' : List (Call H K C D)} {old : Option (Call H K C D)}
    {new : Call H K C D} (h : Moved calls old new calls') (owned : List (Ref H K)) :
    ∃ rest, (placesOf owned calls).Perm ((old.bind Call.holding).toList ++ rest) ∧
      (placesOf owned calls').Perm (new.holding.toList ++ rest) := by
  obtain ⟨others, hcalls, hcalls'⟩ := h
  have hcons (c : Call H K C D) : (placesOf owned (c :: others)).Perm
      (c.holding.toList ++ placesOf owned others) := by
    unfold placesOf
    cases hholding : c.holding with
    | none => rw [List.filterMap_cons_none hholding]; rfl
    | some p => rw [List.filterMap_cons_some hholding]; exact List.perm_middle
  refine ⟨placesOf owned others, ?_,
    ((hcalls'.filterMap _).append_left _).trans (hcons new)⟩
  refine ((hcalls.filterMap _).append_left _).trans ?_
  cases old with
  | none => rfl
  | some c => exact hcons c

/-! ## Steps -/

variable [DecidableEq K]

/-- The owner creates an object behind a key that no live object has, or fails. -/
def answer (s : System H K C D σ α) (i : ℕ) (answer : Option (Ref H K)) :
    Call H K C D → Option (System H K C D σ α)
  | .creating context =>
      match answer with
      | some ref =>
          if (s.objects ref.key).isSome then none
          else some { s with
            objects := Function.update s.objects ref.key (some ⟨ref.handle, context, []⟩)
            calls := s.calls.set i (.created ref context) }
      | none => some { s with calls := s.calls.set i .returned }
  | _ => none

/-- The layer makes the entry, and the application gets the handle. -/
def register (I : Interface H C D σ α) (s : System H K C D σ α) (i : ℕ) :
    Call H K C D → Option (System H K C D σ α)
  | .created ref context => some { s with
      table := Function.update s.table ref.key (some (context, I.init context ref.handle))
      owned := ref :: s.owned
      calls := s.calls.set i .returned }
  | _ => none

/-- The layer takes the entry out, and the destroyer from it. -/
def remove (I : Interface H C D σ α) (s : System H K C D σ α) (i : ℕ) :
    Call H K C D → Option (System H K C D σ α)
  | .destroying ref => some { s with
      table := Function.update s.table ref.key none
      calls := s.calls.set i (.removed ref
        ((s.table ref.key).bind fun entry => I.destroyer entry.1 ref.handle)) }
  | _ => none

/-- The destroyer is called. -/
def forward (s : System H K C D σ α) (i : ℕ) : Call H K C D → Option (System H K C D σ α)
  | .removed ref (some destroyer) => some { s with
      objects := Function.update s.objects ref.key none
      calls := s.calls.set i .returned
      destroyed := s.destroyed ++ [(s.objects ref.key, destroyer)] }
  | .removed ref none => some { s with calls := s.calls.set i (.abandoned ref) }
  | _ => none

variable [DecidableEq H]

/-- Only a handle that the application has is used or destroyed.  A command acts on the
entry that the layer finds, if any. -/
def step (I : Interface H C D σ α) (s : System H K C D σ α) :
    Action H K C α → Option (System H K C D σ α)
  | .create context => some { s with calls := s.calls ++ [.creating context] }
  | .answer i answer => s.calls[i]?.bind (s.answer i answer)
  | .register i => s.calls[i]?.bind (s.register I i)
  | .use ref command =>
      if ref ∈ s.owned then
        some { s with
          objects := Function.update s.objects ref.key ((s.objects ref.key).map fun o =>
            { o with commands := o.commands ++ [command] })
          table := Function.update s.table ref.key ((s.table ref.key).map fun entry =>
            (entry.1, I.act entry.2 command)) }
      else none
  | .destroy ref =>
      if ref ∈ s.owned then
        some { s with owned := s.owned.erase ref, calls := s.calls ++ [.destroying ref] }
      else none
  | .remove i => s.calls[i]?.bind (s.remove I i)
  | .forward i => s.calls[i]?.bind (s.forward i)

/-- What a step can do. -/
inductive Stepped (I : Interface H C D σ α) (s : System H K C D σ α) :
    Action H K C α → System H K C D σ α → Prop
  | create (context) :
      Stepped I s (.create context) { s with calls := s.calls ++ [.creating context] }
  | created {i context ref} (hcall : s.calls[i]? = some (.creating context))
      (hfree : s.objects ref.key = none) : Stepped I s (.answer i (some ref))
      { s with
        objects := Function.update s.objects ref.key (some ⟨ref.handle, context, []⟩)
        calls := s.calls.set i (.created ref context) }
  | failed {i context} (hcall : s.calls[i]? = some (.creating context)) :
      Stepped I s (.answer i none) { s with calls := s.calls.set i .returned }
  | registered {i ref context} (hcall : s.calls[i]? = some (.created ref context)) :
      Stepped I s (.register i)
        { s with
          table := Function.update s.table ref.key (some (context, I.init context ref.handle))
          owned := ref :: s.owned
          calls := s.calls.set i .returned }
  | used {ref} (command) (howned : ref ∈ s.owned) : Stepped I s (.use ref command)
      { s with
        objects := Function.update s.objects ref.key ((s.objects ref.key).map fun o =>
          { o with commands := o.commands ++ [command] })
        table := Function.update s.table ref.key ((s.table ref.key).map fun entry =>
          (entry.1, I.act entry.2 command)) }
  | destroy {ref} (howned : ref ∈ s.owned) : Stepped I s (.destroy ref)
      { s with owned := s.owned.erase ref, calls := s.calls ++ [.destroying ref] }
  | removed {i ref} (hcall : s.calls[i]? = some (.destroying ref)) : Stepped I s (.remove i)
      { s with
        table := Function.update s.table ref.key none
        calls := s.calls.set i (.removed ref
          ((s.table ref.key).bind fun entry => I.destroyer entry.1 ref.handle)) }
  | forwarded {i ref destroyer} (hcall : s.calls[i]? = some (.removed ref (some destroyer))) :
      Stepped I s (.forward i)
        { s with
          objects := Function.update s.objects ref.key none
          calls := s.calls.set i .returned
          destroyed := s.destroyed ++ [(s.objects ref.key, destroyer)] }
  | abandoned {i ref} (hcall : s.calls[i]? = some (.removed ref none)) :
      Stepped I s (.forward i) { s with calls := s.calls.set i (.abandoned ref) }

/-- The shapes that a step can have. -/
theorem stepped_of_step {a : Action H K C α} (h : s.step I a = some s') : Stepped I s a s' := by
  cases a with
  | create context =>
      obtain rfl := Option.some_injective _ h
      exact .create context
  | answer i answer =>
      obtain ⟨call, hcall, hanswer⟩ := Option.bind_eq_some_iff.mp h
      cases call with
      | creating context =>
          cases answer with
          | some ref =>
              rw [System.answer] at hanswer
              split at hanswer
              · cases hanswer
              · rename_i hfree
                obtain rfl := Option.some_injective _ hanswer
                exact .created hcall (Option.not_isSome_iff_eq_none.mp hfree)
          | none =>
              obtain rfl := Option.some_injective _ hanswer
              exact .failed hcall
      | created _ _ | destroying _ | removed _ _ | abandoned _ | returned => cases hanswer
  | register i =>
      obtain ⟨call, hcall, hregister⟩ := Option.bind_eq_some_iff.mp h
      cases call with
      | created ref context =>
          obtain rfl := Option.some_injective _ hregister
          exact .registered hcall
      | creating _ | destroying _ | removed _ _ | abandoned _ | returned => cases hregister
  | use ref command =>
      rw [step] at h
      split at h
      · rename_i howned
        obtain rfl := Option.some_injective _ h
        exact .used command howned
      · cases h
  | destroy ref =>
      rw [step] at h
      split at h
      · rename_i howned
        obtain rfl := Option.some_injective _ h
        exact .destroy howned
      · cases h
  | remove i =>
      obtain ⟨call, hcall, hremove⟩ := Option.bind_eq_some_iff.mp h
      cases call with
      | destroying ref =>
          obtain rfl := Option.some_injective _ hremove
          exact .removed hcall
      | creating _ | created _ _ | removed _ _ | abandoned _ | returned => cases hremove
  | forward i =>
      obtain ⟨call, hcall, hforward⟩ := Option.bind_eq_some_iff.mp h
      cases call with
      | removed ref destroyer =>
          cases destroyer with
          | some destroyer =>
              obtain rfl := Option.some_injective _ hforward
              exact .forwarded hcall
          | none =>
              obtain rfl := Option.some_injective _ hforward
              exact .abandoned hcall
      | creating _ | created _ _ | destroying _ | abandoned _ | returned => cases hforward

/-- An object of the application, taken first. -/
theorem places_owned {ref : Ref H K} (howned : ref ∈ s.owned) :
    s.places.Perm ((ref, .application) :: placesOf (s.owned.erase ref) s.calls) :=
  ((List.perm_cons_erase howned).map _).append_right _

/-- The step lemma, one case for each shape. -/
theorem consistent_step {a : Action H K C α} (h : s.Consistent I) (hstep : s.step I a = some s') :
    s'.Consistent I := by
  cases stepped_of_step hstep with
  | create context =>
      obtain ⟨rest, hold, hnew⟩ :=
        places_moved (moved_append s.calls (.creating context)) s.owned
      exact ⟨h.placed.perm (hnew.trans hold.symm), h.destroyed⟩
  | @created i context ref hcall hfree =>
      obtain ⟨rest, hold, hnew⟩ := places_moved (moved_set hcall (.created ref context)) s.owned
      have hadded := (h.placed.perm hold.symm).add (x := .created context) hfree
        (fun k hk => Function.update_of_ne hk _ _)
        (Function.update_self ref.key (some ⟨ref.handle, context, []⟩) s.objects) rfl
        ⟨h.placed.table_of_free hfree, rfl, rfl⟩
      exact ⟨hadded.perm hnew, h.destroyed⟩
  | @failed i context hcall =>
      obtain ⟨rest, hold, hnew⟩ := places_moved (moved_set hcall .returned) s.owned
      exact ⟨h.placed.perm (hnew.trans hold.symm), h.destroyed⟩
  | @registered i ref context hcall =>
      obtain ⟨rest, hold, hnew⟩ := places_moved (moved_set hcall .returned) s.owned
      have hplaced := h.placed.perm hold.symm
      obtain ⟨o, ho, hhandle, -, hcontext, hcommands⟩ := hplaced.stands _ List.mem_cons_self
      have hentry : I.entry o = (context, I.init context ref.handle) := by
        rw [Interface.entry, hcontext, hcommands, hhandle]
        rfl
      have hregistered := hplaced.replace (y := .application) (fun _ _ => rfl)
        (fun k hk => Function.update_of_ne hk _ _) ho hhandle
        ((Function.update_self ref.key _ s.table).trans (congrArg some hentry.symm))
      exact ⟨hregistered.perm (hnew.cons _), h.destroyed⟩
  | @used ref command howned =>
      have hplaced := h.placed.perm (places_owned howned).symm
      obtain ⟨o, ho, hhandle, hentry⟩ := hplaced.stands _ List.mem_cons_self
      have hused := hplaced.replace (y := .application)
        (o := { o with commands := o.commands ++ [command] })
        (fun k hk => Function.update_of_ne hk ((s.objects ref.key).map fun o =>
          { o with commands := o.commands ++ [command] }) s.objects)
        (fun k hk => Function.update_of_ne hk ((s.table ref.key).map fun entry =>
          (entry.1, I.act entry.2 command)) s.table)
        (by rw [Function.update_self, ho]; rfl) hhandle
        (by
          have hfound : s.table ref.key = some (I.entry o) := hentry
          show Function.update s.table ref.key _ ref.key = _
          rw [Function.update_self, hfound, Interface.entry, Interface.entry, List.foldl_append]
          rfl)
      exact ⟨hused.perm (places_owned howned), h.destroyed⟩
  | @destroy ref howned =>
      obtain ⟨rest, hold, hnew⟩ :=
        places_moved (moved_append s.calls (.destroying ref)) (s.owned.erase ref)
      have hplaced := h.placed.perm ((hold.cons (ref, .application)).symm.trans
        (places_owned howned).symm)
      obtain ⟨o, ho, hhandle, hentry⟩ := hplaced.stands _ List.mem_cons_self
      have hdestroying := hplaced.replace (y := .destroying) (fun _ _ => rfl)
        (fun _ _ => rfl) ho hhandle hentry
      exact ⟨hdestroying.perm hnew, h.destroyed⟩
  | @removed i ref hcall =>
      obtain ⟨rest, hold, hnew⟩ := places_moved (moved_set hcall (.removed ref
        ((s.table ref.key).bind fun entry => I.destroyer entry.1 ref.handle))) s.owned
      have hplaced := h.placed.perm hold.symm
      obtain ⟨o, ho, hhandle, hentry⟩ := hplaced.stands _ List.mem_cons_self
      have hfound : s.table ref.key = some (I.entry o) := hentry
      have hremoved := hplaced.replace (y := .removed
          ((s.table ref.key).bind fun entry => I.destroyer entry.1 ref.handle))
        (fun _ _ => rfl) (fun k hk => Function.update_of_ne hk none s.table) ho hhandle
        ⟨Function.update_self _ _ _, by rw [hfound, ← hhandle]; rfl⟩
      exact ⟨hremoved.perm hnew, h.destroyed⟩
  | @forwarded i ref destroyer hcall =>
      obtain ⟨rest, hold, hnew⟩ := places_moved (moved_set hcall .returned) s.owned
      have hplaced := h.placed.perm hold.symm
      obtain ⟨o, ho, hhandle, htable, horig⟩ := hplaced.stands _ List.mem_cons_self
      have hdropped := hplaced.drop (fun k hk => Function.update_of_ne hk none s.objects)
        (Function.update_self _ _ _) htable
      refine ⟨hdropped.perm hnew, fun e he => ?_⟩
      rcases List.mem_append.mp he with hbefore | hlast
      · exact h.destroyed e hbefore
      · obtain rfl := List.mem_singleton.mp hlast
        exact ⟨o, ho, horig.symm⟩
  | @abandoned i ref hcall =>
      obtain ⟨rest, hold, hnew⟩ := places_moved (moved_set hcall (.abandoned ref)) s.owned
      have hplaced := h.placed.perm hold.symm
      obtain ⟨o, ho, hhandle, htable, horig⟩ := hplaced.stands _ List.mem_cons_self
      have habandoned := hplaced.replace (y := .abandoned) (fun _ _ => rfl) (fun _ _ => rfl)
        ho hhandle ⟨htable, horig.symm⟩
      exact ⟨habandoned.perm hnew, h.destroyed⟩

/-- The run lemma. -/
theorem consistent_of_exec {actions : List (Action H K C α)}
    (h : exec (step I) empty actions = some s) : s.Consistent I :=
  invariant_of_exec (step I) (fun _ _ _ hs ha => consistent_step hs ha) consistent_empty h

/-! ## The table -/

omit [DecidableEq K] [DecidableEq H]

/-- **The table of an object in use** has the entry that its own commands lead to. -/
theorem Consistent.entry_of_owned (h : s.Consistent I) {ref : Ref H K} (howned : ref ∈ s.owned) :
    ∃ o, s.objects ref.key = some o ∧ o.handle = ref.handle ∧
      s.table ref.key = some (I.entry o) :=
  h.placed.stands (ref, .application)
    (List.mem_append_left _ (List.mem_map.mpr ⟨ref, howned, rfl⟩))

/-- All calls have returned. -/
def AtRest (s : System H K C D σ α) : Prop :=
  ∀ c ∈ s.calls, c = .returned ∨ ∃ ref, c = .abandoned ref

/-- At rest the table has the entries of the live objects, but for those that there is no
function to destroy. -/
theorem Consistent.table_at_rest (h : s.Consistent I) (hrest : s.AtRest) (k : K) :
    s.table k = (s.objects k).map I.entry ∨
      ∃ o, s.objects k = some o ∧ I.destroyer o.context o.handle = none := by
  by_cases hk : k ∈ s.places.map fun p => p.1.key
  · obtain ⟨p, hp, rfl⟩ := List.mem_map.mp hk
    obtain ⟨o, ho, -, hstands⟩ := h.placed.stands p hp
    rcases List.mem_append.mp hp with howned | hcall
    · obtain ⟨ref, -, rfl⟩ := List.mem_map.mp howned
      rw [ho]
      exact Or.inl hstands
    · obtain ⟨c, hc, hholding⟩ := List.mem_filterMap.mp hcall
      rcases hrest c hc with rfl | ⟨ref, rfl⟩
      · cases hholding
      · obtain rfl := Option.some_injective _ hholding
        exact Or.inr ⟨o, ho, hstands.2⟩
  · obtain ⟨hobjects, htable⟩ := h.placed.elsewhere k hk
    rw [hobjects, htable]
    exact Or.inl rfl

end System

end KeyedObjects
