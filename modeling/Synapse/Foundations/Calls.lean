import Mathlib

/-!
# Calls under way

Any number of concurrent calls, as the list of how far each of them has come.  A
call joins at the end of the list, and gets on by having its entry replaced.
Either way one entry changes and the others stay (`Moved`), so what is counted or
collected over all calls changes by what it is for that entry.
-/

namespace Calls

variable {C β : Type*}

/-- One call gets from `old` to `new`, or joins at `new`; the others stay. -/
def Moved (calls : List C) (old : Option C) (new : C) (calls' : List C) : Prop :=
  ∃ others, calls.Perm (old.toList ++ others) ∧ calls'.Perm (new :: others)

/-- A call that begins changes no other. -/
theorem moved_append (calls : List C) (new : C) : Moved calls none new (calls ++ [new]) :=
  ⟨calls, .rfl, List.perm_append_singleton new calls⟩

/-- A call that gets on changes no other. -/
theorem moved_set {calls : List C} {i : ℕ} {old : C} (h : calls[i]? = some old) (new : C) :
    Moved calls (some old) new (calls.set i new) := by
  obtain ⟨hi, rfl⟩ := List.getElem?_eq_some_iff.mp h
  exact ⟨calls.eraseIdx i, (List.getElem_cons_eraseIdx_perm hi).symm,
    List.set_perm_cons_eraseIdx hi new⟩

/-- A call of the longer list was there before, or has joined. -/
theorem getElem?_joined {calls : List C} {new c : C} {i : ℕ}
    (h : (calls ++ [new])[i]? = some c) : calls[i]? = some c ∨ i = calls.length ∧ c = new := by
  rcases Nat.lt_or_ge i calls.length with hi | hi
  · exact Or.inl ((List.getElem?_append_left hi).symm.trans h)
  · rw [List.getElem?_append_right hi, List.getElem?_singleton] at h
    split at h
    · exact Or.inr ⟨by omega, (Option.some_injective _ h).symm⟩
    · cases h

/-- The call that joined last gets on. -/
theorem set_joined (calls : List C) (old new : C) :
    (calls ++ [old]).set calls.length new = calls ++ [new] := by
  rw [List.set_append_right _ _ le_rfl, Nat.sub_self, List.set_cons_zero]

namespace Moved

variable {calls calls' : List C} {old : Option C} {new : C}

/-- A call that was there before, or the one that got on. -/
theorem mem_or_eq (h : Moved calls old new calls') {c : C} (hc : c ∈ calls') :
    c ∈ calls ∨ c = new := by
  obtain ⟨others, hcalls, hcalls'⟩ := h
  rcases List.mem_cons.mp (hcalls'.mem_iff.mp hc) with rfl | hothers
  · exact Or.inr rfl
  · exact Or.inl (hcalls.mem_iff.mpr (List.mem_append_right _ hothers))

/-- What all calls satisfy, and the one that gets on. -/
theorem forall_mem {P : C → Prop} (h : Moved calls old new calls') (hall : ∀ c ∈ calls, P c)
    (hnew : P new) : ∀ c ∈ calls', P c := by
  intro c hc
  rcases h.mem_or_eq hc with hold | rfl
  · exact hall c hold
  · exact hnew

/-- What is counted over the calls changes by what changes for the one that moved. -/
theorem countP_add (h : Moved calls old new calls') (p : C → Bool) :
    calls'.countP p + old.toList.countP p = calls.countP p + [new].countP p := by
  obtain ⟨others, hcalls, hcalls'⟩ := h
  rw [hcalls.countP_eq, hcalls'.countP_eq, List.countP_append, List.countP_cons]
  rw [List.countP_singleton]
  omega

section Collected

variable {f : C → Option β}

/-- Nothing new is collected. -/
theorem filterMap_same (h : Moved calls old new calls') (hsame : f new = old.bind f) :
    (calls'.filterMap f).Perm (calls.filterMap f) := by
  obtain ⟨others, hcalls, hcalls'⟩ := h
  refine (hcalls'.filterMap f).trans (List.Perm.trans ?_ (hcalls.filterMap f).symm)
  cases old with
  | none =>
      rw [Option.toList_none, List.nil_append, List.filterMap_cons_none hsame]
  | some c =>
      rw [Option.toList_some, List.singleton_append]
      have hnew : f new = f c := hsame
      rw [List.filterMap_cons, List.filterMap_cons, hnew]

/-- One more thing is collected. -/
theorem filterMap_gained (h : Moved calls old new calls') {x : β} (hnew : f new = some x)
    (hold : old.bind f = none) : (calls'.filterMap f).Perm (x :: calls.filterMap f) := by
  obtain ⟨others, hcalls, hcalls'⟩ := h
  refine (hcalls'.filterMap f).trans ?_
  rw [List.filterMap_cons_some hnew]
  refine (List.Perm.trans ?_ (hcalls.filterMap f).symm).cons x
  cases old with
  | none => rfl
  | some c =>
      have hold' : f c = none := hold
      rw [Option.toList_some, List.singleton_append, List.filterMap_cons_none hold']

/-- One thing less is collected. -/
theorem filterMap_lost (h : Moved calls old new calls') {x : β} (hnew : f new = none)
    (hold : old.bind f = some x) : (calls.filterMap f).Perm (x :: calls'.filterMap f) := by
  obtain ⟨others, hcalls, hcalls'⟩ := h
  refine (hcalls.filterMap f).trans ?_
  cases old with
  | none => cases hold
  | some c =>
      have hold' : f c = some x := hold
      rw [Option.toList_some, List.singleton_append, List.filterMap_cons_some hold']
      refine (List.Perm.trans ?_ (hcalls'.filterMap f).symm).cons x
      rw [List.filterMap_cons_none hnew]

end Collected

end Moved

end Calls
