import Mathlib

/-!
# Direct-mapped maps

A map whose keys share slots.  A slot has the entry of at most one key: an insertion
replaces it, and an eviction removes it if it is the key's own.

The map is given by the operations so far, the last one first.  `lookup_eq_some_iff`
says what a key finds without mentioning the slots' entries.
-/

namespace DirectMapped

inductive Op (K V : Type*) where
  | insert (key : K) (value : V)
  | evict (key : K)
  | get (key : K)

variable {K V S : Type*} [DecidableEq K] [DecidableEq S] (slot : K → S)

/-- The entry of a slot after some operations. -/
def entry : List (Op K V) → S → Option (K × V)
  | [], _ => none
  | .insert key value :: ops, i => if slot key = i then some (key, value) else entry ops i
  | .evict key :: ops, i => (entry ops i).filter fun e => e.1 ≠ key
  | .get _ :: ops, i => entry ops i

/-- What a key finds. -/
def lookup (ops : List (Op K V)) (key : K) : Option V :=
  ((entry slot ops (slot key)).filter fun e => e.1 = key).map Prod.snd

/-- The slot has the entry of another key. -/
def isTaken (ops : List (Op K V)) (key : K) : Bool :=
  (entry slot ops (slot key)).any fun e => e.1 ≠ key

/-- Insertions into the slot of a key, and evictions of the key itself. -/
def concerns (key : K) : Op K V → Bool
  | .insert other _ => slot other = slot key
  | .evict other => other = key
  | .get _ => false

variable {slot} {ops : List (Op K V)} {key : K} {value : V} {i : S}

/-- A key's entry is in its slot. -/
theorem slot_of_entry (h : entry slot ops i = some (key, value)) : slot key = i := by
  induction ops with
  | nil => cases h
  | cons op ops ih =>
      cases op with
      | insert other w =>
          rw [entry] at h
          split_ifs at h with hslot
          · cases h
            exact hslot
          · exact ih h
      | evict other => exact ih (Option.filter_eq_some_iff.mp h).1
      | get other => exact ih h

/-- An eviction leaves the entries of other keys. -/
theorem entry_evict_eq_some_iff {other : K} :
    entry slot (.evict key :: ops) i = some (other, value) ↔
      entry slot ops i = some (other, value) ∧ other ≠ key := by
  rw [entry, Option.filter_eq_some_iff, decide_eq_true_eq]

theorem entry_evict_of_ne (h : ∀ v, entry slot ops i ≠ some (key, v)) :
    entry slot (.evict key :: ops) i = entry slot ops i := by
  refine Option.ext fun e => ?_
  rw [entry_evict_eq_some_iff]
  refine and_iff_left_of_imp fun he hkey => h e.2 ?_
  rw [he, ← hkey]

/-- An eviction of the only key that can be there leaves nothing. -/
theorem entry_evict_of_forall (h : ∀ other v, entry slot ops i = some (other, v) → other = key) :
    entry slot (.evict key :: ops) i = none := by
  refine Option.eq_none_iff_forall_ne_some.mpr fun e he => ?_
  obtain ⟨hentry, hne⟩ := entry_evict_eq_some_iff.mp he
  exact hne (h e.1 e.2 hentry)

theorem lookup_eq_some_iff_entry :
    lookup slot ops key = some value ↔ entry slot ops (slot key) = some (key, value) := by
  rw [lookup, Option.map_eq_some_iff]
  constructor
  · rintro ⟨⟨other, v⟩, he, rfl⟩
    obtain ⟨hentry, hkey⟩ := Option.filter_eq_some_iff.mp he
    obtain rfl : other = key := of_decide_eq_true hkey
    exact hentry
  · exact fun h => ⟨(key, value), Option.filter_eq_some_iff.mpr ⟨h, decide_eq_true rfl⟩, rfl⟩

/-- **What a key finds** is the value of the last operation that concerns it, if that is
an insertion of the key. -/
theorem lookup_eq_some_iff : lookup slot ops key = some value ↔
    ops.find? (concerns slot key) = some (.insert key value) := by
  rw [lookup_eq_some_iff_entry]
  induction ops with
  | nil => exact iff_of_false nofun nofun
  | cons op ops ih =>
      cases op with
      | insert other w =>
          by_cases hslot : slot other = slot key
          · rw [entry, if_pos hslot, List.find?_cons_of_pos (by simpa [concerns]), Option.some_inj,
              Option.some_inj, Prod.mk.injEq, Op.insert.injEq]
          · rw [entry, if_neg hslot, List.find?_cons_of_neg (by simpa [concerns]), ih]
      | evict other =>
          rw [entry_evict_eq_some_iff]
          by_cases hkey : other = key
          · rw [List.find?_cons_of_pos (by simpa [concerns])]
            exact iff_of_false (fun h => h.2 hkey.symm) nofun
          · rw [List.find?_cons_of_neg (by simpa [concerns]), ih, and_iff_left (Ne.symm hkey)]
      | get other => exact ih

end DirectMapped
