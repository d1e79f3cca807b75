import Mathlib

/-!
# The last value wins

A list of entries of which some carry a value, read so that a later value replaces
an earlier one.

Two ways of reading a list are compared: all entries count, or only the good ones.  They give
the same as long as the last entry that carries a value is good, or has the value that the
good ones give anyway.
-/

namespace LastValue

variable {α β : Type*}

/-- The last value in the list. -/
def lastSome (f : α → Option β) (l : List α) : Option β := (l.filterMap f).getLast?

/-- The last entry that carries a value. -/
def lastEntry (f : α → Option β) : List α → Option α :=
  lastSome fun a => (f a).map fun _ => a

/-- The value if the entry is a good one. -/
def good (p : α → Bool) (f : α → Option β) (a : α) : Option β := if p a then f a else none

/-- A value that comes later wins. -/
theorem lastSome_cons (f : α → Option β) (a : α) (l : List α) :
    lastSome f (a :: l) = (lastSome f l).or (f a) := by
  unfold lastSome
  cases h : f a with
  | none => rw [List.filterMap_cons_none h, Option.or_none]
  | some b =>
      rw [List.filterMap_cons_some h, List.getLast?_cons]
      cases (l.filterMap f).getLast? <;> rfl

/-- Reading one more entry at the end. -/
theorem lastSome_concat (f : α → Option β) (l : List α) (a : α) :
    lastSome f (l ++ [a]) = (f a).or (lastSome f l) := by
  unfold lastSome
  rw [List.filterMap_append]
  cases h : f a with
  | none => rw [List.filterMap_cons_none h, List.filterMap_nil, List.append_nil, Option.none_or]
  | some b => rw [List.filterMap_cons_some h, List.filterMap_nil, List.getLast?_concat]; rfl

/-- There is no last value if no entry carries one. -/
theorem lastSome_eq_none_iff {f : α → Option β} {l : List α} :
    lastSome f l = none ↔ ∀ a ∈ l, f a = none := by
  rw [lastSome, List.getLast?_eq_none_iff, List.filterMap_eq_nil_iff]

/-- Reading one more entry in front. -/
theorem getD_lastSome_cons (f : α → Option β) (a : α) (l : List α) (old : β) :
    (lastSome f (a :: l)).getD old = (lastSome f l).getD ((f a).getD old) := by
  rw [lastSome_cons]
  cases lastSome f l <;> rfl

/-- The last value is the value of an entry. -/
theorem mem_of_lastSome {f : α → Option β} {l : List α} {b : β} (h : lastSome f l = some b) :
    ∃ a ∈ l, f a = some b := List.mem_filterMap.mp (List.mem_of_getLast? h)

section Entries

variable {f : α → Option β} {l : List α}

/-- Without an entry that carries a value there is none to be read. -/
theorem lastSome_of_lastEntry_none (p : α → Bool) (h : lastEntry f l = none) :
    lastSome f l = none ∧ lastSome (good p f) l = none := by
  induction l with
  | nil => exact ⟨rfl, rfl⟩
  | cons a l ih =>
      rw [lastEntry, lastSome_cons, Option.or_eq_none_iff, Option.map_eq_none_iff] at h
      obtain ⟨hl, hgood⟩ := ih h.1
      rw [lastSome_cons, lastSome_cons, hl, hgood, good, h.2]
      simp

/-- The last entry has the last value, and if it is good, the last good one. -/
theorem lastSome_of_lastEntry {a : α} (h : lastEntry f l = some a) :
    ∃ b, f a = some b ∧ lastSome f l = some b ∧
      ∀ p : α → Bool, p a = true → lastSome (good p f) l = some b := by
  induction l with
  | nil => cases h
  | cons c l ih =>
      cases hl : lastEntry f l with
      | some a' =>
          have ha : a' = a := by
            rw [lastEntry, lastSome_cons, ← lastEntry, hl] at h
            exact Option.some_injective _ h
          rw [ha] at hl
          obtain ⟨b, hb, hlast, hgood⟩ := ih hl
          refine ⟨b, hb, by rw [lastSome_cons, hlast]; rfl, fun p hp => ?_⟩
          rw [lastSome_cons, hgood p hp]
          rfl
      | none =>
          rw [lastEntry, lastSome_cons, ← lastEntry, hl, Option.none_or,
            Option.map_eq_some_iff] at h
          obtain ⟨b, hb, rfl⟩ := h
          refine ⟨b, hb, ?_, fun p hp => ?_⟩
          · rw [lastSome_cons, (lastSome_of_lastEntry_none (fun _ => true) hl).1, hb]
            rfl
          · rw [lastSome_cons, (lastSome_of_lastEntry_none p hl).2, good, if_pos hp, hb]
            rfl

/-- **Reading only the good entries** gives the same, if the last entry is good or has
the value they give. -/
theorem getD_lastSome_eq_good_iff (p : α → Bool) (f : α → Option β) (l : List α) (old : β) :
    (lastSome f l).getD old = (lastSome (good p f) l).getD old ↔
      ∀ a, lastEntry f l = some a →
        p a = true ∨ f a = some ((lastSome (good p f) l).getD old) := by
  cases hlast : lastEntry f l with
  | none =>
      obtain ⟨hall, hgood⟩ := lastSome_of_lastEntry_none p hlast
      rw [hall, hgood]
      exact iff_of_true rfl nofun
  | some a =>
      obtain ⟨b, hb, hall, hgood⟩ := lastSome_of_lastEntry hlast
      rw [hall, Option.getD_some]
      constructor
      · rintro heq _ ⟨⟩
        exact .inr (hb.trans (congrArg some heq))
      · intro h
        rcases h a rfl with ha | hsame
        · rw [hgood p ha]
          rfl
        · exact Option.some_injective _ (hb.symm.trans hsame)

end Entries

/-- A function of the last value. -/
theorem lastSome_map {γ : Type*} (g : β → γ) (f : α → Option β) (l : List α) :
    lastSome (fun a => (f a).map g) l = (lastSome f l).map g := by
  rw [lastSome, ← List.map_filterMap, List.getLast?_map]
  rfl

end LastValue
