import Mathlib

/-!
# Logs of numbered entries with marks

A log is a list; each entry has a number, and some entries are marks.  A log is
*closed* by `m` when its last mark is numbered `m` and no entry is numbered
above `m`.  Closing is what a writer does by appending a mark with a fresh
number, and it is undone by appending past it.

The three append lemmas are the whole theory: what closes a log after more
entries are appended depends on the appended part alone if it has a mark
(`closedBy_append_of_mark`), and on both parts by a comparison of numbers if it
has none (`closedBy_append_of_no_mark`).
-/

namespace MarkedLog

variable {α N : Type*}

/-- The number of the last mark. -/
def lastMark (mark : α → Bool) (num : α → N) (log : List α) : Option N :=
  (log.filter mark).getLast?.map num

/-- The last mark is numbered `m`, and nothing in the log is numbered above it. -/
structure ClosedBy [LE N] (mark : α → Bool) (num : α → N) (log : List α) (m : N) :
    Prop where
  lastMark_eq : lastMark mark num log = some m
  le : ∀ e ∈ log, num e ≤ m

section LastMark

variable (mark : α → Bool) (num : α → N)

@[simp] theorem lastMark_nil : lastMark mark num [] = none := rfl

/-- The later part of a log decides, unless it has no mark. -/
theorem lastMark_append (front back : List α) :
    lastMark mark num (front ++ back) =
      (lastMark mark num back).or (lastMark mark num front) := by
  rw [lastMark, List.filter_append, List.getLast?_append]
  cases h : (back.filter mark).getLast? <;> simp [lastMark, h]

theorem lastMark_concat_mark {e : α} (he : mark e = true) (log : List α) :
    lastMark mark num (log ++ [e]) = some (num e) := by
  simp [lastMark, he]

theorem lastMark_concat_other {e : α} (he : mark e = false) (log : List α) :
    lastMark mark num (log ++ [e]) = lastMark mark num log := by
  simp [lastMark, he]

theorem lastMark_eq_none_iff {log : List α} :
    lastMark mark num log = none ↔ ∀ e ∈ log, mark e = false := by
  simp [lastMark]

/-- The last mark is an entry of the log. -/
theorem exists_of_lastMark {log : List α} {m : N} (h : lastMark mark num log = some m) :
    ∃ e ∈ log, mark e = true ∧ num e = m := by
  obtain ⟨e, he, rfl⟩ := Option.map_eq_some_iff.mp h
  have hmem := List.mem_filter.mp (List.mem_of_getLast? he)
  exact ⟨e, hmem.1, hmem.2, rfl⟩

end LastMark

section Closed

variable [LinearOrder N] {mark : α → Bool} {num : α → N} {front back : List α} {m : N}

theorem ClosedBy.unique {m' : N} (h : ClosedBy mark num front m)
    (h' : ClosedBy mark num front m') : m = m' :=
  Option.some_injective _ (h.lastMark_eq.symm.trans h'.lastMark_eq)

theorem ClosedBy.ne_nil (h : ClosedBy mark num front m) : front ≠ [] := by
  rintro rfl
  simpa using h.lastMark_eq

/-- A log whose appended part has a mark is closed by that mark or not at all. -/
theorem closedBy_append_of_mark {j : N} (hback : lastMark mark num back = some j) :
    ClosedBy mark num (front ++ back) m ↔ m = j ∧ ∀ e ∈ front ++ back, num e ≤ j := by
  have hlast : lastMark mark num (front ++ back) = some j := by
    simp [lastMark_append, hback]
  constructor
  · rintro ⟨hm, hle⟩
    obtain rfl : j = m := Option.some_injective _ (hlast.symm.trans hm)
    exact ⟨rfl, hle⟩
  · rintro ⟨rfl, hle⟩
    exact ⟨hlast, hle⟩

/-- A closed log to which entries without a mark are appended stays closed as
long as none of them is numbered above the mark. -/
theorem closedBy_append_of_no_mark (hback : lastMark mark num back = none)
    (hfront : ClosedBy mark num front m) {m' : N} :
    ClosedBy mark num (front ++ back) m' ↔ m' = m ∧ ∀ e ∈ back, num e ≤ m := by
  have hlast : lastMark mark num (front ++ back) = some m := by
    simp [lastMark_append, hback, hfront.lastMark_eq]
  constructor
  · rintro ⟨hm, hle⟩
    obtain rfl : m = m' := Option.some_injective _ (hlast.symm.trans hm)
    exact ⟨rfl, fun e he => hle e (List.mem_append_right _ he)⟩
  · rintro ⟨rfl, hle⟩
    refine ⟨hlast, fun e he => ?_⟩
    rcases List.mem_append.mp he with hf | hb
    · exact hfront.le e hf
    · exact hle e hb

/-- A log without a mark is not closed. -/
theorem not_closedBy_of_no_mark (h : lastMark mark num front = none) :
    ¬ ClosedBy mark num front m := fun hc => by
  simpa [h] using hc.lastMark_eq

end Closed

end MarkedLog
