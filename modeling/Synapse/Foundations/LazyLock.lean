import Mathlib.Logic.Basic

/-!
# A value behind a lock, made when it is first used

A lock that a panic poisons, and the value behind it, which the first one to get the lock
makes.  As long as nothing panics, whoever gets the lock finds what one value, made at the
start, would have become (`Holds`).
-/

namespace LazyLock

variable {M R : Type*}

/-- The value, if it has been made, and whether the lock is poisoned. -/
structure Locked (M : Type*) where
  value : Option M
  poisoned : Bool

/-- What becomes of a critical section. -/
inductive Outcome (R : Type*) where
  | returned (result : R)
  | panicked
  | refused

namespace Locked

def fresh : Locked M := ⟨none, false⟩

/-- A critical section, with the making of the value in front.  A panic is `none`. -/
def run (make : Option M) (body : M → Option (M × R)) (s : Locked M) : Locked M × Outcome R :=
  if s.poisoned then (s, .refused)
  else
    match s.value.or make with
    | none => (⟨none, true⟩, .panicked)
    | some m =>
        match body m with
        | none => (⟨some m, true⟩, .panicked)
        | some (m', result) => (⟨some m', false⟩, .returned result)

/-- What is found behind the lock. -/
structure Holds (make : Option M) (s : Locked M) (m : M) : Prop where
  poisoned : s.poisoned = false
  value : s.value.or make = some m

theorem holds_fresh {make : Option M} {m : M} (h : make = some m) :
    (fresh : Locked M).Holds make m := ⟨rfl, h⟩

/-- **A critical section works on the value it finds.** -/
theorem Holds.run {make : Option M} {s : Locked M} {m m' : M} {result : R}
    {body : M → Option (M × R)} (h : s.Holds make m) (hbody : body m = some (m', result)) :
    (s.run make body).1.Holds make m' ∧ (s.run make body).2 = .returned result := by
  have hrun : s.run make body = (⟨some m', false⟩, .returned result) := by
    rw [Locked.run, h.poisoned, h.value]
    dsimp only
    rw [hbody]
    rfl
  rw [hrun]
  exact ⟨⟨rfl, Option.some_or⟩, rfl⟩

end Locked

end LazyLock
