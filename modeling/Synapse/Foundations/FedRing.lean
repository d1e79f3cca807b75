import Synapse.Foundations.MaskRing

/-!
# A ring and the thread that empties it

A producer offers values to a `MaskRing`, and a consumer takes one value at a time
out of it and works on it before it takes the next.  The two run side by side.

No accepted value is lost, doubled or overtaken: what the ring has accepted is what
the consumer has done, followed by what it has in hand and by what waits
(`conserved_push`, `conserved_take`, `conserved_finish`).
-/

/-- The ring, the consumer's side of it, and what has been offered so far, with
whether the ring took it. -/
structure FedRing (α : Type*) (k : ℕ) where
  ring : MaskRing α k
  inHand : Option α
  done : List α
  offered : List (α × Bool)

namespace FedRing

variable {α : Type*} {k : ℕ}

/-- Nothing offered to an empty ring. -/
def empty (k : ℕ) (fill : α) : FedRing α k where
  ring := MaskRing.empty k fill
  inHand := none
  done := []
  offered := []

/-- The producer offers a value. -/
def push (s : FedRing α k) (x : α) : FedRing α k :=
  { s with ring := (s.ring.push x).2, offered := s.offered ++ [(x, (s.ring.push x).1)] }

/-- The consumer looks for a value, unless it has one in hand. -/
def take (s : FedRing α k) : Option (FedRing α k) :=
  match s.inHand with
  | some _ => none
  | none => some { s with ring := s.ring.pop.2, inHand := s.ring.pop.1 }

/-- The consumer is done with the value in hand. -/
def finish (s : FedRing α k) : Option (α × FedRing α k) :=
  s.inHand.map fun x => (x, { s with inHand := none, done := s.done ++ [x] })

/-- The values the ring has taken. -/
def accepted (s : FedRing α k) : List α := (s.offered.filter Prod.snd).map Prod.fst

/-- The values the ring has refused. -/
def refused (s : FedRing α k) : List α := (s.offered.filter fun o => !o.2).map Prod.fst

/-- What has been accepted is done, in hand or waiting, in this order. -/
def Conserved (s : FedRing α k) : Prop :=
  s.accepted = s.done ++ s.inHand.toList ++ s.ring.contents

/-! ## The ring's side -/

/-- A value goes to the end of what waits, or nowhere. -/
theorem contents_push (r : MaskRing α k) (x : α) :
    (r.push x).2.contents = r.contents ++ if (r.push x).1 then [x] else [] := by
  have hlt := r.size_lt
  rw [← r.length_contents] at hlt
  by_cases hfull : r.contents.length + 1 = 2 ^ k
  · simp [MaskRing.push_of_full hfull]
  · obtain ⟨haccepted, hcontents⟩ := MaskRing.push_of_lt (r := r) (by omega) x
    rw [hcontents, haccepted, if_pos rfl]

/-- What waits is what is taken and what waits then. -/
theorem contents_pop (r : MaskRing α k) : r.contents = r.pop.1.toList ++ r.pop.2.contents := by
  cases hcontents : r.contents with
  | nil => rw [MaskRing.pop_nil hcontents, hcontents]; rfl
  | cons x xs =>
      obtain ⟨hx, hxs⟩ := MaskRing.pop_cons hcontents
      rw [hx, hxs]
      rfl

/-! ## Steps -/

variable {s s' : FedRing α k} {x : α}

/-- A push is accepted as the ring says. -/
@[simp] theorem accepted_push : (s.push x).accepted =
    s.accepted ++ if (s.ring.push x).1 then [x] else [] := by
  unfold accepted push
  cases (s.ring.push x).1 <;> simp

/-- Otherwise it is refused. -/
@[simp] theorem refused_push : (s.push x).refused =
    s.refused ++ if (s.ring.push x).1 then [] else [x] := by
  unfold refused push
  cases (s.ring.push x).1 <;> simp

@[simp] theorem offered_push : (s.push x).offered.map Prod.fst = s.offered.map Prod.fst ++ [x] := by
  simp [push]

theorem offered_of_take (h : s.take = some s') : s'.offered = s.offered := by
  unfold take at h
  split at h
  · cases h
  · obtain rfl := Option.some_injective _ h
    rfl

theorem offered_of_finish (h : s.finish = some (x, s')) : s'.offered = s.offered := by
  obtain ⟨y, -, heq⟩ := Option.map_eq_some_iff.mp h
  obtain ⟨-, rfl⟩ := Prod.mk.inj heq
  rfl

/-- At the start nothing has been accepted. -/
theorem conserved_empty (fill : α) : (empty k fill).Conserved := by
  show [] = [] ++ [] ++ (MaskRing.empty k fill).contents
  rw [MaskRing.contents_empty]
  rfl

/-- An offer keeps the account. -/
theorem conserved_push (h : s.Conserved) (x : α) : (s.push x).Conserved := by
  unfold Conserved at h ⊢
  rw [accepted_push, h]
  show _ = s.done ++ s.inHand.toList ++ (s.ring.push x).2.contents
  rw [contents_push]
  simp only [List.append_assoc]

/-- So does taking a value. -/
theorem conserved_take (h : s.Conserved) (htake : s.take = some s') : s'.Conserved := by
  unfold take at htake
  cases hhand : s.inHand with
  | some y =>
      rw [hhand] at htake
      cases htake
  | none =>
      rw [hhand] at htake
      obtain rfl := Option.some_injective _ htake
      unfold Conserved at h ⊢
      show s.accepted = s.done ++ s.ring.pop.1.toList ++ s.ring.pop.2.contents
      rw [h, hhand, Option.toList_none, List.append_nil, contents_pop, List.append_assoc]

/-- And so does being done with it. -/
theorem conserved_finish (h : s.Conserved) (hfinish : s.finish = some (x, s')) :
    s'.Conserved := by
  obtain ⟨y, hhand, heq⟩ := Option.map_eq_some_iff.mp hfinish
  obtain ⟨rfl, rfl⟩ := Prod.mk.inj heq
  unfold Conserved at h ⊢
  show s.accepted = s.done ++ [y] ++ [] ++ s.ring.contents
  rw [h, hhand, List.append_nil]
  rfl

/-- The consumer only does what has been offered. -/
theorem Conserved.mem_offered (h : s.Conserved) {y : α}
    (hy : y ∈ s.done ++ s.inHand.toList) : y ∈ s.offered.map Prod.fst := by
  have haccepted : y ∈ s.accepted := by
    rw [h]
    exact List.mem_append_left _ hy
  obtain ⟨o, ho, rfl⟩ := List.mem_map.mp haccepted
  exact List.mem_map_of_mem (List.mem_of_mem_filter ho)

/-- Every offered value is accepted or refused. -/
theorem offered_perm (s : FedRing α k) :
    (s.accepted ++ s.refused).Perm (s.offered.map Prod.fst) := by
  rw [accepted, refused, ← List.map_append]
  exact (List.filter_append_perm Prod.snd s.offered).map Prod.fst

end FedRing
