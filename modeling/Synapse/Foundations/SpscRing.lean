import Synapse.Foundations.ByteRecords
import Synapse.Foundations.MaskRing
import Synapse.Foundations.Runs

/-!
# The ring of one producer and one consumer, step by step

`MaskRing` takes a push or a pop as one step.  Here each is a sequence of loads and
stores, values are copied into and out of their slots byte by byte, and the steps of
the two sides interleave in any way.

The specification is a bounded queue (`BoundedQueue`) on which a call acts in one
step: a push that succeeds when it stores the head, one that fails when it has loaded
the tail, and pops the other way round.  `Holds` relates the two: the queue is what
lies between the indices, whatever the two sides have under way.

### What a side may know

Each side keeps its own index to itself and loads the other's.  What it has loaded is out of
date as soon as the other side goes on, but only in the harmless direction: the ring is at
least as empty as the producer thinks, and at least as full as the consumer thinks.  `Holds`
says this of each phase of a call, and so the proof has one case for every step of a side,
with the other side in any phase.

A value lies in its slot byte by byte, and the copying is a loop.  While it runs the slot is
half written, or half read; no invariant speaks of the slot of the producer until the head is
stored, and the consumer's slot is not touched before the tail is.  The atomics are
sequentially consistent here; that they need no more than acquire and release in the source is
outside the model.
-/

/-! ## Bounded queues -/

namespace BoundedQueue

variable {α : Type*}

/-- What a call has returned. -/
inductive Event (α : Type*) where
  | push (x : α) (accepted : Bool)
  | pop (result : Option α)

/-- The queue, oldest value first, before and after a call. -/
inductive Step (capacity : ℕ) : List α → Event α → List α → Prop
  | accept {queue x} (hfree : queue.length < capacity) :
      Step capacity queue (.push x true) (queue ++ [x])
  | refuse {queue x} (hfull : queue.length = capacity) :
      Step capacity queue (.push x false) queue
  | deliver {x rest} : Step capacity (x :: rest) (.pop (some x)) rest
  | nothing : Step capacity [] (.pop none) []

/-- The calls of a queue that was empty at the start, latest last. -/
inductive Run (capacity : ℕ) : List (Event α) → List α → Prop
  | nil : Run capacity [] []
  | snoc {events queue e queue'} (hrun : Run capacity events queue)
      (hstep : Step capacity queue e queue') : Run capacity (events ++ [e]) queue'

/-- The values whose push has returned true. -/
def pushed (events : List (Event α)) : List α :=
  events.filterMap fun
    | .push x true => some x
    | _ => none

/-- The values that have been popped. -/
def popped (events : List (Event α)) : List α :=
  events.filterMap fun
    | .pop result => result
    | _ => none

/-- In a run of the queue what is left is what has been pushed and not popped, in order. -/
theorem Run.pushed_eq {capacity : ℕ} {events : List (Event α)} {queue : List α}
    (h : Run capacity events queue) : pushed events = popped events ++ queue := by
  induction h with
  | nil => rfl
  | snoc hrun hstep ih =>
      rw [pushed, popped, List.filterMap_append, List.filterMap_append]
      change pushed _ ++ _ = popped _ ++ _ ++ _
      rw [ih]
      cases hstep <;> simp

/-- And it fits. -/
theorem Run.length_le {capacity : ℕ} {events : List (Event α)} {queue : List α}
    (h : Run capacity events queue) : queue.length ≤ capacity := by
  induction h with
  | nil => exact Nat.zero_le _
  | snoc hrun hstep ih =>
      cases hstep with
      | accept hfree =>
          rw [List.length_append]
          exact hfree
      | refuse hfull => exact hfull.le
      | deliver => exact (Nat.le_succ _).trans ih
      | nothing => exact Nat.zero_le _

end BoundedQueue

/-! ## The ring -/

namespace SpscRing

open ByteRecords

/-- How far the producer has come with a push. -/
inductive Producer (α : Type*) where
  | idle
  | called (x : α)
  | loadedHead (x : α) (head : ℕ)
  | writing (x : α) (head done : ℕ)

/-- How far the consumer has come with a pop. -/
inductive Consumer where
  | idle
  | called
  | loadedTail (tail : ℕ)
  | copying (tail : ℕ) (copied : Bytes)

end SpscRing

/-- The bytes of the slots, the two indices, both sides, and what the calls so far
have returned. -/
structure SpscRing (α : Type*) where
  memory : ℕ → ℕ → UInt8
  head : ℕ
  tail : ℕ
  producer : SpscRing.Producer α
  consumer : SpscRing.Consumer
  events : List (BoundedQueue.Event α)

namespace SpscRing

open ByteRecords BoundedQueue Runs

variable {α : Type*}

/-- A call begins, or the side that has one under way takes its next step. -/
inductive Action (α : Type*) where
  | push (x : α)
  | produce
  | pop
  | consume

/-- An empty ring on some memory. -/
def create (memory : ℕ → ℕ → UInt8) : SpscRing α where
  memory := memory
  head := 0
  tail := 0
  producer := .idle
  consumer := .idle
  events := []

/-- The values whose push has stored the head. -/
def pushed (s : SpscRing α) : List α := BoundedQueue.pushed s.events

/-- The values whose pop has stored the tail. -/
def popped (s : SpscRing α) : List α := BoundedQueue.popped s.events

section Steps

variable (c : RecordCodec α) (k : ℕ)

/-- The next step of a push. -/
def produce (s : SpscRing α) : Producer α → Option (SpscRing α)
  | .idle => none
  | .called x => some { s with producer := .loadedHead x s.head }
  | .loadedHead x head =>
      if MaskRing.next k head = s.tail then
        some { s with producer := .idle, events := s.events ++ [.push x false] }
      else some { s with producer := .writing x head 0 }
  | .writing x head done =>
      match (c.encode x)[done]? with
      | some byte =>
          some { s with
            memory := Function.update s.memory head (Function.update (s.memory head) done byte)
            producer := .writing x head (done + 1) }
      | none =>
          some { s with
            head := MaskRing.next k head
            producer := .idle
            events := s.events ++ [.push x true] }

/-- The next step of a pop. -/
def consume (s : SpscRing α) : Consumer → Option (SpscRing α)
  | .idle => none
  | .called => some { s with consumer := .loadedTail s.tail }
  | .loadedTail tail =>
      if tail = s.head then
        some { s with consumer := .idle, events := s.events ++ [.pop none] }
      else some { s with consumer := .copying tail [] }
  | .copying tail copied =>
      if copied.length < c.size then
        some { s with consumer := .copying tail (copied ++ [s.memory tail copied.length]) }
      else
        some { s with
          tail := MaskRing.next k tail
          consumer := .idle
          events := s.events ++ [.pop (some (c.decode copied))] }

/-- A side starts a call when it has none under way. -/
def step (s : SpscRing α) : Action α → Option (SpscRing α)
  | .push x =>
      match s.producer with
      | .idle => some { s with producer := .called x }
      | _ => none
  | .produce => s.produce c k s.producer
  | .pop =>
      match s.consumer with
      | .idle => some { s with consumer := .called }
      | _ => none
  | .consume => s.consume c k s.consumer

/-! ## What is asked -/

/-- The values that lie between the indices, oldest first. -/
def contents (s : SpscRing α) : List α :=
  (List.range ((s.head + 2 ^ k - s.tail) % 2 ^ k)).map fun (i : ℕ) =>
    c.decode ((List.range c.size).map (s.memory ((s.tail + i) % 2 ^ k)))

/-- The ring is a queue bounded at `2 ^ k - 1`. -/
structure IsQueue (s : SpscRing α) : Prop where
  refines : Run (2 ^ k - 1) s.events (s.pushed.drop s.popped.length)
  prefix_pushed : s.popped <+: s.pushed
  refused_full : ∀ a s' x, s.step c k a = some s' → s'.events = s.events ++ [.push x false] →
    s.pushed.length = s.popped.length + (2 ^ k - 1)
  nothing_empty : ∀ a s', s.step c k a = some s' → s'.events = s.events ++ [.pop none] →
    s.pushed.length = s.popped.length
  slots_apart : ∀ x head done tail copied, s.producer = .writing x head done →
    s.consumer = .copying tail copied → head ≠ tail
  stored : s.producer = .idle → s.consumer = .idle →
    s.contents c k = s.pushed.drop s.popped.length ∧
      ((s.pushed.length : ℤ) - s.popped.length = ((s.head : ℤ) - s.tail) % 2 ^ k ∧
        s.pushed.length - s.popped.length ≤ 2 ^ k - 1)

/-! ## The queue between the indices -/

/-- What the producer relies on: its head is the head of the ring, from which on a
slot is free, and the bytes it has written are there. -/
def ProducerReady (memory : ℕ → ℕ → UInt8) (head : ℕ) (queue : List α) : Producer α → Prop
  | .idle | .called _ => True
  | .loadedHead _ loaded => loaded = head
  | .writing x loaded done => loaded = head ∧ queue.length < 2 ^ k - 1 ∧
      ∀ j < done, ∀ byte, (c.encode x)[j]? = some byte → memory head j = byte

/-- What the consumer relies on: its tail is the tail of the ring, and it has copied
bytes of the oldest value. -/
def ConsumerReady (tail : ℕ) (queue : List α) : Consumer → Prop
  | .idle | .called => True
  | .loadedTail loaded => loaded = tail
  | .copying loaded copied => loaded = tail ∧ ∃ x, queue.head? = some x ∧ copied <+: c.encode x

/-- The queue is what lies between the indices. -/
structure Holds (s : SpscRing α) (queue : List α) : Prop where
  run : Run (2 ^ k - 1) s.events queue
  tail_lt : s.tail < 2 ^ k
  head_eq : s.head = (s.tail + queue.length) % 2 ^ k
  stored : ∀ i x, queue[i]? = some x → ∀ j byte, (c.encode x)[j]? = some byte →
    s.memory ((s.tail + i) % 2 ^ k) j = byte
  producer : ProducerReady c k s.memory s.head queue s.producer
  consumer : ConsumerReady c s.tail queue s.consumer

end Steps

/-! ### Index arithmetic -/

variable {c : RecordCodec α} {k : ℕ}

/-- Slots less than a turn apart are distinct. -/
theorem slot_injective {tail i j : ℕ} (hi : i < 2 ^ k) (hj : j < 2 ^ k)
    (h : (tail + i) % 2 ^ k = (tail + j) % 2 ^ k) : i = j := by
  have hmod : i % 2 ^ k = j % 2 ^ k := Nat.ModEq.add_left_cancel' tail h
  rwa [Nat.mod_eq_of_lt hi, Nat.mod_eq_of_lt hj] at hmod

namespace Holds

variable {s s' : SpscRing α} {queue : List α}

/-- One slot stays free. -/
theorem length_lt (h : s.Holds c k queue) : queue.length < 2 ^ k := by
  have hle := h.run.length_le
  have hpos : 0 < 2 ^ k := by positivity
  omega

/-- The slot at the head holds no value of the queue. -/
theorem slot_ne_head (h : s.Holds c k queue) {i : ℕ} (hi : i < queue.length) :
    (s.tail + i) % 2 ^ k ≠ s.head := by
  intro heq
  rw [h.head_eq] at heq
  exact hi.ne (slot_injective (hi.trans h.length_lt) h.length_lt heq)

/-- The tail is the place of the first value of the queue. -/
theorem tail_eq (h : s.Holds c k queue) : s.tail = (s.tail + 0) % 2 ^ k :=
  (Nat.mod_eq_of_lt h.tail_lt).symm

/-- The producer's test: the ring is full. -/
theorem next_head_eq_tail_iff (h : s.Holds c k queue) :
    MaskRing.next k s.head = s.tail ↔ queue.length = 2 ^ k - 1 := by
  have hlt := h.length_lt
  rw [MaskRing.next_eq_mod, h.head_eq, Nat.mod_add_mod, Nat.add_assoc]
  constructor
  · intro heq
    by_contra hne
    exact Nat.succ_ne_zero _ (slot_injective (by omega) (by omega) (heq.trans h.tail_eq))
  · intro heq
    rw [show queue.length + 1 = 2 ^ k by omega, Nat.add_mod_right]
    exact h.tail_eq.symm

/-- The consumer's test: the ring is empty. -/
theorem tail_eq_head_iff (h : s.Holds c k queue) : s.tail = s.head ↔ queue = [] := by
  rw [← List.length_eq_zero_iff, h.head_eq]
  constructor
  · intro heq
    exact (slot_injective (by positivity) h.length_lt (h.tail_eq.symm.trans heq)).symm
  · intro heq
    rw [heq]
    exact h.tail_eq

/-- The oldest value lies at the tail. -/
theorem memory_tail (h : s.Holds c k queue) {x : α} (hx : queue.head? = some x) {j : ℕ}
    {byte : UInt8} (hbyte : (c.encode x)[j]? = some byte) : s.memory s.tail j = byte := by
  rw [h.tail_eq]
  exact h.stored 0 x (by rw [← List.head?_eq_getElem?, hx]) j byte hbyte

/-! ### One step -/

/-- Writing a byte of the slot at the head. -/
theorem write (h : s.Holds c k queue) {x : α} {head done : ℕ} {byte : UInt8}
    (hproducer : s.producer = .writing x head done) (hbyte : (c.encode x)[done]? = some byte) :
    Holds c k { s with
      memory := Function.update s.memory head (Function.update (s.memory head) done byte)
      producer := .writing x head (done + 1) } queue := by
  have hready := h.producer
  rw [hproducer] at hready
  obtain ⟨rfl, hfree, hwritten⟩ := hready
  refine ⟨h.run, h.tail_lt, h.head_eq, fun i y hy j b hb => ?_, ⟨rfl, hfree, fun j hj b hb => ?_⟩,
    h.consumer⟩
  · have hi : i < queue.length := (List.getElem?_eq_some_iff.mp hy).1
    change Function.update s.memory s.head _ ((s.tail + i) % 2 ^ k) j = b
    rw [Function.update_of_ne (h.slot_ne_head hi)]
    exact h.stored i y hy j b hb
  · change Function.update s.memory s.head _ s.head j = b
    rw [Function.update_self]
    rcases Nat.lt_succ_iff_lt_or_eq.mp hj with hlt | rfl
    · rw [Function.update_of_ne hlt.ne]
      exact hwritten j hlt b hb
    · rw [Function.update_self]
      exact Option.some_injective _ (hbyte.symm.trans hb)

/-- Storing the head appends the value. -/
theorem accept (h : s.Holds c k queue) {x : α} {head done : ℕ}
    (hproducer : s.producer = .writing x head done) (hdone : (c.encode x)[done]? = none) :
    Holds c k { s with
      head := MaskRing.next k head
      producer := .idle
      events := s.events ++ [.push x true] } (queue ++ [x]) := by
  have hready := h.producer
  rw [hproducer] at hready
  obtain ⟨rfl, hfree, hwritten⟩ := hready
  refine ⟨h.run.snoc (.accept hfree), h.tail_lt, ?_, fun i y hy j b hb => ?_, trivial, ?_⟩
  · change MaskRing.next k s.head = (s.tail + (queue ++ [x]).length) % 2 ^ k
    rw [MaskRing.next_eq_mod, h.head_eq, Nat.mod_add_mod, List.length_append, Nat.add_assoc]
    rfl
  · rcases Nat.lt_or_ge i queue.length with hi | hi
    · rw [List.getElem?_append_left hi] at hy
      exact h.stored i y hy j b hb
    · rw [List.getElem?_append_right hi, List.getElem?_singleton] at hy
      split at hy
      · -- the new value, whose bytes have all been written
        obtain rfl := Option.some_injective _ hy
        have hlast : i = queue.length := by omega
        have hj : j < done := by
          have hlength := List.getElem?_eq_none_iff.mp hdone
          exact (List.getElem?_eq_some_iff.mp hb).1.trans_le hlength
        rw [hlast, ← h.head_eq]
        exact hwritten j hj b hb
      · cases hy
  · have hconsumer := h.consumer
    cases hphase : s.consumer with
    | idle | called => trivial
    | loadedTail loaded =>
        rw [hphase] at hconsumer
        exact hconsumer
    | copying loaded copied =>
        rw [hphase] at hconsumer
        -- the value that a pop copies stays the oldest one
        obtain ⟨hloaded, y, hy, hcopied⟩ := hconsumer
        refine ⟨hloaded, y, ?_, hcopied⟩
        rw [List.head?_append, hy]
        rfl

/-- The producer's next step keeps the invariant, and moves the queue if it ends a call. -/
theorem produce (h : s.Holds c k queue) (hstep : s.produce c k s.producer = some s') :
    ∃ queue', s'.Holds c k queue' := by
  have hready := h.producer
  cases hphase : s.producer with
  | idle =>
      rw [hphase] at hstep
      cases hstep
  | called x =>
      rw [hphase] at hstep
      obtain rfl := Option.some_injective _ hstep
      exact ⟨queue, h.run, h.tail_lt, h.head_eq, h.stored, rfl, h.consumer⟩
  | loadedHead x head =>
      rw [hphase] at hstep hready
      obtain rfl : head = s.head := hready
      rw [SpscRing.produce] at hstep
      split at hstep
      · rename_i hfull
        obtain rfl := Option.some_injective _ hstep
        exact ⟨queue, h.run.snoc (.refuse (h.next_head_eq_tail_iff.mp hfull)), h.tail_lt,
          h.head_eq, h.stored, trivial, h.consumer⟩
      · rename_i hfree
        obtain rfl := Option.some_injective _ hstep
        have hlt : queue.length < 2 ^ k - 1 :=
          h.run.length_le.lt_of_ne (mt h.next_head_eq_tail_iff.mpr hfree)
        exact ⟨queue, h.run, h.tail_lt, h.head_eq, h.stored, ⟨rfl, hlt, nofun⟩, h.consumer⟩
  | writing x head done =>
      rw [hphase, SpscRing.produce] at hstep
      split at hstep
      · rename_i byte hbyte
        obtain rfl := Option.some_injective _ hstep
        exact ⟨queue, h.write hphase hbyte⟩
      · rename_i hdone
        obtain rfl := Option.some_injective _ hstep
        exact ⟨queue ++ [x], h.accept hphase hdone⟩

/-- Copying a byte of the slot at the tail. -/
theorem copy (h : s.Holds c k queue) {tail : ℕ} {copied : Bytes}
    (hconsumer : s.consumer = .copying tail copied) (hlt : copied.length < c.size) :
    Holds c k { s with consumer := .copying tail (copied ++ [s.memory tail copied.length]) }
      queue := by
  have hready := h.consumer
  rw [hconsumer] at hready
  obtain ⟨rfl, x, hx, hcopied⟩ := hready
  refine ⟨h.run, h.tail_lt, h.head_eq, h.stored, h.producer, rfl, x, hx, ?_⟩
  have hlength : copied.length < (c.encode x).length := by
    rw [c.length_encode]
    exact hlt
  rw [h.memory_tail hx (List.getElem?_eq_getElem hlength)]
  exact List.concat_get_prefix hcopied hlength

/-- A pop that has copied a whole slot has the bytes of the oldest value. -/
theorem copied_eq {x : α} {rest : List α} (h : s.Holds c k (x :: rest)) {tail : ℕ}
    {copied : Bytes} (hconsumer : s.consumer = .copying tail copied)
    (hall : ¬ copied.length < c.size) : copied = c.encode x := by
  have hready := h.consumer
  rw [hconsumer] at hready
  obtain ⟨-, y, hy, hcopied⟩ := hready
  obtain rfl := Option.some_injective _ hy
  refine hcopied.eq_of_length_le ?_
  rw [c.length_encode]
  exact Nat.le_of_not_lt hall

/-- Storing the tail delivers the oldest value. -/
theorem deliver {x : α} {rest : List α} (h : s.Holds c k (x :: rest)) {tail : ℕ}
    {copied : Bytes} (hconsumer : s.consumer = .copying tail copied)
    (hall : ¬ copied.length < c.size) :
    Holds c k { s with
      tail := MaskRing.next k tail
      consumer := .idle
      events := s.events ++ [.pop (some (c.decode copied))] } rest := by
  have hvalue := h.copied_eq hconsumer hall
  have hready := h.consumer
  rw [hconsumer] at hready
  obtain ⟨rfl, -⟩ := hready
  refine ⟨?_, MaskRing.next_lt _, ?_, fun i y hy j b hb => ?_, ?_, trivial⟩
  · rw [hvalue, c.decode_encode]
    exact h.run.snoc .deliver
  · change s.head = (MaskRing.next k s.tail + rest.length) % 2 ^ k
    rw [MaskRing.next_eq_mod, Nat.mod_add_mod, h.head_eq, List.length_cons, Nat.add_assoc,
      Nat.add_comm 1]
  · change s.memory ((MaskRing.next k s.tail + i) % 2 ^ k) j = b
    rw [MaskRing.next_eq_mod, Nat.mod_add_mod, Nat.add_assoc, Nat.add_comm 1]
    exact h.stored (i + 1) y hy j b hb
  · have hproducer := h.producer
    cases hphase : s.producer with
    | idle | called => trivial
    | loadedHead y loaded =>
        rw [hphase] at hproducer
        exact hproducer
    | writing y loaded done =>
        rw [hphase] at hproducer
        -- a push that has found the ring not full finds more room now
        obtain ⟨hloaded, hfree, hwritten⟩ := hproducer
        exact ⟨hloaded, (Nat.lt_succ_self _).trans hfree, hwritten⟩

/-- So does the consumer's. -/
theorem consume (h : s.Holds c k queue) (hstep : s.consume c k s.consumer = some s') :
    ∃ queue', s'.Holds c k queue' := by
  have hready := h.consumer
  cases hphase : s.consumer with
  | idle =>
      rw [hphase] at hstep
      cases hstep
  | called =>
      rw [hphase] at hstep
      obtain rfl := Option.some_injective _ hstep
      exact ⟨queue, h.run, h.tail_lt, h.head_eq, h.stored, h.producer, rfl⟩
  | loadedTail tail =>
      rw [hphase] at hstep hready
      obtain rfl : tail = s.tail := hready
      rw [SpscRing.consume] at hstep
      split at hstep
      · rename_i hempty
        obtain rfl := Option.some_injective _ hstep
        obtain rfl := h.tail_eq_head_iff.mp hempty
        exact ⟨[], h.run.snoc .nothing, h.tail_lt, h.head_eq, h.stored, h.producer, trivial⟩
      · rename_i hsome
        obtain rfl := Option.some_injective _ hstep
        obtain ⟨x, rest, rfl⟩ :=
          List.exists_cons_of_ne_nil (mt h.tail_eq_head_iff.mpr hsome)
        exact ⟨x :: rest, h.run, h.tail_lt, h.head_eq, h.stored, h.producer, rfl, x, rfl,
          List.nil_prefix⟩
  | copying tail copied =>
      rw [hphase, SpscRing.consume] at hstep
      split at hstep
      · rename_i hlt
        obtain rfl := Option.some_injective _ hstep
        exact ⟨queue, h.copy hphase hlt⟩
      · rename_i hall
        obtain rfl := Option.some_injective _ hstep
        rw [hphase] at hready
        obtain ⟨-, x, hx, -⟩ := hready
        obtain ⟨rest, rfl⟩ := List.head?_eq_some_iff.mp hx
        exact ⟨rest, h.deliver hphase hall⟩

/-- The step lemma. -/
theorem step {a : Action α} (h : s.Holds c k queue) (hstep : s.step c k a = some s') :
    ∃ queue', s'.Holds c k queue' := by
  cases a with
  | push x =>
      rw [SpscRing.step] at hstep
      split at hstep
      · obtain rfl := Option.some_injective _ hstep
        exact ⟨queue, h.run, h.tail_lt, h.head_eq, h.stored, trivial, h.consumer⟩
      · cases hstep
  | produce => exact h.produce hstep
  | pop =>
      rw [SpscRing.step] at hstep
      split at hstep
      · obtain rfl := Option.some_injective _ hstep
        exact ⟨queue, h.run, h.tail_lt, h.head_eq, h.stored, h.producer, trivial⟩
      · cases hstep
  | consume => exact h.consume hstep

/-! ### What the queue says of the ring -/

/-- What has been pushed is what has been popped and what is in the queue. -/
theorem pushed_eq (h : s.Holds c k queue) : s.pushed = s.popped ++ queue := h.run.pushed_eq

/-- In numbers. -/
theorem length_pushed (h : s.Holds c k queue) :
    s.pushed.length = s.popped.length + queue.length := by
  rw [h.pushed_eq, List.length_append]

/-- So the queue can be computed from the two sides' records. -/
theorem queue_eq (h : s.Holds c k queue) : s.pushed.drop s.popped.length = queue := by
  rw [h.pushed_eq, List.drop_left]

/-- The last call to return has made a step of the queue. -/
theorem returned (h : s.Holds c k queue) {a : Action α} (hstep : s.step c k a = some s')
    {e : Event α} (he : s'.events = s.events ++ [e]) :
    ∃ queue', BoundedQueue.Step (2 ^ k - 1) queue e queue' := by
  obtain ⟨queue', hrun, -⟩ := h.step hstep
  rw [he] at hrun
  generalize hevents : s.events ++ [e] = events at hrun
  cases hrun with
  | nil => exact absurd hevents (List.append_ne_nil_of_right_ne_nil _ (List.cons_ne_nil _ _))
  | snoc hrun hlast =>
      obtain ⟨hfront, hsingle⟩ := List.append_inj' hevents rfl
      obtain rfl := List.singleton_inj.mp hsingle
      have hqueue := h.run.pushed_eq
      rw [hfront, hrun.pushed_eq, List.append_cancel_left_eq] at hqueue
      rw [← hqueue]
      exact ⟨_, hlast⟩

/-- And its length from the two indices. -/
theorem size_eq (h : s.Holds c k queue) : (s.head + 2 ^ k - s.tail) % 2 ^ k = queue.length := by
  have hlt := h.length_lt
  have htail := h.tail_lt
  rw [h.head_eq]
  rcases Nat.lt_or_ge (s.tail + queue.length) (2 ^ k) with hsmall | hwrap
  · rw [Nat.mod_eq_of_lt hsmall, Nat.add_assoc, Nat.add_sub_cancel_left, Nat.add_mod_right,
      Nat.mod_eq_of_lt hlt]
  · have hhead : (s.tail + queue.length) % 2 ^ k = s.tail + queue.length - 2 ^ k := by
      rw [Nat.mod_eq_sub_mod hwrap]
      exact Nat.mod_eq_of_lt (by omega)
    have hsize : s.tail + queue.length - 2 ^ k + 2 ^ k - s.tail = queue.length := by omega
    rw [hhead, hsize, Nat.mod_eq_of_lt hlt]

/-- Also as the source computes it, with a difference that wraps. -/
theorem distance_eq (h : s.Holds c k queue) :
    ((s.head : ℤ) - s.tail) % 2 ^ k = queue.length := by
  rw [h.head_eq, Int.natCast_mod, Int.natCast_pow, Nat.cast_ofNat, Int.emod_sub_emod,
    Int.natCast_add, add_sub_cancel_left]
  exact Int.emod_eq_of_lt (Int.natCast_nonneg _) (by exact_mod_cast h.length_lt)

/-- The slot of a value holds its bytes. -/
theorem slot_eq (h : s.Holds c k queue) {i : ℕ} (hi : i < queue.length) :
    (List.range c.size).map (s.memory ((s.tail + i) % 2 ^ k)) = c.encode queue[i] := by
  have hlength := c.length_encode queue[i]
  refine List.ext_getElem (by simp [hlength]) fun j _ hj => ?_
  rw [List.getElem_map, List.getElem_range]
  exact h.stored i _ (List.getElem?_eq_getElem hi) j _ (List.getElem?_eq_getElem hj)

/-- The queue is what lies in the slots from the tail to the head. -/
theorem contents_eq (h : s.Holds c k queue) : s.contents c k = queue := by
  rw [contents, h.size_eq]
  refine List.ext_getElem (by simp) fun i _ hi => ?_
  rw [List.getElem_map, List.getElem_range, h.slot_eq hi, c.decode_encode]

/-- All of it together. -/
theorem isQueue (h : s.Holds c k queue) : s.IsQueue c k where
  refines := h.queue_eq.symm ▸ h.run
  prefix_pushed := h.pushed_eq ▸ List.prefix_append _ _
  refused_full a s' x hstep he := by
    obtain ⟨queue', hlast⟩ := h.returned hstep he
    rw [h.length_pushed]
    cases hlast with
    | refuse hfull => rw [hfull]
  nothing_empty a s' hstep he := by
    obtain ⟨queue', hlast⟩ := h.returned hstep he
    rw [h.length_pushed]
    cases hlast with
    | nothing => rfl
  slots_apart x head done tail copied hproducer hconsumer := by
    have hwriting := h.producer
    have hcopying := h.consumer
    rw [hproducer] at hwriting
    rw [hconsumer] at hcopying
    obtain ⟨rfl, -, -⟩ := hwriting
    obtain ⟨rfl, y, hy, -⟩ := hcopying
    obtain ⟨rest, rfl⟩ := List.head?_eq_some_iff.mp hy
    rw [h.tail_eq]
    exact (h.slot_ne_head (Nat.succ_pos _)).symm
  stored _ _ := by
    refine ⟨h.contents_eq.trans h.queue_eq.symm, ?_, ?_⟩
    · rw [h.distance_eq, h.length_pushed, Int.natCast_add, add_sub_cancel_left]
    · rw [h.length_pushed, Nat.add_sub_cancel_left]
      exact h.run.length_le

end Holds

/-- A new ring holds the empty queue, whatever its memory holds. -/
theorem holds_create (memory : ℕ → ℕ → UInt8) : (create memory : SpscRing α).Holds c k [] where
  run := .nil
  tail_lt := by positivity
  head_eq := (Nat.zero_mod _).symm
  stored := nofun
  producer := trivial
  consumer := trivial

/-- At every point of a run the ring holds some queue. -/
theorem exists_holds_of_exec {memory : ℕ → ℕ → UInt8} {actions : List (Action α)}
    {s : SpscRing α} (h : exec (step c k) (create memory) actions = some s) :
    ∃ queue, s.Holds c k queue := by
  have hstep : ∀ (s : SpscRing α) (a : Action α) (s' : SpscRing α),
      (∃ queue, s.Holds c k queue) → s.step c k a = some s' → ∃ queue, s'.Holds c k queue :=
    fun _ _ _ ⟨_, hs⟩ ha => hs.step ha
  exact invariant_of_exec (step c k) hstep ⟨[], holds_create memory⟩ h

/-- **The ring is a bounded queue**, at every point of every interleaving. -/
theorem isQueue_of_exec {memory : ℕ → ℕ → UInt8} {actions : List (Action α)} {s : SpscRing α}
    (h : exec (step c k) (create memory) actions = some s) : s.IsQueue c k := by
  obtain ⟨queue, hqueue⟩ := exists_holds_of_exec h
  exact hqueue.isQueue

/-! ## Calls that run alone

The queue says what a call may answer.  While the other side takes no step, a push on a ring
with room does answer true, and a pop delivers what is there. -/

/-- A push without a step of the consumer in between. -/
def pushAlone (c : RecordCodec α) (x : α) : List (Action α) :=
  .push x :: List.replicate (c.size + 3) .produce

/-- What is left of a pop that has loaded the tail. -/
def restOfPop (c : RecordCodec α) : List (Action α) := List.replicate (c.size + 2) .consume

section Alone

variable {s : SpscRing α} {queue : List α}

/-- A push that has found room writes what is left of its value, and stores the head. -/
theorem exec_writing (h : s.Holds c k queue) {x : α} {head done n : ℕ}
    (hproducer : s.producer = .writing x head done) (hdone : done + n = c.size) :
    ∃ s', exec (step c k) s (List.replicate (n + 1) .produce) = some s' ∧
      s'.Holds c k (queue ++ [x]) ∧ s'.events = s.events ++ [.push x true] ∧
      s'.consumer = s.consumer := by
  induction n generalizing s done with
  | zero =>
      have hnone : (c.encode x)[done]? = none := by
        rw [List.getElem?_eq_none_iff, c.length_encode]
        exact hdone.ge
      have hstep : s.step c k .produce = some { s with
          head := MaskRing.next k head
          producer := .idle
          events := s.events ++ [.push x true] } := by
        rw [step, hproducer, produce, hnone]
      refine ⟨_, ?_, h.accept hproducer hnone, rfl, rfl⟩
      rw [List.replicate_one, exec, hstep]
      rfl
  | succ n ih =>
      have hlt : done < (c.encode x).length := by
        rw [c.length_encode]
        omega
      have hbyte := List.getElem?_eq_getElem hlt
      have hstep := congrArg (s.produce c k) hproducer
      rw [produce, hbyte] at hstep
      obtain ⟨s', hexec, hholds, hevents, hconsumer⟩ :=
        ih (h.write hproducer hbyte) rfl (by omega)
      refine ⟨s', ?_, hholds, hevents, hconsumer⟩
      rw [List.replicate_succ, exec, step, hstep]
      exact hexec

/-- **A push by itself** on a ring with room returns true, and its value is the last. -/
theorem exec_pushAlone (h : s.Holds c k queue) (hidle : s.producer = .idle)
    (hroom : queue.length < 2 ^ k - 1) (x : α) :
    ∃ s', exec (step c k) s (pushAlone c x) = some s' ∧ s'.Holds c k (queue ++ [x]) ∧
      s'.events = s.events ++ [.push x true] ∧ s'.consumer = s.consumer := by
  have hfree : ¬ MaskRing.next k s.head = s.tail := mt h.next_head_eq_tail_iff.mp hroom.ne
  have hwriting : Holds c k { s with producer := .writing x s.head 0 } queue :=
    ⟨h.run, h.tail_lt, h.head_eq, h.stored, ⟨rfl, hroom, nofun⟩, h.consumer⟩
  obtain ⟨s', hexec, hrest⟩ := exec_writing hwriting rfl (Nat.zero_add c.size)
  refine ⟨s', ?_, hrest⟩
  have hpush : s.step c k (.push x) = some { s with producer := .called x } := by
    rw [step, hidle]
  rw [pushAlone, exec, hpush, Option.bind_some, List.replicate_succ, exec]
  change exec (step c k) { s with producer := .loadedHead x s.head } _ = _
  rw [List.replicate_succ, exec, step, produce, if_neg hfree]
  exact hexec

/-- A pop that has found a value copies what is left of it, and stores the tail. -/
theorem exec_copying {x : α} {rest : List α} (h : s.Holds c k (x :: rest)) {tail n : ℕ}
    {copied : Bytes} (hconsumer : s.consumer = .copying tail copied)
    (hleft : copied.length + n = c.size) :
    ∃ s', exec (step c k) s (List.replicate (n + 1) .consume) = some s' ∧
      s'.Holds c k rest ∧ s'.events = s.events ++ [.pop (some x)] := by
  induction n generalizing s copied with
  | zero =>
      have hall : ¬ copied.length < c.size := hleft.ge.not_gt
      have hstep := congrArg (s.consume c k) hconsumer
      rw [consume, if_neg hall] at hstep
      refine ⟨_, ?_, h.deliver hconsumer hall, ?_⟩
      · rw [List.replicate_one, exec, step, hstep]
        rfl
      · rw [h.copied_eq hconsumer hall, c.decode_encode]
  | succ n ih =>
      have hlt : copied.length < c.size := by omega
      have hstep := congrArg (s.consume c k) hconsumer
      rw [consume, if_pos hlt] at hstep
      obtain ⟨s', hexec, hdelivered⟩ := ih (h.copy hconsumer hlt) rfl (by
        rw [List.length_append, List.length_singleton]
        omega)
      refine ⟨s', ?_, hdelivered⟩
      rw [List.replicate_succ, exec, step, hstep]
      exact hexec

/-- **A pop by itself** delivers the oldest value, also one that has come since it loaded the
tail. -/
theorem exec_restOfPop {x : α} {rest : List α} (h : s.Holds c k (x :: rest)) {tail : ℕ}
    (hconsumer : s.consumer = .loadedTail tail) :
    ∃ s', exec (step c k) s (restOfPop c) = some s' ∧ s'.Holds c k rest ∧
      s'.events = s.events ++ [.pop (some x)] := by
  have hready := h.consumer
  rw [hconsumer] at hready
  obtain rfl : tail = s.tail := hready
  have hsome : ¬ s.tail = s.head := mt h.tail_eq_head_iff.mp (List.cons_ne_nil _ _)
  have hcopying : Holds c k { s with consumer := .copying s.tail [] } (x :: rest) :=
    ⟨h.run, h.tail_lt, h.head_eq, h.stored, h.producer, rfl, x, rfl, List.nil_prefix⟩
  obtain ⟨s', hexec, hdelivered⟩ := exec_copying hcopying rfl (Nat.zero_add c.size)
  refine ⟨s', ?_, hdelivered⟩
  have hstep := congrArg (s.consume c k) hconsumer
  rw [consume, if_neg hsome] at hstep
  rw [restOfPop, List.replicate_succ, exec, step, hstep]
  exact hexec

end Alone

end SpscRing
