import Synapse.Atomic.Batching
import Synapse.Foundations.Calls
import Synapse.Foundations.Runs

/-!
# Concurrent `write` calls

A call draws its number first and takes the lock of the buffer later.  Here any
number of calls do so in any order, and every open of the file succeeds.

The log, on disk and buffered, is what the critical sections have appended, in the
order of the critical sections (`log_entered`).  So it always holds every entry once
(`Logged`).  It holds them in the order of their numbers if the calls take the lock
in the order in which they have drawn (`InTurn`).

### Number first, lock later

The number of an entry is drawn with `fetch_add` outside the lock.  Two calls may therefore
take the lock in the other order, and then the log is not sorted although no entry is missing.
Both facts are in one invariant: `Logged` says which numbers are in the log and which are
still on their way, without an order, and the order is added where the calls take their turns.
A gap is reported where neighbours in the log are not consecutive, so an unsorted log has
gaps.
-/

namespace Synapse.Atomic

open ByteRecords FileOps Runs Calls

/-! ## The two halves of `write` -/

namespace AtomicTelemetry

/-- `write` up to the lock: the number is drawn, and the entry made.  Its push to the
ring is counted to this half. -/
def draw (c : WriteCall) (t : AtomicTelemetry) : WALEntry × AtomicTelemetry :=
  let entry := c.entry t.sequence
  (entry, { t with
    sequence := t.sequence + 1
    ring := (t.ring.push entry).2 })

/-- `write` from the lock on. -/
def enter (entry : WALEntry) (t : AtomicTelemetry) : AtomicTelemetry × List FileOp :=
  let buffered := { t with writeBuffer := t.writeBuffer ++ [entry] }
  let flushed :=
    if buffered.writeBuffer.length ≥ kWALFlushBatch then buffered.flushBufferLocked
    else (buffered, [])
  ({ flushed.1 with writeCount := t.writeCount + 1 }, flushed.2)

/-- The second half buffers the entry, or writes the buffer out with it. -/
theorem enter_cases (entry : WALEntry) (t : AtomicTelemetry) :
    (t.enter entry).1.sequence = t.sequence ∧
      ((t.enter entry).1.writeBuffer = t.writeBuffer ++ [entry] ∧ (t.enter entry).2 = [] ∨
        (t.enter entry).1.writeBuffer = [] ∧
          (t.enter entry).2 = [.append (walCodec.encodeAll (t.writeBuffer ++ [entry]))]) := by
  unfold enter
  dsimp only
  split
  · simp [flushBufferLocked]
  · simp

/-- Alone, the two halves are `write`. -/
theorem writeCall_eq_draw_enter (c : WriteCall) (t : AtomicTelemetry) :
    t.writeCall c = (true, (t.draw c).2.enter (t.draw c).1) := by
  rw [writeCall, write, if_neg (Nat.not_lt.mpr c.size_le)]
  rfl

end AtomicTelemetry

/-! ## Calls and their steps -/

/-- How far a `write` call has come. -/
inductive Writer where
  | called (c : WriteCall)
  | drawn (entry : WALEntry)
  | returned (entry : WALEntry)

namespace Writer

/-- The call has drawn its number and not taken the lock. -/
def isDrawn : Writer → Bool
  | drawn _ => true
  | _ => false

/-- The entry of a call that has returned. -/
def accepted : Writer → Option WALEntry
  | returned entry => some entry
  | _ => none

end Writer

/-- The telemetry, its file, and the calls under way. -/
structure Writers where
  telemetry : AtomicTelemetry
  file : Bytes
  calls : List Writer

namespace Writers

/-- A call begins, or one goes on. -/
inductive Action where
  | call (c : WriteCall)
  | advance (i : ℕ)

/-- A telemetry whose buffer has been flushed, on an empty file. -/
def start (t : AtomicTelemetry) : Writers where
  telemetry := t.flushBuffer.1
  file := []
  calls := []

/-- The state after the second half of a call. -/
def entered (s : Writers) (i : ℕ) (entry : WALEntry) : Writers where
  telemetry := (s.telemetry.enter entry).1
  file := runOps (s.telemetry.enter entry).2 s.file
  calls := s.calls.set i (.returned entry)

/-- One step: the number is drawn, or the critical section runs. -/
def step (s : Writers) : Action → Option Writers
  | .call c => some { s with calls := s.calls ++ [.called c] }
  | .advance i =>
      match s.calls[i]? with
      | some (.called c) =>
          some { s with
            telemetry := (s.telemetry.draw c).2
            calls := s.calls.set i (.drawn (s.telemetry.draw c).1) }
      | some (.drawn entry) =>
          some (s.entered i entry)
      | _ => none

/-! ## What is asked -/

/-- What `read_wal()` returns once the buffer has been flushed. -/
def finalLog (s : Writers) : List WALEntry :=
  readWal (runOps s.telemetry.flushBuffer.2 s.file)

/-- The entries have consecutive numbers, from the given one on. -/
def InSequence : UInt64 → List WALEntry → Prop
  | _, [] => True
  | sequence, e :: rest => e.sequence = sequence ∧ InSequence (sequence + 1) rest

/-- The flushed log has every accepted entry once, numbered without a gap. -/
structure GapFree (first : UInt64) (s : Writers) : Prop where
  exactly_once : (s.calls.filterMap Writer.accepted).Perm s.finalLog
  consecutive : InSequence first s.finalLog
  gaps : sequenceGapCount s.finalLog = 0

/-- How many calls have drawn their number and not taken the lock. -/
def waiting (s : Writers) : ℕ := s.calls.countP Writer.isDrawn

/-- The call that takes the lock has the smallest number of those that wait for it:
the number is as far below `sequence_` as there are calls waiting. -/
def InTurn (s : Writers) : Action → Prop
  | .call _ => True
  | .advance i =>
      match s.calls[i]? with
      | some (.drawn entry) => entry.sequence + UInt64.ofNat s.waiting = s.telemetry.sequence
      | _ => True

/-! ## Numbered lists -/

/-- One entry more with the next number. -/
theorem inSequence_concat {first : UInt64} {es : List WALEntry} {e : WALEntry} :
    InSequence first (es ++ [e]) ↔
      InSequence first es ∧ e.sequence = first + UInt64.ofNat es.length := by
  induction es generalizing first with
  | nil => simp [InSequence]
  | cons x es ih =>
      have hshift : first + 1 + UInt64.ofNat es.length =
          first + UInt64.ofNat (es.length + 1) := by
        rw [UInt64.ofNat_add, UInt64.add_assoc, UInt64.add_comm 1]
        rfl
      rw [List.cons_append, InSequence, InSequence, ih, hshift, List.length_cons, and_assoc]

/-- Consecutive numbers have no gap, whatever came before. -/
theorem sequenceGaps_of_inSequence {prevSeq : UInt64} {es : List WALEntry}
    (h : InSequence (prevSeq + 1) es) : sequenceGaps prevSeq es = 0 := by
  induction es generalizing prevSeq with
  | nil => rfl
  | cons e es ih =>
      obtain ⟨hhead, hrest⟩ := h
      rw [sequenceGaps, if_neg (not_not.mpr hhead), hhead, ih hrest]

/-- So a sorted log has none. -/
theorem sequenceGapCount_of_inSequence {first : UInt64} {es : List WALEntry}
    (h : InSequence first es) : sequenceGapCount es = 0 := by
  cases es with
  | nil => rfl
  | cons e es =>
      obtain ⟨hhead, hrest⟩ := h
      rw [sequenceGapCount, hhead]
      exact sequenceGaps_of_inSequence hrest

/-! ## The log -/

/-- What is on disk, and what is buffered. -/
def log (s : Writers) : List WALEntry := readWal s.file ++ s.telemetry.writeBuffer

/-- The log holds the entries of the calls that have returned, and with those of the
calls that wait it accounts for all numbers drawn. -/
structure Logged (first : UInt64) (s : Writers) : Prop where
  stored : s.file = walCodec.encodeAll (readWal s.file)
  valid : ∀ e ∈ s.telemetry.writeBuffer, isValidWalEntry e = true
  drawn : ∀ c ∈ s.calls, ∀ e, c = .drawn e → isValidWalEntry e = true
  accepted : (s.calls.filterMap Writer.accepted).Perm s.log
  numbered : s.telemetry.sequence = first + UInt64.ofNat (s.log.length + s.waiting)

variable {first : UInt64} {s s' : Writers}

/-- Nothing has been drawn. -/
theorem logged_start (t : AtomicTelemetry) : (start t).Logged t.sequence where
  stored := by simp [start]
  valid := by simp [start, AtomicTelemetry.flushBuffer]
  drawn := by simp [start]
  accepted := by simp [start, log, AtomicTelemetry.flushBuffer]
  numbered := by simp [start, log, waiting, AtomicTelemetry.flushBuffer]

/-- Valid entries that are appended to a file of valid entries are read back. -/
theorem readWal_append_encodeAll {file : Bytes} (hfile : file = walCodec.encodeAll (readWal file))
    {es : List WALEntry} (hes : ∀ e ∈ es, isValidWalEntry e = true) :
    readWal (file ++ walCodec.encodeAll es) = readWal file ++ es := by
  have hread : readWal (walCodec.encodeAll (readWal file ++ es)) = readWal file ++ es := by
    refine readWal_encodeAll fun e he => ?_
    rcases List.mem_append.mp he with hold | hnew
    · exact (List.mem_filter.mp hold).2
    · exact hes e hnew
  rw [RecordCodec.encodeAll_append, ← hfile] at hread
  exact hread

/-- The second half of a call appends its entry to the log. -/
theorem log_entered (h : s.Logged first) (i : ℕ) {entry : WALEntry}
    (hentry : isValidWalEntry entry = true) :
    (s.entered i entry).log = s.log ++ [entry] ∧
      (s.entered i entry).file = walCodec.encodeAll (readWal (s.entered i entry).file) ∧
      ∀ e ∈ (s.entered i entry).telemetry.writeBuffer, isValidWalEntry e = true := by
  have hbuffered : ∀ e ∈ s.telemetry.writeBuffer ++ [entry], isValidWalEntry e = true := by
    intro e he
    rcases List.mem_append.mp he with hold | hnew
    · exact h.valid e hold
    · rw [List.mem_singleton.mp hnew]
      exact hentry
  obtain ⟨-, ⟨hbuffer, hops⟩ | ⟨hbuffer, hops⟩⟩ := s.telemetry.enter_cases entry
  · have hfile : (s.entered i entry).file = s.file := by rw [entered, hops, runOps_nil]
    rw [log, log, hfile]
    refine ⟨?_, h.stored, ?_⟩
    · rw [List.append_assoc]
      exact congrArg _ hbuffer
    · exact hbuffer.symm ▸ hbuffered
  · have hfile : (s.entered i entry).file =
        s.file ++ walCodec.encodeAll (s.telemetry.writeBuffer ++ [entry]) := by
      rw [entered, hops]
      rfl
    have hread := readWal_append_encodeAll h.stored hbuffered
    have hnil : (s.entered i entry).telemetry.writeBuffer = [] := hbuffer
    rw [log, log, hfile, hread, hnil]
    refine ⟨by rw [List.append_nil, List.append_assoc], ?_, ?_⟩
    · conv_rhs => rw [RecordCodec.encodeAll_append, ← h.stored]
    · exact fun e he => absurd he List.not_mem_nil

/-! ### One step -/

/-- What a step can do. -/
inductive Stepped (s : Writers) : Action → Writers → Prop
  | call (c) : Stepped s (.call c) { s with calls := s.calls ++ [.called c] }
  | draw {i c} (hcall : s.calls[i]? = some (.called c)) : Stepped s (.advance i)
      { s with
        telemetry := (s.telemetry.draw c).2
        calls := s.calls.set i (.drawn (s.telemetry.draw c).1) }
  | enter {i entry} (hcall : s.calls[i]? = some (.drawn entry)) :
      Stepped s (.advance i) (s.entered i entry)

/-- The shapes that a step can have. -/
theorem stepped_of_step {a : Action} (h : s.step a = some s') : s.Stepped a s' := by
  cases a with
  | call c =>
      obtain rfl := Option.some_injective _ h
      exact .call c
  | advance i =>
      cases hcall : s.calls[i]? with
      | none =>
          simp only [step, hcall] at h
          cases h
      | some c =>
          cases c with
          | called c =>
              simp only [step, hcall] at h
              obtain rfl := Option.some_injective _ h
              exact .draw hcall
          | drawn entry =>
              simp only [step, hcall] at h
              obtain rfl := Option.some_injective _ h
              exact .enter hcall
          | returned entry =>
              simp only [step, hcall] at h
              cases h

/-- The step lemma. -/
theorem logged_step {a : Action} (h : s.Logged first) (hstep : s.step a = some s') :
    s'.Logged first := by
  cases stepped_of_step hstep with
  | call c =>
      have hmoved := moved_append s.calls (.called c)
      have hwaiting : Writers.waiting { s with calls := s.calls ++ [.called c] } = s.waiting :=
        hmoved.countP_add Writer.isDrawn
      refine ⟨h.stored, h.valid, hmoved.forall_mem h.drawn nofun, ?_, ?_⟩
      · exact (hmoved.filterMap_same rfl).trans h.accepted
      · rw [hwaiting]
        exact h.numbered
  | @draw i c hcall =>
      have hmoved := moved_set hcall (.drawn (s.telemetry.draw c).1)
      have hwaiting : (s.calls.set i (.drawn (s.telemetry.draw c).1)).countP Writer.isDrawn =
          s.waiting + 1 := hmoved.countP_add Writer.isDrawn
      refine ⟨h.stored, h.valid, hmoved.forall_mem h.drawn ?_, ?_, ?_⟩
      · rintro e ⟨⟩
        exact WALEntry.forWrite_isValid _ _ _ _ _ c.size_le
      · exact (hmoved.filterMap_same rfl).trans h.accepted
      · change s.telemetry.sequence + 1 = _
        rw [waiting, hwaiting, h.numbered, ← Nat.add_assoc, UInt64.ofNat_add _ 1,
          ← UInt64.add_assoc]
        rfl
  | @enter i entry hcall =>
      have hentry : isValidWalEntry entry = true :=
        h.drawn _ (List.mem_of_getElem? hcall) entry rfl
      obtain ⟨hlog, hstored, hvalid⟩ := log_entered h i hentry
      have hmoved := moved_set hcall (.returned entry)
      have hgained : ((s.calls.set i (.returned entry)).filterMap Writer.accepted).Perm
          (entry :: s.calls.filterMap Writer.accepted) := hmoved.filterMap_gained rfl rfl
      have hwaiting : (s.entered i entry).waiting + 1 = s.waiting :=
        hmoved.countP_add Writer.isDrawn
      refine ⟨hstored, hvalid, hmoved.forall_mem h.drawn nofun, ?_, ?_⟩
      · rw [hlog]
        exact (hgained.trans (h.accepted.cons entry)).trans
          (List.perm_append_singleton _ _).symm
      · have hsequence : (s.entered i entry).telemetry.sequence = s.telemetry.sequence :=
          (s.telemetry.enter_cases entry).1
        rw [hsequence, hlog, List.length_append, List.length_singleton, Nat.add_assoc,
          Nat.add_comm 1, hwaiting]
        exact h.numbered

/-- The next entry is in its place exactly if its call has taken the lock in turn. -/
theorem inSequence_log_iff {a : Action} (h : s.Logged first) (hstep : s.step a = some s') :
    InSequence first s'.log ↔ InSequence first s.log ∧ s.InTurn a := by
  cases stepped_of_step hstep with
  | call c => exact (and_iff_left trivial).symm
  | @draw i c hcall =>
      simp only [InTurn, hcall]
      exact (and_iff_left trivial).symm
  | @enter i entry hcall =>
      have hentry : isValidWalEntry entry = true :=
        h.drawn _ (List.mem_of_getElem? hcall) entry rfl
      obtain ⟨hlog, -⟩ := log_entered h i hentry
      rw [hlog, inSequence_concat]
      simp only [InTurn, hcall]
      rw [h.numbered, UInt64.ofNat_add, ← UInt64.add_assoc, add_left_inj]

/-! ## Whole runs -/

/-- A flush moves what is buffered to the file. -/
theorem finalLog_eq (h : s.Logged first) : s.finalLog = s.log := by
  rw [finalLog, runOps_eq s.telemetry.appendOnly_flushBuffer, AtomicTelemetry.flushBuffer,
    AtomicTelemetry.payload_flushBufferLocked]
  exact readWal_append_encodeAll h.stored h.valid

/-- **Concurrent writers leave a gap-free log** exactly if they take the lock in the
order in which they have drawn their numbers. -/
theorem gap_free_iff (t : AtomicTelemetry) {actions : List Action}
    (h : exec step (start t) actions = some s) :
    s.GapFree t.sequence ↔ Along step InTurn (start t) actions := by
  have hlogged : s.Logged t.sequence :=
    invariant_of_exec step (fun _ _ _ hs ha => logged_step hs ha) (logged_start t) h
  have hfinal := finalLog_eq hlogged
  have horder : InSequence t.sequence s.log ↔ Along step InTurn (start t) actions := by
    have hstart : InSequence t.sequence (start t).log := by
      simp [start, log, AtomicTelemetry.flushBuffer, InSequence]
    have hstep : ∀ (s : Writers) (a : Action) (s' : Writers), s.Logged t.sequence →
        s.step a = some s' → s'.Logged t.sequence := fun _ _ _ hs ha => logged_step hs ha
    have hgood : ∀ (s : Writers) (a : Action) (s' : Writers), s.Logged t.sequence →
        s.step a = some s' →
        (InSequence t.sequence s'.log ↔ InSequence t.sequence s.log ∧ s.InTurn a) :=
      fun _ _ _ hs ha => inSequence_log_iff hs ha
    rw [good_iff_along step hstep hgood (logged_start t) h]
    exact and_iff_right hstart
  rw [← horder, ← hfinal]
  constructor
  · exact GapFree.consecutive
  · intro hsequence
    exact ⟨hfinal ▸ hlogged.accepted, hsequence, sequenceGapCount_of_inSequence hsequence⟩

/-- Two calls, in turn. -/
theorem in_turn_gap_free :
    let draw := Action.call (.bare 0 .draw)
    ∃ s, exec step (start .create) [draw, draw, .advance 0, .advance 1, .advance 0, .advance 1] =
      some s ∧ s.GapFree 0 := by
  intro draw
  have hrun : exec step (start .create)
      [draw, draw, .advance 0, .advance 1, .advance 0, .advance 1] = some _ := rfl
  refine ⟨_, hrun, (gap_free_iff .create hrun).mpr ?_⟩
  exact along_of_step step rfl trivial <| along_of_step step rfl trivial <|
    along_of_step step rfl trivial <| along_of_step step rfl trivial <|
    along_of_step step rfl rfl <| along_of_step step rfl rfl <| along_nil step _ _

/-- The call that has drawn last takes the lock first. -/
theorem overtaken_writer_counts_gap :
    let draw := Action.call (.bare 0 .draw)
    ∃ s, exec step (start .create) [draw, draw, .advance 0, .advance 1, .advance 1, .advance 0] =
      some s ∧ sequenceGapCount s.finalLog = 1 ∧ ¬ s.GapFree 0 := by
  intro draw
  obtain ⟨s, hrun, hfile, hbuffer⟩ : ∃ s, exec step (start .create)
      [draw, draw, .advance 0, .advance 1, .advance 1, .advance 0] = some s ∧ s.file = [] ∧
      s.telemetry.writeBuffer =
        [(WriteCall.bare 0 .draw).entry 1, (WriteCall.bare 0 .draw).entry 0] :=
    ⟨_, rfl, rfl, rfl⟩
  have hlogged := invariant_of_exec step (fun _ _ _ hs ha => logged_step hs ha)
    (logged_start .create) hrun
  have hgaps : sequenceGapCount s.finalLog = 1 := by
    rw [finalLog_eq hlogged, log, hfile, hbuffer, readWal_nil]
    rfl
  exact ⟨s, hrun, hgaps, fun h => absurd (h.gaps.symm.trans hgaps) (by decide)⟩

end Writers

end Synapse.Atomic
