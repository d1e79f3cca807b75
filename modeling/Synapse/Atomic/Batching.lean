import Synapse.Atomic.Telemetry
import Synapse.Foundations.Batches

/-!
# Runs of `write` calls

What any number of accepted `write` calls does to the buffer and the file.  The
file operations of a run are exactly the full batches of its entries
(`writeAll_batched`), which gives the two faces of the batch buffer:

* when every open succeeds, disk and buffer together hold the entries in call
  order and reading the file back changes nothing (`write_read_round_trip`);
* a failed open loses its batch, because the buffer is cleared either way
  (`entries_survive_iff`).

The runs are over `writeAll`, by induction on the calls with the buffer carried along; what a
run does to the file is a list of operations, one for each full batch, so failing opens are
operations left out.
-/

namespace Synapse.Atomic

open ByteRecords FileOps

/-- One append for each batch. -/
def batchOps (batches : List (List WALEntry)) : List FileOp :=
  batches.map fun b => .append (walCodec.encodeAll b)

/-- One operation for each batch. -/
@[simp] theorem length_batchOps (batches : List (List WALEntry)) :
    (batchOps batches).length = batches.length := List.length_map _

/-- Together they append the entries of the batches. -/
@[simp] theorem payload_batchOps (batches : List (List WALEntry)) :
    payload (batchOps batches) = walCodec.encodeAll batches.flatten := by
  induction batches with
  | nil => rfl
  | cons b batches ih =>
      rw [List.flatten_cons, RecordCodec.encodeAll_append, ← ih]
      rfl

/-- They only append. -/
theorem appendOnly_batchOps (batches : List (List WALEntry)) :
    AppendOnly (batchOps batches) := by
  simp [AppendOnly, batchOps]

namespace AtomicTelemetry

/-! ## The invariant of the batch buffer -/

/-- One call: its entry joins the buffer, and a buffer that is full now has gone
out as one batch. -/
theorem writeCall_batched (c : WriteCall) {t : AtomicTelemetry}
    (h : t.writeBuffer.length < kWALFlushBatch) :
    ∃ batches, Batched kWALFlushBatch (t.writeBuffer ++ [c.entry t.sequence]) batches
        (t.writeCall c).2.1.writeBuffer ∧
      (t.writeCall c).2.2 = batchOps batches := by
  by_cases hfull : t.writeBuffer.length + 1 = kWALFlushBatch
  · obtain ⟨hbuf, hops⟩ := writeCall_of_full c hfull
    refine ⟨[t.writeBuffer ++ [c.entry t.sequence]], ?_, hops⟩
    rw [hbuf]
    exact Batched.of_full (by simpa using hfull) (by decide)
  · have hlt : t.writeBuffer.length + 1 < kWALFlushBatch := by omega
    obtain ⟨hbuf, hops⟩ := writeCall_of_lt c hlt
    refine ⟨[], ?_, hops⟩
    rw [hbuf]
    exact Batched.of_short (by simpa using hlt)

/-- **A run of calls.**  Its file operations are the full batches of what was
buffered before and what the run adds; the rest is in the buffer. -/
theorem writeAll_batched (cs : List WriteCall) {t : AtomicTelemetry}
    (h : t.writeBuffer.length < kWALFlushBatch) :
    ∃ batches, Batched kWALFlushBatch (t.writeBuffer ++ entriesFrom t.sequence cs) batches
        (t.writeAll cs).1.writeBuffer ∧
      (t.writeAll cs).2 = batchOps batches := by
  induction cs generalizing t with
  | nil =>
      refine ⟨[], ?_, rfl⟩
      simpa [entriesFrom, writeAll] using Batched.of_short h
  | cons c cs ih =>
      obtain ⟨batches, hfirst, hops⟩ := writeCall_batched c h
      obtain ⟨batches', hrest, hops'⟩ := ih hfirst.short
      refine ⟨batches ++ batches', ?_, ?_⟩
      · rw [writeCall_sequence] at hrest
        simpa [entriesFrom, writeAll] using hfirst.append hrest
      · rw [writeAll, hops, hops', batchOps, batchOps, batchOps, List.map_append]

/-- Each call draws one number. -/
@[simp] theorem writeAll_sequence (cs : List WriteCall) (t : AtomicTelemetry) :
    (t.writeAll cs).1.sequence = t.sequence + UInt64.ofNat cs.length := by
  induction cs generalizing t with
  | nil => simp [writeAll]
  | cons c cs ih =>
      rw [writeAll, ih, writeCall_sequence, List.length_cons, UInt64.ofNat_add,
        UInt64.add_assoc, UInt64.add_comm 1]
      rfl

/-- None of them touches the flag. -/
@[simp] theorem writeAll_cleanShutdown (cs : List WriteCall) (t : AtomicTelemetry) :
    (t.writeAll cs).1.cleanShutdown = t.cleanShutdown := by
  induction cs generalizing t with
  | nil => rfl
  | cons c cs ih => rw [writeAll, ih, writeCall_cleanShutdown]

/-! ### Runs that start with an empty buffer -/

/-- How many of `n` entries have left the buffer. -/
def flushedCount (n : ℕ) : ℕ := kWALFlushBatch * (n / kWALFlushBatch)

/-- The flushed entries are among those written. -/
theorem flushedCount_le (n : ℕ) : flushedCount n ≤ n := Nat.mul_div_le _ _

/-- All of them are flushed if their number is a multiple of the batch. -/
theorem flushedCount_eq_self_iff (n : ℕ) : flushedCount n = n ↔ n % kWALFlushBatch = 0 := by
  have := Nat.div_add_mod n kWALFlushBatch
  unfold flushedCount
  omega

section EmptyBuffer

variable {t : AtomicTelemetry} (ht : t.writeBuffer = []) (cs : List WriteCall)

include ht

private theorem writeAll_batched_of_nil :
    ∃ batches, Batched kWALFlushBatch (entriesFrom t.sequence cs) batches
        (t.writeAll cs).1.writeBuffer ∧
      (t.writeAll cs).2 = batchOps batches := by
  have h := writeAll_batched cs (show t.writeBuffer.length < kWALFlushBatch by simp [ht]; decide)
  rwa [ht, List.nil_append] at h

/-- A run only appends to the file. -/
theorem appendOnly_writeAll : AppendOnly (t.writeAll cs).2 := by
  obtain ⟨batches, -, hops⟩ := writeAll_batched_of_nil ht cs
  exact hops ▸ appendOnly_batchOps batches

/-- Once for each full batch. -/
theorem length_ops_writeAll : (t.writeAll cs).2.length = cs.length / kWALFlushBatch := by
  obtain ⟨batches, h, hops⟩ := writeAll_batched_of_nil ht cs
  rw [hops, length_batchOps, h.length_batches, length_entriesFrom]

/-- What reaches the file: all the entries but the last few. -/
theorem payload_writeAll :
    payload (t.writeAll cs).2 =
      walCodec.encodeAll ((entriesFrom t.sequence cs).take (flushedCount cs.length)) := by
  obtain ⟨batches, h, hops⟩ := writeAll_batched_of_nil ht cs
  rw [hops, payload_batchOps, h.flatten_eq, length_entriesFrom]
  rfl

/-- What stays in the buffer: the last few. -/
theorem writeBuffer_writeAll :
    (t.writeAll cs).1.writeBuffer = (entriesFrom t.sequence cs).drop (flushedCount cs.length) := by
  obtain ⟨batches, h, -⟩ := writeAll_batched_of_nil ht cs
  rw [h.rest_eq, length_entriesFrom]
  rfl

/-- And the rest is in the buffer. -/
theorem length_writeBuffer_writeAll :
    (t.writeAll cs).1.writeBuffer.length = cs.length % kWALFlushBatch := by
  obtain ⟨batches, h, -⟩ := writeAll_batched_of_nil ht cs
  rw [h.length_rest, length_entriesFrom]

/-- No append of a run is empty. -/
theorem written_ne_nil_of_writeAll {i : ℕ} (hi : i < (t.writeAll cs).2.length) :
    (t.writeAll cs).2[i].written ≠ [] := by
  obtain ⟨batches, h, hops⟩ := writeAll_batched_of_nil ht cs
  have hmem : (t.writeAll cs).2[i] ∈ batchOps batches := hops ▸ List.getElem_mem hi
  obtain ⟨b, hb, heq⟩ := List.mem_map.mp hmem
  intro hnil
  have hlen := congrArg List.length hnil
  rw [← heq, FileOp.written, RecordCodec.length_encodeAll, h.full b hb] at hlen
  exact absurd hlen (by decide)

end EmptyBuffer

/-- The entries a whole run appends once the buffer is flushed too. -/
theorem payload_writeAll_flush {t : AtomicTelemetry} (ht : t.writeBuffer = [])
    (cs : List WriteCall) :
    payload ((t.writeAll cs).2 ++ (t.writeAll cs).1.flushBuffer.2) =
      walCodec.encodeAll (entriesFrom t.sequence cs) := by
  rw [payload_append, payload_writeAll ht, flushBuffer, payload_flushBufferLocked,
    writeBuffer_writeAll ht, ← RecordCodec.encodeAll_append, List.take_append_drop]

/-- So does a flush at the end. -/
theorem appendOnly_writeAll_flush {t : AtomicTelemetry} (ht : t.writeBuffer = [])
    (cs : List WriteCall) :
    AppendOnly ((t.writeAll cs).2 ++ (t.writeAll cs).1.flushBuffer.2) :=
  appendOnly_append.mpr ⟨appendOnly_writeAll ht cs, appendOnly_flushBuffer _⟩

end AtomicTelemetry

/-- Full batches on an absent file are read back. -/
theorem readWal_writeAll_of_full_batches {t : AtomicTelemetry} (ht : t.writeBuffer = [])
    {cs : List WriteCall} (hfull : cs.length % kWALFlushBatch = 0) :
    readWal (runOps (t.writeAll cs).2 []) = entriesFrom t.sequence cs := by
  have hflushed := (AtomicTelemetry.flushedCount_eq_self_iff cs.length).mpr hfull
  rw [runOps_eq (AtomicTelemetry.appendOnly_writeAll ht cs), AtomicTelemetry.payload_writeAll ht,
    hflushed, List.take_of_length_le (length_entriesFrom _ _).le, List.nil_append]
  exact readWal_encodeAll fun e he => isValid_of_mem_entriesFrom he

/-! ## Round trip through the file -/

/-- The entry `e` records the call `c` under the given number. -/
structure WriteCall.RecordedAs (c : WriteCall) (sequence : UInt64) (e : WALEntry) : Prop where
  sequence_eq : e.sequence = sequence
  eventType_eq : e.eventType = c.type.code
  dataSize_eq : e.dataSize = c.size
  payload_eq : ∀ bytes, c.data = some bytes →
    e.data.take c.size.toNat = bytes.take c.size.toNat
  valid : isValidWalEntry e = true

/-- The entry that is recorded says what the call said. -/
theorem WriteCall.recordedAs_entry (c : WriteCall) (sequence : UInt64) :
    c.RecordedAs sequence (c.entry sequence) where
  sequence_eq := WALEntry.forWrite_sequence _ _ _ _ _
  eventType_eq := WALEntry.forWrite_eventType _ _ _ _ _
  dataSize_eq := WALEntry.forWrite_dataSize _ _ _ _ _
  payload_eq := by
    intro bytes hdata
    rw [WriteCall.entry, hdata]
    exact WALEntry.take_data_forWrite _ _ _ _ c.size_le (c.readable bytes hdata)
  valid := WALEntry.forWrite_isValid _ _ _ _ _ c.size_le

/-- **Write and read back.**  After any run of accepted calls on an absent file,
the entries `read_wal` returns followed by the buffered ones are the calls'
entries in order, numbered from 0; every record on disk is returned; and fewer
than 64 entries are waiting. -/
theorem write_read_round_trip (cs : List WriteCall) :
    let run := AtomicTelemetry.create.writeAll cs
    let file := runOps run.2 []
    let log := readWal file ++ run.1.writeBuffer
    (∀ c ∈ cs, ∀ t : AtomicTelemetry, (t.writeCall c).1 = true) ∧
      run.1.writeBuffer.length < kWALFlushBatch ∧
      readWal file = walCodec.records file ∧
      log.length = cs.length ∧
      ∀ (i : ℕ) (c : WriteCall), cs[i]? = some c →
        ∃ e, log[i]? = some e ∧ c.RecordedAs (UInt64.ofNat i) e := by
  intro run file log
  have hnil : AtomicTelemetry.create.writeBuffer = [] := rfl
  have hfile : file = walCodec.encodeAll
      ((entriesFrom 0 cs).take (AtomicTelemetry.flushedCount cs.length)) := by
    exact (runOps_eq (AtomicTelemetry.appendOnly_writeAll hnil cs) []).trans
      (AtomicTelemetry.payload_writeAll hnil cs)
  have hvalid : ∀ e ∈ (entriesFrom 0 cs).take (AtomicTelemetry.flushedCount cs.length),
      isValidWalEntry e = true :=
    fun e he => isValid_of_mem_entriesFrom (List.mem_of_mem_take he)
  have hread : readWal file = walCodec.records file := by
    rw [hfile, readWal_encodeAll hvalid, RecordCodec.records_encodeAll]
  have hlog : log = entriesFrom 0 cs := by
    have hbuf := AtomicTelemetry.writeBuffer_writeAll hnil cs
    change readWal file ++ run.1.writeBuffer = _
    rw [hfile, readWal_encodeAll hvalid, hbuf]
    exact List.take_append_drop _ _
  refine ⟨fun c _ t => t.writeCall_accepted c, ?_, hread, by rw [hlog, length_entriesFrom], ?_⟩
  · have hlen := AtomicTelemetry.length_writeBuffer_writeAll hnil cs
    exact hlen ▸ Nat.mod_lt _ (by decide)
  · intro i c hc
    refine ⟨c.entry (UInt64.ofNat i), ?_, c.recordedAs_entry _⟩
    rw [hlog, getElem?_entriesFrom, hc, UInt64.zero_add]
    rfl

/-! ## Flushes that cannot open the file -/

/-- The file after a run of calls whose flush number `i` opens the file exactly
when `opens i`, and a last flush that does open it. -/
def fileAfterFlush (file : Bytes) (opens : ℕ → Bool) (cs : List WriteCall) : Bytes :=
  let run := AtomicTelemetry.create.writeAll cs
  runOps run.1.flushBuffer.2 (runAttempts opens run.2 file)

/-- One failed open: what the run added is too short to hold its entries. -/
theorem not_sublist_of_failed_open {opens : ℕ → Bool} {cs : List WriteCall} {j : ℕ}
    (hj : j < cs.length / kWALFlushBatch) (hfail : opens j = false) (file : Bytes) :
    ¬ (entriesFrom 0 cs).Sublist (readWal ((fileAfterFlush file opens cs).drop file.length)) := by
  have hnil : AtomicTelemetry.create.writeBuffer = [] := rfl
  intro hsub
  have hj' : j < (AtomicTelemetry.create.writeAll cs).2.length := by
    rwa [AtomicTelemetry.length_ops_writeAll hnil]
  -- the bytes of the failed append are missing, so there are fewer records than calls
  have hlt := length_runAttempts_lt hj' hfail
    (AtomicTelemetry.written_ne_nil_of_writeAll hnil cs hj') file
  have htotal := congrArg List.length (AtomicTelemetry.payload_writeAll_flush hnil cs)
  rw [payload_append, List.length_append, RecordCodec.length_encodeAll,
    length_entriesFrom] at htotal
  have hfinal : (fileAfterFlush file opens cs).length <
      file.length + walCodec.size * cs.length := by
    rw [fileAfterFlush, runOps_eq (AtomicTelemetry.appendOnly_flushBuffer _),
      List.length_append]
    omega
  have hread : (readWal ((fileAfterFlush file opens cs).drop file.length)).length < cs.length := by
    refine lt_of_le_of_lt (List.length_filter_le _ _) ?_
    rw [RecordCodec.length_records, List.length_drop, Nat.div_lt_iff_lt_mul walCodec.size_pos,
      Nat.mul_comm]
    have hpos : 0 < cs.length := by
      by_contra hzero
      simp [Nat.eq_zero_of_not_pos hzero] at hj
    have := Nat.mul_pos walCodec.size_pos hpos
    omega
  have hlen := hsub.length_le
  rw [length_entriesFrom] at hlen
  omega

/-- **Entries survive exactly when no flush fails to open the file.**  The flushes
of a run of `n` calls are numbered `0, …, n / 64 - 1`. -/
theorem entries_survive_iff (file : Bytes) (opens : ℕ → Bool) (cs : List WriteCall) :
    (entriesFrom 0 cs).Sublist (readWal ((fileAfterFlush file opens cs).drop file.length)) ↔
      ∀ j < cs.length / kWALFlushBatch, opens j = true := by
  have hnil : AtomicTelemetry.create.writeBuffer = [] := rfl
  constructor
  · intro hsub j hj
    by_contra hfail
    exact not_sublist_of_failed_open hj (Bool.eq_false_iff.mpr hfail) file hsub
  · intro hall
    have hopen : ∀ i < (AtomicTelemetry.create.writeAll cs).2.length, opens i = true := by
      rw [AtomicTelemetry.length_ops_writeAll hnil]
      exact hall
    rw [fileAfterFlush, runAttempts_of_all hopen, ← runOps_append,
      runOps_eq (AtomicTelemetry.appendOnly_writeAll_flush hnil cs),
      AtomicTelemetry.payload_writeAll_flush hnil, List.drop_left,
      readWal_encodeAll fun e he => isValid_of_mem_entriesFrom he]
    exact List.Sublist.refl _

/-- A call with no payload. -/
def WriteCall.bare (now : UInt64) (type : WALEventType) : WriteCall where
  now := now
  type := type
  data := none
  size := 0
  size_le := Nat.zero_le _
  readable := by simp

/-- `n` draws without a payload, all at time 0. -/
def draws (n : ℕ) : List WriteCall := List.replicate n (WriteCall.bare 0 .draw)

/-- That many draws. -/
@[simp] theorem length_draws (n : ℕ) : (draws n).length = n := List.length_replicate

/-- None of them is a marker. -/
theorem draws_plain (n : ℕ) : ∀ c ∈ draws n, c.type ≠ .cleanShutdown := by
  intro c hc
  rw [List.eq_of_mem_replicate hc]
  decide

/-- 64 draws whose one flush finds the file unopenable: all of them are gone,
although every call returned `true` and the next flush succeeds. -/
theorem failed_flush_loses_batch :
    ¬ (entriesFrom 0 (draws 64)).Sublist
      (readWal (fileAfterFlush [] (fun _ => false) (draws 64))) := by
  have hbatch : 0 < (draws 64).length / kWALFlushBatch := by
    rw [length_draws]
    decide
  exact not_sublist_of_failed_open hbatch rfl []

end Synapse.Atomic
