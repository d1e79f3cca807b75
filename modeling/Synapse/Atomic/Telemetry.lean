import Synapse.Atomic.WalEntry
import Synapse.Foundations.FileOps
import Synapse.Foundations.MaskRing

/-!
# `AtomicTelemetry`

The telemetry object of `atomic_telemetry.h`: the ring for readers, the batch
buffer for the WAL, the sequence counter and the one flag that means both "the
log I opened was closed" and "my own marker is written".

The object and the WAL file are kept apart.  A method that reads the file takes
its content; a method that writes it returns the list of `FileOp`s it attempts.
Nothing in memory depends on whether an open succeeds, so the same definitions
serve runs with failing opens (`FileOps.runAttempts`) and deaths between or in
the middle of operations (`FileOps.crashAt`).

Counts that are bounded by the size of a vector in memory are natural numbers;
`sequence_` and `write_count_` are not so bounded and wrap.  Only one thread
runs: the mutexes and the memory orders are not modelled.
-/

namespace Synapse.Atomic

open ByteRecords FileOps

/-- `TelemetryRing`: 1024 slots, index mask 1023. -/
abbrev TelemetryRing := MaskRing WALEntry 10

/-- `TelemetryRing::kCapacity`. -/
def kCapacity : ℕ := 2 ^ 10

def kWALFlushBatch : ℕ := 64

structure AtomicTelemetry where
  sequence : UInt64
  writeCount : UInt64
  cleanShutdown : Bool
  ring : TelemetryRing
  pendingRecovery : List WALEntry
  writeBuffer : List WALEntry

/-! ## Reading the file -/

/-- `read_wal()`: the valid records of the file.  A file that cannot be opened
reads as an empty one. -/
def readWal (file : Bytes) : List WALEntry :=
  (walCodec.records file).filter isValidWalEntry

/-- The three maxima and last values `check_recovery` scans for. -/
structure RecoveryScan where
  shutdownSeq : UInt64
  maxSeq : UInt64
  maxSchemaVer : UInt32

namespace RecoveryScan

def start : RecoveryScan where
  shutdownSeq := 0
  maxSeq := 0
  maxSchemaVer := 0

/-- One iteration of the loop. -/
def visit (scan : RecoveryScan) (e : WALEntry) : RecoveryScan where
  shutdownSeq := if e.eventType = WALEventType.cleanShutdown.code then e.sequence
    else scan.shutdownSeq
  maxSeq := if e.sequence > scan.maxSeq then e.sequence else scan.maxSeq
  maxSchemaVer := if e.getSchemaVersion > scan.maxSchemaVer then e.getSchemaVersion
    else scan.maxSchemaVer

/-- The value stored to `clean_shutdown_`. -/
def clean (scan : RecoveryScan) : Bool :=
  decide (scan.shutdownSeq ≥ scan.maxSeq) && decide (scan.maxSeq > 0)

end RecoveryScan

/-- The loop of `sequence_gap_count` after the first entry. -/
def sequenceGaps (prevSeq : UInt64) : List WALEntry → ℕ
  | [] => 0
  | e :: rest => (if e.sequence ≠ prevSeq + 1 then 1 else 0) + sequenceGaps e.sequence rest

def sequenceGapCount : List WALEntry → ℕ
  | [] => 0
  | e :: rest => sequenceGaps e.sequence rest

namespace AtomicTelemetry

/-! ## The methods -/

/-- The constructor. -/
def create : AtomicTelemetry where
  sequence := 0
  writeCount := 0
  cleanShutdown := false
  ring := MaskRing.empty 10 WALEntry.zeroed
  pendingRecovery := []
  writeBuffer := []

/-- `flush_buffer_locked()`.  The buffer is cleared whether or not the open
succeeds. -/
def flushBufferLocked (t : AtomicTelemetry) : AtomicTelemetry × List FileOp :=
  if t.writeBuffer.isEmpty then (t, [])
  else ({ t with writeBuffer := [] }, [.append (walCodec.encodeAll t.writeBuffer)])

def flushBuffer (t : AtomicTelemetry) : AtomicTelemetry × List FileOp :=
  t.flushBufferLocked

/-- `append_wal(entry)`; its result is ignored by its only caller. -/
def appendWal (entry : WALEntry) : List FileOp := [.append (walCodec.encode entry)]

/-- `flush_wal()` opens the file to append and writes nothing. -/
def flushWal : List FileOp := [.append []]

def truncateWal : List FileOp := [.truncate]

/-- `write(type, data, size)` at time `now`. -/
def write (now : UInt64) (type : WALEventType) (data : Option Bytes) (size : UInt32)
    (t : AtomicTelemetry) : Bool × AtomicTelemetry × List FileOp :=
  if size.toNat > kWALDataSize then (false, t, [])
  else
    let entry := WALEntry.forWrite t.sequence now type data size
    let buffered := { t with
      sequence := t.sequence + 1
      ring := (t.ring.push entry).2
      writeBuffer := t.writeBuffer ++ [entry] }
    let flushed :=
      if buffered.writeBuffer.length ≥ kWALFlushBatch then buffered.flushBufferLocked
      else (buffered, [])
    (true, { flushed.1 with writeCount := t.writeCount + 1 }, flushed.2)

/-- `read()`. -/
def read (t : AtomicTelemetry) : Option WALEntry × AtomicTelemetry :=
  (t.ring.pop.1, { t with ring := t.ring.pop.2 })

/-- `check_recovery()` on the given file content. -/
def checkRecovery (file : Bytes) (t : AtomicTelemetry) : ℕ × AtomicTelemetry :=
  let entries := readWal file
  let scan := entries.foldl RecoveryScan.visit RecoveryScan.start
  (if scan.clean then 0 else entries.length,
    { t with cleanShutdown := scan.clean, pendingRecovery := entries })

/-- The loop of `replay`: ring and count. -/
def replayLoop (acc : TelemetryRing × ℕ) (e : WALEntry) : TelemetryRing × ℕ :=
  if e.eventType ≠ WALEventType.cleanShutdown.code then ((acc.1.push e).2, acc.2 + 1)
  else acc

/-- `replay()`. -/
def replay (t : AtomicTelemetry) : ℕ × AtomicTelemetry × List FileOp :=
  let acc := t.pendingRecovery.foldl replayLoop (t.ring, 0)
  (acc.2, { t with ring := acc.1, pendingRecovery := [] }, truncateWal)

/-- `mark_clean_shutdown()` at time `now`. -/
def markCleanShutdown (now : UInt64) (t : AtomicTelemetry) : AtomicTelemetry × List FileOp :=
  if t.cleanShutdown then (t, [])
  else
    ({ t with cleanShutdown := true, sequence := t.sequence + 1 },
      appendWal (WALEntry.cleanShutdownMarker t.sequence now) ++ flushWal)

/-- The destructor, at time `now`. -/
def destroy (now : UInt64) (t : AtomicTelemetry) : AtomicTelemetry × List FileOp :=
  let flushed := t.flushBuffer
  let marked := flushed.1.markCleanShutdown now
  (marked.1, flushed.2 ++ flushWal ++ marked.2)

/-- `simulate_crash()`: keeps the destructor from writing a marker. -/
def simulateCrash (t : AtomicTelemetry) : AtomicTelemetry := { t with cleanShutdown := true }

end AtomicTelemetry

/-! ## Runs of calls -/

/-- The arguments of a `write` call that is accepted: the size fits the payload
area, and a non-null pointer is readable for that many bytes. -/
structure WriteCall where
  now : UInt64
  type : WALEventType
  data : Option Bytes
  size : UInt32
  size_le : size.toNat ≤ kWALDataSize
  readable : ∀ bytes, data = some bytes → size.toNat ≤ bytes.length

/-- The entry a call produces at a given counter value. -/
def WriteCall.entry (sequence : UInt64) (c : WriteCall) : WALEntry :=
  WALEntry.forWrite sequence c.now c.type c.data c.size

/-- The entries a run of accepted calls produces. -/
def entriesFrom (sequence : UInt64) : List WriteCall → List WALEntry
  | [] => []
  | c :: cs => c.entry sequence :: entriesFrom (sequence + 1) cs

namespace AtomicTelemetry

def writeCall (c : WriteCall) (t : AtomicTelemetry) : Bool × AtomicTelemetry × List FileOp :=
  t.write c.now c.type c.data c.size

/-- Several calls in a row. -/
def writeAll : List WriteCall → AtomicTelemetry → AtomicTelemetry × List FileOp
  | [], t => (t, [])
  | c :: cs, t =>
      let first := t.writeCall c
      let rest := writeAll cs first.2.1
      (rest.1, first.2.2 ++ rest.2)

/-- The entries that `n` calls of `read()` in a row deliver. -/
def readMany : ℕ → AtomicTelemetry → List WALEntry
  | 0, _ => []
  | n + 1, t => t.read.1.toList ++ readMany n t.read.2

/-! ## What one operation does -/

@[simp] theorem flushBufferLocked_writeBuffer (t : AtomicTelemetry) :
    t.flushBufferLocked.1.writeBuffer = [] := by
  unfold flushBufferLocked
  split
  · simpa using ‹t.writeBuffer.isEmpty = true›
  · rfl

@[simp] theorem flushBufferLocked_sequence (t : AtomicTelemetry) :
    t.flushBufferLocked.1.sequence = t.sequence := by
  unfold flushBufferLocked; split <;> rfl

@[simp] theorem flushBufferLocked_cleanShutdown (t : AtomicTelemetry) :
    t.flushBufferLocked.1.cleanShutdown = t.cleanShutdown := by
  unfold flushBufferLocked; split <;> rfl

/-- Flushing appends what is buffered, and nothing if the buffer is empty. -/
@[simp] theorem payload_flushBufferLocked (t : AtomicTelemetry) :
    payload t.flushBufferLocked.2 = walCodec.encodeAll t.writeBuffer := by
  unfold flushBufferLocked
  split
  · rename_i h
    simp [List.isEmpty_iff.mp h]
  · simp [FileOp.written]

theorem appendOnly_flushBufferLocked (t : AtomicTelemetry) :
    AppendOnly t.flushBufferLocked.2 := by
  unfold flushBufferLocked; split <;> simp [AppendOnly]

theorem appendOnly_flushBuffer (t : AtomicTelemetry) : AppendOnly t.flushBuffer.2 :=
  t.appendOnly_flushBufferLocked

theorem writeCall_accepted (t : AtomicTelemetry) (c : WriteCall) :
    (t.writeCall c).1 = true := by
  simp [writeCall, write, Nat.not_lt.mpr c.size_le]

@[simp] theorem writeCall_sequence (t : AtomicTelemetry) (c : WriteCall) :
    (t.writeCall c).2.1.sequence = t.sequence + 1 := by
  simp only [writeCall, write, gt_iff_lt, Nat.not_lt.mpr c.size_le, if_false]
  split <;> simp

@[simp] theorem writeCall_cleanShutdown (t : AtomicTelemetry) (c : WriteCall) :
    (t.writeCall c).2.1.cleanShutdown = t.cleanShutdown := by
  simp only [writeCall, write, gt_iff_lt, Nat.not_lt.mpr c.size_le, if_false]
  split <;> simp

/-- An accepted call that does not fill the batch only buffers its entry. -/
theorem writeCall_of_lt {t : AtomicTelemetry} (c : WriteCall)
    (h : t.writeBuffer.length + 1 < kWALFlushBatch) :
    (t.writeCall c).2.1.writeBuffer = t.writeBuffer ++ [c.entry t.sequence] ∧
      (t.writeCall c).2.2 = [] := by
  have hbuf : ¬ t.writeBuffer.length + 1 ≥ kWALFlushBatch := by omega
  simp [writeCall, write, Nat.not_lt.mpr c.size_le, hbuf, WriteCall.entry]

/-- An accepted call that fills the batch writes the whole buffer out. -/
theorem writeCall_of_full {t : AtomicTelemetry} (c : WriteCall)
    (h : t.writeBuffer.length + 1 = kWALFlushBatch) :
    (t.writeCall c).2.1.writeBuffer = [] ∧
      (t.writeCall c).2.2 =
        [.append (walCodec.encodeAll (t.writeBuffer ++ [c.entry t.sequence]))] := by
  have hbuf : t.writeBuffer.length + 1 ≥ kWALFlushBatch := by omega
  simp [writeCall, write, Nat.not_lt.mpr c.size_le, hbuf, WriteCall.entry,
    flushBufferLocked]

end AtomicTelemetry

@[simp] theorem length_entriesFrom (sequence : UInt64) (cs : List WriteCall) :
    (entriesFrom sequence cs).length = cs.length := by
  induction cs generalizing sequence with
  | nil => rfl
  | cons c cs ih => simp [entriesFrom, ih]

/-- The `i`-th entry of a run is its `i`-th call's, numbered from the start value
on. -/
theorem getElem?_entriesFrom (sequence : UInt64) (cs : List WriteCall) (i : ℕ) :
    (entriesFrom sequence cs)[i]? =
      cs[i]?.map (WriteCall.entry (sequence + UInt64.ofNat i)) := by
  induction cs generalizing sequence i with
  | nil => rfl
  | cons c cs ih =>
      cases i with
      | zero => simp [entriesFrom]
      | succ i =>
          rw [entriesFrom, List.getElem?_cons_succ, List.getElem?_cons_succ, ih, UInt64.ofNat_add,
            UInt64.add_assoc, UInt64.add_comm 1]
          rfl

/-- The last entries of a run are a run of the last calls. -/
theorem drop_entriesFrom (sequence : UInt64) (cs : List WriteCall) (k : ℕ) :
    (entriesFrom sequence cs).drop k = entriesFrom (sequence + UInt64.ofNat k) (cs.drop k) := by
  induction cs generalizing sequence k with
  | nil => simp [entriesFrom]
  | cons c cs ih =>
      cases k with
      | zero => simp
      | succ k =>
          rw [entriesFrom, List.drop_succ_cons, ih, List.drop_succ_cons, UInt64.ofNat_add,
            UInt64.add_assoc, UInt64.add_comm 1]
          rfl

theorem isValid_of_mem_entriesFrom {sequence : UInt64} {cs : List WriteCall} {e : WALEntry}
    (h : e ∈ entriesFrom sequence cs) : isValidWalEntry e = true := by
  induction cs generalizing sequence with
  | nil => simp [entriesFrom] at h
  | cons c cs ih =>
      rcases List.mem_cons.mp h with rfl | h
      · exact WALEntry.forWrite_isValid _ _ _ _ _ c.size_le
      · exact ih h

/-! ## Reading back -/

@[simp] theorem readWal_nil : readWal [] = [] := by simp [readWal]

/-- Reading distributes over an append at a record boundary. -/
theorem readWal_append_of_dvd {front : Bytes} (h : WALEntry.recordSize ∣ front.length)
    (rest : Bytes) : readWal (front ++ rest) = readWal front ++ readWal rest := by
  rw [readWal, walCodec.records_append_of_dvd h, List.filter_append]
  rfl

theorem readWal_encodeAll {es : List WALEntry} (h : ∀ e ∈ es, isValidWalEntry e = true) :
    readWal (walCodec.encodeAll es) = es := by
  rw [readWal, walCodec.records_encodeAll, List.filter_eq_self]
  exact h

/-- A byte prefix of a stream of valid entries reads as the entries it holds
whole. -/
theorem readWal_of_prefix {bytes : Bytes} {es : List WALEntry}
    (hvalid : ∀ e ∈ es, isValidWalEntry e = true) (h : bytes <+: walCodec.encodeAll es) :
    readWal bytes = walCodec.records bytes := by
  rw [readWal, walCodec.records_of_prefix_encodeAll h, List.filter_eq_self]
  exact fun e he => hvalid e (List.mem_of_mem_take he)

end Synapse.Atomic
