import Synapse.Atomic.Startup

/-!
# Sessions on one WAL path

A session starts, makes its `write` calls and shuts down, all of which is one
list of file operations (`Session.ops`).  It may be cut short at any point of
that list, also in the middle of an append (`Session.cut`).  A history is a list
of sessions on the same path, and a session is a function from file content to
file content (`Session.run`), so nothing is carried over but the file.

Two facts carry everything said about histories later.

* What a session appends, whole or cut, is a prefix of one stream of entries,
  `Session.recorded` (`appended_prefix_encodeAll`).  The place of the shutdown marker in
  that stream depends on which shutdown calls run, and there is none if the
  session started on a closed log.
* The next session reads the log this one started with followed by the entries
  it got to disk, provided the file it appended to was a whole number of records
  long (`readWal_run`).
-/

namespace Synapse.Recovery

open ByteRecords FileOps MarkedLog Atomic

/-- The shutdown calls that run at the end of a session. -/
inductive CleanEnd where
  /-- `CrashRecoveryManager::mark_clean_shutdown()` alone. -/
  | markOnly
  /-- The destructor of the telemetry alone. -/
  | destroyOnly
  /-- Both, in the order of the destructor of the core. -/
  | markThenDestroy
  deriving DecidableEq, Repr

end Synapse.Recovery

/-! ## Shutting down -/

namespace Synapse.Atomic.AtomicTelemetry

open ByteRecords FileOps Recovery

/-- The file operations of a shutdown at time `now`. -/
def shutdown (how : CleanEnd) (now : UInt64) (t : AtomicTelemetry) : List FileOp :=
  match how with
  | .markOnly => (t.markCleanShutdown now).2
  | .destroyOnly => (t.destroy now).2
  | .markThenDestroy =>
      let marked := t.markCleanShutdown now
      marked.2 ++ (marked.1.destroy now).2

/-- The marker that is still to be written: none once the flag is set. -/
def pendingMarker (now : UInt64) (t : AtomicTelemetry) : List WALEntry :=
  if t.cleanShutdown then [] else [WALEntry.cleanShutdownMarker t.sequence now]

/-- The entries a shutdown appends, in file order. -/
def shutdownEntries (how : CleanEnd) (now : UInt64) (t : AtomicTelemetry) : List WALEntry :=
  match how with
  | .markOnly => t.pendingMarker now
  | .destroyOnly => t.writeBuffer ++ t.pendingMarker now
  | .markThenDestroy => t.pendingMarker now ++ t.writeBuffer

section Shutdown

variable (now : UInt64) (t : AtomicTelemetry)

/-- The flag is set. -/
@[simp] theorem markCleanShutdown_cleanShutdown :
    (t.markCleanShutdown now).1.cleanShutdown = true := by
  unfold markCleanShutdown
  split
  · assumption
  · rfl

/-- The marker does not go through the buffer. -/
@[simp] theorem markCleanShutdown_writeBuffer :
    (t.markCleanShutdown now).1.writeBuffer = t.writeBuffer := by
  unfold markCleanShutdown
  split <;> rfl

/-- Only the marker is written, if there is one to write. -/
@[simp] theorem payload_markCleanShutdown :
    payload (t.markCleanShutdown now).2 = walCodec.encodeAll (t.pendingMarker now) := by
  unfold markCleanShutdown pendingMarker
  split
  · rfl
  · simp [appendWal, flushWal, FileOp.written]

/-- Marking does not empty the file. -/
theorem appendOnly_markCleanShutdown : AppendOnly (t.markCleanShutdown now).2 := by
  unfold markCleanShutdown
  split <;> simp [AppendOnly, appendWal, flushWal]

/-- The destructor writes the buffer and then the marker. -/
@[simp] theorem payload_destroy :
    payload (t.destroy now).2 = walCodec.encodeAll (t.writeBuffer ++ t.pendingMarker now) := by
  have hmarker : t.flushBuffer.1.pendingMarker now = t.pendingMarker now := by
    simp [pendingMarker, flushBuffer]
  rw [destroy, payload_append, payload_append, payload_markCleanShutdown, hmarker,
    RecordCodec.encodeAll_append]
  simp [flushBuffer, flushWal, FileOp.written]

/-- The destructor does not empty the file. -/
theorem appendOnly_destroy : AppendOnly (t.destroy now).2 := by
  have hflush : AppendOnly flushWal := by simp [AppendOnly, flushWal]
  exact appendOnly_append.mpr ⟨appendOnly_append.mpr ⟨t.appendOnly_flushBuffer, hflush⟩,
    appendOnly_markCleanShutdown _ _⟩

/-- A shutdown appends the pending marker and the buffer; the order depends on
which calls run. -/
theorem payload_shutdown (how : CleanEnd) :
    payload (t.shutdown how now) = walCodec.encodeAll (t.shutdownEntries how now) := by
  cases how with
  | markOnly => exact payload_markCleanShutdown now t
  | destroyOnly => exact payload_destroy now t
  | markThenDestroy =>
      have hdone : (t.markCleanShutdown now).1.pendingMarker now = [] := by simp [pendingMarker]
      rw [shutdown, payload_append, payload_markCleanShutdown, payload_destroy, hdone,
        List.append_nil, markCleanShutdown_writeBuffer, shutdownEntries,
        RecordCodec.encodeAll_append]

/-- No way to end a session empties the file. -/
theorem appendOnly_shutdown (how : CleanEnd) : AppendOnly (t.shutdown how now) := by
  cases how with
  | markOnly => exact appendOnly_markCleanShutdown now t
  | destroyOnly => exact appendOnly_destroy now t
  | markThenDestroy =>
      exact appendOnly_append.mpr ⟨appendOnly_markCleanShutdown now t, appendOnly_destroy _ _⟩

/-- Shutdowns write whole records. -/
theorem recordSize_dvd_of_mem_shutdown {how : CleanEnd} {now : UInt64} {t : AtomicTelemetry}
    {op : FileOp} (hop : op ∈ t.shutdown how now) : WALEntry.recordSize ∣ op.written.length := by
  have hmark : ∀ (t : AtomicTelemetry), ∀ op ∈ (t.markCleanShutdown now).2,
      WALEntry.recordSize ∣ op.written.length := by
    intro t op hop
    unfold markCleanShutdown at hop
    split at hop
    · exact absurd hop List.not_mem_nil
    · rcases List.mem_cons.mp hop with rfl | hop
      · rw [FileOp.written]
        exact (walCodec.length_encode _).symm ▸ dvd_rfl
      · rw [List.mem_singleton.mp hop]
        exact dvd_zero _
  have hdestroy : ∀ (t : AtomicTelemetry), ∀ op ∈ (t.destroy now).2,
      WALEntry.recordSize ∣ op.written.length := by
    intro t op hop
    rcases List.mem_append.mp hop with hop | hop
    · rcases List.mem_append.mp hop with hop | hop
      · unfold flushBuffer flushBufferLocked at hop
        split at hop
        · exact absurd hop List.not_mem_nil
        · rw [List.mem_singleton.mp hop, FileOp.written, RecordCodec.length_encodeAll]
          exact Dvd.intro _ rfl
      · rw [List.mem_singleton.mp hop]
        exact dvd_zero _
    · exact hmark _ op hop
  cases how with
  | markOnly => exact hmark t op hop
  | destroyOnly => exact hdestroy t op hop
  | markThenDestroy => exact (List.mem_append.mp hop).elim (hmark t op) (hdestroy _ op)

end Shutdown

end Synapse.Atomic.AtomicTelemetry

namespace Synapse.Recovery

open ByteRecords FileOps MarkedLog Atomic

/-! ## One session -/

/-- A session: its calls, how and when it would shut down, and where it is cut
short, if it is. -/
structure Session where
  calls : List WriteCall
  how : CleanEnd
  now : UInt64
  cut : Option (ℕ × ℕ)

namespace Session

variable (s : Session) (file : Bytes)

/-- The telemetry after the calls of the session. -/
def written : AtomicTelemetry := ((startup file).1.writeAll s.calls).1

/-- The file operations after startup. -/
def body : List FileOp :=
  ((startup file).1.writeAll s.calls).2 ++ (s.written file).shutdown s.how s.now

/-- All the file operations of the session. -/
def ops : List FileOp := (startup file).2 ++ s.body file

/-- The file the session leaves. -/
def run : Bytes :=
  match s.cut with
  | none => runOps (s.ops file) file
  | some (done, torn) => crashAt done torn (s.ops file) file

/-- The bytes the session appends. -/
def appended : Bytes :=
  match s.cut with
  | none => payload (s.ops file)
  | some (done, torn) => crashPayload done torn (s.ops file)

/-- The entries of the session that are whole on disk when it is over. -/
def reached : List WALEntry := walCodec.records (s.appended file)

/-- The stream of entries the session writes if it is not cut. -/
def recorded : List WALEntry :=
  (entriesFrom 0 s.calls).take (AtomicTelemetry.flushedCount s.calls.length) ++
    (s.written file).shutdownEntries s.how s.now

/-! ### What a session appends -/

/-- Startup writes no entry. -/
theorem payload_startup : payload (startup file).2 = [] := by
  by_cases h : LogOpen (readWal file)
  · rw [startup_of_open h]
    rfl
  · rw [startup_of_not_open h]
    rfl

/-- After startup a session only appends. -/
theorem appendOnly_body : AppendOnly (s.body file) :=
  appendOnly_append.mpr ⟨AtomicTelemetry.appendOnly_writeAll (startup_writeBuffer file) _,
    AtomicTelemetry.appendOnly_shutdown _ _ _⟩

/-- What a session appends is what it records. -/
theorem payload_body : payload (s.body file) = walCodec.encodeAll (s.recorded file) := by
  rw [body, payload_append, AtomicTelemetry.payload_writeAll (startup_writeBuffer file),
    AtomicTelemetry.payload_shutdown, startup_sequence, ← RecordCodec.encodeAll_append]
  rfl

theorem payload_ops : payload (s.ops file) = walCodec.encodeAll (s.recorded file) := by
  rw [ops, payload_append, payload_startup, payload_body, List.nil_append]

/-- Without a crash to recover from, startup does not touch the file. -/
theorem ops_of_not_logOpen {file : Bytes} (h : ¬ LogOpen (readWal file)) :
    s.ops file = s.body file := by
  rw [ops, startup_of_not_open h]
  rfl

/-- What reaches the file is a byte prefix of the stream. -/
theorem appended_prefix_encodeAll : s.appended file <+: walCodec.encodeAll (s.recorded file) := by
  rw [← payload_ops, appended]
  split
  · exact List.prefix_rfl
  · exact crashPayload_prefix _ _ _

theorem appended_of_uncut {s : Session} (h : s.cut = none) :
    s.appended file = walCodec.encodeAll (s.recorded file) := by
  rw [appended, h]
  exact payload_ops s file

/-- The entries on disk are the first ones of the stream. -/
theorem reached_prefix_recorded : s.reached file <+: s.recorded file := by
  rw [reached, walCodec.records_of_prefix_encodeAll (s.appended_prefix_encodeAll file)]
  exact List.take_prefix _ _

theorem reached_of_uncut {s : Session} (h : s.cut = none) : s.reached file = s.recorded file := by
  rw [reached, appended_of_uncut file h, RecordCodec.records_encodeAll]

/-- A session on a file that startup leaves alone appends to it. -/
theorem run_of_not_logOpen {file : Bytes} (h : ¬ LogOpen (readWal file)) :
    s.run file = file ++ s.appended file := by
  have hbody := s.appendOnly_body file
  unfold run appended
  rw [s.ops_of_not_logOpen h]
  split
  · exact runOps_eq hbody file
  · exact crashAt_eq hbody _ _ file

/-- A session that appends anything appends it to the file startup left. -/
theorem run_eq_append (h : s.cut = none ∨ s.appended file ≠ []) :
    s.run file = startFile file ++ s.appended file := by
  by_cases hopen : LogOpen (readWal file)
  · have hops : s.ops file = .truncate :: s.body file := by
      rw [ops, startup_of_open hopen]
      rfl
    have hbody := s.appendOnly_body file
    rw [startFile_of_open hopen, List.nil_append]
    unfold run appended at *
    rw [hops]
    rcases hcut : s.cut with _ | ⟨done, torn⟩
    · dsimp only
      rw [runOps_cons, payload_cons]
      exact runOps_eq hbody []
    · rw [hcut] at h
      dsimp only at h ⊢
      rw [hops] at h
      cases done with
      -- a death before the truncation appends nothing
      | zero => exact absurd rfl (h.resolve_left (Option.some_ne_none _))
      | succ done =>
          rw [crashAt_succ_cons, crashPayload_succ_cons]
          exact crashAt_eq hbody done torn []
  · rw [startFile_of_not_open hopen]
    exact s.run_of_not_logOpen hopen

/-- A session that dies when its calls are through leaves the full batches. -/
theorem reached_of_cut_after_calls {s : Session} {file : Bytes} (hopen : ¬ LogOpen (readWal file))
    (hcut : s.cut = some (s.calls.length / kWALFlushBatch, 0)) :
    s.reached file =
      (entriesFrom 0 s.calls).take (AtomicTelemetry.flushedCount s.calls.length) := by
  have hnil := startup_writeBuffer file
  rw [reached, appended, hcut]
  dsimp only
  rw [s.ops_of_not_logOpen hopen, body, ← AtomicTelemetry.length_ops_writeAll hnil s.calls,
    crashPayload_between, AtomicTelemetry.payload_writeAll hnil, RecordCodec.records_encodeAll,
    startup_sequence]

/-- The marker a session is still to write when its calls are through. -/
theorem pendingMarker_written :
    (s.written file).pendingMarker s.now =
      if LogClosed (readWal (startFile file)) then []
      else [WALEntry.cleanShutdownMarker (UInt64.ofNat s.calls.length) s.now] := by
  rw [AtomicTelemetry.pendingMarker, written, AtomicTelemetry.writeAll_cleanShutdown,
    AtomicTelemetry.writeAll_sequence, startup_cleanShutdown, startup_sequence, UInt64.zero_add]
  simp only [decide_eq_true_eq]

/-- A session that writes the marker and dies right after `mark_clean_shutdown` leaves
the full batches and the marker. -/
theorem reached_of_cut_after_marker {s : Session} {file : Bytes}
    (hlog : ¬ LogClosed (readWal (startFile file))) (hhow : s.how = .markThenDestroy)
    (hcut : s.cut = some ((startup file).2.length + s.calls.length / kWALFlushBatch + 2, 0)) :
    s.reached file =
      (entriesFrom 0 s.calls).take (AtomicTelemetry.flushedCount s.calls.length) ++
        [WALEntry.cleanShutdownMarker (UInt64.ofNat s.calls.length) s.now] := by
  have hnil := startup_writeBuffer file
  have hmarker := s.pendingMarker_written file
  rw [if_neg hlog] at hmarker
  have hflag : (s.written file).cleanShutdown = false := by
    rw [written, AtomicTelemetry.writeAll_cleanShutdown, startup_cleanShutdown,
      decide_eq_false hlog]
  -- after startup the batches of the calls come first, then the marker and a flush
  have hlen : ((startup file).2 ++ (((startup file).1.writeAll s.calls).2 ++
      ((s.written file).markCleanShutdown s.now).2)).length =
        (startup file).2.length + s.calls.length / kWALFlushBatch + 2 := by
    rw [List.length_append, List.length_append, AtomicTelemetry.length_ops_writeAll hnil,
      AtomicTelemetry.markCleanShutdown, hflag]
    rfl
  have hops : s.ops file = ((startup file).2 ++ (((startup file).1.writeAll s.calls).2 ++
      ((s.written file).markCleanShutdown s.now).2)) ++
        (((s.written file).markCleanShutdown s.now).1.destroy s.now).2 := by
    rw [ops, body, hhow, List.append_assoc, List.append_assoc]
    rfl
  rw [reached, appended, hcut]
  dsimp only
  rw [hops, ← hlen, crashPayload_between, payload_append, payload_startup, payload_append,
    AtomicTelemetry.payload_writeAll hnil, AtomicTelemetry.payload_markCleanShutdown, hmarker,
    ← RecordCodec.encodeAll_append, List.nil_append, RecordCodec.records_encodeAll,
    startup_sequence]

/-! ### What the next session reads -/

/-- Everything written at the end is a valid entry. -/
theorem isValid_of_mem_shutdownEntries {e : WALEntry} {t : AtomicTelemetry}
    (hbuffer : ∀ e ∈ t.writeBuffer, isValidWalEntry e = true)
    (he : e ∈ t.shutdownEntries s.how s.now) : isValidWalEntry e = true := by
  have hmarker : ∀ e ∈ t.pendingMarker s.now, isValidWalEntry e = true := by
    intro e he
    unfold AtomicTelemetry.pendingMarker at he
    split at he
    · exact absurd he List.not_mem_nil
    · rw [List.mem_singleton.mp he]
      exact WALEntry.cleanShutdownMarker_isValid _ _
  unfold AtomicTelemetry.shutdownEntries at he
  split at he
  · exact hmarker e he
  · rcases List.mem_append.mp he with he | he
    · exact hbuffer e he
    · exact hmarker e he
  · rcases List.mem_append.mp he with he | he
    · exact hmarker e he
    · exact hbuffer e he

/-- The buffer holds what the last full batch left. -/
theorem written_writeBuffer : (s.written file).writeBuffer =
    (entriesFrom 0 s.calls).drop (AtomicTelemetry.flushedCount s.calls.length) := by
  rw [written, AtomicTelemetry.writeBuffer_writeAll (startup_writeBuffer file), startup_sequence]

/-- A session records valid entries only. -/
theorem isValid_of_mem_recorded {e : WALEntry} (he : e ∈ s.recorded file) :
    isValidWalEntry e = true := by
  rcases List.mem_append.mp he with he | he
  · exact isValid_of_mem_entriesFrom (List.mem_of_mem_take he)
  · refine s.isValid_of_mem_shutdownEntries (fun e he => ?_) he
    rw [written_writeBuffer] at he
    exact isValid_of_mem_entriesFrom (List.mem_of_mem_drop he)

/-- **What the next session reads**: the log this session started with and the
entries it got to disk. -/
theorem readWal_run (haligned : WALEntry.recordSize ∣ (startFile file).length)
    (h : s.cut = none ∨ s.reached file ≠ []) :
    readWal (s.run file) = readWal (startFile file) ++ s.reached file := by
  have happ : s.cut = none ∨ s.appended file ≠ [] := by
    refine h.imp_right fun hne hnil => hne ?_
    rw [reached, hnil, RecordCodec.records_of_lt _ (by exact walCodec.size_pos)]
  rw [s.run_eq_append file happ, readWal_append_of_dvd haligned,
    readWal_of_prefix (fun e he => s.isValid_of_mem_recorded file he)
      (s.appended_prefix_encodeAll file)]
  rfl

/-- The first session on a path. -/
theorem readWal_run_nil : readWal (s.run []) = s.reached [] := by
  rw [s.run_of_not_logOpen (by simp [LogOpen]), List.nil_append]
  exact readWal_of_prefix (fun e he => s.isValid_of_mem_recorded [] he)
    (s.appended_prefix_encodeAll [])

/-! ### Alignment -/

/-- Every operation of a session writes whole records. -/
theorem recordSize_dvd_of_mem_ops {op : FileOp} (hop : op ∈ s.ops file) :
    WALEntry.recordSize ∣ op.written.length := by
  have hentries : ∀ es : List WALEntry, WALEntry.recordSize ∣ (walCodec.encodeAll es).length := by
    intro es
    rw [RecordCodec.length_encodeAll]
    exact Dvd.intro _ rfl
  rcases List.mem_append.mp hop with hop | hop
  · by_cases h : LogOpen (readWal file)
    · rw [startup_of_open h] at hop
      rw [List.mem_singleton.mp hop]
      exact dvd_zero _
    · rw [startup_of_not_open h] at hop
      exact absurd hop List.not_mem_nil
  rcases List.mem_append.mp hop with hop | hop
  · obtain ⟨batches, -, hops⟩ := AtomicTelemetry.writeAll_batched s.calls
      (show (startup file).1.writeBuffer.length < kWALFlushBatch by
        rw [startup_writeBuffer]; decide)
    rw [hops] at hop
    obtain ⟨b, -, rfl⟩ := List.mem_map.mp hop
    exact hentries b
  · exact AtomicTelemetry.recordSize_dvd_of_mem_shutdown hop

/-- The session is not cut in the middle of an append. -/
def Untorn : Prop := ∀ done torn, s.cut = some (done, torn) → torn = 0

/-- Only a torn append leaves a torn record. -/
theorem recordSize_dvd_run {s : Session} {file : Bytes} (huntorn : s.Untorn)
    (haligned : WALEntry.recordSize ∣ file.length) : WALEntry.recordSize ∣ (s.run file).length := by
  have hops := fun op (hop : op ∈ s.ops file) => s.recordSize_dvd_of_mem_ops file hop
  unfold run
  rcases hcut : s.cut with _ | ⟨done, torn⟩
  · exact dvd_length_runOps hops haligned
  · obtain rfl := huntorn done torn hcut
    dsimp only
    rw [crashAt_untorn]
    exact dvd_length_runOps (fun op hop => hops op (List.mem_of_mem_take hop)) haligned

end Session

/-! ## Histories -/

/-- Several sessions, one after the other. -/
def runSessions (history : List Session) (file : Bytes) : Bytes :=
  history.foldl (fun file s => s.run file) file

@[simp] theorem runSessions_nil (file : Bytes) : runSessions [] file = file := rfl

theorem runSessions_singleton (s : Session) (file : Bytes) :
    runSessions [s] file = s.run file :=
  rfl

/-- The last session of a history runs on what the others left. -/
theorem runSessions_concat (history : List Session) (s : Session) (file : Bytes) :
    runSessions (history ++ [s]) file = s.run (runSessions history file) :=
  List.foldl_concat _ _ _ _

/-- **Histories without a torn append** keep the file a whole number of records
long. -/
theorem recordSize_dvd_runSessions {history : List Session} (h : ∀ s ∈ history, s.Untorn) :
    WALEntry.recordSize ∣ (runSessions history []).length := by
  induction history using List.reverseRecOn with
  | nil => exact dvd_zero _
  | append_singleton history s ih =>
      rw [runSessions_concat]
      refine Session.recordSize_dvd_run (h s (by simp)) (ih fun s' hs' => h s' ?_)
      exact List.mem_append_left _ hs'

end Synapse.Recovery
