import Synapse.Atomic.Recovery

/-!
# The start of a session

A session opens the telemetry, checks for a crash, and replays if one is
reported.  Startup therefore empties the file when its log is neither empty nor
closed (`startFile_of_open`) and leaves it alone otherwise, torn tail included
(`startFile_of_not_open`).

The three numbers a session starts with are fixed: nothing is buffered, the
sequence counter is at 0 whatever the log's numbers are, and the shutdown flag
says whether the log is closed (`startup_writeBuffer`, `startup_sequence`,
`startup_cleanShutdown`).

Nothing in startup looks at the length of the file.  A torn tail in a file that
is left alone shifts whatever is appended after it off the reader's stride
(`appends_intact_iff`).
-/

namespace Synapse.Atomic

open ByteRecords FileOps MarkedLog

/-- Open, `check_recovery()`, and `replay()` if it returned a nonzero count. -/
def startup (file : Bytes) : AtomicTelemetry × List FileOp :=
  let checked := AtomicTelemetry.create.checkRecovery file
  if checked.1 ≠ 0 then checked.2.replay.2 else (checked.2, [])

/-- The file once a session has started on it. -/
def startFile (file : Bytes) : Bytes := runOps (startup file).2 file

section Startup

variable {file : Bytes}

/-- An open log is replayed. -/
theorem startup_of_open (h : LogOpen (readWal file)) :
    startup file = (AtomicTelemetry.create.checkRecovery file).2.replay.2 :=
  if_pos ((AtomicTelemetry.checkRecovery_ne_zero_iff _ _).mpr h)

/-- Any other log stays as it is. -/
theorem startup_of_not_open (h : ¬ LogOpen (readWal file)) :
    startup file = ((AtomicTelemetry.create.checkRecovery file).2, []) :=
  if_neg fun hne => h ((AtomicTelemetry.checkRecovery_ne_zero_iff _ _).mp hne)

/-- A crashed log is gone after startup. -/
theorem startFile_of_open (h : LogOpen (readWal file)) : startFile file = [] := by
  rw [startFile, startup_of_open h]
  rfl

/-- Any other file is as it was, to the byte. -/
theorem startFile_of_not_open (h : ¬ LogOpen (readWal file)) : startFile file = file := by
  rw [startFile, startup_of_not_open h]
  rfl

/-- There is nothing to do on a fresh directory. -/
@[simp] theorem startFile_nil : startFile [] = [] := by
  refine startFile_of_not_open ?_
  rw [readWal_nil]
  exact fun h => h.1 rfl

/-- A new session starts with an empty or a closed log. -/
theorem not_logOpen_startFile (file : Bytes) : ¬ LogOpen (readWal (startFile file)) := by
  by_cases h : LogOpen (readWal file)
  · rw [startFile_of_open h, readWal_nil]
    exact fun hnil => hnil.1 rfl
  · rwa [startFile_of_not_open h]

/-- Startup leaves a file that is whole records long so. -/
theorem recordSize_dvd_startFile (h : WALEntry.recordSize ∣ file.length) :
    WALEntry.recordSize ∣ (startFile file).length := by
  by_cases hopen : LogOpen (readWal file)
  · rw [startFile_of_open hopen]
    exact dvd_zero _
  · rwa [startFile_of_not_open hopen]

@[simp] theorem startup_writeBuffer (file : Bytes) : (startup file).1.writeBuffer = [] := by
  by_cases h : LogOpen (readWal file)
  · rw [startup_of_open h]
    rfl
  · rw [startup_of_not_open h]
    rfl

@[simp] theorem startup_sequence (file : Bytes) : (startup file).1.sequence = 0 := by
  by_cases h : LogOpen (readWal file)
  · rw [startup_of_open h]
    rfl
  · rw [startup_of_not_open h]
    rfl

/-- The shutdown flag a session starts with is already set if the log is closed. -/
theorem startup_cleanShutdown (file : Bytes) :
    (startup file).1.cleanShutdown = decide (LogClosed (readWal (startFile file))) := by
  by_cases h : LogOpen (readWal file)
  · have hnil : ¬ LogClosed (readWal (startFile file)) := by
      rw [startFile_of_open h, readWal_nil]
      exact not_logClosed_nil
    rw [startup_of_open h, AtomicTelemetry.replay, AtomicTelemetry.checkRecovery_eq,
      decide_eq_false hnil]
    exact decide_eq_false h.2
  · rw [startFile_of_not_open h, startup_of_not_open h, AtomicTelemetry.checkRecovery_eq]

end Startup

/-! ## Appending after startup -/

/-- The file after a session that starts, makes the given calls and flushes. -/
def afterSession (file : Bytes) (cs : List WriteCall) : Bytes :=
  let started := startup file
  let written := started.1.writeAll cs
  runOps (started.2 ++ (written.2 ++ written.1.flushBuffer.2)) file

/-- What a session leaves in the file before it shuts down. -/
theorem afterSession_eq (file : Bytes) (cs : List WriteCall) :
    afterSession file cs = startFile file ++ walCodec.encodeAll (entriesFrom 0 cs) := by
  have hnil := startup_writeBuffer file
  rw [afterSession, runOps_append, ← startFile,
    runOps_eq (AtomicTelemetry.appendOnly_writeAll_flush hnil cs),
    AtomicTelemetry.payload_writeAll_flush hnil, startup_sequence]

/-- The entries of the session are among what the file now reads as, beyond what
it read as before. -/
def AppendsIntact (file : Bytes) (cs : List WriteCall) : Prop :=
  (entriesFrom 0 cs).Sublist
    ((readWal (afterSession file cs)).drop (readWal (startFile file)).length)

/-- A file that startup leaves at a record boundary takes any entries. -/
theorem appendsIntact_of_dvd {file : Bytes} (h : WALEntry.recordSize ∣ (startFile file).length)
    (cs : List WriteCall) : AppendsIntact file cs := by
  rw [AppendsIntact, afterSession_eq, readWal_append_of_dvd h, List.drop_left,
    readWal_encodeAll fun e he => isValid_of_mem_entriesFrom he]

/-! ### A record that no shift of itself reproduces -/

/-- A call at time 0 with the largest payload, all ones. -/
def probe : WriteCall where
  now := 0
  type := .none
  data := some (List.replicate 240 1)
  size := 240
  size_le := by decide
  readable := by
    intro bytes h
    rw [← Option.some.inj h, List.length_replicate]
    rfl

/-- The probe's record: zeros up to the size field, then the size, then ones. -/
def probeBytes : Bytes :=
  List.replicate 20 0 ++ 240 :: (List.replicate 3 0 ++ List.replicate 240 1)

theorem length_probeBytes : probeBytes.length = WALEntry.recordSize := by
  rw [probeBytes, List.length_append, List.length_cons, List.length_append]
  simp only [List.length_replicate]
  rfl

/-- The probe is encoded as the bytes given for it. -/
theorem encode_probe : (probe.entry 0).encode = probeBytes := by decide +kernel

theorem getElem?_probeBytes {i : ℕ} (hi : i < 264) : probeBytes[i]? =
    some (if i < 20 then 0 else if i = 20 then 240 else if i < 24 then 0 else 1) := by
  rw [probeBytes]
  rcases Nat.lt_trichotomy i 20 with hlt | rfl | hgt
  · rw [List.getElem?_append_left (by rw [List.length_replicate]; exact hlt),
      List.getElem?_replicate_of_lt hlt, if_pos hlt]
  · rfl
  · obtain ⟨j, rfl⟩ : ∃ j, i = 20 + (j + 1) := ⟨i - 21, by omega⟩
    rw [List.getElem?_append_right (by simp), List.length_replicate, Nat.add_sub_cancel_left,
      List.getElem?_cons_succ, if_neg (by omega), if_neg (by omega)]
    rcases Nat.lt_or_ge j 3 with hj | hj
    · rw [List.getElem?_append_left (by rw [List.length_replicate]; exact hj),
        List.getElem?_replicate_of_lt hj, if_pos (by omega)]
    · rw [List.getElem?_append_right (by rw [List.length_replicate]; exact hj),
        List.getElem?_replicate_of_lt (by rw [List.length_replicate]; omega), if_neg (by omega)]

/-- Moving the record by fewer bytes than its length changes it: at the size field
if the move is short, at the first byte of the payload or the move's own end
otherwise. -/
theorem drop_probeBytes_ne {r : ℕ} (hpos : 0 < r) (hlt : r < WALEntry.recordSize) :
    probeBytes.drop r ≠ probeBytes.take (WALEntry.recordSize - r) := by
  have hr : r < 264 := hlt
  intro heq
  have hat : ∀ i, r ≤ i → i < 264 → probeBytes[i]? = probeBytes[i - r]? := by
    intro i hri hi
    have := congrArg (fun l : Bytes => l[i - r]?) heq
    simp only [List.getElem?_drop, List.getElem?_take] at this
    rw [show r + (i - r) = i by omega,
      if_pos (show i - r < WALEntry.recordSize - r by unfold WALEntry.recordSize; omega)] at this
    exact this
  rcases le_or_gt r 20 with hshort | hlong
  · have h := hat 20 hshort (by decide)
    rw [getElem?_probeBytes (by decide), getElem?_probeBytes (by omega),
      if_pos (show 20 - r < 20 by omega)] at h
    exact absurd h (by decide)
  · rcases lt_or_ge r 24 with hsize | hpayload
    · have h := hat 24 hsize.le (by decide)
      rw [getElem?_probeBytes (by decide), getElem?_probeBytes (by omega),
        if_pos (show 24 - r < 20 by omega)] at h
      exact absurd h (by decide)
    · have h := hat r le_rfl hr
      rw [getElem?_probeBytes hr, Nat.sub_self, if_neg (by omega), if_neg (by omega),
        if_neg (by omega)] at h
      exact absurd h (by decide)

/-- Off a record boundary the probe is not found again. -/
theorem not_appendsIntact_probe {file : Bytes}
    (h : ¬ WALEntry.recordSize ∣ (startFile file).length) : ¬ AppendsIntact file [probe] := by
  obtain ⟨front, tail, hsplit, hfront, htail, hshort⟩ :=
    walCodec.exists_aligned_split (startFile file)
  have hsize : tail.length < WALEntry.recordSize := hshort
  have hprobe := length_probeBytes
  have hpos : 0 < tail.length := by
    rw [htail]
    exact Nat.pos_of_ne_zero fun hzero => h (Nat.dvd_of_mod_eq_zero hzero)
  have hbefore : readWal (startFile file) = readWal front := by
    rw [hsplit, readWal_append_of_dvd hfront]
    simp [readWal, walCodec.records_of_lt hshort]
  -- the only new record straddles the torn tail and the probe
  have hnew : walCodec.records (tail ++ probeBytes) =
      [WALEntry.decode ((tail ++ probeBytes).take WALEntry.recordSize)] := by
    refine walCodec.records_eq_singleton ?_ ?_
    · rw [List.length_append, hprobe]
      exact Nat.le_add_left _ _
    · rw [List.length_append, hprobe, Nat.two_mul]
      exact Nat.add_lt_add_right hshort _
  intro hsub
  have hentries : entriesFrom 0 [probe] = [probe.entry 0] := rfl
  have hencoded : walCodec.encodeAll [probe.entry 0] = probeBytes := by
    rw [RecordCodec.encodeAll_cons, RecordCodec.encodeAll_nil, List.append_nil]
    exact encode_probe
  rw [AppendsIntact, afterSession_eq, hbefore, hsplit, List.append_assoc,
    readWal_append_of_dvd hfront, List.drop_left, hentries, hencoded, readWal, hnew] at hsub
  have hmem := List.mem_of_mem_filter (hsub.subset List.mem_cons_self)
  have hstraddle : probeBytes = (tail ++ probeBytes).take WALEntry.recordSize := by
    have hencode := congrArg WALEntry.encode (List.mem_singleton.mp hmem)
    rw [encode_probe] at hencode
    refine hencode.trans (WALEntry.encode_decode ?_)
    rw [List.length_take, List.length_append, hprobe, Nat.min_eq_left (Nat.le_add_left _ _)]
  refine drop_probeBytes_ne hpos hsize ?_
  have hdrop := congrArg (List.drop tail.length) hstraddle
  rwa [List.drop_take, List.drop_left] at hdrop

/-- **A torn tail hides nothing exactly when startup removes it.** -/
theorem appends_intact_iff (file : Bytes) :
    (∀ cs, AppendsIntact file cs) ↔
      LogOpen (readWal file) ∨ WALEntry.recordSize ∣ file.length := by
  constructor
  · intro hall
    by_contra hneither
    obtain ⟨hopen, hdvd⟩ := not_or.mp hneither
    exact not_appendsIntact_probe (by rwa [startFile_of_not_open hopen]) (hall [probe])
  · rintro (hopen | hdvd) cs
    · refine appendsIntact_of_dvd ?_ cs
      rw [startFile_of_open hopen]
      exact dvd_zero _
    · exact appendsIntact_of_dvd (recordSize_dvd_startFile hdvd) cs

/-- One byte of a record torn by a crash, and the next session's entry is not read
back. -/
theorem torn_byte_hides_entry : ¬ AppendsIntact [0] [probe] := by
  refine not_appendsIntact_probe ?_
  have hread : readWal [0] = [] := by
    rw [readWal, walCodec.records_of_lt (by decide), List.filter_nil]
  rw [startFile_of_not_open (by simp [LogOpen, hread])]
  decide

end Synapse.Atomic
