import Synapse.Recovery.Detection

/-!
# The place of the shutdown marker

The core ends a session with `mark_clean_shutdown` and lets the destructor flush
the buffer afterwards.  The marker goes straight to the file, so it overtakes
whatever is still buffered.

A session whose log is not closed writes the full batches, the marker and the
incomplete batch, in this order.  If there is an incomplete batch, a death right
after the marker leaves a marker that covers entries which are nowhere
(`not_markerCovers_of_partial_batch`).  If there is none, the marker is last at
every point.

What `read_wal` returns afterwards is the whole file and not the session's part
of it.  A closed log that the session finds stays in front, and its numbers are
those of an earlier counter: the new entries start at 0 again, so the file is in
order only if the session writes none (`inOrder_append_entriesFrom_iff`).  Startup
has emptied every other log, and then the order depends on the wrap of the counter
alone.  A file that is left with a torn tail is read off the boundary, and what is
read there is made of the tail and of the bytes of the calls
(`shutdown_order_iff`).
-/

namespace Synapse.Recovery

open ByteRecords FileOps MarkedLog Atomic

/-- The session that makes the given calls and is ended by `mark_clean_shutdown` and
the destructor, up to the cut. -/
def coreSession (cs : List WriteCall) (now : UInt64) (cut : Option (ℕ × ℕ)) : Session where
  calls := cs
  how := .markThenDestroy
  now := now
  cut := cut

/-- The marker that ends a run of calls at time `now`. -/
def markerOf (cs : List WriteCall) (now : UInt64) : WALEntry :=
  WALEntry.cleanShutdownMarker (UInt64.ofNat cs.length) now

/-- Once the session's marker is on disk, the entries with a smaller number are in
front of it.  The marker is the record behind the batches that are full when the
calls are through; a call can write one that looks like it elsewhere. -/
def MarkerCovers (cs : List WriteCall) (now : UInt64) (log : List WALEntry) : Prop :=
  log[AtomicTelemetry.flushedCount cs.length]? = some (markerOf cs now) →
    ((entriesFrom 0 cs).filter fun e => e.number < (markerOf cs now).number).Sublist
      (log.take (AtomicTelemetry.flushedCount cs.length))

/-- Increasing numbers without a gap. -/
structure InOrder (log : List WALEntry) : Prop where
  increasing : log.Pairwise fun a b => a.number < b.number
  gaps : sequenceGapCount log = 0

/-- The shutdown order the marker relies on, for a session on the given file: what
the session has on disk is covered by its marker at every point, and what
`read_wal` returns in the end, earlier sessions included, is in order. -/
structure OrderedShutdown (file : Bytes) (cs : List WriteCall) (now : UInt64) : Prop where
  covers : ∀ cut, MarkerCovers cs now ((coreSession cs now cut).reached file)
  inOrder : InOrder (readWal ((coreSession cs now none).run file))

/-- The entries of the calls, and the marker unless the flag is set from the start. -/
def markedEntries (file : Bytes) (cs : List WriteCall) (now : UInt64) : List WALEntry :=
  entriesFrom 0 cs ++ if LogClosed (readWal file) then [] else [markerOf cs now]

/-- When the order holds, in terms of the file the session starts on and its calls. -/
structure MarkerLast (file : Bytes) (cs : List WriteCall) (now : UInt64) : Prop where
  batches : ¬ LogClosed (readWal file) → cs.length % kWALFlushBatch = 0
  /-- An empty log takes any entries that are numbered without a wrap. -/
  fresh : LogOpen (readWal file) ∨ WALEntry.recordSize ∣ file.length →
    ¬ LogClosed (readWal file) → cs.length < 2 ^ 64
  /-- A closed log takes none. -/
  closed : WALEntry.recordSize ∣ file.length →
    LogClosed (readWal file) → cs = [] ∧ InOrder (readWal file)
  /-- Behind a torn tail it is the bytes that matter. -/
  torn : ¬ LogOpen (readWal file) → ¬ WALEntry.recordSize ∣ file.length →
    InOrder (readWal (file ++ walCodec.encodeAll (markedEntries file cs now)))

/-! ## What the session writes -/

section Stream

variable {file : Bytes} (cs : List WriteCall) (now : UInt64) (cut : Option (ℕ × ℕ))

/-- Startup neither closes a log nor opens one. -/
theorem logClosed_startFile_iff (file : Bytes) :
    LogClosed (readWal (startFile file)) ↔ LogClosed (readWal file) := by
  by_cases hopen : LogOpen (readWal file)
  · rw [startFile_of_open hopen, readWal_nil]
    exact iff_of_false not_logClosed_nil hopen.2
  · rw [startFile_of_not_open hopen]

/-- The stream of a session that writes a marker: full batches, marker, incomplete
batch. -/
theorem recorded_coreSession (hlog : ¬ LogClosed (readWal file)) :
    (coreSession cs now cut).recorded file =
      (entriesFrom 0 cs).take (AtomicTelemetry.flushedCount cs.length) ++
        markerOf cs now ::
          (entriesFrom 0 cs).drop (AtomicTelemetry.flushedCount cs.length) := by
  have hmarker := (coreSession cs now cut).pendingMarker_written file
  rw [if_neg ((logClosed_startFile_iff file).not.mpr hlog)] at hmarker
  rw [Session.recorded]
  simp only [AtomicTelemetry.shutdownEntries, coreSession] at hmarker ⊢
  rw [hmarker, Session.written_writeBuffer]
  rfl

/-- On a closed log the stream is the entries of the calls. -/
theorem recorded_coreSession_of_closed (hlog : LogClosed (readWal file)) :
    (coreSession cs now cut).recorded file = entriesFrom 0 cs := by
  rw [Session.recorded_of_logClosed _ ((logClosed_startFile_iff file).mpr hlog), Session.left]
  exact if_neg (by simp [coreSession])

end Stream

section Order

variable {file : Bytes} {cs : List WriteCall} {now : UInt64}

/-! ## Incomplete batches -/

/-- The marker is numbered by the calls before it, modulo the range of the counter. -/
theorem number_markerOf (cs : List WriteCall) (now : UInt64) :
    (markerOf cs now).number = cs.length % 2 ^ 64 := by
  rw [markerOf, WALEntry.number, WALEntry.cleanShutdownMarker_sequence]
  exact UInt64.toNat_ofNat'

/-- Death right after the marker, with entries still buffered. -/
theorem not_markerCovers_of_partial_batch (hlog : ¬ LogClosed (readWal file))
    (hrest : cs.length % kWALFlushBatch ≠ 0) :
    ¬ MarkerCovers cs now ((coreSession cs now
      (some ((startup file).2.length + cs.length / kWALFlushBatch + 2, 0))).reached file) := by
  have hlt : AtomicTelemetry.flushedCount cs.length < cs.length := by
    refine lt_of_le_of_ne (AtomicTelemetry.flushedCount_le _) fun heq => hrest ?_
    exact (AtomicTelemetry.flushedCount_eq_self_iff _).mp heq
  have hfront : ((entriesFrom 0 cs).take (AtomicTelemetry.flushedCount cs.length)).length =
      AtomicTelemetry.flushedCount cs.length := by
    rw [List.length_take, length_entriesFrom, Nat.min_eq_left hlt.le]
  intro hcovers
  rw [Session.reached_of_cut_after_marker ((logClosed_startFile_iff file).not.mpr hlog) rfl rfl]
    at hcovers
  have hsub := hcovers (by
    rw [coreSession, List.getElem?_append_right hfront.le, hfront, Nat.sub_self]
    rfl)
  rw [coreSession, List.take_append_of_le_length hfront.ge, List.take_of_length_le hfront.le]
    at hsub
  -- the last entry has a smaller number and is still in the buffer
  have hi : cs.length - 1 < (entriesFrom 0 cs).length := by
    rw [length_entriesFrom]
    omega
  have hbuffered : (entriesFrom 0 cs)[cs.length - 1] ∈
      (entriesFrom 0 cs).drop (AtomicTelemetry.flushedCount cs.length) := by
    rw [List.mem_drop_iff_getElem]
    refine ⟨cs.length - 1 - AtomicTelemetry.flushedCount cs.length, by omega, ?_⟩
    congr 1
    omega
  have hsmaller : (entriesFrom 0 cs)[cs.length - 1].number < (markerOf cs now).number := by
    rw [number_getElem_entriesFrom, number_markerOf]
    unfold kWALFlushBatch at hrest
    omega
  -- so more entries are covered than there are in front of the marker
  have hcount := (hsub.filter fun e => e.number < (markerOf cs now).number).length_le
  rw [List.filter_filter, ← List.take_append_drop (AtomicTelemetry.flushedCount cs.length)
    (entriesFrom 0 cs), List.filter_append, List.length_append] at hcount
  simp only [Bool.and_self, List.take_append_drop] at hcount
  have hmem : (entriesFrom 0 cs)[cs.length - 1] ∈
      ((entriesFrom 0 cs).drop (AtomicTelemetry.flushedCount cs.length)).filter
        fun e => e.number < (markerOf cs now).number :=
    List.mem_filter.mpr ⟨hbuffered, decide_eq_true hsmaller⟩
  have hpos := List.length_pos_of_mem hmem
  omega

/-! ## Full batches -/

/-- With nothing buffered the marker is the last entry of the stream, if there is one. -/
theorem recorded_eq_markedEntries
    (hbatches : ¬ LogClosed (readWal file) → cs.length % kWALFlushBatch = 0)
    (cut : Option (ℕ × ℕ)) :
    (coreSession cs now cut).recorded file = markedEntries file cs now := by
  by_cases hlog : LogClosed (readWal file)
  · rw [recorded_coreSession_of_closed cs now cut hlog, markedEntries, if_pos hlog,
      List.append_nil]
  · have hflushed := (AtomicTelemetry.flushedCount_eq_self_iff cs.length).mpr (hbatches hlog)
    rw [recorded_coreSession cs now cut hlog, hflushed, markedEntries, if_neg hlog,
      List.take_of_length_le (length_entriesFrom 0 cs).le,
      List.drop_of_length_le (length_entriesFrom 0 cs).le]

/-- No entry behind the full batches can be mistaken for the marker. -/
theorem getElem?_entriesFrom_ne_markerOf :
    (entriesFrom 0 cs)[AtomicTelemetry.flushedCount cs.length]? ≠ some (markerOf cs now) := by
  intro hget
  obtain ⟨hi, heq⟩ := List.getElem?_eq_some_iff.mp hget
  have hnumber := congrArg WALEntry.number heq
  rw [number_getElem_entriesFrom, number_markerOf] at hnumber
  rw [length_entriesFrom] at hi
  -- fewer than a batch of entries stand between the two
  unfold AtomicTelemetry.flushedCount kWALFlushBatch at hnumber hi
  omega

/-- On a closed log there is no marker that could cover too much. -/
theorem markerCovers_of_closed (hlog : LogClosed (readWal file)) (cut : Option (ℕ × ℕ)) :
    MarkerCovers cs now ((coreSession cs now cut).reached file) := by
  intro hget
  obtain ⟨rest, hrest⟩ := (coreSession cs now cut).reached_prefix_recorded file
  rw [recorded_coreSession_of_closed cs now cut hlog] at hrest
  obtain ⟨hi, -⟩ := List.getElem?_eq_some_iff.mp hget
  rw [← List.getElem?_append_left hi, hrest] at hget
  exact absurd hget getElem?_entriesFrom_ne_markerOf

/-- With nothing left in the buffer, the marker is last. -/
theorem markerCovers_of_full_batches (hlog : ¬ LogClosed (readWal file))
    (hfull : cs.length % kWALFlushBatch = 0) (cut : Option (ℕ × ℕ)) :
    MarkerCovers cs now ((coreSession cs now cut).reached file) := by
  have hflushed := (AtomicTelemetry.flushedCount_eq_self_iff cs.length).mpr hfull
  intro hget
  have hprefix := (coreSession cs now cut).reached_prefix_recorded file
  rw [recorded_eq_markedEntries (fun _ => hfull), markedEntries, if_neg hlog] at hprefix
  rw [hflushed] at hget ⊢
  obtain ⟨hlen, -⟩ := List.getElem?_eq_some_iff.mp hget
  -- the marker is the last entry, so everything is on disk
  have hall : (coreSession cs now cut).reached file = entriesFrom 0 cs ++ [markerOf cs now] := by
    refine hprefix.eq_of_length_le ?_
    rw [List.length_append, length_entriesFrom]
    exact hlen
  rw [hall, List.take_append_of_le_length (length_entriesFrom 0 cs).ge,
    List.take_of_length_le (length_entriesFrom 0 cs).le]
  exact List.filter_sublist

/-! ## Numbers in order -/

/-- The numbers of a run increase exactly as long as the counter does not wrap. -/
theorem pairwise_entriesFrom_iff (cs : List WriteCall) :
    ((entriesFrom 0 cs).Pairwise fun a b => a.number < b.number) ↔ cs.length ≤ 2 ^ 64 := by
  rw [List.pairwise_iff_getElem]
  constructor
  · intro hpair
    by_contra hlong
    have hi : 2 ^ 64 < (entriesFrom 0 cs).length := by
      rw [length_entriesFrom]
      omega
    have hlt := hpair 0 (2 ^ 64) (by omega) hi (by decide)
    rw [number_getElem_entriesFrom, number_getElem_entriesFrom, Nat.mod_self] at hlt
    exact absurd hlt (Nat.not_lt_zero _)
  · intro hlen i j hi hj hij
    have hj' := hj
    rw [length_entriesFrom] at hj'
    rw [number_getElem_entriesFrom, number_getElem_entriesFrom,
      Nat.mod_eq_of_lt (by omega), Nat.mod_eq_of_lt (by omega)]
    exact hij

/-- A run has no gaps, also where the counter wraps. -/
theorem sequenceGaps_entriesFrom (sequence : UInt64) (cs : List WriteCall)
    (tail : List WALEntry) :
    sequenceGaps sequence (entriesFrom (sequence + 1) cs ++ tail) =
      sequenceGaps (sequence + UInt64.ofNat cs.length) tail := by
  induction cs generalizing sequence with
  | nil => simp [entriesFrom]
  | cons c cs ih =>
      have hhead : (c.entry (sequence + 1)).sequence = sequence + 1 :=
        WALEntry.forWrite_sequence _ _ _ _ _
      rw [entriesFrom, List.cons_append, sequenceGaps, hhead, if_neg (fun h => h rfl),
        Nat.zero_add, ih, List.length_cons, UInt64.ofNat_add, UInt64.add_assoc,
        UInt64.add_comm 1]
      rfl

/-- The gaps of a session's entries are those behind them. -/
theorem sequenceGapCount_cons (c : WriteCall) (cs : List WriteCall) (tail : List WALEntry) :
    sequenceGapCount (entriesFrom 0 (c :: cs) ++ tail) =
      sequenceGaps (UInt64.ofNat cs.length) tail := by
  have hhead : (c.entry 0).sequence = 0 := WALEntry.forWrite_sequence _ _ _ _ _
  rw [entriesFrom, List.cons_append, sequenceGapCount, hhead, sequenceGaps_entriesFrom,
    UInt64.zero_add]

/-- A session's own entries with the marker behind them have no gap. -/
theorem sequenceGapCount_run (cs : List WriteCall) (now : UInt64) :
    sequenceGapCount (entriesFrom 0 cs ++ [markerOf cs now]) = 0 := by
  cases cs with
  | nil => rfl
  | cons c cs =>
      rw [sequenceGapCount_cons, sequenceGaps, markerOf, WALEntry.cleanShutdownMarker_sequence,
        List.length_cons, UInt64.ofNat_add]
      simp [sequenceGaps]

/-! ## The order -/

/-- The entries of a session and its marker are in order until the counter wraps. -/
theorem inOrder_run_iff (cs : List WriteCall) (now : UInt64) :
    InOrder (entriesFrom 0 cs ++ [markerOf cs now]) ↔ cs.length < 2 ^ 64 := by
  constructor
  · intro horder
    by_contra hge
    -- the entry with the largest number there is stands in front of the marker
    have hi : 2 ^ 64 - 1 < (entriesFrom 0 cs).length := by
      rw [length_entriesFrom]
      omega
    have hlt := (List.pairwise_append.mp horder.increasing).2.2 _ (List.getElem_mem hi) _
      (List.mem_singleton_self _)
    rw [number_getElem_entriesFrom, number_markerOf] at hlt
    omega
  · intro hlen
    refine ⟨?_, sequenceGapCount_run cs now⟩
    rw [List.pairwise_append]
    refine ⟨(pairwise_entriesFrom_iff cs).mpr hlen.le, List.pairwise_singleton _ _, ?_⟩
    intro e he marker hmarker
    rw [List.mem_singleton.mp hmarker, number_markerOf, Nat.mod_eq_of_lt hlen]
    exact number_lt_of_mem_entriesFrom he

/-- Behind a log that is not empty, entries that start at 0 again are out of order. -/
theorem inOrder_append_entriesFrom_iff {log : List WALEntry} (hlog : log ≠ []) :
    InOrder (log ++ entriesFrom 0 cs) ↔ cs = [] ∧ InOrder log := by
  constructor
  · intro horder
    have hnil : cs = [] := by
      by_contra hne
      obtain ⟨old, hold⟩ := List.exists_mem_of_ne_nil log hlog
      have hpos : 0 < (entriesFrom 0 cs).length := by
        rw [length_entriesFrom]
        exact List.length_pos_iff.mpr hne
      have hlt := (List.pairwise_append.mp horder.increasing).2.2 old hold _
        (List.getElem_mem hpos)
      rw [number_getElem_entriesFrom] at hlt
      exact absurd hlt (Nat.not_lt_zero _)
    subst hnil
    rw [entriesFrom, List.append_nil] at horder
    exact ⟨rfl, horder⟩
  · rintro ⟨rfl, horder⟩
    rwa [entriesFrom, List.append_nil]

/-- A file without a torn tail reads as the log at the start and the new entries. -/
theorem inOrder_boundary_iff
    (hboundary : LogOpen (readWal file) ∨ WALEntry.recordSize ∣ file.length) :
    InOrder (readWal (startFile file ++ walCodec.encodeAll (markedEntries file cs now))) ↔
      (¬ LogClosed (readWal file) → cs.length < 2 ^ 64) ∧
        (LogClosed (readWal file) → cs = [] ∧ InOrder (readWal file)) := by
  have haligned : WALEntry.recordSize ∣ (startFile file).length := by
    rcases hboundary with hopen | hdvd
    · rw [startFile_of_open hopen]
      exact dvd_zero _
    · exact recordSize_dvd_startFile hdvd
  have hvalid : ∀ e ∈ markedEntries file cs now, isValidWalEntry e = true := by
    intro e he
    rcases List.mem_append.mp he with he | he
    · exact isValid_of_mem_entriesFrom he
    · split_ifs at he
      · exact absurd he List.not_mem_nil
      · rw [List.mem_singleton.mp he]
        exact WALEntry.cleanShutdownMarker_isValid _ _
  rw [readWal_append_of_dvd haligned, readWal_encodeAll hvalid, markedEntries]
  by_cases hlog : LogClosed (readWal file)
  · have hne : readWal file ≠ [] := fun hnil => not_logClosed_nil (hnil ▸ hlog)
    rw [if_pos hlog, List.append_nil, startFile_of_not_open fun hopen => hopen.2 hlog,
      inOrder_append_entriesFrom_iff hne]
    exact ⟨fun h => ⟨fun hnot => absurd hlog hnot, fun _ => h⟩, fun h => h.2 hlog⟩
  · have hnil : readWal (startFile file) = [] := by
      by_contra hne
      exact not_logOpen_startFile file ⟨hne, (logClosed_startFile_iff file).not.mpr hlog⟩
    rw [if_neg hlog, hnil, List.nil_append, inOrder_run_iff]
    exact ⟨fun h => ⟨fun _ => h, fun hclosed => absurd hclosed hlog⟩, fun h => h.1 hlog⟩

/-- **The order holds exactly for whole batches behind no other log**: on an empty log
while the counter has not wrapped, and on a closed one, itself in order, for no calls
at all.  Behind a torn tail the bytes decide. -/
theorem shutdown_order_iff (file : Bytes) (cs : List WriteCall) (now : UInt64) :
    OrderedShutdown file cs now ↔ MarkerLast file cs now := by
  have hrun : (¬ LogClosed (readWal file) → cs.length % kWALFlushBatch = 0) →
      (coreSession cs now none).run file =
        startFile file ++ walCodec.encodeAll (markedEntries file cs now) := by
    intro hbatches
    rw [Session.run_eq_append _ file (Or.inl rfl), Session.appended_of_uncut file rfl,
      recorded_eq_markedEntries hbatches]
  constructor
  · intro hordered
    have hbatches : ¬ LogClosed (readWal file) → cs.length % kWALFlushBatch = 0 := by
      intro hlog
      by_contra hrest
      exact not_markerCovers_of_partial_batch hlog hrest (hordered.covers _)
    have horder := hordered.inOrder
    rw [hrun hbatches] at horder
    refine ⟨hbatches, fun hboundary => ?_, fun hdvd => ?_, fun hopen hdvd => ?_⟩
    · exact ((inOrder_boundary_iff hboundary).mp horder).1
    · exact ((inOrder_boundary_iff (Or.inr hdvd)).mp horder).2
    · rwa [startFile_of_not_open hopen] at horder
  · intro hlast
    refine ⟨fun cut => ?_, ?_⟩
    · by_cases hlog : LogClosed (readWal file)
      · exact markerCovers_of_closed hlog cut
      · exact markerCovers_of_full_batches hlog (hlast.batches hlog) cut
    · rw [hrun hlast.batches]
      by_cases hdvd : WALEntry.recordSize ∣ file.length
      · exact (inOrder_boundary_iff (Or.inr hdvd)).mpr
          ⟨hlast.fresh (Or.inr hdvd), hlast.closed hdvd⟩
      · by_cases hopen : LogOpen (readWal file)
        · exact (inOrder_boundary_iff (Or.inl hopen)).mpr
            ⟨hlast.fresh (Or.inl hopen), fun hclosed => absurd hclosed hopen.2⟩
        · rw [startFile_of_not_open hopen]
          exact hlast.torn hopen hdvd

/-- One draw on a fresh path: a death after `mark_clean_shutdown` leaves the marker
numbered 1 and no entry 0. -/
theorem marker_overtakes_draw :
    ¬ MarkerCovers (draws 1) 0 (readWal ((coreSession (draws 1) 0 (some (2, 0))).run [])) := by
  have hlog : ¬ LogClosed (readWal []) := by
    rw [readWal_nil]
    exact not_logClosed_nil
  have hstart : (startup []).2.length = 0 := by
    rw [startup_of_not_open (by simp [LogOpen])]
    rfl
  have hcovers : ¬ MarkerCovers (draws 1) 0 _ :=
    not_markerCovers_of_partial_batch hlog (by decide)
  rwa [hstart, ← Session.readWal_run_nil] at hcovers

end Order

end Synapse.Recovery
