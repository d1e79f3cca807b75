import Synapse.Atomic.Batching
import Synapse.Foundations.MarkedLog

/-!
# Recovery at startup

What `check_recovery` decides and what `replay` delivers.

`check_recovery` compares three numbers gathered over the whole file.  What it
decides is a property of the log alone: the log is taken for cleanly ended
exactly when it is *closed*, that is when its last `CleanShutdown` record carries
the largest number in the file and that number is positive (`LogClosed`,
`checkRecovery_eq`).  Everything downstream is argued from `LogClosed`.

`replay` counts every entry it finds, but the ring refuses all after the first
1023 and the file is emptied either way (`replay_lossless_iff`).
-/

namespace Synapse.Atomic

open ByteRecords FileOps MarkedLog

/-! ## Closed logs -/

/-- The number of an entry, as a number. -/
def WALEntry.number (e : WALEntry) : ℕ := e.sequence.toNat

/-- The log's last `CleanShutdown` record is numbered `m` and nothing in it is
numbered higher. -/
abbrev LogClosedBy (log : List WALEntry) (m : ℕ) : Prop :=
  ClosedBy WALEntry.isMarker WALEntry.number log m

/-- The log ends cleanly, as far as its numbers tell. -/
def LogClosed (log : List WALEntry) : Prop := ∃ m, 0 < m ∧ LogClosedBy log m

/-- The log is taken for one a crash left behind. -/
def LogOpen (log : List WALEntry) : Prop := log ≠ [] ∧ ¬ LogClosed log

/-- The empty log is not closed. -/
theorem not_logClosed_nil : ¬ LogClosed [] := fun ⟨_, _, h⟩ => h.ne_nil rfl

/-! ## `check_recovery` -/

section Scan

variable (log : List WALEntry)

/-- The scan's `shutdown_seq` is the number of the last marker, 0 without one. -/
theorem scan_shutdownSeq :
    (log.foldl RecoveryScan.visit RecoveryScan.start).shutdownSeq.toNat =
      (lastMark WALEntry.isMarker WALEntry.number log).getD 0 := by
  induction log using List.reverseRecOn with
  | nil => rfl
  | append_singleton log e ih =>
      rw [List.foldl_concat]
      by_cases he : e.eventType = WALEventType.cleanShutdown.code
      · rw [lastMark_concat_mark _ _ (by simpa [WALEntry.isMarker] using he)]
        simp [RecoveryScan.visit, he, WALEntry.number]
      · rw [lastMark_concat_other _ _ (by simpa [WALEntry.isMarker] using he), ← ih]
        simp [RecoveryScan.visit, he]

/-- The scan's `max_seq` is the least upper bound of the numbers. -/
theorem scan_maxSeq_le_iff (m : ℕ) :
    (log.foldl RecoveryScan.visit RecoveryScan.start).maxSeq.toNat ≤ m ↔
      ∀ e ∈ log, e.number ≤ m := by
  induction log using List.reverseRecOn with
  | nil => simp [RecoveryScan.start]
  | append_singleton log e ih =>
      rw [List.foldl_concat]
      simp only [List.mem_append, List.mem_singleton, or_imp, forall_and, forall_eq]
      rw [← ih, RecoveryScan.visit]
      simp only [WALEntry.number, gt_iff_lt, UInt64.lt_iff_toNat_lt]
      split_ifs <;> omega

/-- The verdict of `check_recovery` is that the log is closed. -/
theorem scan_clean_iff :
    (log.foldl RecoveryScan.visit RecoveryScan.start).clean = true ↔ LogClosed log := by
  have hmax := scan_maxSeq_le_iff log
  have hlast := scan_shutdownSeq log
  simp only [RecoveryScan.clean, Bool.and_eq_true, decide_eq_true_iff, ge_iff_le, gt_iff_lt,
    UInt64.le_iff_toNat_le, UInt64.lt_iff_toNat_lt, hlast, hmax]
  constructor
  · rintro ⟨hle, hpos⟩
    cases hm : lastMark WALEntry.isMarker WALEntry.number log with
    | none =>
        -- without a marker `shutdown_seq` is 0 and so is the maximum
        rw [hm] at hle
        exact absurd ((hmax 0).mpr hle) (Nat.not_le.mpr hpos)
    | some m =>
        rw [hm] at hle
        refine ⟨m, ?_, hm, hle⟩
        exact lt_of_lt_of_le (by simpa using hpos) ((hmax m).mpr hle)
  · rintro ⟨m, hpos, hm, hle⟩
    rw [hm]
    refine ⟨hle, ?_⟩
    obtain ⟨e, he, -, rfl⟩ := exists_of_lastMark _ _ hm
    -- the marker is an entry, so the maximum is at least its number
    by_contra hzero
    have := (hmax 0).mp (by simpa using hzero) e he
    omega

/-- The scan decides it. -/
instance decidableLogClosed : Decidable (LogClosed log) :=
  decidable_of_iff _ (scan_clean_iff log)

instance decidableLogOpen : Decidable (LogOpen log) :=
  inferInstanceAs (Decidable (log ≠ [] ∧ ¬ LogClosed log))

end Scan

namespace AtomicTelemetry

/-- **What `check_recovery` does.**  It returns 0 on a closed log and the number
of entries otherwise, and sets the flag to the verdict. -/
theorem checkRecovery_eq (file : Bytes) (t : AtomicTelemetry) :
    t.checkRecovery file =
      (if LogClosed (readWal file) then 0 else (readWal file).length,
        { t with
          cleanShutdown := decide (LogClosed (readWal file))
          pendingRecovery := readWal file }) := by
  have hclean : ((readWal file).foldl RecoveryScan.visit RecoveryScan.start).clean =
      decide (LogClosed (readWal file)) := by
    rw [Bool.eq_iff_iff, decide_eq_true_iff]
    exact scan_clean_iff _
  unfold checkRecovery
  simp only [hclean, decide_eq_true_eq]

/-- A crash is reported exactly when the log is neither empty nor closed. -/
theorem checkRecovery_ne_zero_iff (file : Bytes) (t : AtomicTelemetry) :
    (t.checkRecovery file).1 ≠ 0 ↔ LogOpen (readWal file) := by
  rw [checkRecovery_eq]
  split_ifs with h <;> simp [LogOpen, h]

/-- Nothing is reported for an empty log and for a closed one, and for nothing else. -/
theorem checkRecovery_eq_zero_iff (file : Bytes) (t : AtomicTelemetry) :
    (t.checkRecovery file).1 = 0 ↔ readWal file = [] ∨ LogClosed (readWal file) := by
  rw [← not_iff_not, ← ne_eq, checkRecovery_ne_zero_iff, not_or]
  exact Iff.rfl

/-! ## `replay` -/

/-- `replay` pushes the entries other than markers, and counts them. -/
theorem foldl_replayLoop (log : List WALEntry) (acc : TelemetryRing × ℕ) :
    log.foldl replayLoop acc =
      (acc.1.pushAll (log.filter fun e => !e.isMarker),
        acc.2 + (log.filter fun e => !e.isMarker).length) := by
  induction log generalizing acc with
  | nil => rfl
  | cons e log ih =>
      rw [List.foldl_cons, ih, replayLoop]
      by_cases he : e.eventType = WALEventType.cleanShutdown.code
      · simp [he, WALEntry.isMarker]
      · simp [he, WALEntry.isMarker, MaskRing.pushAll, Nat.add_assoc, Nat.add_comm 1]

/-- Reading `n` times takes the first `n` entries off the ring. -/
theorem readMany_eq (n : ℕ) (t : AtomicTelemetry) :
    readMany n t = t.ring.contents.take n := by
  rw [← MaskRing.popMany_eq]
  induction n generalizing t with
  | zero => rfl
  | succ n ih => rw [readMany, MaskRing.popMany, ih]; rfl

end AtomicTelemetry

/-- The entries of a file that recovery is to bring back. -/
def recoverable (file : Bytes) : List WALEntry :=
  (readWal file).filter fun e => !e.isMarker

/-- `replay` after `check_recovery` on the given file: reading the ring gives the
recoverable entries in file order, the returned count is the number of entries
read, and none of them is gone from both the ring and the file. -/
structure LosslessReplay (file : Bytes) (t : AtomicTelemetry) : Prop where
  delivered : ∀ n, (recoverable file).length ≤ n →
    AtomicTelemetry.readMany n (t.checkRecovery file).2.replay.2.1 = recoverable file
  counted : ∀ n, (recoverable file).length ≤ n →
    (t.checkRecovery file).2.replay.1 =
      (AtomicTelemetry.readMany n (t.checkRecovery file).2.replay.2.1).length
  kept : ∀ e ∈ recoverable file,
    e ∈ readWal (runOps (t.checkRecovery file).2.replay.2.2 file) ∨
      e ∈ (t.checkRecovery file).2.replay.2.1.ring.contents

/-- Replay into an empty ring leaves the first 1023 recoverable entries there. -/
theorem contents_replay (file : Bytes) {t : AtomicTelemetry} (hring : t.ring.contents = []) :
    (t.checkRecovery file).2.replay.2.1.ring.contents =
      (recoverable file).take (kCapacity - 1) := by
  rw [AtomicTelemetry.checkRecovery_eq, AtomicTelemetry.replay]
  simp only [AtomicTelemetry.foldl_replayLoop, MaskRing.contents_pushAll, hring]
  rfl

/-- The replay counts every entry it finds. -/
theorem count_replay (file : Bytes) (t : AtomicTelemetry) :
    (t.checkRecovery file).2.replay.1 = (recoverable file).length := by
  rw [AtomicTelemetry.checkRecovery_eq, AtomicTelemetry.replay]
  simp only [AtomicTelemetry.foldl_replayLoop, Nat.zero_add]
  rfl

/-- A log that does not fit the ring is not delivered whole. -/
theorem not_losslessReplay_of_lt {file : Bytes} {t : AtomicTelemetry}
    (hring : t.ring.contents = []) (h : kCapacity - 1 < (recoverable file).length) :
    ¬ LosslessReplay file t := by
  intro hloss
  have hread := hloss.delivered _ le_rfl
  rw [AtomicTelemetry.readMany_eq, contents_replay file hring, List.take_take] at hread
  have hlen := congrArg List.length hread
  rw [List.length_take] at hlen
  omega

/-- **Recovery is lossless exactly up to the ring's capacity.** -/
theorem replay_lossless_iff (file : Bytes) (t : AtomicTelemetry)
    (hring : t.ring.contents = []) :
    LosslessReplay file t ↔ (recoverable file).length ≤ kCapacity - 1 := by
  constructor
  · intro hloss
    by_contra h
    exact not_losslessReplay_of_lt hring (Nat.lt_of_not_le h) hloss
  · intro hfit
    have hcontents := contents_replay file hring
    rw [List.take_of_length_le hfit] at hcontents
    have hread : ∀ n, (recoverable file).length ≤ n →
        AtomicTelemetry.readMany n (t.checkRecovery file).2.replay.2.1 = recoverable file := by
      intro n hn
      rw [AtomicTelemetry.readMany_eq, hcontents, List.take_of_length_le hn]
    refine ⟨hread, fun n hn => ?_, fun e he => Or.inr (hcontents ▸ he)⟩
    rw [hread n hn, count_replay]

/-! ### Files of plain entries -/

/-- Markers among the entries of a run come from calls that pass `CleanShutdown`. -/
theorem isMarker_entriesFrom_iff (sequence : UInt64) (cs : List WriteCall) :
    (∀ e ∈ entriesFrom sequence cs, e.isMarker = false) ↔ ∀ c ∈ cs, c.type ≠ .cleanShutdown := by
  induction cs generalizing sequence with
  | nil => simp [entriesFrom]
  | cons c cs ih =>
      have hhead : (c.entry sequence).isMarker = false ↔ c.type ≠ .cleanShutdown := by
        rw [WriteCall.entry, WALEntry.isMarker_forWrite, decide_eq_false_iff_not]
      rw [entriesFrom, List.forall_mem_cons, List.forall_mem_cons, ih, hhead]

/-- Without a marker all entries are replayed. -/
theorem recoverable_of_plain {cs : List WriteCall} (h : ∀ c ∈ cs, c.type ≠ .cleanShutdown) :
    recoverable (walCodec.encodeAll (entriesFrom 0 cs)) = entriesFrom 0 cs := by
  rw [recoverable, readWal_encodeAll fun e he => isValid_of_mem_entriesFrom he,
    List.filter_eq_self]
  intro e he
  rw [(isMarker_entriesFrom_iff 0 cs).mpr h e he, Bool.not_false]

/-- A file of plain entries is not closed. -/
theorem not_logClosed_of_plain {cs : List WriteCall} (h : ∀ c ∈ cs, c.type ≠ .cleanShutdown) :
    ¬ LogClosed (entriesFrom 0 cs) := by
  rintro ⟨m, -, hm⟩
  refine not_closedBy_of_no_mark ?_ hm
  rw [lastMark_eq_none_iff]
  exact (isMarker_entriesFrom_iff 0 cs).mpr h

/-- Plain entries alone look like a crash. -/
theorem logOpen_of_plain {cs : List WriteCall} (h : ∀ c ∈ cs, c.type ≠ .cleanShutdown)
    (hpos : 0 < cs.length) : LogOpen (entriesFrom 0 cs) := by
  refine ⟨fun hnil => ?_, not_logClosed_of_plain h⟩
  rw [← length_entriesFrom 0 cs, hnil] at hpos
  exact lt_irrefl 0 hpos

/-- A session of three draws that ended cleanly and one of 64 that did not: all 67 draws are
delivered. -/
theorem replay_lossless_two_sessions :
    LosslessReplay (walCodec.encodeAll (entriesFrom 0 (draws 3) ++
      WALEntry.cleanShutdownMarker 3 0 :: entriesFrom 0 (draws 64))) AtomicTelemetry.create := by
  refine (replay_lossless_iff _ AtomicTelemetry.create (MaskRing.contents_empty _)).mpr ?_
  rw [recoverable, readWal_encodeAll]
  · refine (List.length_filter_le _ _).trans ?_
    rw [List.length_append, List.length_cons, length_entriesFrom, length_entriesFrom,
      length_draws, length_draws]
    decide
  · intro e he
    rcases List.mem_append.mp he with he | he
    · exact isValid_of_mem_entriesFrom he
    · rcases List.mem_cons.mp he with rfl | he
      · exact WALEntry.cleanShutdownMarker_isValid _ _
      · exact isValid_of_mem_entriesFrom he

/-- 1024 draws: a crash is reported, `replay` returns 1024 and empties the file,
and the last draw is neither in the ring nor in the file. -/
theorem replay_drops_last_draw :
    let file := walCodec.encodeAll (entriesFrom 0 (draws 1024))
    (AtomicTelemetry.create.checkRecovery file).1 ≠ 0 ∧
      ¬ LosslessReplay file AtomicTelemetry.create := by
  intro file
  have hread : readWal file = entriesFrom 0 (draws 1024) :=
    readWal_encodeAll fun e he => isValid_of_mem_entriesFrom he
  refine ⟨?_, not_losslessReplay_of_lt (MaskRing.contents_empty _) ?_⟩
  · rw [AtomicTelemetry.checkRecovery_ne_zero_iff, hread]
    exact logOpen_of_plain (draws_plain 1024) (by rw [length_draws]; decide)
  · rw [recoverable_of_plain (draws_plain 1024), length_entriesFrom, length_draws]
    decide

end Synapse.Atomic
