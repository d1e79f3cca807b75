import Synapse.Recovery.Session

/-!
# When crashes and clean ends are told apart

The verdict of the next `check_recovery`, as a property of the log a session
started with and the entries it got to disk.

A session always numbers its entries from 0, and it writes a marker only if it
started on an empty log, because `check_recovery` has already set the flag that
keeps `mark_clean_shutdown` from writing one.  So on a log closed by `m`
everything hangs on whether the session got past `m`:

* a crash goes unnoticed while the session has at most `m + 1` entries on disk
  (`crash_detected_iff`);
* a clean end is taken for a crash once it has (`clean_end_recognised_iff`).

Calls may log entries of type `CleanShutdown` themselves.  These count as markers
too, and both conditions have a case for them.
-/

namespace Synapse.Recovery

open ByteRecords FileOps MarkedLog Atomic

/-! ## Appending to a log that startup left -/

/-- What is appended leaves the log closed: it has no marker and stays below the
one that closes the log, or its own last marker is above everything. -/
def StaysClosed (log own : List WALEntry) : Prop :=
  match lastMark WALEntry.isMarker WALEntry.number own with
  | none => ∃ m, LogClosedBy log m ∧ ∀ e ∈ own, e.number ≤ m
  | some j => 0 < j ∧ ∀ e ∈ log ++ own, e.number ≤ j

/-- What a session adds to a log that is not open. -/
theorem logClosed_append_iff {log : List WALEntry} (hlog : ¬ LogOpen log) (own : List WALEntry) :
    LogClosed (log ++ own) ↔ StaysClosed log own := by
  have hclosed : log ≠ [] → LogClosed log := fun hne => not_not.mp fun h => hlog ⟨hne, h⟩
  unfold StaysClosed
  split
  · rename_i hmark
    constructor
    · rintro ⟨m, -, hm⟩
      -- the last marker is one of `log`, since `own` has none
      have hne : log ≠ [] := by
        rintro rfl
        exact not_closedBy_of_no_mark hmark hm
      obtain ⟨m', -, hm'⟩ := hclosed hne
      obtain ⟨rfl, hle⟩ := (closedBy_append_of_no_mark hmark hm').mp hm
      exact ⟨m, hm', hle⟩
    · rintro ⟨m, hm, hle⟩
      obtain ⟨m', hpos, hm'⟩ := hclosed hm.ne_nil
      obtain rfl := hm.unique hm'
      exact ⟨m, hpos, (closedBy_append_of_no_mark hmark hm).mpr ⟨rfl, hle⟩⟩
  · rename_i j hmark
    constructor
    · rintro ⟨m, hpos, hm⟩
      obtain ⟨rfl, hle⟩ := (closedBy_append_of_mark hmark).mp hm
      exact ⟨hpos, hle⟩
    · rintro ⟨hpos, hle⟩
      exact ⟨j, hpos, (closedBy_append_of_mark hmark).mpr ⟨rfl, hle⟩⟩

section AroundMarker

variable {front back : List WALEntry} {marker : WALEntry} (hmarker : marker.isMarker = true)
  (hlt : ∀ e ∈ front ++ back, e.number < marker.number)

include hmarker hlt

/-- A marker above everything around it closes the log if no other follows. -/
theorem closedBy_around_marker (hback : ∀ e ∈ back, e.isMarker = false) :
    LogClosedBy (front ++ marker :: back) marker.number where
  lastMark_eq := by
    have hnone : lastMark WALEntry.isMarker WALEntry.number back = none :=
      (lastMark_eq_none_iff _ _).mpr hback
    rw [List.append_cons, lastMark_append, hnone, lastMark_concat_mark _ _ hmarker]
    rfl
  le := by
    intro e he
    rcases List.mem_append.mp he with he | he
    · exact (hlt e (List.mem_append_left _ he)).le
    · rcases List.mem_cons.mp he with rfl | he
      · exact le_rfl
      · exact (hlt e (List.mem_append_right _ he)).le

/-- A log is closed by its last marker, if that has a number. -/
theorem logClosed_around_marker :
    LogClosed (front ++ marker :: back) ↔
      0 < marker.number ∧ ∀ e ∈ back, e.isMarker = false := by
  constructor
  · rintro ⟨m, hpos, hm⟩
    have hback : ∀ e ∈ back, e.isMarker = false := by
      rw [← lastMark_eq_none_iff WALEntry.isMarker WALEntry.number]
      by_contra hsome
      obtain ⟨j, hj⟩ := Option.ne_none_iff_exists'.mp hsome
      -- the later marker would have to be numbered above this one
      obtain ⟨e, he, -, rfl⟩ := exists_of_lastMark _ _ hj
      rw [List.append_cons] at hm
      obtain ⟨-, hle⟩ := (closedBy_append_of_mark hj).mp hm
      have hge := hle marker (by simp)
      have := hlt e (List.mem_append_right _ he)
      omega
    exact ⟨hm.unique (closedBy_around_marker hmarker hlt hback) ▸ hpos, hback⟩
  · rintro ⟨hpos, hback⟩
    exact ⟨_, hpos, closedBy_around_marker hmarker hlt hback⟩

end AroundMarker

/-! ## Numbers of a session's entries -/

/-- A session numbers its entries from 0. -/
theorem number_getElem_entriesFrom (cs : List WriteCall) (i : ℕ)
    (h : i < (entriesFrom 0 cs).length) : (entriesFrom 0 cs)[i].number = i % 2 ^ 64 := by
  have hi : i < cs.length := by rwa [length_entriesFrom] at h
  have hget := getElem?_entriesFrom 0 cs i
  rw [List.getElem?_eq_getElem h, List.getElem?_eq_getElem hi, Option.map_some,
    UInt64.zero_add] at hget
  rw [Option.some.inj hget, WALEntry.number, WriteCall.entry, WALEntry.forWrite_sequence]
  exact UInt64.toNat_ofNat'

/-- And its marker with the next number. -/
theorem number_cleanShutdownMarker {n : ℕ} (h : n < 2 ^ 64) (now : UInt64) :
    (WALEntry.cleanShutdownMarker (UInt64.ofNat n) now).number = n := by
  rw [WALEntry.number, WALEntry.cleanShutdownMarker_sequence]
  exact UInt64.toNat_ofNat_of_lt' h

/-- Entries are numbered below their count as long as the counter does not wrap. -/
theorem number_lt_of_mem_entriesFrom {cs : List WriteCall} {e : WALEntry}
    (he : e ∈ entriesFrom 0 cs) : e.number < cs.length := by
  obtain ⟨i, hi, rfl⟩ := List.getElem_of_mem he
  rw [number_getElem_entriesFrom]
  rw [length_entriesFrom] at hi
  exact lt_of_le_of_lt (Nat.mod_le _ _) hi

/-- The first `r` entries of a session get past `m` when there are more than
`m + 1` of them. -/
theorem exists_number_gt_iff (cs : List WriteCall) {own : List WALEntry}
    (hown : own <+: entriesFrom 0 cs) (m : ℕ) :
    (∃ e ∈ own, m < e.number) ↔ m + 1 < min own.length (2 ^ 64) := by
  have hget : ∀ (i : ℕ) (hi : i < own.length), own[i].number = i % 2 ^ 64 := by
    intro i hi
    have hi' : i < (entriesFrom 0 cs).length := lt_of_lt_of_le hi hown.length_le
    rw [hown.getElem hi, number_getElem_entriesFrom cs i hi']
  constructor
  · rintro ⟨e, he, hlt⟩
    obtain ⟨i, hi, rfl⟩ := List.getElem_of_mem he
    rw [hget i hi] at hlt
    have hmod := Nat.mod_lt i (show 0 < 2 ^ 64 by decide)
    have hle := Nat.mod_le i (2 ^ 64)
    omega
  · intro hlt
    have hi : m + 1 < own.length := by omega
    refine ⟨own[m + 1], List.getElem_mem hi, ?_⟩
    rw [hget _ hi, Nat.mod_eq_of_lt (by omega)]
    exact Nat.lt_succ_self m

/-! ## Crashes -/

/-- The session was cut short, and what it got to disk is entries of its calls,
without a shutdown marker. -/
structure Session.Died (s : Session) (file : Bytes) : Prop where
  cut : s.cut ≠ none
  noMarker : s.reached file <+: entriesFrom 0 s.calls

/-- The dead session got further than the markers.  If none of its own entries is a
marker, it has more entries on disk than the number of the marker that closes the
log can cover; if some are, an entry is numbered above the last of them, or that
one is numbered 0. -/
def Outruns (log own : List WALEntry) : Prop :=
  match lastMark WALEntry.isMarker WALEntry.number own with
  | none => ∀ m, LogClosedBy log m → m + 1 < min own.length (2 ^ 64)
  | some j => 0 < j → ∃ e ∈ log ++ own, j < e.number

/-- The session outruns the marker exactly if the verdict changes. -/
theorem not_staysClosed_iff {cs : List WriteCall} {own : List WALEntry}
    (hown : own <+: entriesFrom 0 cs) (log : List WALEntry) :
    ¬ StaysClosed log own ↔ Outruns log own := by
  unfold StaysClosed Outruns
  split
  · simp only [← exists_number_gt_iff cs hown, not_exists, not_and, not_forall, not_le,
      exists_prop]
  · simp only [not_and, not_forall, not_le, exists_prop]

/-- **A crash is noticed exactly when the dead session outran the markers.**  The
session may follow any history; the file it appends to is to be a whole number of
records long. -/
theorem crash_detected_iff (history : List Session) (s : Session)
    (haligned : WALEntry.recordSize ∣ (startFile (runSessions history [])).length)
    (hdied : s.Died (runSessions history []))
    (hreached : s.reached (runSessions history []) ≠ []) :
    (AtomicTelemetry.create.checkRecovery (runSessions (history ++ [s]) [])).1 ≠ 0 ↔
      Outruns (readWal (startFile (runSessions history [])))
        (s.reached (runSessions history [])) := by
  have hnil : readWal (startFile (runSessions history [])) ++
      s.reached (runSessions history []) ≠ [] := by
    intro hnil
    exact hreached (List.append_eq_nil_iff.mp hnil).2
  rw [runSessions_concat, AtomicTelemetry.checkRecovery_ne_zero_iff,
    s.readWal_run _ haligned (Or.inr hreached), ← not_staysClosed_iff hdied.noMarker,
    LogOpen, logClosed_append_iff (not_logOpen_startFile _)]
  exact and_iff_right hnil

/-! ## Clean ends -/

namespace Session

variable (s : Session) (file : Bytes)

/-- The entries of its calls that a session leaves on disk when it is not cut:
without the destructor, the last incomplete batch is lost. -/
def left : List WALEntry :=
  if s.how = .markOnly then
    (entriesFrom 0 s.calls).take (AtomicTelemetry.flushedCount s.calls.length)
  else entriesFrom 0 s.calls

/-- The next instance sees a clean end: the log was empty, the session made a call,
and no call whose entry comes after the marker logs a marker itself; or the log was
closed, and it stays so. -/
def CleanEndSeen : Prop :=
  (readWal (startFile file) = [] ∧ s.calls ≠ [] ∧
      (s.how = .markThenDestroy →
        ∀ c ∈ s.calls.drop (AtomicTelemetry.flushedCount s.calls.length),
          c.type ≠ .cleanShutdown)) ∨
    (readWal (startFile file) ≠ [] ∧ StaysClosed (readWal (startFile file)) s.left)

/-- On a closed log no marker is written. -/
theorem recorded_of_logClosed {file : Bytes} (h : LogClosed (readWal (startFile file))) :
    s.recorded file = s.left := by
  have hmarker := s.pendingMarker_written file
  rw [if_pos h] at hmarker
  simp only [recorded, left, AtomicTelemetry.shutdownEntries, hmarker, written_writeBuffer]
  cases s.how <;> simp

/-- On an empty log the marker is written, numbered past all the calls, and only
`mark_clean_shutdown` before the destructor puts entries behind it. -/
theorem recorded_of_nil {file : Bytes} (h : readWal (startFile file) = []) :
    ∃ front back, s.recorded file =
        front ++ WALEntry.cleanShutdownMarker (UInt64.ofNat s.calls.length) s.now :: back ∧
      (∀ e ∈ front ++ back, e ∈ entriesFrom 0 s.calls) ∧
      back = if s.how = .markThenDestroy then
        (entriesFrom 0 s.calls).drop (AtomicTelemetry.flushedCount s.calls.length) else [] := by
  have hmarker := s.pendingMarker_written file
  rw [h, if_neg not_logClosed_nil] at hmarker
  have htake : ∀ e ∈ (entriesFrom 0 s.calls).take (AtomicTelemetry.flushedCount s.calls.length),
      e ∈ entriesFrom 0 s.calls := fun e he => List.mem_of_mem_take he
  simp only [recorded, AtomicTelemetry.shutdownEntries, hmarker, written_writeBuffer]
  cases s.how with
  | markOnly => exact ⟨_, [], rfl, by simpa using htake, rfl⟩
  | destroyOnly =>
      refine ⟨entriesFrom 0 s.calls, [], ?_, by simp, rfl⟩
      dsimp only
      rw [← List.append_assoc, List.take_append_drop]
  | markThenDestroy =>
      refine ⟨_, (entriesFrom 0 s.calls).drop (AtomicTelemetry.flushedCount s.calls.length),
        rfl, fun e he => ?_, rfl⟩
      rwa [List.take_append_drop] at he

/-- A clean session leaves something. -/
theorem recorded_ne_nil {file : Bytes} (h : readWal (startFile file) = []) :
    s.recorded file ≠ [] := by
  obtain ⟨front, back, hrecorded, -⟩ := s.recorded_of_nil h
  rw [hrecorded]
  exact List.append_ne_nil_of_right_ne_nil _ (List.cons_ne_nil _ _)

section FirstSession

variable {s} {file} (h : readWal (startFile file) = []) (hlen : s.calls.length < 2 ^ 64)

include h hlen

/-- The marker of a first session is numbered past all its calls. -/
theorem recorded_around_marker : ∃ front marker back,
    s.recorded file = front ++ marker :: back ∧ marker.isMarker = true ∧
      marker.number = s.calls.length ∧ (∀ e ∈ front ++ back, e.number < marker.number) ∧
      ((∀ e ∈ back, e.isMarker = false) ↔ (s.how = .markThenDestroy →
        ∀ c ∈ s.calls.drop (AtomicTelemetry.flushedCount s.calls.length),
          c.type ≠ .cleanShutdown)) := by
  obtain ⟨front, back, hrecorded, hown, hback⟩ := s.recorded_of_nil h
  have hnumber := number_cleanShutdownMarker hlen s.now
  refine ⟨front, _, back, hrecorded, WALEntry.isMarker_cleanShutdownMarker _ _, hnumber, ?_, ?_⟩
  · intro e he
    rw [hnumber]
    exact number_lt_of_mem_entriesFrom (hown e he)
  · rw [hback]
    split_ifs with hhow
    · rw [drop_entriesFrom, isMarker_entriesFrom_iff]
      exact ⟨fun h _ => h, fun h => h hhow⟩
    · simp [hhow]

/-- A first session ends with a closed log exactly when it made a call and no
marker of its own follows the shutdown marker. -/
theorem logClosed_recorded_iff :
    LogClosed (s.recorded file) ↔ s.calls ≠ [] ∧
      (s.how = .markThenDestroy →
        ∀ c ∈ s.calls.drop (AtomicTelemetry.flushedCount s.calls.length),
          c.type ≠ .cleanShutdown) := by
  obtain ⟨front, marker, back, hrecorded, hmarker, hnumber, hlt, hback⟩ :=
    recorded_around_marker h hlen
  rw [hrecorded, logClosed_around_marker hmarker hlt, hnumber, List.length_pos_iff, hback]

/-- It is closed by its own marker, if it wrote one. -/
theorem closedBy_recorded (hhow : s.how ≠ .markThenDestroy) :
    LogClosedBy (s.recorded file) s.calls.length := by
  obtain ⟨front, marker, back, hrecorded, hmarker, hnumber, hlt, hback⟩ :=
    recorded_around_marker h hlen
  rw [hrecorded, ← hnumber]
  exact closedBy_around_marker hmarker hlt (hback.mpr fun h => absurd h hhow)

end FirstSession

end Session

/-- **A clean end is seen as one exactly when the session wrote the marker and made
a call, or stayed below the marker that was there.** -/
theorem clean_end_recognised_iff (history : List Session) (s : Session)
    (haligned : WALEntry.recordSize ∣ (startFile (runSessions history [])).length)
    (hclean : s.cut = none) (hlen : s.calls.length < 2 ^ 64) :
    (AtomicTelemetry.create.checkRecovery (runSessions (history ++ [s]) [])).1 = 0 ↔
      s.CleanEndSeen (runSessions history []) := by
  have hstart := not_logOpen_startFile (runSessions history [])
  rw [runSessions_concat, AtomicTelemetry.checkRecovery_eq_zero_iff,
    s.readWal_run _ haligned (Or.inl hclean), Session.reached_of_uncut _ hclean,
    Session.CleanEndSeen]
  by_cases hlog : readWal (startFile (runSessions history [])) = []
  · have hne := s.recorded_ne_nil hlog
    rw [hlog, List.nil_append, Session.logClosed_recorded_iff hlog hlen]
    simp [hne]
  · have hclosed : LogClosed (readWal (startFile (runSessions history []))) :=
      not_not.mp fun h => hstart ⟨hlog, h⟩
    rw [s.recorded_of_logClosed hclosed, logClosed_append_iff hstart]
    simp [hlog]

/-! ## A clean session and a shorter one after it -/

/-- A session whose entries stay at or below the marker that closes the log, and
are no markers themselves. -/
theorem staysClosed_of_plain {log own : List WALEntry} {cs : List WriteCall} {m : ℕ}
    (hplain : ∀ c ∈ cs, c.type ≠ .cleanShutdown) (hown : own <+: entriesFrom 0 cs)
    (hlog : LogClosedBy log m) (hshort : own.length ≤ m + 1) : StaysClosed log own := by
  have hmark : lastMark WALEntry.isMarker WALEntry.number own = none := by
    rw [lastMark_eq_none_iff]
    exact fun e he => (isMarker_entriesFrom_iff 0 cs).mpr hplain e (hown.subset he)
  rw [StaysClosed, hmark]
  refine ⟨m, hlog, fun e he => ?_⟩
  by_contra hlt
  have := (exists_number_gt_iff cs hown m).mp ⟨e, he, Nat.lt_of_not_le hlt⟩
  omega

section TwoSessions

variable {first second : Session} (hcut : first.cut = none) (hhow : first.how ≠ .markThenDestroy)
  (hlen : first.calls.length < 2 ^ 64) (hne : first.calls ≠ [])
  (hplain : ∀ c ∈ second.calls, c.type ≠ .cleanShutdown)

include hcut in
/-- The log of the session in the example. -/
theorem readWal_first : readWal (first.run []) = first.recorded [] := by
  rw [first.readWal_run [] (by simp) (Or.inl hcut), startFile_nil, readWal_nil,
    List.nil_append, Session.reached_of_uncut [] hcut]

include hcut hhow hlen

/-- It is closed. -/
theorem closedBy_first : LogClosedBy (readWal (first.run [])) first.calls.length := by
  rw [readWal_first hcut]
  exact Session.closedBy_recorded (by simp) hlen hhow

include hne

/-- So it is not open. -/
theorem not_logOpen_first : ¬ LogOpen (readWal (first.run [])) := by
  refine fun hopen => hopen.2 ⟨_, ?_, closedBy_first hcut hhow hlen⟩
  exact List.length_pos_iff.mpr hne

/-- The second session appends at a record boundary. -/
theorem recordSize_dvd_second : WALEntry.recordSize ∣ (startFile (first.run [])).length := by
  rw [startFile_of_not_open (not_logOpen_first hcut hhow hlen hne)]
  have huntorn : ∀ s ∈ [first], s.Untorn := by simp [Session.Untorn, hcut]
  exact recordSize_dvd_runSessions huntorn

/-- The log of the two sessions, read by a third. -/
theorem readWal_second (h : second.cut = none ∨ second.reached (first.run []) ≠ []) :
    readWal (runSessions [first, second] []) =
      readWal (first.run []) ++ second.reached (first.run []) := by
  rw [show runSessions [first, second] [] = second.run (first.run []) from rfl,
    second.readWal_run _ (recordSize_dvd_second hcut hhow hlen hne) h,
    startFile_of_not_open (not_logOpen_first hcut hhow hlen hne)]

include hplain

/-- A second session that dies with at most one more entry on disk than the first
made calls goes unnoticed. -/
theorem crash_missed_of_short
    (hdead : second.cut = some (second.calls.length / kWALFlushBatch, 0))
    (hbatch : kWALFlushBatch ≤ second.calls.length)
    (hshort : AtomicTelemetry.flushedCount second.calls.length ≤ first.calls.length + 1) :
    second.Died (first.run []) ∧ second.reached (first.run []) ≠ [] ∧
      (AtomicTelemetry.create.checkRecovery (runSessions [first, second] [])).1 = 0 := by
  have hopen := not_logOpen_first hcut hhow hlen hne
  have hreached := Session.reached_of_cut_after_calls hopen hdead
  have hprefix : second.reached (first.run []) <+: entriesFrom 0 second.calls := by
    rw [hreached]
    exact List.take_prefix _ _
  have hcount : (second.reached (first.run [])).length =
      AtomicTelemetry.flushedCount second.calls.length := by
    rw [hreached, List.length_take, length_entriesFrom]
    exact Nat.min_eq_left (AtomicTelemetry.flushedCount_le _)
  have hnil : second.reached (first.run []) ≠ [] := by
    have hpos : 0 < second.calls.length / kWALFlushBatch := Nat.div_pos hbatch (by decide)
    rw [← List.length_pos_iff, hcount]
    exact Nat.mul_pos (by decide) hpos
  refine ⟨⟨by simp [hdead], hprefix⟩, hnil, ?_⟩
  rw [AtomicTelemetry.checkRecovery_eq_zero_iff,
    readWal_second hcut hhow hlen hne (Or.inr hnil), logClosed_append_iff hopen]
  exact Or.inr (staysClosed_of_plain hplain hprefix (closedBy_first hcut hhow hlen)
    (hcount ▸ hshort))

/-- A second session that ends cleanly with at least two more calls than the first
is taken for a crash. -/
theorem false_crash_of_long (hcut' : second.cut = none) (hhow' : second.how ≠ .markOnly)
    (hlong : first.calls.length + 1 < second.calls.length)
    (hlen' : second.calls.length < 2 ^ 64) :
    (AtomicTelemetry.create.checkRecovery (runSessions [first, second] [])).1 ≠ 0 := by
  have hopen := not_logOpen_first hcut hhow hlen hne
  have hclosed := closedBy_first hcut hhow hlen
  have hstart := startFile_of_not_open hopen
  have hleft : second.reached (first.run []) = entriesFrom 0 second.calls := by
    rw [Session.reached_of_uncut _ hcut', second.recorded_of_logClosed, Session.left,
      if_neg hhow']
    rw [hstart]
    exact ⟨_, List.length_pos_iff.mpr hne, hclosed⟩
  have hmark : lastMark WALEntry.isMarker WALEntry.number (entriesFrom 0 second.calls) = none := by
    rw [lastMark_eq_none_iff]
    exact (isMarker_entriesFrom_iff 0 second.calls).mpr hplain
  rw [AtomicTelemetry.checkRecovery_ne_zero_iff,
    readWal_second hcut hhow hlen hne (Or.inl hcut'), LogOpen, logClosed_append_iff hopen,
    hleft, not_staysClosed_iff (List.prefix_refl _), Outruns, hmark]
  refine ⟨fun hnil => hclosed.ne_nil (List.append_eq_nil_iff.mp hnil).1, fun m hm => ?_⟩
  rw [hm.unique hclosed, length_entriesFrom]
  omega

end TwoSessions

/-- A batch of draws, cleanly ended by the destructor. -/
def drawsThenDestroyed (n : ℕ) : Session where
  calls := draws n
  how := .destroyOnly
  now := 0
  cut := none

/-- A batch of draws by a session that dies once the batch is on disk. -/
def drawsThenCrashed : Session where
  calls := draws 64
  how := .destroyOnly
  now := 0
  cut := some (1, 0)

/-- After a clean session of three draws, which the marker 3 closes, the crash of 64 draws is
noticed. -/
theorem crash_detected_after_short_session :
    (AtomicTelemetry.create.checkRecovery
      (runSessions ([drawsThenDestroyed 3] ++ [drawsThenCrashed]) [])).1 ≠ 0 := by
  have hhow : (drawsThenDestroyed 3).how ≠ .markThenDestroy := by decide
  have hne : (drawsThenDestroyed 3).calls ≠ [] := by decide
  have hopen : ¬ LogOpen (readWal ((drawsThenDestroyed 3).run [])) :=
    not_logOpen_first rfl hhow (by decide) hne
  have hclosed : LogClosedBy (readWal ((drawsThenDestroyed 3).run [])) 3 :=
    closedBy_first rfl hhow (by decide)
  have hreached : drawsThenCrashed.reached ((drawsThenDestroyed 3).run []) =
      (entriesFrom 0 (draws 64)).take 64 := Session.reached_of_cut_after_calls hopen rfl
  have hlen : (drawsThenCrashed.reached ((drawsThenDestroyed 3).run [])).length = 64 := by
    rw [hreached, List.length_take, length_entriesFrom, length_draws]
    rfl
  have hiff := crash_detected_iff [drawsThenDestroyed 3] drawsThenCrashed
  rw [runSessions_singleton] at hiff
  refine (hiff (recordSize_dvd_second rfl hhow (by decide) hne) ⟨?_, ?_⟩ ?_).mpr ?_
  · exact Option.some_ne_none _
  · exact hreached ▸ List.take_prefix _ _
  · exact List.ne_nil_of_length_pos (hlen ▸ Nat.succ_pos 63)
  · have hmark : lastMark WALEntry.isMarker WALEntry.number
        (drawsThenCrashed.reached ((drawsThenDestroyed 3).run [])) = none := by
      rw [lastMark_eq_none_iff, hreached]
      exact fun e he =>
        (isMarker_entriesFrom_iff 0 _).mpr (draws_plain 64) e (List.mem_of_mem_take he)
    rw [startFile_of_not_open hopen, Outruns, hmark]
    intro m hm
    rw [hm.unique hclosed, hlen]
    decide

/-- After a clean session of 64 draws, the same crash goes unnoticed. -/
theorem crash_missed_after_clean_session :
    drawsThenCrashed.Died (runSessions [drawsThenDestroyed 64] []) ∧
      drawsThenCrashed.reached (runSessions [drawsThenDestroyed 64] []) ≠ [] ∧
      (AtomicTelemetry.create.checkRecovery
        (runSessions [drawsThenDestroyed 64, drawsThenCrashed] [])).1 = 0 := by
  have hhow : (drawsThenDestroyed 64).how ≠ .markThenDestroy := by decide
  exact crash_missed_of_short rfl hhow (by decide) (by decide) (draws_plain 64) rfl
    (by decide) (by decide)

/-- Five draws after a clean session of ten: the clean end is seen as such. -/
theorem clean_end_recognised_after_session :
    (AtomicTelemetry.create.checkRecovery
      (runSessions ([drawsThenDestroyed 10] ++ [drawsThenDestroyed 5]) [])).1 = 0 := by
  have hhow : (drawsThenDestroyed 10).how ≠ .markThenDestroy := by decide
  have hne : (drawsThenDestroyed 10).calls ≠ [] := by decide
  have hopen : ¬ LogOpen (readWal ((drawsThenDestroyed 10).run [])) :=
    not_logOpen_first rfl hhow (by decide) hne
  have hclosed : LogClosedBy (readWal ((drawsThenDestroyed 10).run [])) 10 :=
    closedBy_first rfl hhow (by decide)
  have hiff := clean_end_recognised_iff [drawsThenDestroyed 10] (drawsThenDestroyed 5)
  rw [runSessions_singleton] at hiff
  refine (hiff (recordSize_dvd_second rfl hhow (by decide) hne) rfl (by decide)).mpr (Or.inr ?_)
  have hleft : (drawsThenDestroyed 5).left = entriesFrom 0 (draws 5) := if_neg (by decide)
  have hlen : (entriesFrom 0 (draws 5)).length ≤ 10 + 1 := by
    rw [length_entriesFrom, length_draws]
    decide
  rw [startFile_of_not_open hopen, hleft]
  exact ⟨hclosed.ne_nil,
    staysClosed_of_plain (draws_plain 5) (List.prefix_refl _) hclosed hlen⟩

/-- A session without calls is taken for a crash, and so is one of ten draws after
one of a single draw, although all of them end cleanly. -/
theorem clean_ends_taken_for_crashes :
    (AtomicTelemetry.create.checkRecovery (runSessions [drawsThenDestroyed 0] [])).1 ≠ 0 ∧
      (AtomicTelemetry.create.checkRecovery
        (runSessions [drawsThenDestroyed 1, drawsThenDestroyed 10] [])).1 ≠ 0 := by
  constructor
  · have hcut : (drawsThenDestroyed 0).cut = none := rfl
    have hread : readWal (runSessions [drawsThenDestroyed 0] []) =
        (drawsThenDestroyed 0).recorded [] := readWal_first hcut
    have hclosed : ¬ LogClosed ((drawsThenDestroyed 0).recorded []) := by
      rw [Session.logClosed_recorded_iff (by simp) (by decide)]
      exact fun h => h.1 rfl
    rw [AtomicTelemetry.checkRecovery_ne_zero_iff, hread]
    exact ⟨Session.recorded_ne_nil _ (by simp), hclosed⟩
  · have hhow : (drawsThenDestroyed 1).how ≠ .markThenDestroy := by decide
    exact false_crash_of_long rfl hhow (by decide) (by decide) (draws_plain 10) rfl
      (by decide) (by decide) (by decide)

end Synapse.Recovery
