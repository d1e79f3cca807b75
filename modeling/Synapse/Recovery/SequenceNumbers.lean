import Synapse.Foundations.Runs
import Synapse.Recovery.CrashRecovery

/-!
# Sequence numbers over sessions

Sessions that follow the protocol of the manager: construct, `check_for_crash`,
`recover` if it said so, any number of writes, and a clean end or a death.  A
death may leave the directory in any state, which covers torn appends and saves
that did not finish.

The counter of a session starts at 0 whatever the log holds, and neither
`check_for_crash` nor `recover` moves it.  So the first entry a session writes on
a log that had entries is numbered 0, and 0 is what `recover` reports as the last
number.  Numbers continue exactly where there was nothing to continue
(`numbers_continue_iff`).
-/

namespace Synapse.Recovery

open ByteRecords FileOps Atomic Protocol Runs

namespace Numbering

/-- Where a session stands in the protocol. -/
inductive Phase where
  | constructed
  /-- `check_for_crash` has returned true. -/
  | crashed
  | running
  /-- `mark_clean_shutdown` has run. -/
  | marked
  deriving DecidableEq, Repr

/-- A session under way.  `startLog` is history: the log when it started. -/
structure Live where
  manager : CrashRecoveryManager
  phase : Phase
  startLog : List WALEntry

/-- The directory, and the session that is under way. -/
structure Point where
  dir : DataDirectory
  live : Option Live

/-- A call of the manager, or the death of its process. -/
inductive Event where
  | construct
  | checkForCrash
  | recover
  | write (c : WriteCall)
  | markCleanShutdown (now : UInt64)
  | destruct (now : UInt64)
  | die (left : DataDirectory)

/-- A data directory without a session. -/
def idle (dir : DataDirectory) : Point where
  dir := dir
  live := none

/-- A call of a session under way. -/
def Live.step (dir : DataDirectory) (l : Live) : Event → Option Point
  | .construct => none
  | .checkForCrash =>
      if l.phase = .constructed then
        match l.manager.checkForCrash dir with
        | .ok (crash, manager, dir) =>
            some { dir := dir
                   live := some { l with
                     manager := manager
                     phase := if crash then .crashed else .running } }
        | .error _ => none
      else none
  | .recover =>
      if l.phase = .crashed then
        let recovered := l.manager.recover dir
        some { dir := recovered.2.2
               live := some { l with manager := recovered.2.1, phase := .running } }
      else none
  | .write c =>
      if l.phase = .running then
        let written := l.manager.write c dir
        some { dir := written.2, live := some { l with manager := written.1 } }
      else none
  | .markCleanShutdown now =>
      if l.phase = .running then
        let marked := l.manager.markCleanShutdown now dir
        some { dir := marked.2
               live := some { l with manager := marked.1, phase := .marked } }
      else none
  | .destruct now =>
      if l.phase = .running ∨ l.phase = .marked then
        some { dir := l.manager.destroy now dir, live := none }
      else none
  | .die left => some { dir := left, live := none }

/-- A session that starts on the directory. -/
def Live.start (dir : DataDirectory) : Live where
  manager := .create
  phase := .constructed
  startLog := readWal dir.wal

/-- One event; only a construction can come first. -/
def Point.step (p : Point) (e : Event) : Option Point :=
  match p.live, e with
  | none, .construct => some { p with live := some (.start p.dir) }
  | none, _ => none
  | some l, e => l.step p.dir e

/-! ## The law -/

/-- The entries a session writes with an event. -/
def Live.written (l : Live) : Event → List WALEntry
  | .write c => [c.entry l.manager.telemetry.sequence]
  | .markCleanShutdown now => l.manager.telemetry.pendingMarker now
  | .destruct now => l.manager.telemetry.pendingMarker now
  | _ => []

/-- What `recover` reports as the last number, in its result and in the metadata,
is the largest number it has replayed, if it has replayed anything. -/
def Live.ReportsLast (dir : DataDirectory) (l : Live) : Prop :=
  LogOpen (readWal dir.wal) → recoverable dir.wal ≠ [] →
    IsGreatest { n | ∃ e ∈ recoverable dir.wal, e.number = n }
        (l.manager.recover dir).1.lastSequence.toNat ∧
      (l.manager.recover dir).2.1.metadata.lastWalSequence =
        (l.manager.recover dir).1.lastSequence

/-- The numbers of this event continue those the session found. -/
def Continues (p : Point) (e : Event) : Prop :=
  ∀ l, p.live = some l →
    (∀ new ∈ l.written e, ∀ old ∈ l.startLog, old.number < new.number) ∧
      (e = .recover → l.ReportsLast p.dir)

/-- There is nothing to continue: the session writes an entry only if it found
none, and replays only entries numbered 0. -/
def FreshStart (p : Point) (e : Event) : Prop :=
  ∀ l, p.live = some l →
    (l.startLog ≠ [] → l.written e = []) ∧
      (e = .recover → LogOpen (readWal p.dir.wal) → ∀ r ∈ recoverable p.dir.wal, r.number = 0)

/-- A session that found entries has not moved the counter, and none has before
its first write. -/
def Unmoved (p : Point) : Prop :=
  ∀ l, p.live = some l →
    l.startLog ≠ [] ∨ l.phase = .constructed ∨ l.phase = .crashed →
      l.manager.telemetry.sequence = 0

/-- Before any session. -/
theorem unmoved_idle (dir : DataDirectory) : Unmoved (idle dir) := by
  intro l hl
  exact absurd hl (Option.some_ne_none l).symm

/-! ## One step -/

/-- Whatever is written carries the value of the counter. -/
theorem Live.sequence_of_mem_written {l : Live} {e : Event} {new : WALEntry}
    (h : new ∈ l.written e) : new.sequence = l.manager.telemetry.sequence := by
  cases e with
  | write c =>
      rw [List.mem_singleton.mp h]
      exact WALEntry.forWrite_sequence _ _ _ _ _
  | markCleanShutdown now | destruct now =>
      simp only [Live.written, AtomicTelemetry.pendingMarker] at h
      split at h
      · exact absurd h List.not_mem_nil
      · rw [List.mem_singleton.mp h]
        exact WALEntry.cleanShutdownMarker_sequence _ _
  | construct | checkForCrash | recover | die left => exact absurd h List.not_mem_nil

/-- What is written reaches the file or the buffer. -/
theorem Live.written_write (dir : DataDirectory) (l : Live) (c : WriteCall)
    (h : l.manager.telemetry.writeBuffer.length < kWALFlushBatch) :
    ∃ flushed, (l.manager.write c dir).2.wal = dir.wal ++ walCodec.encodeAll flushed ∧
      flushed ++ (l.manager.write c dir).1.telemetry.writeBuffer =
        l.manager.telemetry.writeBuffer ++ l.written (.write c) := by
  rcases Nat.lt_or_ge (l.manager.telemetry.writeBuffer.length + 1) kWALFlushBatch with hlt | hge
  · obtain ⟨hbuffer, hops⟩ := AtomicTelemetry.writeCall_of_lt c hlt
    refine ⟨[], ?_, ?_⟩
    · simp [CrashRecoveryManager.write, hops]
    · simp only [CrashRecoveryManager.write, hbuffer, List.nil_append]
      rfl
  · obtain ⟨hbuffer, hops⟩ := AtomicTelemetry.writeCall_of_full c (le_antisymm h hge)
    refine ⟨l.manager.telemetry.writeBuffer ++ l.written (.write c), ?_, ?_⟩
    · simp only [CrashRecoveryManager.write, hops]
      rfl
    · simp only [CrashRecoveryManager.write, hbuffer, List.append_nil]

/-- `check_for_crash` leads to recovery if the log is open, and to writing
otherwise. -/
theorem Live.step_checkForCrash (dir : DataDirectory) {l : Live} (h : l.phase = .constructed) :
    ∃ file metadata, l.step dir .checkForCrash = some
      { dir := { wal := dir.wal, metadataFile := file }
        live := some
          { manager := ⟨metadata, (l.manager.telemetry.checkRecovery dir.wal).2⟩
            phase := if LogOpen (readWal dir.wal) then .crashed else .running
            startLog := l.startLog } } := by
  obtain ⟨file, -, hcheck⟩ := l.manager.checkForCrash_eq dir
  have hopen : decide ((l.manager.telemetry.checkRecovery dir.wal).1 > 0) =
      decide (LogOpen (readWal dir.wal)) := by
    rw [decide_eq_decide, ← AtomicTelemetry.checkRecovery_ne_zero_iff dir.wal l.manager.telemetry]
    exact Nat.pos_iff_ne_zero
  refine ⟨file, loaded dir.metadataFile, ?_⟩
  rw [Live.step, if_pos h, hcheck, hopen]
  simp only [decide_eq_true_eq]

/-- A call keeps the log of the start, moves the counter only with an entry, and
leads into the first phases only from the very first. -/
theorem Live.step_cases {dir : DataDirectory} {l l' : Live} {e : Event} {p : Point}
    (h : l.step dir e = some p) (hl' : p.live = some l') :
    l'.startLog = l.startLog ∧
      (l.written e = [] → l'.manager.telemetry.sequence = l.manager.telemetry.sequence) ∧
      (l'.phase = .constructed ∨ l'.phase = .crashed →
        l.phase = .constructed ∧ l.written e = []) := by
  cases e with
  | construct => exact absurd h.symm (Option.some_ne_none _)
  | checkForCrash =>
      have hphase : l.phase = .constructed := by
        rw [Live.step] at h
        split_ifs at h with hphase
        exact hphase
      obtain ⟨file, metadata, hcheck⟩ := Live.step_checkForCrash dir hphase
      rw [hcheck] at h
      obtain rfl := Option.some_injective _ h
      obtain rfl := Option.some_injective _ hl'
      exact ⟨rfl, fun _ => rfl, fun _ => ⟨hphase, rfl⟩⟩
  | recover =>
      rw [Live.step] at h
      split_ifs at h
      obtain rfl := Option.some_injective _ h
      obtain rfl := Option.some_injective _ hl'
      refine ⟨rfl, fun _ => ?_, fun hphase => by simp at hphase⟩
      by_cases hopen : LogOpen (readWal dir.wal)
      · exact (l.manager.recover_of_open dir hopen).sequence
      · exact congrArg (fun r => r.1.telemetry.sequence) (l.manager.recover_of_not_open dir hopen)
  | write c =>
      rw [Live.step] at h
      split_ifs at h with hphase
      obtain rfl := Option.some_injective _ h
      obtain rfl := Option.some_injective _ hl'
      refine ⟨rfl, fun hnil => absurd hnil (List.cons_ne_nil _ _), fun hphase' => ?_⟩
      rcases hphase' with hphase' | hphase' <;> simp [hphase] at hphase'
  | markCleanShutdown now =>
      rw [Live.step] at h
      split_ifs at h
      obtain rfl := Option.some_injective _ h
      obtain rfl := Option.some_injective _ hl'
      refine ⟨rfl, fun hnil => ?_, fun hphase => by simp at hphase⟩
      simp only [Live.written, AtomicTelemetry.pendingMarker] at hnil
      split_ifs at hnil with hflag
      simp only [CrashRecoveryManager.markCleanShutdown, AtomicTelemetry.markCleanShutdown,
        if_pos hflag]
  | destruct now =>
      rw [Live.step] at h
      split_ifs at h
      obtain rfl := Option.some_injective _ h
      exact absurd hl'.symm (Option.some_ne_none _)
  | die left =>
      obtain rfl := Option.some_injective _ h
      exact absurd hl'.symm (Option.some_ne_none _)

/-- A session's own events. -/
theorem Point.step_of_live {p : Point} {l : Live} (hl : p.live = some l) (e : Event) :
    p.step e = l.step p.dir e := by
  unfold Point.step
  rw [hl]

/-- A step of a session under way, or the start of one. -/
theorem Point.step_cases {p p' : Point} {e : Event} (h : p.step e = some p') :
    (∃ l, p.live = some l ∧ l.step p.dir e = some p') ∨
      p.live = none ∧ e = .construct ∧ p' = { p with live := some (.start p.dir) } := by
  unfold Point.step at h
  split at h
  · rename_i hnone
    exact Or.inr ⟨hnone, rfl, (Option.some_injective _ h).symm⟩
  · exact absurd h.symm (Option.some_ne_none _)
  · rename_i l hl
    exact Or.inl ⟨l, hl, h⟩

/-- With a counter at 0, numbers continue only if no entry is written on old ones. -/
theorem Live.continues_iff {l : Live} {e : Event}
    (hzero : l.startLog ≠ [] → l.manager.telemetry.sequence = 0) :
    (∀ new ∈ l.written e, ∀ old ∈ l.startLog, old.number < new.number) ↔
      (l.startLog ≠ [] → l.written e = []) := by
  constructor
  · intro h hne
    obtain ⟨old, hold⟩ := List.exists_mem_of_ne_nil _ hne
    refine List.eq_nil_iff_forall_not_mem.mpr fun new hmem => ?_
    have hlt := h new hmem old hold
    rw [WALEntry.number.eq_def new, Live.sequence_of_mem_written hmem, hzero hne] at hlt
    exact absurd hlt (Nat.not_lt_zero _)
  · intro h new hmem old hold
    rw [h (List.ne_nil_of_mem hold)] at hmem
    exact absurd hmem List.not_mem_nil

/-- With a counter at 0, `recover` reports the last number only if it is 0. -/
theorem Live.reportsLast_iff {dir : DataDirectory} {l : Live}
    (hzero : l.manager.telemetry.sequence = 0) :
    l.ReportsLast dir ↔
      (LogOpen (readWal dir.wal) → ∀ r ∈ recoverable dir.wal, r.number = 0) := by
  refine forall_congr' fun hopen => ?_
  have hrecovered := l.manager.recover_of_open dir hopen
  rw [hrecovered.lastSequence, hrecovered.lastWalSequence, hzero, UInt64.toNat_zero]
  constructor
  · intro h r hr
    obtain ⟨⟨-, hbound⟩, -⟩ := h (List.ne_nil_of_mem hr)
    exact Nat.le_zero.mp (hbound ⟨r, hr, rfl⟩)
  · intro h hne
    obtain ⟨r, hr⟩ := List.exists_mem_of_ne_nil _ hne
    refine ⟨⟨⟨r, hr, h r hr⟩, ?_⟩, rfl⟩
    rintro n ⟨r', hr', rfl⟩
    exact (h r' hr').le

/-- **One step** continues the numbers exactly from a fresh start. -/
theorem continues_iff_freshStart {p p' : Point} {e : Event} (hp : Unmoved p)
    (h : p.step e = some p') : Continues p e ↔ FreshStart p e := by
  refine forall₂_congr fun l hl => and_congr ?_ (forall_congr' fun he => ?_)
  · exact Live.continues_iff fun hne => hp l hl (Or.inl hne)
  · refine Live.reportsLast_iff ?_
    rcases Point.step_cases h with ⟨l', hl', hstep⟩ | ⟨hnone, -, -⟩
    · obtain rfl := Option.some_injective _ (hl.symm.trans hl')
      subst he
      rw [Live.step] at hstep
      split_ifs at hstep with hphase
      exact hp l hl (Or.inr (Or.inr hphase))
    · exact absurd (hl.symm.trans hnone) (Option.some_ne_none _)

/-- The step lemma. -/
theorem unmoved_step {p p' : Point} {e : Event} (hp : Unmoved p) (h : p.step e = some p')
    (hcont : Continues p e) : Unmoved p' := by
  rcases Point.step_cases h with ⟨l, hl, hstep⟩ | ⟨-, -, rfl⟩
  · intro l' hl' hcase
    obtain ⟨hlog, hsame, hphase⟩ := Live.step_cases hstep hl'
    have hwritten : l.written e = [] := by
      rcases hcase with hne | hearly
      · exact (Live.continues_iff fun hne => hp l hl (Or.inl hne)).mp (hcont l hl).1 (hlog ▸ hne)
      · exact (hphase hearly).2
    rw [hsame hwritten]
    refine hp l hl (hcase.imp (fun hne => hlog ▸ hne) fun hearly => Or.inl (hphase hearly).1)
  · intro l hl _
    obtain rfl := Option.some_injective _ hl
    rfl

/-! ## Whole runs -/

/-- **The numbers continue** along a run of sessions exactly if each session
starts afresh. -/
theorem numbers_continue_iff (dir : DataDirectory) (events : List Event) :
    Along Point.step Continues (idle dir) events ↔
      Along Point.step FreshStart (idle dir) events := by
  have hiff : ∀ (p : Point) (e : Event) (p' : Point), Unmoved p → p.step e = some p' →
      (Continues p e ↔ FreshStart p e) := fun _ _ _ hp h => continues_iff_freshStart hp h
  have hstep : ∀ (p : Point) (e : Event) (p' : Point), Unmoved p → p.step e = some p' →
      Continues p e → Unmoved p' := fun _ _ _ hp h hcont => unmoved_step hp h hcont
  exact along_iff_of_invariant Point.step hiff hstep (unmoved_idle dir) events

/-- How every session begins. -/
theorem exec_opening (dir : DataDirectory) :
    ∃ p l, exec Point.step (idle dir) [Event.construct, Event.checkForCrash] = some p ∧
      p.live = some l ∧ p.dir.wal = dir.wal ∧ l.startLog = readWal dir.wal ∧
      l.manager.telemetry.sequence = 0 ∧
      l.phase = if LogOpen (readWal dir.wal) then .crashed else .running := by
  have hphase : (Live.start dir).phase = .constructed := rfl
  obtain ⟨file, metadata, hcheck⟩ := Live.step_checkForCrash dir hphase
  have hexec : exec Point.step (idle dir) [Event.construct, Event.checkForCrash] =
      ((Live.start dir).step dir .checkForCrash).bind fun p => exec Point.step p [] := rfl
  rw [hcheck, Option.bind_some] at hexec
  exact ⟨_, _, hexec, rfl, rfl, rfl, rfl, rfl⟩

/-- A draw that ends cleanly, and the first draw of the next session. -/
theorem draw_numbered_again :
    let dir : DataDirectory := ⟨walCodec.encodeAll [(WriteCall.bare 0 .draw).entry 0,
      WALEntry.cleanShutdownMarker 1 0], none⟩
    ¬ Along Point.step Continues (idle dir)
      [Event.construct, Event.checkForCrash, Event.write (WriteCall.bare 0 .draw)] := by
  intro dir
  have hread : readWal dir.wal =
      [(WriteCall.bare 0 .draw).entry 0, WALEntry.cleanShutdownMarker 1 0] := by
    refine readWal_encodeAll fun e he => ?_
    rcases List.mem_pair.mp he with rfl | rfl
    · exact WALEntry.forWrite_isValid _ _ _ _ _ (Nat.zero_le _)
    · exact WALEntry.cleanShutdownMarker_isValid _ _
  have hclosed : LogClosed (readWal dir.wal) := by
    rw [hread]
    decide
  obtain ⟨p, l, hexec, hl, -, hlog, hseq, hphase⟩ := exec_opening dir
  rw [if_neg fun hopen => hopen.2 hclosed] at hphase
  have hstep : p.step (.write (WriteCall.bare 0 .draw)) = some
      { dir := (l.manager.write (WriteCall.bare 0 .draw) p.dir).2
        live := some
          { l with manager := (l.manager.write (WriteCall.bare 0 .draw) p.dir).1 } } := by
    rw [Point.step_of_live hl]
    exact if_pos hphase
  refine not_along Point.step hexec hstep (fun hcont => ?_) []
  -- the new entry is numbered 0, and so is one of the old
  have hlt := (hcont l hl).1 _ (List.mem_singleton_self _) ((WriteCall.bare 0 .draw).entry 0)
    (by rw [hlog, hread]; exact List.mem_cons_self)
  rw [hseq] at hlt
  exact absurd hlt (lt_irrefl _)

end Numbering

end Synapse.Recovery
