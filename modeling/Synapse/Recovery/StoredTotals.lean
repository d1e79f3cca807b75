import Synapse.Foundations.Runs
import Synapse.Recovery.CrashRecovery

/-!
# The stored totals over sessions

Any number of sessions on one data directory, each making the public calls of its
manager in any order.  The only thing a session remembers here beyond its manager
is whether the counters in memory are those of the file (`Live.current`):
`check_for_crash` and every save make them so, and until then they are the zeros
of the constructor.

That one fact decides what a save does to the totals in the file
(`Keeps`).  A manager that has loaded them adds to them; one that has not puts
its own small numbers in their place.  The totals never decrease over a run
exactly if every save of it keeps them (`totals_survive_iff`).

### Steps of a run

A step is the start of a session, one public call, or the end of the session.  A session may
end after any call, and the next one starts with a new manager.
-/

namespace Synapse.Recovery

open ByteRecords FileOps Atomic Protocol Runs

/-- A session under way.  `current` is history: the counters in memory have been
loaded or saved. -/
structure Live where
  manager : CrashRecoveryManager
  current : Bool

/-- A point between two calls. -/
structure Point where
  dir : DataDirectory
  live : Option Live

/-- What can happen next. -/
inductive Event where
  | construct
  | checkForCrash
  | recover
  | markCleanShutdown (now : UInt64)
  | write (c : WriteCall)
  | destruct (now : UInt64)
  | exit

namespace Point

/-- A data directory without a session. -/
def idle (dir : DataDirectory) : Point where
  dir := dir
  live := none

/-- One event.  Calls need a session; a session ends with its destructor or with
the death of the process. -/
def step (p : Point) : Event → Option Point
  | .construct =>
      match p.live with
      | none => some { p with live := some { manager := .create, current := false } }
      | some _ => none
  | .checkForCrash => p.live.bind fun l =>
      match l.manager.checkForCrash p.dir with
      | .ok (_, manager, dir) =>
          some { dir := dir, live := some { manager := manager, current := true } }
      | .error _ => none
  | .recover => p.live.map fun l =>
      let recovered := l.manager.recover p.dir
      let saved := decide ((l.manager.telemetry.checkRecovery p.dir.wal).1 ≠ 0)
      { dir := recovered.2.2
        live := some { manager := recovered.2.1, current := l.current || saved } }
  | .markCleanShutdown now => p.live.map fun l =>
      let marked := l.manager.markCleanShutdown now p.dir
      { dir := marked.2, live := some { manager := marked.1, current := true } }
  | .write c => p.live.map fun l =>
      let written := l.manager.write c p.dir
      { dir := written.2, live := some { l with manager := written.1 } }
  | .destruct now => p.live.map fun l =>
      { dir := l.manager.destroy now p.dir, live := none }
  | .exit => p.live.map fun _ => { p with live := none }

/-- The totals `load_metadata` would read. -/
def totals (p : Point) : ℕ × ℕ :=
  ((loaded p.dir.metadataFile).totalRecoveries.toNat,
    (loaded p.dir.metadataFile).totalEntriesRecovered.toNat)

/-- The totals never decrease from one point of the run to a later one. -/
def TotalsSurvive (p : Point) (events : List Event) : Prop :=
  ∀ before between after, events = before ++ between ++ after → ∀ p₁ p₂,
    exec step p before = some p₁ → exec step p₁ between = some p₂ → p₁.totals ≤ p₂.totals

/-- What a recovery counts, in 64 bits. -/
def recovered (p : Point) : ℕ := (recoverable p.dir.wal).length % 2 ^ 64

/-- The event does not save over larger totals: it saves none, or ones that were
loaded before and do not overflow, or the stored ones are no larger than what a
manager that has not loaded them puts there. -/
def Keeps (p : Point) : Event → Prop
  | .markCleanShutdown _ => ∀ l, p.live = some l → l.current = false → p.totals = (0, 0)
  | .recover => ∀ l, p.live = some l → LogOpen (readWal p.dir.wal) →
      if l.current then p.totals.1 + 1 < 2 ^ 64 ∧ p.totals.2 + p.recovered < 2 ^ 64
      else p.totals.1 ≤ 1 ∧ p.totals.2 ≤ p.recovered
  | _ => True

/-- The counters in memory are those of the file, or still those of the
constructor. -/
def Synced (p : Point) : Prop :=
  ∀ l, p.live = some l →
    l.manager.metadata = if l.current then loaded p.dir.metadataFile else .zeroed

/-- Without a session there are no counters in memory. -/
theorem synced_idle (dir : DataDirectory) : Synced (idle dir) := by
  intro l hl
  exact absurd hl (Option.some_ne_none l).symm

/-! ## One step -/

/-- A step without a save leaves the stored metadata alone. -/
theorem step_cases {p p' : Point} {e : Event} (h : p.step e = some p') (hp : p.Synced) :
    p'.Synced ∧
      (loaded p'.dir.metadataFile = loaded p.dir.metadataFile ∧
          (∀ now, e ≠ .markCleanShutdown now) ∧
          (e = .recover → ¬ LogOpen (readWal p.dir.wal)) ∨
        (∃ l now, p.live = some l ∧ e = .markCleanShutdown now ∧
          (loaded p'.dir.metadataFile).totalRecoveries = l.manager.metadata.totalRecoveries ∧
          (loaded p'.dir.metadataFile).totalEntriesRecovered =
            l.manager.metadata.totalEntriesRecovered) ∨
        ∃ l, p.live = some l ∧ e = .recover ∧ LogOpen (readWal p.dir.wal) ∧
          (loaded p'.dir.metadataFile).totalRecoveries =
            l.manager.metadata.totalRecoveries + 1 ∧
          (loaded p'.dir.metadataFile).totalEntriesRecovered =
            l.manager.metadata.totalEntriesRecovered +
              UInt64.ofNat (recoverable p.dir.wal).length) := by
  cases e with
  | construct =>
      simp only [step] at h
      split at h
      · obtain rfl := Option.some_injective _ h
        refine ⟨fun l hl => ?_, Or.inl ⟨rfl, by simp, by simp⟩⟩
        obtain rfl := Option.some_injective _ hl
        rfl
      · exact absurd h.symm (Option.some_ne_none _)
  | checkForCrash =>
      rw [step, Option.bind_eq_some_iff] at h
      obtain ⟨l, -, h⟩ := h
      obtain ⟨file, hfile, hcheck⟩ := l.manager.checkForCrash_eq p.dir
      rw [hcheck] at h
      obtain rfl := Option.some_injective _ h
      refine ⟨fun l' hl' => ?_, Or.inl ⟨hfile, by simp, by simp⟩⟩
      obtain rfl := Option.some_injective _ hl'
      exact hfile.symm
  | recover =>
      rw [step, Option.map_eq_some_iff] at h
      obtain ⟨l, hl, rfl⟩ := h
      by_cases hopen : LogOpen (readWal p.dir.wal)
      · have hrecovered := l.manager.recover_of_open p.dir hopen
        have hsaved : (l.manager.telemetry.checkRecovery p.dir.wal).1 ≠ 0 :=
          (AtomicTelemetry.checkRecovery_ne_zero_iff _ _).mpr hopen
        refine ⟨fun l' hl' => ?_, Or.inr (Or.inr ⟨l, hl, rfl, hopen, ?_, ?_⟩)⟩
        · obtain rfl := Option.some_injective _ hl'
          simp only [hrecovered.directory, loaded_saveMetadata, hsaved, ne_eq,
            not_false_eq_true, decide_true, Bool.or_true, if_true]
        · simp only [hrecovered.directory, loaded_saveMetadata, hrecovered.totalRecoveries]
        · simp only [hrecovered.directory, loaded_saveMetadata, hrecovered.totalEntriesRecovered]
      · have hnone := l.manager.recover_of_not_open p.dir hopen
        have hsaved : ¬ (l.manager.telemetry.checkRecovery p.dir.wal).1 ≠ 0 :=
          (AtomicTelemetry.checkRecovery_ne_zero_iff _ _).not.mpr hopen
        refine ⟨fun l' hl' => ?_, Or.inl ⟨?_, by simp, fun _ => hopen⟩⟩
        · obtain rfl := Option.some_injective _ hl'
          simp only [hnone, hsaved, decide_false, Bool.or_false]
          exact hp l hl
        · simp only [hnone]
  | markCleanShutdown now =>
      rw [step, Option.map_eq_some_iff] at h
      obtain ⟨l, hl, rfl⟩ := h
      refine ⟨fun l' hl' => ?_, Or.inr (Or.inl ⟨l, now, hl, rfl, ?_, ?_⟩)⟩
      · obtain rfl := Option.some_injective _ hl'
        exact (loaded_saveMetadata _).symm
      · simp only [CrashRecoveryManager.markCleanShutdown, loaded_saveMetadata]
      · simp only [CrashRecoveryManager.markCleanShutdown, loaded_saveMetadata]
  | write c =>
      rw [step, Option.map_eq_some_iff] at h
      obtain ⟨l, hl, rfl⟩ := h
      refine ⟨fun l' hl' => ?_, Or.inl ⟨rfl, by simp, by simp⟩⟩
      obtain rfl := Option.some_injective _ hl'
      exact hp l hl
  | destruct now =>
      rw [step, Option.map_eq_some_iff] at h
      obtain ⟨l, -, rfl⟩ := h
      refine ⟨fun l' hl' => ?_, Or.inl ⟨rfl, by simp, by simp⟩⟩
      exact absurd hl' (Option.some_ne_none l').symm
  | exit =>
      rw [step, Option.map_eq_some_iff] at h
      obtain ⟨l, -, rfl⟩ := h
      refine ⟨fun l' hl' => ?_, Or.inl ⟨rfl, by simp, by simp⟩⟩
      exact absurd hl' (Option.some_ne_none l').symm

/-- **One step** lowers no stored total exactly if it keeps them. -/
theorem totals_le_iff_keeps {p p' : Point} {e : Event} (h : p.step e = some p')
    (hp : p.Synced) : p.totals ≤ p'.totals ↔ p.Keeps e := by
  obtain ⟨-, hcases⟩ := step_cases h hp
  rw [Prod.le_def]
  simp only [totals]
  rcases hcases with ⟨hsame, hmark, hrecover⟩ | ⟨l, now, hl, rfl, htotal, hentries⟩ |
      ⟨l, hl, rfl, hopen, htotal, hentries⟩
  · rw [hsame]
    refine iff_of_true ⟨le_rfl, le_rfl⟩ ?_
    cases e with
    | markCleanShutdown now => exact absurd rfl (hmark now)
    | recover => exact fun _ _ hopen => absurd hopen (hrecover rfl)
    | _ => trivial
  · rw [htotal, hentries, hp l hl]
    simp only [Keeps, hl, Option.some.injEq, forall_eq', totals, Prod.mk.injEq]
    cases l.current with
    | true => simp
    | false =>
        simp only [Bool.false_eq_true, if_false, RecoveryMetadata.zeroed, UInt64.toNat_zero,
          Nat.le_zero, forall_true_left]
  · rw [htotal, hentries, hp l hl]
    simp only [Keeps, hl, Option.some.injEq, forall_eq', totals, recovered, hopen, forall_true_left]
    have hlt := (loaded p.dir.metadataFile).totalRecoveries.toNat_lt
    have hlt' := (loaded p.dir.metadataFile).totalEntriesRecovered.toNat_lt
    cases l.current with
    | true =>
        simp only [if_true, UInt64.toNat_add, UInt64.toNat_one, UInt64.toNat_ofNat']
        omega
    | false =>
        simp only [Bool.false_eq_true, if_false, RecoveryMetadata.zeroed, UInt64.toNat_add,
          UInt64.toNat_zero, UInt64.toNat_one, UInt64.toNat_ofNat']
        omega

/-! ## Whole runs -/

/-- **The stored totals survive** a run of sessions exactly if every save in it
keeps them. -/
theorem totals_survive_iff (dir : DataDirectory) (events : List Event) :
    TotalsSurvive (idle dir) events ↔ Along step Keeps (idle dir) events := by
  rw [TotalsSurvive, monotone_iff_along step totals]
  have hiff : ∀ (p : Point) (e : Event) (p' : Point), Synced p → step p e = some p' →
      ((∀ p'', step p e = some p'' → p.totals ≤ p''.totals) ↔ Keeps p e) := by
    intro p e p' hp h
    rw [← totals_le_iff_keeps h hp]
    simp [h]
  exact along_iff_of_invariant step hiff (fun p e p' hp h _ => (step_cases h hp).1)
    (synced_idle dir) events

/-- A directory in which one recovery of 64 entries has been recorded. -/
def recoveredOnce : DataDirectory where
  wal := []
  metadataFile := saveMetadata { RecoveryMetadata.zeroed with
    totalRecoveries := 1
    totalEntriesRecovered := 64 }

/-- A session that only marks its clean shutdown wipes the totals out. -/
theorem marked_session_forgets_totals :
    ¬ TotalsSurvive (idle recoveredOnce) [Event.construct, Event.markCleanShutdown 0] := by
  intro h
  have hle := h [] [Event.construct, Event.markCleanShutdown 0] [] rfl _ _ rfl rfl
  have hbefore : (idle recoveredOnce).totals = (1, 64) := by
    simp only [totals, idle, recoveredOnce, loaded_saveMetadata]
    rfl
  rw [hbefore, Prod.le_def] at hle
  refine absurd hle.1 ?_
  simp only [totals, CrashRecoveryManager.markCleanShutdown, loaded_saveMetadata]
  decide

end Point

end Synapse.Recovery
