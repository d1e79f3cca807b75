import Synapse.Foundations.Runs

/-!
# `Watchdog`

The heartbeat of `recovery/watchdog.h` on one thread and the monitor loop on another,
load by load and store by store, over a clock of nanoseconds.

The age of the heartbeat is the difference of a clock value and a time that is loaded
after it.  A heartbeat in between makes the time the later of the two, and the
difference wraps (`recovery_of_fresh_shim`).  Without that, a shim whose heartbeat is
fresh all the time is never recovered.

### The clock

The monitor reads the clock, and then the time of the last heartbeat; the heartbeat reads the
clock and stores it two steps later.  So the difference is taken of two readings in an order
that nobody controls.  The clock of the model is monotone, and the condition of a step is that
the heartbeat it compares with is not younger than its own reading.  It is asked of checks
that began after the first heartbeat, for before that there is nothing to compare with.
-/

namespace Synapse.Recovery

open Runs

/-- The words that the two threads share. -/
structure HeartbeatState where
  counter : UInt64 := 0
  lastTimeNs : UInt64 := 0
  shimAlive : Bool := false
  watchdogAlive : Bool := false

/-- `WatchdogStatus` -/
structure WatchdogStatus where
  shimResponding : Bool
  heartbeatCount : UInt64
  lastHeartbeatAgeMs : UInt64
  watchdogActive : Bool

/-- The test of `monitor_loop`: recovery is triggered. -/
def WatchdogStatus.triggers (s : WatchdogStatus) (timeoutMs : UInt32) : Bool :=
  if s.shimResponding && s.lastHeartbeatAgeMs < timeoutMs.toUInt64 then false
  else if s.shimResponding then true
  else !s.shimResponding && s.heartbeatCount > 0

/-- How far `heartbeat` has come. -/
inductive Heartbeat where
  | idle
  | readClock (ns : UInt64)
  | counted (ns : UInt64)
  | stored

/-- How far an iteration of `monitor_loop` has come. -/
inductive MonitorLoop where
  | idle
  | loadedAlive (alive : Bool)
  | loadedCounter (alive : Bool) (count : UInt64)
  | readClock (alive : Bool) (count now : UInt64)
  | loadedTime (alive : Bool) (count ageMs : UInt64)
  | returned (status : WatchdogStatus)

/-- The clock value that the monitor has read and not yet compared. -/
def MonitorLoop.clockRead : MonitorLoop → Option UInt64
  | .readClock _ _ now => some now
  | _ => none

/-- The shared state, the two threads and the clock.  `beaten` says that a heartbeat has
been completed, `checkAfterBeat` that it had been when the last check began, and
`recoveries` has an entry for each call of `trigger_recovery`, which says the same of
its check. -/
structure Watchdog where
  state : HeartbeatState
  timeoutMs : UInt32
  running : Bool
  clock : UInt64
  heartbeat : Heartbeat
  monitor : MonitorLoop
  beaten : Bool
  checkAfterBeat : Bool
  recoveries : List Bool

namespace Watchdog

/-- The clock goes on, or one of the threads does. -/
inductive Action where
  | tick (now : UInt64)
  | heartbeat
  | monitor
  | stop

/-- After `start()`, with no heartbeat so far. -/
def started (timeoutMs : UInt32) (clock : UInt64) : Watchdog where
  state := { watchdogAlive := true }
  timeoutMs := timeoutMs
  running := true
  clock := clock
  heartbeat := .idle
  monitor := .idle
  beaten := false
  checkAfterBeat := false
  recoveries := []

/-- The next step of `heartbeat()`. -/
def beat (s : Watchdog) : Heartbeat → Watchdog
  | .idle => { s with heartbeat := .readClock s.clock }
  | .readClock ns =>
      { s with
        state := { s.state with counter := s.state.counter + 1 }
        heartbeat := .counted ns }
  | .counted ns =>
      { s with
        state := { s.state with lastTimeNs := ns }
        heartbeat := .stored }
  | .stored =>
      { s with
        state := { s.state with shimAlive := true }
        heartbeat := .idle
        beaten := true }

/-- The next step of `monitor_loop()`: `status()` load by load, and the test. -/
def check (s : Watchdog) : MonitorLoop → Option Watchdog
  | .idle =>
      if s.running then
        some { s with
          monitor := .loadedAlive s.state.shimAlive
          checkAfterBeat := s.beaten }
      else none
  | .loadedAlive alive => some { s with monitor := .loadedCounter alive s.state.counter }
  | .loadedCounter alive count => some { s with monitor := .readClock alive count s.clock }
  | .readClock alive count now =>
      -- the later of the two times may be the one that is subtracted
      some { s with
        monitor := .loadedTime alive count ((now - s.state.lastTimeNs) / 1000000) }
  | .loadedTime alive count ageMs =>
      some { s with
        monitor := .returned {
          shimResponding := alive
          heartbeatCount := count
          lastHeartbeatAgeMs := ageMs
          watchdogActive := s.state.watchdogAlive } }
  | .returned status =>
      some { s with
        monitor := .idle
        recoveries :=
          if status.triggers s.timeoutMs then s.recoveries ++ [s.checkAfterBeat]
          else s.recoveries }

/-- One step. -/
def step (s : Watchdog) : Action → Option Watchdog
  | .tick now => some { s with clock := now }
  | .heartbeat => some (s.beat s.heartbeat)
  | .monitor => s.check s.monitor
  | .stop =>
      some { s with
        state := { s.state with watchdogAlive := false }
        running := false }

/-! ## What is asked -/

/-- No check that began after the first heartbeat has triggered a recovery. -/
def NeverRecovered (s : Watchdog) : Prop := true ∉ s.recoveries

/-- The clock is monotone. -/
def ClockMonotone (s : Watchdog) : Action → Prop
  | .tick now => s.clock ≤ now
  | _ => True

/-- From the first heartbeat on, the stored time is less than the timeout ago. -/
def Fresh (s : Watchdog) : Prop :=
  s.beaten = true →
    s.clock.toNat < s.state.lastTimeNs.toNat + s.timeoutMs.toNat * 1000000

instance (s : Watchdog) : Decidable s.Fresh := inferInstanceAs (Decidable (_ → _))

/-- When a check that began after the first heartbeat loads the time of the last one, it is
not later than the clock value that the check has read. -/
def NotOvertaken (s : Watchdog) : Action → Prop
  | .monitor => s.checkAfterBeat = true → ∀ now ∈ s.monitor.clockRead, s.state.lastTimeNs ≤ now
  | _ => True

instance (s : Watchdog) : (a : Action) → Decidable (s.ClockMonotone a)
  | .tick now => inferInstanceAs (Decidable (s.clock ≤ now))
  | .heartbeat | .monitor | .stop => .isTrue trivial

instance (s : Watchdog) : (a : Action) → Decidable (s.NotOvertaken a)
  | .monitor =>
      haveI := Option.decidableForallMem (p := (s.state.lastTimeNs ≤ ·)) s.monitor.clockRead
      inferInstanceAs (Decidable (s.checkAfterBeat = true → _))
  | .tick _ | .heartbeat | .stop => .isTrue trivial

/-! ## Checks of a fresh shim -/

/-- What a check has found if it began after the first heartbeat. -/
def FindsAlive (s : Watchdog) : MonitorLoop → Prop
  | .idle => True
  | .loadedAlive alive | .loadedCounter alive _ => alive = true
  | .readClock alive _ now => alive = true ∧ now ≤ s.clock
  | .loadedTime alive _ ageMs => alive = true ∧ ageMs < s.timeoutMs.toUInt64
  | .returned status => status.triggers s.timeoutMs = false

/-- What every such run keeps. -/
structure Watched (s : Watchdog) : Prop where
  alive : s.beaten = true → s.state.shimAlive = true
  began : s.checkAfterBeat = true → s.beaten = true
  finds : s.checkAfterBeat = true → s.FindsAlive s.monitor
  neverRecovered : s.NeverRecovered

variable {s s' : Watchdog}

/-- It holds before the first heartbeat. -/
theorem watched_started (timeoutMs : UInt32) (clock : UInt64) :
    (started timeoutMs clock).Watched where
  alive := nofun
  began := nofun
  finds := nofun
  neverRecovered := List.not_mem_nil

/-- The age of a time that is not in the future. -/
theorem age_lt {now last : UInt64} {timeoutMs : UInt32} (hle : last ≤ now)
    (hfresh : now.toNat < last.toNat + timeoutMs.toNat * 1000000) :
    (now - last) / 1000000 < timeoutMs.toUInt64 := by
  rw [UInt64.lt_iff_toNat_lt, UInt64.toNat_div, UInt64.toNat_sub_of_le _ _ hle,
    UInt32.toNat_toUInt64]
  rw [UInt64.le_iff_toNat_le] at hle
  refine Nat.div_lt_of_lt_mul ?_
  change now.toNat - last.toNat < 1000000 * timeoutMs.toNat
  omega

/-- With the flag set and an age below the timeout there is nothing to recover. -/
theorem triggers_of_fresh {status : WatchdogStatus} {timeoutMs : UInt32}
    (halive : status.shimResponding = true)
    (hage : status.lastHeartbeatAgeMs < timeoutMs.toUInt64) :
    status.triggers timeoutMs = false := by
  rw [WatchdogStatus.triggers, halive, Bool.true_and, if_pos (decide_eq_true hage)]

/-- What a check has found stays so when the clock goes on. -/
theorem FindsAlive.later {monitor : MonitorLoop} (h : s.FindsAlive monitor)
    (hclock : s.clock ≤ s'.clock) (htimeout : s'.timeoutMs = s.timeoutMs) :
    s'.FindsAlive monitor := by
  cases monitor with
  | idle => trivial
  | loadedAlive alive | loadedCounter alive count => exact h
  | readClock alive count now => exact ⟨h.1, UInt64.le_trans h.2 hclock⟩
  | loadedTime alive count ageMs => exact ⟨h.1, htimeout ▸ h.2⟩
  | returned status =>
      change status.triggers s'.timeoutMs = false
      rw [htimeout]
      exact h

namespace Watched

/-- The clock only goes on. -/
theorem tick (h : s.Watched) {now : UInt64} (hle : s.clock ≤ now) :
    Watched { s with clock := now } where
  alive := h.alive
  began := h.began
  finds hafter := (h.finds hafter).later hle rfl
  neverRecovered := h.neverRecovered

/-- A heartbeat leaves the monitor alone. -/
theorem beat (h : s.Watched) : (s.beat s.heartbeat).Watched := by
  have hfinds : ∀ (state : HeartbeatState) (heartbeat : Heartbeat) (beaten : Bool),
      s.checkAfterBeat = true →
        FindsAlive { s with state := state, heartbeat := heartbeat, beaten := beaten }
          s.monitor :=
    fun _ _ _ hafter => (h.finds hafter).later (UInt64.le_refl _) rfl
  cases s.heartbeat with
  | idle => exact ⟨h.alive, h.began, hfinds _ _ _, h.neverRecovered⟩
  | readClock ns => exact ⟨h.alive, h.began, hfinds _ _ _, h.neverRecovered⟩
  | counted ns => exact ⟨h.alive, h.began, hfinds _ _ _, h.neverRecovered⟩
  | stored => exact ⟨fun _ => rfl, fun _ => rfl, hfinds _ _ _, h.neverRecovered⟩

/-- A check of a fresh shim finds it alive. -/
theorem check (h : s.Watched) (hfresh : s.Fresh) (hnot : s.NotOvertaken .monitor)
    (hstep : s.check s.monitor = some s') : s'.Watched := by
  have hfinds := h.finds
  cases hmonitor : s.monitor with
  | idle =>
      rw [hmonitor, Watchdog.check] at hstep
      split at hstep
      · obtain rfl := Option.some_injective _ hstep
        exact ⟨h.alive, id, h.alive, h.neverRecovered⟩
      · cases hstep
  | loadedAlive alive =>
      rw [hmonitor] at hstep hfinds
      obtain rfl := Option.some_injective _ hstep
      exact ⟨h.alive, h.began, hfinds, h.neverRecovered⟩
  | loadedCounter alive count =>
      rw [hmonitor] at hstep hfinds
      obtain rfl := Option.some_injective _ hstep
      exact ⟨h.alive, h.began, fun hafter => ⟨hfinds hafter, UInt64.le_refl _⟩,
        h.neverRecovered⟩
  | readClock alive count now =>
      rw [hmonitor] at hstep hfinds
      obtain rfl := Option.some_injective _ hstep
      refine ⟨h.alive, h.began, fun hafter => ?_, h.neverRecovered⟩
      have hlast : s.state.lastTimeNs ≤ now := hnot hafter now (hmonitor ▸ rfl)
      obtain ⟨halive, hnow⟩ := hfinds hafter
      -- the clock has not gone back since it was read
      have hclock := hfresh (h.began hafter)
      exact ⟨halive, age_lt hlast ((UInt64.le_iff_toNat_le.mp hnow).trans_lt hclock)⟩
  | loadedTime alive count ageMs =>
      rw [hmonitor] at hstep hfinds
      obtain rfl := Option.some_injective _ hstep
      refine ⟨h.alive, h.began, fun hafter => ?_, h.neverRecovered⟩
      obtain ⟨halive, hage⟩ := hfinds hafter
      exact triggers_of_fresh halive hage
  | returned status =>
      rw [hmonitor] at hstep hfinds
      obtain rfl := Option.some_injective _ hstep
      refine ⟨h.alive, h.began, fun _ => trivial, ?_⟩
      change true ∉ if status.triggers s.timeoutMs then _ else _
      split
      · rename_i htriggers
        intro hmem
        refine (List.mem_append.mp hmem).elim h.neverRecovered fun hnew => ?_
        have hnone : status.triggers s.timeoutMs = false :=
          hfinds (List.mem_singleton.mp hnew).symm
        exact Bool.false_ne_true (hnone.symm.trans htriggers)
      · exact h.neverRecovered

/-- The step lemma. -/
theorem step {a : Action} (h : s.Watched) (hclock : s.ClockMonotone a) (hfresh : s.Fresh)
    (hnot : s.NotOvertaken a) (hstep : s.step a = some s') : s'.Watched := by
  cases a with
  | tick now =>
      obtain rfl := Option.some_injective _ hstep
      exact h.tick hclock
  | heartbeat =>
      obtain rfl := Option.some_injective _ hstep
      exact h.beat
  | monitor => exact h.check hfresh hnot hstep
  | stop =>
      obtain rfl := Option.some_injective _ hstep
      exact ⟨h.alive, h.began, fun hafter => (h.finds hafter).later (UInt64.le_refl _) rfl,
        h.neverRecovered⟩

end Watched

/-! ## Whole runs -/

/-- **A fresh shim is never recovered** as long as no heartbeat is stored between the
clock reading of a check and its load of the time. -/
theorem never_recovered_of_notOvertaken {timeoutMs : UInt32} {clock : UInt64}
    {actions : List Action} (h : exec step (started timeoutMs clock) actions = some s)
    (hclock : Along step ClockMonotone (started timeoutMs clock) actions)
    (hfresh : Along step (fun s _ => s.Fresh) (started timeoutMs clock) actions)
    (hnot : Along step NotOvertaken (started timeoutMs clock) actions) : s.NeverRecovered := by
  have hall := (along_and step _ _ _ _).mpr ⟨hclock, (along_and step _ _ _ _).mpr ⟨hfresh, hnot⟩⟩
  have hwatched : s.Watched :=
    invariant_of_along step (fun _ _ _ hs ha hP => hs.step hP.1 hP.2.1 hP.2.2 ha)
      (watched_started timeoutMs clock) hall h
  exact hwatched.neverRecovered

/-- After a first heartbeat a check and a second heartbeat go on at the same time; the second
time is stored before the check reads the clock. -/
def overlappingCheck : List Action :=
  [.heartbeat, .heartbeat, .heartbeat, .heartbeat, .tick 1000000000, .monitor, .heartbeat,
    .heartbeat, .monitor, .heartbeat, .tick 1000000001, .monitor, .monitor, .heartbeat, .monitor,
    .monitor]

/-- A heartbeat in the middle of a check. -/
theorem never_recovered_overlapping :
    ∃ s, exec step (started 5000 0) overlappingCheck = some s ∧ s.state.counter = 2 ∧
      s.NeverRecovered := by
  obtain ⟨s, hrun, hcounter⟩ : ∃ s, exec step (started 5000 0) overlappingCheck = some s ∧
      s.state.counter = 2 := ⟨_, rfl, rfl⟩
  exact ⟨s, hrun, hcounter,
    never_recovered_of_notOvertaken hrun (by decide) (by decide) (by decide)⟩

/-- A heartbeat lands between the clock reading and the load of the time: the age is that
of a time in the future. -/
theorem recovery_of_fresh_shim :
    ∃ actions s, exec step (started 5000 0) actions = some s ∧
      Along step ClockMonotone (started 5000 0) actions ∧
      Along step (fun s _ => s.Fresh) (started 5000 0) actions ∧ s.Fresh ∧
      ¬ s.NeverRecovered := by
  refine ⟨[.heartbeat, .heartbeat, .heartbeat, .heartbeat, .tick 1000000000, .monitor, .monitor,
    .monitor, .tick 1000000001, .heartbeat, .heartbeat, .heartbeat, .monitor, .monitor,
    .monitor], _, rfl, ?_, ?_, ?_, ?_⟩
  · decide
  · decide
  · decide
  · exact fun h => h (show true ∈ [true] by decide)

end Watchdog

end Synapse.Recovery
