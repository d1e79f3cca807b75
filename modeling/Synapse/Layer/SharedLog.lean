import Synapse.Foundations.Runs
import Synapse.Recovery.Session

/-!
# Several devices on one WAL file

Every device gets a core of its own, and all cores use the same data directory.
`vkCreateDevice` and `vkDestroyDevice` hold the device mutex to their end; the
draw path takes it only to look the core up.  So at most one device is being
created or destroyed at a time, while the cores of the other devices may write
between any two steps of that.

A creation has three steps that look at the file or change it: `check_for_crash`
reads it, `recover` reads it again, and `replay` empties it.  A destruction is the
list of file operations of the shutdown.  A `write` call of a live core is one
step, with the flush it may end in.  One read and one append of the file are not
divided further.

The file is kept as the chunks that were appended to it, each with the core that
wrote it; the program does not have this record.  With it, a step does harm when it
reports, replays or removes something a live core has written (`Harms`).  In runs
without harm a live core has something on disk exactly when it has logged a batch,
which turns harm into a condition on counts (`creation_harmless_iff`).
-/

namespace Synapse.Layer

open ByteRecords FileOps Atomic

/-- A core that has not been destroyed, with the number of its accepted calls. -/
structure LiveCore where
  telemetry : AtomicTelemetry
  logged : ℕ

/-- How far a creation has got. -/
inductive Stage where
  /-- The core is constructed. -/
  | constructed
  /-- `check_for_crash` has returned `true`. -/
  | reported
  /-- `recover` has seen a nonzero count as well. -/
  | confirmed
  deriving DecidableEq, Repr

/-- Who holds the device mutex. -/
inductive Holder where
  | free
  | creating (id : ℕ) (stage : Stage)
  | destroying (ops : List FileOp)

/-- The file by its chunks, the cores, and who holds the device mutex. -/
structure SharedLog where
  chunks : List (Option ℕ × Bytes)
  cores : ℕ → Option LiveCore
  nextId : ℕ
  holder : Holder

/-- What happens next: a step of a creation, of a destruction, or a write of a live core. -/
inductive Action where
  /-- `vkCreateDevice` up to the construction of the core. -/
  | create
  /-- `check_recovery` in `check_for_crash`. -/
  | check
  /-- `check_recovery` in `recover`. -/
  | confirm
  /-- `replay` in `recover`. -/
  | replay
  | write (id : ℕ) (call : WriteCall)
  /-- `vkDestroyDevice` up to the destructor of the core. -/
  | destroy (id : ℕ) (now : UInt64)
  /-- The next file operation of that destructor. -/
  | destroyStep

namespace SharedLog

/-- The content of the file. -/
def file (s : SharedLog) : Bytes := s.chunks.flatMap Prod.snd

/-- One file operation of the given writer. -/
def applyOp (writer : Option ℕ) (chunks : List (Option ℕ × Bytes)) : FileOp →
    List (Option ℕ × Bytes)
  | .append bytes => chunks ++ [(writer, bytes)]
  | .truncate => []

/-- The file operations of a core, which is noted with each chunk. -/
def applyOps (writer : Option ℕ) (ops : List FileOp) (chunks : List (Option ℕ × Bytes)) :
    List (Option ℕ × Bytes) :=
  ops.foldl (applyOp writer) chunks

/-- The record of the writers follows the file. -/
theorem file_applyOps (writer : Option ℕ) (ops : List FileOp)
    (chunks : List (Option ℕ × Bytes)) :
    (applyOps writer ops chunks).flatMap Prod.snd = runOps ops (chunks.flatMap Prod.snd) := by
  induction ops generalizing chunks with
  | nil => rfl
  | cons op ops ih =>
      refine (ih _).trans (congrArg (runOps ops) ?_)
      cases op with
      | append bytes => simp [applyOp, FileOp.apply]
      | truncate => rfl

/-- The file as the process finds it. -/
def init (file : Bytes) : SharedLog where
  chunks := [(none, file)]
  cores _ := none
  nextId := 0
  holder := .free

/-- A live core takes a new state, or a core is destroyed. -/
def setCore (id : ℕ) (core : Option LiveCore) (s : SharedLog) : SharedLog :=
  { s with cores := Function.update s.cores id core }

/-- A core has been constructed, and nothing has been read yet. -/
def afterCreate (s : SharedLog) : SharedLog :=
  { s.setCore s.nextId (some ⟨AtomicTelemetry.create, 0⟩) with
    nextId := s.nextId + 1
    holder := .creating s.nextId .constructed }

/-- A `check_recovery` of the core under creation, which goes on at `next` if it
returns a nonzero count and ends the creation otherwise. -/
def afterCheck (id : ℕ) (next : Stage) (core : LiveCore) (s : SharedLog) : SharedLog :=
  let checked := core.telemetry.checkRecovery s.file
  { s.setCore id (some { core with telemetry := checked.2 }) with
    holder := if checked.1 ≠ 0 then .creating id next else .free }

/-- The log has been replayed, which empties the file. -/
def afterReplay (id : ℕ) (core : LiveCore) (s : SharedLog) : SharedLog :=
  let replayed := core.telemetry.replay
  { s.setCore id (some { core with telemetry := replayed.2.1 }) with
    chunks := applyOps (some id) replayed.2.2 s.chunks
    holder := .free }

/-- A core has logged an entry, and perhaps flushed its batch. -/
def afterWrite (id : ℕ) (call : WriteCall) (core : LiveCore) (s : SharedLog) : SharedLog :=
  let written := core.telemetry.writeCall call
  { s.setCore id (some ⟨written.2.1, core.logged + 1⟩) with
    chunks := applyOps (some id) written.2.2 s.chunks }

/-- A core is gone, and its shutdown is yet to be written. -/
def afterDestroy (id : ℕ) (now : UInt64) (core : LiveCore) (s : SharedLog) : SharedLog :=
  { s.setCore id none with
    holder := .destroying (core.telemetry.shutdown .markThenDestroy now) }

/-- The core is the one under creation. -/
def isUnderCreation (id : ℕ) (s : SharedLog) : Bool :=
  match s.holder with
  | .creating id' _ => id' = id
  | _ => false

/-- One step; `none` if the action is not possible. -/
def step (s : SharedLog) : Action → Option SharedLog
  | .create =>
      match s.holder with
      | .free => some s.afterCreate
      | _ => none
  | .check =>
      match s.holder with
      | .creating id .constructed => (s.cores id).map fun core => s.afterCheck id .reported core
      | _ => none
  | .confirm =>
      match s.holder with
      | .creating id .reported => (s.cores id).map fun core => s.afterCheck id .confirmed core
      | _ => none
  | .replay =>
      match s.holder with
      | .creating id .confirmed => (s.cores id).map fun core => s.afterReplay id core
      | _ => none
  | .write id call =>
      if s.isUnderCreation id then none
      else (s.cores id).map fun core => s.afterWrite id call core
  | .destroy id now =>
      match s.holder with
      | .free => (s.cores id).map fun core => s.afterDestroy id now core
      | _ => none
  | .destroyStep =>
      match s.holder with
      | .destroying [] => some { s with holder := .free }
      | .destroying (op :: ops) =>
          some { s with chunks := applyOp none s.chunks op, holder := .destroying ops }
      | _ => none

/-! ## Inversion -/

/-- The possible steps. -/
inductive Steps (s : SharedLog) : Action → SharedLog → Prop where
  | create (hholder : s.holder = .free) : Steps s .create s.afterCreate
  | check {id : ℕ} {core : LiveCore} (hholder : s.holder = .creating id .constructed)
      (hcore : s.cores id = some core) : Steps s .check (s.afterCheck id .reported core)
  | confirm {id : ℕ} {core : LiveCore} (hholder : s.holder = .creating id .reported)
      (hcore : s.cores id = some core) : Steps s .confirm (s.afterCheck id .confirmed core)
  | replay {id : ℕ} {core : LiveCore} (hholder : s.holder = .creating id .confirmed)
      (hcore : s.cores id = some core) : Steps s .replay (s.afterReplay id core)
  | write {id : ℕ} {core : LiveCore} (call : WriteCall) (hbusy : s.isUnderCreation id = false)
      (hcore : s.cores id = some core) : Steps s (.write id call) (s.afterWrite id call core)
  | destroy {id : ℕ} {core : LiveCore} (now : UInt64) (hholder : s.holder = .free)
      (hcore : s.cores id = some core) : Steps s (.destroy id now) (s.afterDestroy id now core)
  | destroyDone (hholder : s.holder = .destroying []) :
      Steps s .destroyStep { s with holder := .free }
  | destroyStep {op : FileOp} {ops : List FileOp} (hholder : s.holder = .destroying (op :: ops)) :
      Steps s .destroyStep
        { s with chunks := applyOp none s.chunks op, holder := .destroying ops }

/-- The shapes that a step can have. -/
theorem steps_of_step {s s' : SharedLog} {a : Action} (h : s.step a = some s') :
    s.Steps a s' := by
  cases a with
  | create =>
      simp only [step] at h
      split at h
      · rename_i hholder
        exact Option.some.inj h ▸ Steps.create hholder
      · cases h
  | check =>
      simp only [step] at h
      split at h
      · rename_i hholder
        obtain ⟨core, hcore, rfl⟩ := Option.map_eq_some_iff.mp h
        exact Steps.check hholder hcore
      · cases h
  | confirm =>
      simp only [step] at h
      split at h
      · rename_i hholder
        obtain ⟨core, hcore, rfl⟩ := Option.map_eq_some_iff.mp h
        exact Steps.confirm hholder hcore
      · cases h
  | replay =>
      simp only [step] at h
      split at h
      · rename_i hholder
        obtain ⟨core, hcore, rfl⟩ := Option.map_eq_some_iff.mp h
        exact Steps.replay hholder hcore
      · cases h
  | write id call =>
      simp only [step] at h
      split at h
      · cases h
      · rename_i hbusy
        obtain ⟨core, hcore, rfl⟩ := Option.map_eq_some_iff.mp h
        exact Steps.write call (Bool.eq_false_iff.mpr hbusy) hcore
  | destroy id now =>
      simp only [step] at h
      split at h
      · rename_i hholder
        obtain ⟨core, hcore, rfl⟩ := Option.map_eq_some_iff.mp h
        exact Steps.destroy now hholder hcore
      · cases h
  | destroyStep =>
      simp only [step] at h
      split at h
      · rename_i hholder
        exact Option.some.inj h ▸ Steps.destroyDone hholder
      · rename_i op ops hholder
        exact Option.some.inj h ▸ Steps.destroyStep hholder
      · cases h

/-! ## Harm -/

/-- The core has something in the file. -/
def OnDisk (s : SharedLog) (id : ℕ) : Prop := ∃ bytes, (some id, bytes) ∈ s.chunks ∧ bytes ≠ []

/-- A live core other than the given one has something in the file. -/
def OthersOnDisk (s : SharedLog) (id : ℕ) : Prop :=
  ∃ other, other ≠ id ∧ (s.cores other).isSome ∧ s.OnDisk other

/-- The step reports, replays or removes what a live core other than the one under
creation has written.  What `replay` puts into the ring was in the file when
`recover` read it, and is still there when the file is emptied. -/
def Harms (s : SharedLog) : Action → Prop
  | .check | .confirm => ∃ id stage core, s.holder = .creating id stage ∧
      s.cores id = some core ∧ (core.telemetry.checkRecovery s.file).1 ≠ 0 ∧ s.OthersOnDisk id
  | .replay => ∃ id stage, s.holder = .creating id stage ∧ s.OthersOnDisk id
  | _ => False

/-- Every live core other than the given one has logged less than a batch. -/
def OthersBelowBatch (s : SharedLog) (id : ℕ) : Prop :=
  ∀ other core, other ≠ id → s.cores other = some core → core.logged < kWALFlushBatch

/-- The step meets no other live core that has logged a batch; a check may, if the
log is empty or closed. -/
def Undisturbed (s : SharedLog) : Action → Prop
  | .check | .confirm => ∀ id stage, s.holder = .creating id stage →
      LogOpen (readWal s.file) → s.OthersBelowBatch id
  | .replay => ∀ id stage, s.holder = .creating id stage → s.OthersBelowBatch id
  | _ => True

/-! ## The invariant -/

section Writers

variable {s s' : SharedLog} {writer : Option ℕ} {bytes : Bytes}

/-- An append adds to what its writer has on disk, and to nothing else. -/
theorem onDisk_concat (h : s'.chunks = s.chunks ++ [(writer, bytes)]) (id : ℕ) :
    s'.OnDisk id ↔ s.OnDisk id ∨ writer = some id ∧ bytes ≠ [] := by
  constructor
  · rintro ⟨b, hb, hne⟩
    rw [h, List.mem_append, List.mem_singleton] at hb
    rcases hb with hb | hb
    · exact Or.inl ⟨b, hb, hne⟩
    · obtain ⟨rfl, rfl⟩ := Prod.mk.inj hb
      exact Or.inr ⟨rfl, hne⟩
  · rintro (⟨b, hb, hne⟩ | ⟨rfl, hne⟩)
    · exact ⟨b, h ▸ List.mem_append_left _ hb, hne⟩
    · exact ⟨bytes, h ▸ List.mem_append_right _ (List.mem_singleton_self _), hne⟩

/-- What is on disk depends on the chunks alone. -/
theorem onDisk_of_chunks_eq (h : s'.chunks = s.chunks) (id : ℕ) : s'.OnDisk id ↔ s.OnDisk id := by
  rw [OnDisk, OnDisk, h]

/-- An empty file has nothing of anyone. -/
theorem not_onDisk_of_nil (h : s.chunks = []) (id : ℕ) : ¬ s.OnDisk id := by
  rintro ⟨bytes, hmem, -⟩
  rw [h] at hmem
  cases hmem

end Writers

/-- A live core buffers what it has logged since its last batch, and has something
on disk exactly if there was a batch. -/
structure CoreSound (s : SharedLog) (id : ℕ) (core : LiveCore) : Prop where
  buffered : core.telemetry.writeBuffer.length = core.logged % kWALFlushBatch
  onDisk : s.OnDisk id ↔ kWALFlushBatch ≤ core.logged

/-- The invariant of runs without harm. -/
structure Sound (s : SharedLog) : Prop where
  cores : ∀ id core, s.cores id = some core → s.CoreSound id core
  unborn : ∀ id, s.nextId ≤ id → s.cores id = none ∧ ¬ s.OnDisk id
  creating : ∀ id stage core, s.holder = .creating id stage → s.cores id = some core →
    core.logged = 0
  destroying : ∀ ops, s.holder = .destroying ops → AppendOnly ops

/-- The file of earlier sessions is nobody's. -/
theorem sound_init (file : Bytes) : Sound (init file) where
  cores := by
    intro id core h
    cases h
  unborn := by
    refine fun id _ => ⟨rfl, ?_⟩
    rintro ⟨bytes, hmem, -⟩
    cases List.mem_singleton.mp hmem
  creating := by
    intro id stage core h
    cases h
  destroying := by
    intro ops h
    cases h

section Update

variable {s s' : SharedLog} {id : ℕ} {core : LiveCore}

/-- The core that is set. -/
@[simp] theorem setCore_cores_self (next : Option LiveCore) :
    (s.setCore id next).cores id = next := Function.update_self _ _ _

/-- The others stay. -/
theorem setCore_cores_of_ne {other : ℕ} (h : other ≠ id) (next : Option LiveCore) :
    (s.setCore id next).cores other = s.cores other := Function.update_of_ne h _ _

/-- The new core has logged nothing. -/
@[simp] theorem afterCreate_cores_self (s : SharedLog) :
    s.afterCreate.cores s.nextId = some ⟨AtomicTelemetry.create, 0⟩ := setCore_cores_self _

/-- A check sets the core's verdict. -/
@[simp] theorem afterCheck_cores_self (s : SharedLog) (id : ℕ) (next : Stage) (core : LiveCore) :
    (s.afterCheck id next core).cores id =
      some { core with telemetry := (core.telemetry.checkRecovery s.file).2 } :=
  setCore_cores_self _

/-- A live core has its number from the counter. -/
theorem Sound.born (h : s.Sound) (hcore : s.cores id = some core) : id < s.nextId := by
  by_contra hnot
  rw [(h.unborn id (Nat.le_of_not_lt hnot)).1] at hcore
  cases hcore

/-- A step that changes one core, and what that core alone has on disk. -/
theorem Sound.update (h : s.Sound) {next : Option LiveCore}
    (hcores : s'.cores = (s.setCore id next).cores) (hnext : s.nextId ≤ s'.nextId)
    (hborn : id < s'.nextId) (hself : ∀ core, next = some core → s'.CoreSound id core)
    (hothers : ∀ other, other ≠ id → (s'.OnDisk other ↔ s.OnDisk other))
    (hcreating : ∀ id stage core, s'.holder = .creating id stage → s'.cores id = some core →
      core.logged = 0)
    (hdestroying : ∀ ops, s'.holder = .destroying ops → AppendOnly ops) : s'.Sound where
  cores := by
    intro other core hcore
    rw [hcores] at hcore
    by_cases heq : other = id
    · subst heq
      rw [setCore_cores_self] at hcore
      exact hself core hcore
    · rw [setCore_cores_of_ne heq] at hcore
      have hsound := h.cores other core hcore
      exact ⟨hsound.buffered, (hothers other heq).trans hsound.onDisk⟩
  unborn := by
    intro other hother
    have hne : other ≠ id := by omega
    rw [hcores, setCore_cores_of_ne hne, hothers other hne]
    exact h.unborn other (hnext.trans hother)
  creating := hcreating
  destroying := hdestroying

/-- A creation begins. -/
theorem sound_create (h : s.Sound) : s.afterCreate.Sound := by
  refine h.update rfl (Nat.le_succ _) (Nat.lt_succ_self s.nextId) ?_ (fun _ _ => Iff.rfl) ?_ ?_
  · intro core hcore
    obtain rfl := Option.some.inj hcore
    exact ⟨rfl, iff_of_false (h.unborn s.nextId le_rfl).2 (by decide)⟩
  · intro id stage core hholder hcore
    obtain ⟨rfl, -⟩ := Holder.creating.inj hholder
    obtain rfl := Option.some.inj ((setCore_cores_self _).symm.trans hcore)
    rfl
  · intro ops hholder
    cases hholder

/-- A check changes neither the buffer nor the counts. -/
theorem sound_check (h : s.Sound) {stage : Stage} (hholder : s.holder = .creating id stage)
    (hcore : s.cores id = some core) (next : Stage) : (s.afterCheck id next core).Sound := by
  have hself := h.cores id core hcore
  refine h.update rfl le_rfl (h.born hcore) ?_ (fun _ _ => Iff.rfl) ?_ ?_
  · intro core' hcore'
    obtain rfl := Option.some.inj hcore'
    exact ⟨hself.buffered, hself.onDisk⟩
  · intro id' stage' core' hholder' hcore'
    simp only [afterCheck] at hholder'
    split_ifs at hholder'
    obtain ⟨rfl, -⟩ := Holder.creating.inj hholder'
    obtain rfl := Option.some.inj ((setCore_cores_self _).symm.trans hcore')
    exact h.creating id stage core hholder hcore
  · intro ops hholder'
    simp only [afterCheck] at hholder'
    split_ifs at hholder'

/-- A replay empties the file, so no live core may have a batch in it. -/
theorem sound_replay (h : s.Sound) {stage : Stage} (hholder : s.holder = .creating id stage)
    (hcore : s.cores id = some core) (hothers : s.OthersBelowBatch id) :
    (s.afterReplay id core).Sound where
  cores := by
    intro other core' hcore'
    have hempty : ¬ (s.afterReplay id core).OnDisk other := not_onDisk_of_nil rfl other
    by_cases heq : other = id
    · subst heq
      obtain rfl := Option.some.inj ((setCore_cores_self _).symm.trans hcore')
      -- the core under creation has not logged yet
      have hzero := h.creating other stage core hholder hcore
      refine ⟨(h.cores other core hcore).buffered, iff_of_false hempty ?_⟩
      change ¬ kWALFlushBatch ≤ core.logged
      rw [hzero]
      decide
    · have hold : s.cores other = some core' := (setCore_cores_of_ne heq _).symm.trans hcore'
      exact ⟨(h.cores other core' hold).buffered,
        iff_of_false hempty (Nat.not_le.mpr (hothers other core' heq hold))⟩
  unborn := by
    intro other hother
    have hne : other ≠ id := (lt_of_lt_of_le (h.born hcore) hother).ne'
    refine ⟨?_, not_onDisk_of_nil rfl other⟩
    exact (setCore_cores_of_ne hne _).trans (h.unborn other hother).1
  creating := by
    intro id' stage' core' hholder'
    cases hholder'
  destroying := by
    intro ops hholder'
    cases hholder'

/-! ### Writing -/

/-- The entry that fills the buffer writes the batch. -/
theorem chunks_write_of_full (s : SharedLog) (id : ℕ) (call : WriteCall)
    (h : core.telemetry.writeBuffer.length + 1 = kWALFlushBatch) :
    (s.afterWrite id call core).chunks = s.chunks ++ [(some id,
      walCodec.encodeAll (core.telemetry.writeBuffer ++ [call.entry core.telemetry.sequence]))] :=
  congrArg (fun ops => applyOps (some id) ops s.chunks) (AtomicTelemetry.writeCall_of_full call h).2

/-- Any other entry stays in the buffer. -/
theorem chunks_write_of_lt (s : SharedLog) (id : ℕ) (call : WriteCall)
    (h : core.telemetry.writeBuffer.length + 1 < kWALFlushBatch) :
    (s.afterWrite id call core).chunks = s.chunks :=
  congrArg (fun ops => applyOps (some id) ops s.chunks) (AtomicTelemetry.writeCall_of_lt call h).2

/-- A call that fills the batch puts it on disk. -/
theorem coreSound_write_of_full (h : s.CoreSound id core) (call : WriteCall)
    (hfull : core.telemetry.writeBuffer.length + 1 = kWALFlushBatch) :
    (s.afterWrite id call core).CoreSound id
      ⟨(core.telemetry.writeCall call).2.1, core.logged + 1⟩ := by
  have hbuf := h.buffered
  have hnil := (AtomicTelemetry.writeCall_of_full call hfull).1
  have hchunks := chunks_write_of_full s id call hfull
  unfold kWALFlushBatch at hbuf hfull
  constructor
  · rw [hnil, List.length_nil]
    change 0 = (core.logged + 1) % 64
    omega
  · rw [onDisk_concat hchunks]
    refine iff_of_true (Or.inr ⟨rfl, fun hempty => ?_⟩) ?_
    · have hlen := congrArg List.length hempty
      rw [RecordCodec.length_encodeAll, List.length_append, List.length_singleton, hfull] at hlen
      exact absurd hlen (by decide)
    · -- 63 calls since the last batch, so this one completes another
      change 64 ≤ core.logged + 1
      omega

/-- Any other call only counts up. -/
theorem coreSound_write_of_lt (h : s.CoreSound id core) (call : WriteCall)
    (hlt : core.telemetry.writeBuffer.length + 1 < kWALFlushBatch) :
    (s.afterWrite id call core).CoreSound id
      ⟨(core.telemetry.writeCall call).2.1, core.logged + 1⟩ := by
  have hbuf := h.buffered
  have hconcat := (AtomicTelemetry.writeCall_of_lt call hlt).1
  have hchunks := chunks_write_of_lt s id call hlt
  unfold kWALFlushBatch at hbuf hlt
  constructor
  · rw [hconcat, List.length_append, List.length_singleton]
    change _ = (core.logged + 1) % 64
    omega
  · rw [onDisk_of_chunks_eq hchunks, h.onDisk]
    change 64 ≤ core.logged ↔ 64 ≤ core.logged + 1
    omega

/-- A buffer has room for one more entry, which may be the last of its batch. -/
theorem CoreSound.full_or_lt (h : s.CoreSound id core) :
    core.telemetry.writeBuffer.length + 1 = kWALFlushBatch ∨
      core.telemetry.writeBuffer.length + 1 < kWALFlushBatch := by
  have hlt := Nat.mod_lt core.logged (show 0 < kWALFlushBatch by decide)
  rw [← h.buffered] at hlt
  omega

/-- What a core has logged is on disk in batches, and the rest in its buffer. -/
theorem coreSound_write (h : s.CoreSound id core) (call : WriteCall) :
    (s.afterWrite id call core).CoreSound id
      ⟨(core.telemetry.writeCall call).2.1, core.logged + 1⟩ :=
  h.full_or_lt.elim (coreSound_write_of_full h call) (coreSound_write_of_lt h call)

/-- A call of one core adds nothing to what another has on disk. -/
theorem onDisk_write_of_ne (h : s.CoreSound id core) (call : WriteCall) {other : ℕ}
    (hne : other ≠ id) : (s.afterWrite id call core).OnDisk other ↔ s.OnDisk other := by
  rcases h.full_or_lt with hfull | hlt
  · rw [onDisk_concat (chunks_write_of_full s id call hfull)]
    refine or_iff_left fun hwriter => hne ?_
    exact (Option.some.inj hwriter.1).symm
  · exact onDisk_of_chunks_eq (chunks_write_of_lt s id call hlt) other

/-- A write of a live core. -/
theorem sound_write (h : s.Sound) (call : WriteCall) (hbusy : s.isUnderCreation id = false)
    (hcore : s.cores id = some core) : (s.afterWrite id call core).Sound := by
  have hself := h.cores id core hcore
  refine h.update rfl le_rfl (h.born hcore) ?_ (fun _ hne => onDisk_write_of_ne hself call hne)
    ?_ h.destroying
  · intro core' hcore'
    obtain rfl := Option.some.inj hcore'
    exact coreSound_write hself call
  · intro id' stage core' hholder hcore'
    have hholder' : s.holder = .creating id' stage := hholder
    have hne : id' ≠ id := by
      rw [isUnderCreation, hholder'] at hbusy
      exact of_decide_eq_false hbusy
    exact h.creating id' stage core' hholder' ((setCore_cores_of_ne hne _).symm.trans hcore')

/-! ### Destroying -/

/-- A destruction begins, and the core is not counted any more. -/
theorem sound_destroy (h : s.Sound) (now : UInt64) (hcore : s.cores id = some core) :
    (s.afterDestroy id now core).Sound := by
  refine h.update rfl le_rfl (h.born hcore) ?_ (fun _ _ => Iff.rfl) ?_ ?_
  · intro core' hcore'
    cases hcore'
  · intro id' stage core' hholder
    cases hholder
  · intro ops hholder
    obtain rfl := Holder.destroying.inj hholder
    exact AtomicTelemetry.appendOnly_shutdown now core.telemetry .markThenDestroy

/-- It ends, and the mutex is free. -/
theorem sound_destroyDone (h : s.Sound) : Sound { s with holder := .free } where
  cores := fun id core hcore => ⟨(h.cores id core hcore).buffered, (h.cores id core hcore).onDisk⟩
  unborn := h.unborn
  creating := by
    intro id stage core hholder
    cases hholder
  destroying := by
    intro ops hholder
    cases hholder

/-- What a destructor writes belongs to no live core. -/
theorem sound_destroyStep (h : s.Sound) {op : FileOp} {ops : List FileOp}
    (hholder : s.holder = .destroying (op :: ops)) :
    Sound { s with chunks := applyOp none s.chunks op, holder := .destroying ops } := by
  -- a shutdown only appends, and its core is no longer live
  have happend := appendOnly_cons.mp (h.destroying _ hholder)
  obtain ⟨bytes, rfl⟩ : ∃ bytes, op = .append bytes := by
    cases op with
    | append bytes => exact ⟨bytes, rfl⟩
    | truncate => exact absurd rfl happend.1
  have hdisk : ∀ id, OnDisk { s with
      chunks := applyOp none s.chunks (.append bytes), holder := .destroying ops } id ↔
      s.OnDisk id := by
    intro id
    rw [onDisk_concat rfl]
    refine or_iff_left fun hwriter => ?_
    cases hwriter.1
  constructor
  · intro id core hcore
    have hsound := h.cores id core hcore
    exact ⟨hsound.buffered, (hdisk id).trans hsound.onDisk⟩
  · intro id hid
    rw [hdisk]
    exact h.unborn id hid
  · intro id stage core hholder'
    cases hholder'
  · intro ops' hholder'
    obtain rfl := Holder.destroying.inj hholder'
    exact happend.2

end Update

/-! ## Harm and counts -/

/-- Under the invariant, another live core is on disk if and only if it has logged a
batch. -/
theorem othersOnDisk_iff {s : SharedLog} (h : s.Sound) (id : ℕ) :
    s.OthersOnDisk id ↔ ¬ s.OthersBelowBatch id := by
  constructor
  · rintro ⟨other, hne, hlive, hdisk⟩ hbelow
    obtain ⟨core, hcore⟩ := Option.isSome_iff_exists.mp hlive
    exact absurd ((h.cores other core hcore).onDisk.mp hdisk)
      (Nat.not_le.mpr (hbelow other core hne hcore))
  · intro hnot
    by_contra hothers
    refine hnot fun other core hne hcore => Nat.lt_of_not_le fun hbatch => hothers ?_
    exact ⟨other, hne, Option.isSome_iff_exists.mpr ⟨core, hcore⟩,
      (h.cores other core hcore).onDisk.mpr hbatch⟩

section Creating

variable {s : SharedLog} (h : s.Sound) {id : ℕ} {stage : Stage}
  (hholder : s.holder = .creating id stage)

include h hholder

/-- A check harms where the log is open and another live core has something on disk. -/
theorem not_harms_check_iff {core : LiveCore} (hcore : s.cores id = some core) :
    ¬ s.Harms .check ↔ s.Undisturbed .check := by
  have hharms : s.Harms .check ↔ LogOpen (readWal s.file) ∧ s.OthersOnDisk id := by
    simp [Harms, hholder, hcore, ← AtomicTelemetry.checkRecovery_ne_zero_iff s.file core.telemetry]
  have hundisturbed : s.Undisturbed .check ↔
      (LogOpen (readWal s.file) → s.OthersBelowBatch id) := by
    simp [Undisturbed, hholder]
  rw [hharms, hundisturbed, othersOnDisk_iff h, not_and, not_not]

/-- A replay harms wherever another live core has something on disk. -/
theorem not_harms_replay_iff : ¬ s.Harms .replay ↔ s.Undisturbed .replay := by
  have hharms : s.Harms .replay ↔ s.OthersOnDisk id := by simp [Harms, hholder]
  have hundisturbed : s.Undisturbed .replay ↔ s.OthersBelowBatch id := by
    simp [Undisturbed, hholder]
  rw [hharms, hundisturbed, othersOnDisk_iff h, not_not]

end Creating

/-- A possible step does no harm exactly when no other live core is in its way. -/
theorem not_harms_iff {s s' : SharedLog} {a : Action} (h : s.Sound) (hstep : s.step a = some s') :
    ¬ s.Harms a ↔ s.Undisturbed a := by
  cases steps_of_step hstep with
  | check hholder hcore => exact not_harms_check_iff h hholder hcore
  | confirm hholder hcore => exact not_harms_check_iff h hholder hcore
  | replay hholder hcore => exact not_harms_replay_iff h hholder
  | create => exact iff_of_true not_false trivial
  | write => exact iff_of_true not_false trivial
  | destroy => exact iff_of_true not_false trivial
  | destroyDone => exact iff_of_true not_false trivial
  | destroyStep => exact iff_of_true not_false trivial

/-- Steps without harm keep the invariant. -/
theorem sound_step {s s' : SharedLog} {a : Action} (h : s.Sound) (hstep : s.step a = some s')
    (hharm : ¬ s.Harms a) : s'.Sound := by
  have hundisturbed := (not_harms_iff h hstep).mp hharm
  cases steps_of_step hstep with
  | create => exact sound_create h
  | check hholder hcore => exact sound_check h hholder hcore .reported
  | confirm hholder hcore => exact sound_check h hholder hcore .confirmed
  | replay hholder hcore => exact sound_replay h hholder hcore (hundisturbed _ _ hholder)
  | write call hbusy hcore => exact sound_write h call hbusy hcore
  | destroy now _ hcore => exact sound_destroy h now hcore
  | destroyDone => exact sound_destroyDone h
  | destroyStep hholder => exact sound_destroyStep h hholder

/-- **A creation leaves the other devices' logs alone exactly when it does not meet
them.**  In every run, every step is harmless if and only if no check that finds the
log open, and no replay, happens while another live core has logged a batch. -/
theorem creation_harmless_iff (file : Bytes) (actions : List Action) :
    Runs.Along step (fun s a => ¬ s.Harms a) (init file) actions ↔
      Runs.Along step (fun s a => s.Undisturbed a) (init file) actions := by
  refine Runs.along_iff_of_invariant step (P := fun s a => ¬ s.Harms a) ?_ ?_ (sound_init file)
    actions
  · exact fun _ _ _ h hstep => not_harms_iff h hstep
  · exact fun _ _ _ h hstep hharm => sound_step h hstep hharm

/-! ### Two devices -/

/-- A core that runs alone does to the file what its telemetry does. -/
theorem exec_writes {s : SharedLog} {id : ℕ} {core : LiveCore} (h : s.Sound)
    (hfree : s.holder = .free) (hcore : s.cores id = some core) (calls : List WriteCall) :
    ∃ s', Runs.exec step s (calls.map (.write id)) = some s' ∧ s'.Sound ∧ s'.holder = .free ∧
      s'.nextId = s.nextId ∧ s'.file = runOps (core.telemetry.writeAll calls).2 s.file ∧
      ∃ core', s'.cores id = some core' ∧ core'.logged = core.logged + calls.length := by
  induction calls generalizing s core with
  | nil => exact ⟨s, rfl, h, hfree, rfl, rfl, core, hcore, rfl⟩
  | cons call calls ih =>
      have hbusy : s.isUnderCreation id = false := by rw [isUnderCreation, hfree]
      have hstep : s.step (.write id call) = some (s.afterWrite id call core) := by
        simp [step, hbusy, hcore]
      obtain ⟨s', hexec, hsound, hholder, hnext, hfile, core', hcore', hlogged⟩ :=
        ih (sound_write h call hbusy hcore) hfree (setCore_cores_self _)
      refine ⟨s', ?_, hsound, hholder, hnext, ?_, core', hcore', ?_⟩
      · rw [List.map_cons, Runs.exec, hstep]
        exact hexec
      · rw [hfile, AtomicTelemetry.writeAll, runOps_append]
        exact congrArg (runOps _) (file_applyOps _ _ _)
      · rw [hlogged, List.length_cons, Nat.add_right_comm]
        rfl

/-- A creation that goes on at once checks its file. -/
theorem step_check_afterCreate (s : SharedLog) : s.afterCreate.step .check =
    some (s.afterCreate.afterCheck s.nextId .reported ⟨AtomicTelemetry.create, 0⟩) :=
  congrArg (Option.map _) (afterCreate_cores_self s)

/-- The first device finds an empty log. -/
theorem exec_first_device :
    ∃ s, Runs.exec step (init []) [.create, .check] = some s ∧ s.Sound ∧ s.holder = .free ∧
      s.nextId = 1 ∧ s.file = [] ∧
      ∃ core, s.cores 0 = some core ∧ core.telemetry.writeBuffer = [] ∧
        core.telemetry.sequence = 0 ∧ core.logged = 0 := by
  have hcore : (init []).afterCreate.cores 0 = some ⟨AtomicTelemetry.create, 0⟩ :=
    afterCreate_cores_self _
  have hzero : (AtomicTelemetry.create.checkRecovery []).1 = 0 :=
    (AtomicTelemetry.checkRecovery_eq_zero_iff _ _).mpr (Or.inl readWal_nil)
  have hexec : Runs.exec step (init []) [.create, .check] =
      some ((init []).afterCreate.afterCheck 0 .reported ⟨AtomicTelemetry.create, 0⟩) := by
    have hcreate : (init []).step .create = some (init []).afterCreate := rfl
    rw [Runs.exec, hcreate, Option.bind_some, Runs.exec, step_check_afterCreate]
    rfl
  exact ⟨_, hexec, sound_check (sound_create (sound_init [])) rfl hcore .reported,
    if_neg (not_not.mpr hzero), rfl, rfl, _, afterCheck_cores_self _ _ _ _, rfl, rfl, rfl⟩

/-- One device is created and draws 64 times, and a second one is constructed. -/
def twoDevices : List Action :=
  [Action.create, Action.check] ++ (draws 64).map (Action.write 0) ++ [Action.create]

/-- The check of the second device reports the draws of the first. -/
theorem second_device_reports_first :
    ¬ Runs.Along step (fun s a => ¬ s.Harms a) (init []) (twoDevices ++ [Action.check]) := by
  obtain ⟨s₁, hexec₁, hsound₁, hfree₁, hnext₁, hfile₁, core₁, hcore₁, hbuf, hseq, hlogged₁⟩ :=
    exec_first_device
  obtain ⟨s, hexec, hsound, hfree, hnext, hfile, core, hcore, hlogged⟩ :=
    exec_writes hsound₁ hfree₁ hcore₁ (draws 64)
  have hlog : readWal s.file = entriesFrom 0 (draws 64) := by
    rw [hfile, hfile₁, ← hseq]
    exact readWal_writeAll_of_full_batches hbuf (by rw [length_draws]; decide)
  have hopen : LogOpen (readWal s.afterCreate.file) := by
    change LogOpen (readWal s.file)
    rw [hlog]
    exact logOpen_of_plain (draws_plain 64) (by rw [length_draws]; decide)
  have hcreate : s.step .create = some s.afterCreate := by rw [step, hfree]
  have hreached : Runs.exec step (init []) twoDevices = some s.afterCreate := by
    rw [twoDevices, Runs.exec_append, Runs.exec_append, hexec₁, Option.bind_some, hexec,
      Option.bind_some, Runs.exec, hcreate]
    rfl
  refine Runs.not_along step hreached (step_check_afterCreate s) ?_ []
  rw [not_harms_check_iff (sound_create hsound) rfl (afterCreate_cores_self s)]
  -- the first device is alive and has logged exactly one batch
  intro hundisturbed
  have hne : 0 ≠ s.nextId := by rw [hnext, hnext₁]; decide
  have hbelow := hundisturbed s.nextId .constructed rfl hopen 0 core hne
    ((setCore_cores_of_ne hne _).trans hcore)
  rw [hlogged, hlogged₁, length_draws] at hbelow
  exact absurd hbelow (by decide)

end SharedLog

end Synapse.Layer
