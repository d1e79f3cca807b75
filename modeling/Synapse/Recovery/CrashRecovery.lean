import Synapse.Protocol.SchemaMigration
import Synapse.Recovery.Session

/-!
# `CrashRecoveryManager`

The manager of `crash_recovery.h`: a telemetry object on the WAL, and four
counters kept in a file of their own.  The file is a header and the 32 bytes of
`RecoveryMetadata`; a file without a header is read as the bare struct and
written back with one.

The counters live twice, in the file and in `metadata_`.  Only `check_for_crash`
copies the file into memory (`loadMetadata`), while `recover` and
`mark_clean_shutdown` write memory over the file (`saveMetadata`).  What the file
would be read as is `loaded`; it is what a save wrote (`loaded_saveMetadata`) and
survives the rewriting of a bare struct (`exists_loadMetadata`).

All opens succeed, and a save is one step.

### The two files

A method takes the data directory and returns it as the method leaves it.  The paths do not
matter beyond that, since every method of a manager uses the same two files.  No method takes
a lock, so one call is one step.
-/

namespace Synapse.Recovery

open ByteRecords FileOps MarkedLog Atomic Protocol

/-- `kRecoverySchemaVersion`. -/
def kRecoverySchemaVersion : UInt32 := 1

/-! ## The file format -/

/-- The four counters. -/
@[ext]
structure RecoveryMetadata where
  lastCleanShutdownSequence : UInt64
  lastWalSequence : UInt64
  totalRecoveries : UInt64
  totalEntriesRecovered : UInt64
  deriving DecidableEq, Repr

/-- `MessageHeader`. -/
@[ext]
structure MessageHeader where
  magic : UInt32
  schemaVersion : UInt32
  payloadSize : UInt32
  checksum : UInt32
  deriving DecidableEq, Repr

private theorem ofLeBytes_le64 (x : UInt64) : ofLeBytes (leBytes 8 x.toNat) = x.toNat :=
  ofLeBytes_leBytes_of_lt (lt_of_lt_of_eq x.toNat_lt (by norm_num))

private theorem ofLeBytes_le32 (x : UInt32) : ofLeBytes (leBytes 4 x.toNat) = x.toNat :=
  ofLeBytes_leBytes_of_lt (lt_of_lt_of_eq x.toNat_lt (by norm_num))

namespace RecoveryMetadata

/-- `RecoveryMetadata m;` -/
def zeroed : RecoveryMetadata where
  lastCleanShutdownSequence := 0
  lastWalSequence := 0
  totalRecoveries := 0
  totalEntriesRecovered := 0

/-- `sizeof(RecoveryMetadata)`. -/
def size : ℕ := 32

/-- The struct as it lies in the file: four little-endian words and no padding. -/
def encode (m : RecoveryMetadata) : Bytes :=
  leBytes 8 m.lastCleanShutdownSequence.toNat ++ (leBytes 8 m.lastWalSequence.toNat ++
    (leBytes 8 m.totalRecoveries.toNat ++ leBytes 8 m.totalEntriesRecovered.toNat))

/-- `memcpy(&m, bytes, sizeof(m))`. -/
def decode (bytes : Bytes) : RecoveryMetadata where
  lastCleanShutdownSequence := UInt64.ofNat (ofLeBytes (bytes.take 8))
  lastWalSequence := UInt64.ofNat (ofLeBytes ((bytes.drop 8).take 8))
  totalRecoveries := UInt64.ofNat (ofLeBytes ((bytes.drop 16).take 8))
  totalEntriesRecovered := UInt64.ofNat (ofLeBytes ((bytes.drop 24).take 8))

/-- The counters take up 32 bytes. -/
@[simp] theorem length_encode (m : RecoveryMetadata) : m.encode.length = size := by
  simp [encode, size]

/-- Counters that were written are read back. -/
theorem decode_encode (m : RecoveryMetadata) : decode m.encode = m := by
  ext1 <;>
    simp [decode, encode, List.drop_append, List.drop_eq_nil_of_le, List.take_of_length_le,
      ofLeBytes_le64]

/-- Only the first 32 bytes count. -/
theorem decode_take (bytes : Bytes) : decode (bytes.take size) = decode bytes := by
  simp [decode, size, List.take_take, List.drop_take]

end RecoveryMetadata

namespace MessageHeader

/-- `sizeof(MessageHeader)`. -/
def size : ℕ := 16

/-- "SYNA". -/
def kMagic : UInt32 := 0x53594E41

/-- The header in the file. -/
def encode (h : MessageHeader) : Bytes :=
  leBytes 4 h.magic.toNat ++ (leBytes 4 h.schemaVersion.toNat ++
    (leBytes 4 h.payloadSize.toNat ++ leBytes 4 h.checksum.toNat))

/-- The header read from the file. -/
def decode (bytes : Bytes) : MessageHeader where
  magic := UInt32.ofNat (ofLeBytes (bytes.take 4))
  schemaVersion := UInt32.ofNat (ofLeBytes ((bytes.drop 4).take 4))
  payloadSize := UInt32.ofNat (ofLeBytes ((bytes.drop 8).take 4))
  checksum := UInt32.ofNat (ofLeBytes ((bytes.drop 12).take 4))

/-- The header takes up 16 bytes. -/
@[simp] theorem length_encode (h : MessageHeader) : h.encode.length = size := by
  simp [encode, size]

/-- A header is read back in front of anything. -/
theorem decode_encode_append (h : MessageHeader) (rest : Bytes) :
    decode (h.encode ++ rest) = h := by
  ext1 <;>
    simp [decode, encode, List.drop_append, List.drop_eq_nil_of_le, ofLeBytes_le32]

/-- The header in front of a payload, with its FNV-1a checksum. -/
def forPayload (payload : Bytes) : MessageHeader where
  magic := kMagic
  schemaVersion := kRecoverySchemaVersion
  payloadSize := UInt32.ofNat payload.length
  checksum := payload.foldl (fun hash b => (hash ^^^ b.toUInt32) * 16777619) 2166136261

end MessageHeader

/-- A payload with its header. -/
def withHeader (payload : Bytes) : Bytes :=
  (MessageHeader.forPayload payload).encode ++ payload

/-! ## Loading and saving -/

/-- The registry the constructor sets up: from the bare struct to the struct with
a header. -/
def schema : SchemaMigration := SchemaMigration.create.registerMigration 0 1 withHeader

/-- Iterations that are enough for a registry of one step. -/
def schemaFuel : ℕ := 3

/-- The metadata in a file that starts with a header. -/
def loadVersioned (hdr : MessageHeader) (payload : Bytes) :
    Except MigrateError RecoveryMetadata :=
  if SchemaMigration.isCompatible kRecoverySchemaVersion hdr.schemaVersion then
    .ok (if payload.length ≥ RecoveryMetadata.size then .decode payload else .zeroed)
  else
    match schema.hasPath schemaFuel hdr.schemaVersion kRecoverySchemaVersion with
    | .error e => .error (.search e)
    | .ok false => .ok .zeroed
    | .ok true =>
        (schema.migrate schemaFuel payload hdr.schemaVersion kRecoverySchemaVersion).map
          fun migrated =>
            if migrated.length ≥ RecoveryMetadata.size then .decode migrated else .zeroed

/-- `load_metadata()`: the metadata, and the file it leaves. -/
def loadMetadata (file : Option Bytes) :
    Except MigrateError (RecoveryMetadata × Option Bytes) :=
  match file with
  | none => .ok (.zeroed, none)
  | some raw =>
      let hdr := MessageHeader.decode raw
      if raw.length ≥ MessageHeader.size ∧ hdr.magic = MessageHeader.kMagic ∧
          hdr.schemaVersion > 0 then
        (loadVersioned hdr (raw.drop MessageHeader.size)).map fun m => (m, some raw)
      else if raw.length ≥ RecoveryMetadata.size then
        (schema.migrate schemaFuel (raw.take RecoveryMetadata.size) 0 kRecoverySchemaVersion).map
          fun migrated => (.decode raw, some migrated)
      else .ok (.zeroed, some raw)

/-- `save_metadata()`: the file it leaves. -/
def saveMetadata (m : RecoveryMetadata) : Option Bytes := some (withHeader m.encode)

/-! ### What a file stands for -/

/-- The metadata `load_metadata` would return. -/
def loaded (file : Option Bytes) : RecoveryMetadata :=
  match loadMetadata file with
  | .ok (m, _) => m
  | .error _ => .zeroed

/-- The one registered step puts a header in front of a bare struct. -/
theorem migrate_legacy (payload : Bytes) :
    schema.migrate schemaFuel payload 0 kRecoverySchemaVersion = .ok (withHeader payload) := rfl

/-- No payload makes the loading of versioned data fail. -/
theorem exists_loadVersioned (hdr : MessageHeader) (payload : Bytes) :
    ∃ m, loadVersioned hdr payload = .ok m := by
  have hfuel : schema.migrationCount + 1 < schemaFuel := by decide
  rw [loadVersioned]
  split
  · exact ⟨_, rfl⟩
  · rcases schema.exists_migrate_of_hasPath hfuel payload hdr.schemaVersion
      kRecoverySchemaVersion with ⟨hpath, result, hresult⟩ | hpath
    · rw [hpath]
      simp only [hresult]
      exact ⟨_, rfl⟩
    · rw [hpath]
      exact ⟨_, rfl⟩

/-- A payload behind its header is read as it is. -/
theorem loadMetadata_withHeader {payload : Bytes} (h : payload.length = RecoveryMetadata.size) :
    loadMetadata (some (withHeader payload)) =
      .ok (.decode payload, some (withHeader payload)) := by
  have hlen : (withHeader payload).length ≥ MessageHeader.size := by
    rw [withHeader, List.length_append, MessageHeader.length_encode]
    exact Nat.le_add_right _ _
  have hdrop : (withHeader payload).drop MessageHeader.size = payload := by
    rw [withHeader, List.drop_left' (MessageHeader.length_encode _)]
  have hdr : MessageHeader.decode (withHeader payload) = .forPayload payload :=
    MessageHeader.decode_encode_append _ _
  have hversion : (MessageHeader.forPayload payload).schemaVersion > 0 := by
    change kRecoverySchemaVersion > 0
    decide
  have hcompatible : SchemaMigration.isCompatible kRecoverySchemaVersion
      (MessageHeader.forPayload payload).schemaVersion = true := by
    change SchemaMigration.isCompatible kRecoverySchemaVersion kRecoverySchemaVersion = true
    decide
  simp only [loadMetadata, hdr, hdrop]
  rw [if_pos ⟨hlen, rfl, hversion⟩, loadVersioned, if_pos hcompatible, if_pos h.ge]
  rfl

/-- **A save is read back.** -/
theorem loaded_saveMetadata (m : RecoveryMetadata) : loaded (saveMetadata m) = m := by
  rw [loaded, saveMetadata, loadMetadata_withHeader m.length_encode]
  exact m.decode_encode

/-- **Loading** always returns, and leaves a file that stands for the same
metadata. -/
theorem exists_loadMetadata (file : Option Bytes) :
    ∃ file', loadMetadata file = .ok (loaded file, file') ∧ loaded file' = loaded file := by
  suffices h : ∃ m file', loadMetadata file = .ok (m, file') ∧ loaded file' = m by
    obtain ⟨m, file', hload, hfile'⟩ := h
    have hm : loaded file = m := by rw [loaded, hload]
    exact ⟨file', hm ▸ hload, hfile'.trans hm.symm⟩
  cases file with
  | none => exact ⟨.zeroed, none, rfl, rfl⟩
  | some raw =>
      by_cases hversioned : raw.length ≥ MessageHeader.size ∧
          (MessageHeader.decode raw).magic = MessageHeader.kMagic ∧
          (MessageHeader.decode raw).schemaVersion > 0
      · obtain ⟨m, hm⟩ := exists_loadVersioned (.decode raw) (raw.drop MessageHeader.size)
        have hload : loadMetadata (some raw) = .ok (m, some raw) := by
          simp only [loadMetadata]
          rw [if_pos hversioned, hm]
          rfl
        exact ⟨m, some raw, hload, by rw [loaded, hload]⟩
      · by_cases hlegacy : raw.length ≥ RecoveryMetadata.size
        · refine ⟨.decode raw, some (withHeader (raw.take RecoveryMetadata.size)), ?_, ?_⟩
          · simp only [loadMetadata]
            rw [if_neg hversioned, if_pos hlegacy, migrate_legacy]
            rfl
          · rw [loaded, loadMetadata_withHeader (by simpa using hlegacy)]
            exact RecoveryMetadata.decode_take raw
        · have hload : loadMetadata (some raw) = .ok (.zeroed, some raw) := by
            simp only [loadMetadata]
            rw [if_neg hversioned, if_neg hlegacy]
          exact ⟨.zeroed, some raw, hload, by rw [loaded, hload]⟩

/-! ## The manager -/

/-- The two files of a data directory. -/
structure DataDirectory where
  wal : Bytes
  metadataFile : Option Bytes

/-- The manager with the counters in memory and its telemetry. -/
structure CrashRecoveryManager where
  metadata : RecoveryMetadata
  telemetry : AtomicTelemetry

/-- What `recover` tells its caller. -/
structure RecoveryResult where
  success : Bool
  entriesRecovered : UInt64
  lastSequence : UInt64
  error : String
  deriving DecidableEq, Repr

namespace CrashRecoveryManager

/-- The constructor. -/
def create : CrashRecoveryManager where
  metadata := .zeroed
  telemetry := .create

/-- `check_for_crash()`. -/
def checkForCrash (dir : DataDirectory) (m : CrashRecoveryManager) :
    Except MigrateError (Bool × CrashRecoveryManager × DataDirectory) :=
  (loadMetadata dir.metadataFile).map fun (metadata, file) =>
    let checked := m.telemetry.checkRecovery dir.wal
    (decide (checked.1 > 0), { metadata := metadata, telemetry := checked.2 },
      { dir with metadataFile := file })

/-- `recover()`. -/
def recover (dir : DataDirectory) (m : CrashRecoveryManager) :
    RecoveryResult × CrashRecoveryManager × DataDirectory :=
  let checked := m.telemetry.checkRecovery dir.wal
  if checked.1 = 0 then
    ({ success := true, entriesRecovered := 0, lastSequence := 0, error := "" },
      { m with telemetry := checked.2 }, dir)
  else
    let replayed := checked.2.replay
    let entriesRecovered := UInt64.ofNat replayed.1
    let lastSequence := replayed.2.1.sequence
    let metadata := { m.metadata with
      totalRecoveries := m.metadata.totalRecoveries + 1
      totalEntriesRecovered := m.metadata.totalEntriesRecovered + entriesRecovered
      lastWalSequence := lastSequence }
    ({ success := true, entriesRecovered := entriesRecovered, lastSequence := lastSequence,
       error := "" },
      { metadata := metadata, telemetry := replayed.2.1 },
      { wal := runOps replayed.2.2 dir.wal, metadataFile := saveMetadata metadata })

/-- `mark_clean_shutdown()` at time `now`. -/
def markCleanShutdown (now : UInt64) (dir : DataDirectory) (m : CrashRecoveryManager) :
    CrashRecoveryManager × DataDirectory :=
  let marked := m.telemetry.markCleanShutdown now
  let metadata := { m.metadata with lastCleanShutdownSequence := marked.1.sequence }
  ({ metadata := metadata, telemetry := marked.1 },
    { wal := runOps marked.2 dir.wal, metadataFile := saveMetadata metadata })

/-- `telemetry().write(...)`, for a call that is accepted; a refused one does
nothing. -/
def write (c : WriteCall) (dir : DataDirectory) (m : CrashRecoveryManager) :
    CrashRecoveryManager × DataDirectory :=
  let written := m.telemetry.writeCall c
  ({ m with telemetry := written.2.1 }, { dir with wal := runOps written.2.2 dir.wal })

/-- The destructor, at time `now`: what it leaves in the directory. -/
def destroy (now : UInt64) (dir : DataDirectory) (m : CrashRecoveryManager) : DataDirectory :=
  { dir with wal := runOps (m.telemetry.destroy now).2 dir.wal }

section Specs

variable (dir : DataDirectory) (m : CrashRecoveryManager)

/-- `check_for_crash` answers as the telemetry does and takes the file's counters into memory;
the file may be rewritten, but would be read as before. -/
theorem checkForCrash_eq :
    ∃ file, loaded file = loaded dir.metadataFile ∧
      m.checkForCrash dir = .ok (decide ((m.telemetry.checkRecovery dir.wal).1 > 0),
        ⟨loaded dir.metadataFile, (m.telemetry.checkRecovery dir.wal).2⟩, ⟨dir.wal, file⟩) := by
  obtain ⟨file, hload, hfile⟩ := exists_loadMetadata dir.metadataFile
  refine ⟨file, hfile, ?_⟩
  rw [checkForCrash, hload]
  rfl

/-- Nothing to recover. -/
theorem recover_of_not_open (h : ¬ LogOpen (readWal dir.wal)) :
    (m.recover dir).2 = ({ m with telemetry := (m.telemetry.checkRecovery dir.wal).2 }, dir) := by
  rw [← AtomicTelemetry.checkRecovery_ne_zero_iff dir.wal m.telemetry, not_not] at h
  rw [recover]
  simp only [h, if_true]

/-- A recovery counts itself and what it replays, saves the counts, and leaves the
sequence counter. -/
structure Recovered : Prop where
  totalRecoveries : (m.recover dir).2.1.metadata.totalRecoveries = m.metadata.totalRecoveries + 1
  totalEntriesRecovered : (m.recover dir).2.1.metadata.totalEntriesRecovered =
    m.metadata.totalEntriesRecovered + UInt64.ofNat (recoverable dir.wal).length
  lastWalSequence : (m.recover dir).2.1.metadata.lastWalSequence = m.telemetry.sequence
  lastSequence : (m.recover dir).1.lastSequence = m.telemetry.sequence
  sequence : (m.recover dir).2.1.telemetry.sequence = m.telemetry.sequence
  directory : (m.recover dir).2.2 = ⟨[], saveMetadata (m.recover dir).2.1.metadata⟩

/-- A log that is open is recovered. -/
theorem recover_of_open (h : LogOpen (readWal dir.wal)) : Recovered dir m := by
  have hpending := (AtomicTelemetry.checkRecovery_ne_zero_iff dir.wal m.telemetry).mpr h
  have hcount := count_replay dir.wal m.telemetry
  constructor <;> simp only [recover, hpending, if_false, hcount] <;> rfl

end Specs

end CrashRecoveryManager

end Synapse.Recovery
