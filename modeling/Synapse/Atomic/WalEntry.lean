import Synapse.Foundations.ByteRecords

/-!
# WAL entries

The 264-byte record of `atomic_telemetry.h` and what makes one valid.

On disk the event type is a raw 32-bit word: a record read back may hold any
value there, and `isValidWalEventType` is the filter.  A caller of `write` can
only name one of the declared enumerators, so the two are kept apart here:
`WALEventType` is the enumeration, `WALEntry.eventType` the stored word.

The schema version has no field of its own.  It lives in the last four bytes of
the payload area, and a payload that reaches into them makes the entry read as
version 0 instead (`getSchemaVersion`).  `forWrite_isValid` is the point: every
entry `write` builds is valid, wherever its payload ends.
-/

namespace Synapse.Atomic

open ByteRecords

/-- The declared event types. -/
inductive WALEventType where
  | none
  | drawIndexed
  | draw
  | dispatch
  | pushConstants
  | bindDescriptorSets
  | bindPipeline
  | createImage
  | destroyImage
  | bindShadersEXT
  | backendChoice
  | dvfsChange
  | thermalEvent
  | mlCheckpoint
  | sessionReport
  | cleanShutdown
  deriving DecidableEq, Repr

namespace WALEventType

/-- The stored word of an event type. -/
def code : WALEventType → UInt32
  | none => 0
  | drawIndexed => 1
  | draw => 2
  | dispatch => 3
  | pushConstants => 4
  | bindDescriptorSets => 5
  | bindPipeline => 6
  | createImage => 7
  | destroyImage => 8
  | bindShadersEXT => 9
  | backendChoice => 10
  | dvfsChange => 11
  | thermalEvent => 12
  | mlCheckpoint => 13
  | sessionReport => 14
  | cleanShutdown => 0xFFFFFFFF

/-- The labels of the switch in `is_valid_wal_event_type`. -/
def declared : List WALEventType :=
  [none, drawIndexed, draw, dispatch, pushConstants, bindDescriptorSets, bindPipeline,
    createImage, destroyImage, bindShadersEXT, backendChoice, dvfsChange, thermalEvent,
    mlCheckpoint, sessionReport, cleanShutdown]

/-- The enumerators have codes of their own. -/
theorem code_injective : Function.Injective code := by
  intro a b h
  cases a <;> cases b <;> first | rfl | exact absurd h (by decide)

end WALEventType

/-- `kWALSchemaVersion` -/
def kWALSchemaVersion : UInt32 := 1

/-- `kWALDataSize` -/
def kWALDataSize : ℕ := 240

/-- The versions that a reader knows. -/
def kWALKnownSchemaVersions : List UInt32 := [0, 1]

/-- A WAL entry, as it lies in memory and on disk. -/
@[ext]
structure WALEntry where
  sequence : UInt64
  timestampNs : UInt64
  eventType : UInt32
  dataSize : UInt32
  data : Bytes
  length_data : data.length = kWALDataSize
  deriving DecidableEq

namespace WALEntry

/-- `WALEntry entry{}`. -/
def zeroed : WALEntry where
  sequence := 0
  timestampNs := 0
  eventType := 0
  dataSize := 0
  data := List.replicate kWALDataSize 0
  length_data := List.length_replicate

/-- The version word at the end of the payload area, if the payload stops short
of it. -/
def getSchemaVersion (entry : WALEntry) : UInt32 :=
  if entry.dataSize.toNat + 4 > kWALDataSize then 0
  else UInt32.ofNat (ofLeBytes (entry.data.drop (kWALDataSize - 4)))

/-- `set_schema_version`, in the last four bytes of the payload area. -/
def setSchemaVersion (ver : UInt32) (entry : WALEntry) : WALEntry :=
  { entry with
    data := entry.data.take (kWALDataSize - 4) ++
      memcpy (entry.data.drop (kWALDataSize - 4)) (leBytes 4 ver.toNat) 4
    length_data := by simp [entry.length_data, kWALDataSize] }

/-- `memcpy(entry.data, src, n)`. -/
def copyPayload (src : Bytes) (n : ℕ) (entry : WALEntry) : WALEntry :=
  { entry with
    data := memcpy entry.data src n
    length_data := by simp [entry.length_data] }

/-! ## The record layout -/

/-- The entry's bytes: four little-endian words and the payload area, without
padding. -/
def encode (entry : WALEntry) : Bytes :=
  leBytes 8 entry.sequence.toNat ++ (leBytes 8 entry.timestampNs.toNat ++
    (leBytes 4 entry.eventType.toNat ++ (leBytes 4 entry.dataSize.toNat ++ entry.data)))

/-- The entry read from a full record. -/
def decode (bytes : Bytes) : WALEntry where
  sequence := UInt64.ofNat (ofLeBytes (bytes.take 8))
  timestampNs := UInt64.ofNat (ofLeBytes ((bytes.drop 8).take 8))
  eventType := UInt32.ofNat (ofLeBytes ((bytes.drop 16).take 4))
  dataSize := UInt32.ofNat (ofLeBytes ((bytes.drop 20).take 4))
  data := memcpy (List.replicate kWALDataSize 0) (bytes.drop 24) kWALDataSize
  length_data := by simp

/-- `sizeof(WALEntry)`. -/
def recordSize : ℕ := 264

/-- Every record has the same size. -/
theorem length_encode (entry : WALEntry) : entry.encode.length = recordSize := by
  simp [encode, entry.length_data, kWALDataSize, recordSize]

/-- A record is read back from its bytes. -/
theorem decode_encode (entry : WALEntry) : decode entry.encode = entry := by
  have hdata : memcpy (List.replicate kWALDataSize 0) entry.data kWALDataSize =
      entry.data := memcpy_of_length_eq entry.length_data List.length_replicate
  ext1
  · simp [decode, encode, ofLeBytes_word64]
  · simp [decode, encode, List.drop_append, ofLeBytes_word64]
  · simp [decode, encode, List.drop_append, List.drop_eq_nil_of_le, ofLeBytes_word32]
  · simp [decode, encode, List.drop_append, List.drop_eq_nil_of_le, ofLeBytes_word32]
  · simpa [decode, encode, List.drop_append, List.drop_eq_nil_of_le] using hdata

/-- Every full record is the encoding of the entry it decodes to. -/
theorem encode_decode {bytes : Bytes} (h : bytes.length = recordSize) :
    (decode bytes).encode = bytes := by
  have hlen : bytes.length = 264 := h
  have hword64 : ∀ field : Bytes, field.length = 8 →
      leBytes 8 (UInt64.ofNat (ofLeBytes field)).toNat = field := by
    intro field hfield
    have hlt := ofLeBytes_lt field
    rw [hfield] at hlt
    rw [UInt64.toNat_ofNat_of_lt' (lt_of_lt_of_eq hlt (by decide)), leBytes_ofLeBytes hfield]
  have hword32 : ∀ field : Bytes, field.length = 4 →
      leBytes 4 (UInt32.ofNat (ofLeBytes field)).toNat = field := by
    intro field hfield
    have hlt := ofLeBytes_lt field
    rw [hfield] at hlt
    rw [UInt32.toNat_ofNat_of_lt' (lt_of_lt_of_eq hlt (by decide)), leBytes_ofLeBytes hfield]
  have hdata : memcpy (List.replicate kWALDataSize 0) (bytes.drop 24) kWALDataSize =
      bytes.drop 24 :=
    memcpy_of_length_eq (by rw [List.length_drop, hlen]; rfl) List.length_replicate
  have hfield : ∀ off len, off + len ≤ 264 → ((bytes.drop off).take len).length = len := by
    intro off len hle
    rw [List.length_take, List.length_drop, hlen]
    omega
  have hfirst : (bytes.take 8).length = 8 := hfield 0 8 (by decide)
  simp only [encode, decode]
  rw [hword64 _ hfirst, hword64 _ (hfield 8 8 (by decide)),
    hword32 _ (hfield 16 4 (by decide)), hword32 _ (hfield 20 4 (by decide)), hdata]
  -- glue the five fields back together from the right
  rw [show bytes.drop 24 = (bytes.drop 20).drop 4 by simp, List.take_append_drop,
    show bytes.drop 20 = (bytes.drop 16).drop 4 by simp, List.take_append_drop,
    show bytes.drop 16 = (bytes.drop 8).drop 8 by simp, List.take_append_drop,
    List.take_append_drop]

end WALEntry

/-- The WAL as a stream of fixed-size records. -/
def walCodec : RecordCodec WALEntry where
  size := WALEntry.recordSize
  encode := WALEntry.encode
  decode := WALEntry.decode
  size_pos := by decide
  length_encode := WALEntry.length_encode
  decode_encode := WALEntry.decode_encode

/-! ## Validity -/

/-- `is_valid_wal_event_type` -/
def isValidWalEventType (type : UInt32) : Bool :=
  WALEventType.declared.any fun t => t.code == type

/-- `is_valid_wal_entry`: type, size of the payload, and schema version. -/
def isValidWalEntry (entry : WALEntry) : Bool :=
  isValidWalEventType entry.eventType &&
    entry.dataSize.toNat ≤ kWALDataSize &&
    kWALKnownSchemaVersions.contains entry.getSchemaVersion

/-- What a caller can name is valid. -/
theorem isValidWalEventType_code (type : WALEventType) :
    isValidWalEventType type.code = true := by
  cases type <;> decide

/-- The entry is a `CleanShutdown` record. -/
def WALEntry.isMarker (entry : WALEntry) : Bool :=
  entry.eventType == WALEventType.cleanShutdown.code

/-! ## The entries the program writes -/

namespace WALEntry

/-- The entry `write` builds: version first, then the header fields, then the
payload over the front of the data area. -/
def forWrite (sequence now : UInt64) (type : WALEventType) (data : Option Bytes)
    (size : UInt32) : WALEntry :=
  let entry := { zeroed with sequence := sequence }.setSchemaVersion kWALSchemaVersion
  let entry := { entry with timestampNs := now, eventType := type.code, dataSize := size }
  match data with
  | some bytes => if 0 < size then entry.copyPayload bytes size.toNat else entry
  | none => entry

/-- The record `mark_clean_shutdown` builds. -/
def cleanShutdownMarker (sequence now : UInt64) : WALEntry :=
  let entry := { zeroed with sequence := sequence }.setSchemaVersion kWALSchemaVersion
  { entry with timestampNs := now, eventType := WALEventType.cleanShutdown.code, dataSize := 0 }

theorem cleanShutdownMarker_eq (sequence now : UInt64) :
    cleanShutdownMarker sequence now = forWrite sequence now .cleanShutdown none 0 := rfl

section ForWrite

variable (sequence now : UInt64) (type : WALEventType) (data : Option Bytes) (size : UInt32)

private theorem forWrite_header :
    let entry := forWrite sequence now type data size
    entry.sequence = sequence ∧ entry.timestampNs = now ∧ entry.eventType = type.code ∧
      entry.dataSize = size := by
  unfold forWrite
  rcases data with _ | bytes
  · exact ⟨rfl, rfl, rfl, rfl⟩
  · dsimp only
    split <;> exact ⟨rfl, rfl, rfl, rfl⟩

/-- The entry has the number that was drawn. -/
@[simp] theorem forWrite_sequence :
    (forWrite sequence now type data size).sequence = sequence :=
  (forWrite_header _ _ _ _ _).1

/-- It has the code of its type. -/
@[simp] theorem forWrite_eventType :
    (forWrite sequence now type data size).eventType = type.code :=
  (forWrite_header _ _ _ _ _).2.2.1

/-- It has the size that was given. -/
@[simp] theorem forWrite_dataSize :
    (forWrite sequence now type data size).dataSize = size :=
  (forWrite_header _ _ _ _ _).2.2.2

@[simp] theorem cleanShutdownMarker_sequence :
    (cleanShutdownMarker sequence now).sequence = sequence := rfl

@[simp] theorem isMarker_cleanShutdownMarker :
    (cleanShutdownMarker sequence now).isMarker = true := rfl

/-- It is a marker if its type says so. -/
theorem isMarker_forWrite :
    (forWrite sequence now type data size).isMarker = decide (type = .cleanShutdown) := by
  rw [isMarker, forWrite_eventType, Bool.eq_iff_iff, beq_iff_eq, decide_eq_true_iff]
  exact WALEventType.code_injective.eq_iff

/-- The version word of a freshly versioned entry. -/
private theorem drop_data_setSchemaVersion (entry : WALEntry) (ver : UInt32) :
    (entry.setSchemaVersion ver).data.drop (kWALDataSize - 4) = leBytes 4 ver.toNat := by
  have hlen : (entry.data.take (kWALDataSize - 4)).length = kWALDataSize - 4 := by
    simp [entry.length_data]
  have htail : (entry.data.drop (kWALDataSize - 4)).length = 4 := by
    simp [entry.length_data, kWALDataSize]
  rw [setSchemaVersion, List.drop_left' hlen,
    memcpy_eq (by simp) (le_of_eq htail.symm),
    List.take_of_length_le (by simp), List.drop_eq_nil_of_le (le_of_eq htail),
    List.append_nil]

/-- A payload that stops short of the version word leaves it alone. -/
theorem drop_data_forWrite (hsize : size.toNat + 4 ≤ kWALDataSize) :
    (forWrite sequence now type data size).data.drop (kWALDataSize - 4) =
      leBytes 4 kWALSchemaVersion.toNat := by
  have hversion := drop_data_setSchemaVersion { zeroed with sequence := sequence }
    kWALSchemaVersion
  unfold forWrite
  rcases data with _ | bytes
  · exact hversion
  · dsimp only
    split
    · rw [copyPayload]
      exact (drop_memcpy (by omega)).trans hversion
    · exact hversion

/-- A payload of at most 236 bytes keeps version 1; a longer one reads as
version 0. -/
theorem getSchemaVersion_forWrite :
    (forWrite sequence now type data size).getSchemaVersion =
      if size.toNat + 4 > kWALDataSize then 0 else kWALSchemaVersion := by
  rw [getSchemaVersion, forWrite_dataSize]
  split_ifs with h
  · rfl
  · rw [drop_data_forWrite _ _ _ _ _ (by omega), ofLeBytes_word32]
    rfl

/-- **Every accepted entry is valid**, also when its payload covers the version
word. -/
theorem forWrite_isValid (hsize : size.toNat ≤ kWALDataSize) :
    isValidWalEntry (forWrite sequence now type data size) = true := by
  have hver : kWALKnownSchemaVersions.contains
      (forWrite sequence now type data size).getSchemaVersion = true := by
    rw [getSchemaVersion_forWrite]
    split_ifs <;> decide
  simp only [isValidWalEntry, forWrite_eventType, forWrite_dataSize, hver,
    isValidWalEventType_code, hsize, decide_true, Bool.and_self]

/-- The marker is valid. -/
theorem cleanShutdownMarker_isValid :
    isValidWalEntry (cleanShutdownMarker sequence now) = true := by
  rw [cleanShutdownMarker_eq]
  exact forWrite_isValid _ _ _ _ _ (by decide)

/-- The payload bytes are at the front of the data area. -/
theorem take_data_forWrite {bytes : Bytes} (hsize : size.toNat ≤ kWALDataSize)
    (hread : size.toNat ≤ bytes.length) :
    (forWrite sequence now type (some bytes) size).data.take size.toNat =
      bytes.take size.toNat := by
  unfold forWrite
  dsimp only
  split
  · rw [copyPayload]
    exact take_memcpy hread (by simpa [length_data] using hsize)
  · rename_i hzero
    have : size.toNat = 0 := by
      have := UInt32.lt_iff_toNat_lt.not.mp hzero
      simpa using this
    simp [this]

end ForWrite

end WALEntry

end Synapse.Atomic
