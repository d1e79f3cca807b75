import Synapse.Foundations.Codecs
import Synapse.Recovery.CrashRecovery

/-!
# The metadata file, read as it is

What `load_metadata` makes of files that `save_metadata` has not just written: legacy files,
damaged ones, ones of other versions, and what a process leaves that dies while it writes.

A file that starts with the magic number is read as one with a header of its own, whatever
else its first bytes are; then only the version and the length of the payload decide what is
returned (`loadVersioned_eq`).

### Two formats under one name

The loader decides by the first four bytes whether a file has a header.  A legacy file has
none, but its first four bytes are the low half of a sequence number, which may be the magic
number; then it is read as what it is not (`LooksVersioned`).  In the other direction nothing
is checked at all: neither the length nor the checksum of the header is compared with the
payload, so damaged bytes are returned as they are.  The module is about these readings, one
function of the file's bytes, `loadVersioned_eq` and the two cases of the legacy format.

A process that dies while it writes leaves a front part of the new file, since the file is
truncated when it is opened; the old contents are not kept anywhere.
-/

namespace Synapse.Recovery

open ByteRecords Protocol

/-! ## Files with a header -/

/-- Only the step from version 0 is registered. -/
theorem hasPath_schema {v : UInt32} (hzero : v ≠ 0) (hone : v ≠ 1) :
    schema.hasPath schemaFuel v kRecoverySchemaVersion = .ok false := by
  have hfuel : schema.migrationCount + 1 < schemaFuel := by decide
  have hnone : ¬ ∃ chain, schema.Chain v chain kRecoverySchemaVersion := by
    rintro ⟨chain, hchain⟩
    cases chain with
    | nil => exact hone hchain
    | cons first rest =>
        obtain ⟨⟨key, hmem⟩, hfrom, -⟩ := hchain
        have hentries : schema.steps.entries = [⟨1, ⟨0, 1, withHeader⟩⟩] := rfl
        rw [hentries, List.mem_singleton] at hmem
        cases hmem
        exact hzero hfrom.symm
  have hne : v ≠ kRecoverySchemaVersion := hone
  rcases schema.findPath_spec hfuel hne with ⟨path, chain, hshort, -⟩ | ⟨-, hpath⟩
  · exact absurd ⟨chain, hshort.1⟩ hnone
  · rw [SchemaMigration.hasPath, hpath]
    rfl

/-- **What is returned for a file with a header**: versions 1 and 2 are read directly. -/
theorem loadVersioned_eq {hdr : MessageHeader} (hversion : hdr.schemaVersion > 0)
    (payload : Bytes) :
    loadVersioned hdr payload = .ok
      (if hdr.schemaVersion ≤ 2 ∧ RecoveryMetadata.size ≤ payload.length then .decode payload
        else .zeroed) := by
  have hzero : hdr.schemaVersion ≠ 0 := by
    intro h
    rw [h] at hversion
    exact absurd hversion (by decide)
  have hcompatible : SchemaMigration.isCompatible kRecoverySchemaVersion hdr.schemaVersion =
      decide (hdr.schemaVersion ≤ 2) := if_neg hzero
  rw [loadVersioned, hcompatible]
  by_cases hle : hdr.schemaVersion ≤ 2
  · rw [if_pos (decide_eq_true hle)]
    simp only [hle, true_and, ge_iff_le]
  · have hone : hdr.schemaVersion ≠ 1 := by
      intro h
      rw [h] at hle
      exact hle (by decide)
    rw [if_neg (by simpa using hle), hasPath_schema hzero hone, if_neg fun h => hle h.1]

/-- The sniffing of `load_metadata`. -/
def StartsWithHeader (raw : Bytes) : Prop :=
  raw.length ≥ MessageHeader.size ∧ (MessageHeader.decode raw).magic = MessageHeader.kMagic ∧
    (MessageHeader.decode raw).schemaVersion > 0

/-- A file with a header: the payload if it is long enough and its version is known. -/
theorem loadMetadata_of_header {raw : Bytes} (h : StartsWithHeader raw) :
    loadMetadata (some raw) =
      .ok (if (MessageHeader.decode raw).schemaVersion ≤ 2 ∧
          RecoveryMetadata.size ≤ (raw.drop MessageHeader.size).length then
        .decode (raw.drop MessageHeader.size) else .zeroed, some raw) := by
  have hload := loadVersioned_eq h.2.2 (raw.drop MessageHeader.size)
  unfold StartsWithHeader at h
  unfold loadMetadata
  dsimp only
  rw [if_pos h, hload]
  rfl

/-- A legacy file is read, and written again with a header. -/
theorem loadMetadata_of_legacy {raw : Bytes} (h : ¬ StartsWithHeader raw)
    (hlength : RecoveryMetadata.size ≤ raw.length) :
    loadMetadata (some raw) =
      .ok (.decode raw, some (withHeader (raw.take RecoveryMetadata.size))) := by
  unfold StartsWithHeader at h
  unfold loadMetadata
  dsimp only
  rw [if_neg h, if_pos hlength, migrate_legacy]
  rfl

/-- A file that is too short for either. -/
theorem loadMetadata_of_short {raw : Bytes} (h : ¬ StartsWithHeader raw)
    (hlength : raw.length < RecoveryMetadata.size) :
    loadMetadata (some raw) = .ok (.zeroed, some raw) := by
  unfold StartsWithHeader at h
  unfold loadMetadata
  dsimp only
  rw [if_neg h, if_neg (Nat.not_le.mpr hlength)]

/-- A header of `save_metadata`, and anything behind it. -/
theorem loadMetadata_header_append (payload rest : Bytes) :
    loadMetadata (some ((MessageHeader.forPayload payload).encode ++ rest)) =
      .ok (if RecoveryMetadata.size ≤ rest.length then .decode rest else .zeroed,
        some ((MessageHeader.forPayload payload).encode ++ rest)) := by
  have hdecode : MessageHeader.decode ((MessageHeader.forPayload payload).encode ++ rest) =
      .forPayload payload := MessageHeader.decode_encode_append _ _
  have hdrop : ((MessageHeader.forPayload payload).encode ++ rest).drop MessageHeader.size =
      rest := List.drop_left' (MessageHeader.length_encode _)
  have hversion : (MessageHeader.forPayload payload).schemaVersion = 1 := rfl
  have hstarts : StartsWithHeader ((MessageHeader.forPayload payload).encode ++ rest) := by
    refine ⟨?_, by rw [hdecode]; rfl, by rw [hdecode, hversion]; decide⟩
    rw [List.length_append, MessageHeader.length_encode]
    exact Nat.le_add_right _ _
  have hle : (1 : UInt32) ≤ 2 := by decide
  rw [loadMetadata_of_header hstarts, hdecode, hdrop, hversion]
  simp only [hle, true_and]

/-! ## Legacy files -/

/-- The first counter looks like the magic number and a version. -/
def LooksVersioned (m : RecoveryMetadata) : Prop :=
  m.lastCleanShutdownSequence.toNat % 2 ^ 32 = MessageHeader.kMagic.toNat ∧
    2 ^ 32 ≤ m.lastCleanShutdownSequence.toNat

/-- What a legacy file looks like, read as a header. -/
theorem header_encode (m : RecoveryMetadata) :
    (MessageHeader.decode m.encode).magic.toNat = m.lastCleanShutdownSequence.toNat % 2 ^ 32 ∧
      (MessageHeader.decode m.encode).schemaVersion.toNat =
        m.lastCleanShutdownSequence.toNat / 2 ^ 32 := by
  have hlt := m.lastCleanShutdownSequence.toNat_lt
  have hhalves : m.encode = leBytes 4 m.lastCleanShutdownSequence.toNat ++
      (leBytes 4 (m.lastCleanShutdownSequence.toNat / 256 ^ 4) ++ m.encode.drop 8) := by
    rw [← List.append_assoc, ← leBytes_add, RecoveryMetadata.encode,
      List.drop_left' (length_leBytes _ _)]
  have htake : m.encode.take 4 = leBytes 4 m.lastCleanShutdownSequence.toNat := by
    rw [hhalves, List.take_left' (length_leBytes _ _)]
  have hdrop : (m.encode.drop 4).take 4 =
      leBytes 4 (m.lastCleanShutdownSequence.toNat / 256 ^ 4) := by
    rw [hhalves, List.drop_left' (length_leBytes _ _), List.take_left' (length_leBytes _ _)]
  constructor
  · rw [MessageHeader.decode, htake, ofLeBytes_leBytes, UInt32.toNat_ofNat']
    omega
  · rw [MessageHeader.decode, hdrop, ofLeBytes_leBytes, UInt32.toNat_ofNat']
    omega

/-- When it is taken for one. -/
theorem startsWithHeader_encode (m : RecoveryMetadata) :
    StartsWithHeader m.encode ↔ LooksVersioned m := by
  obtain ⟨hmagic, hversion⟩ := header_encode m
  have hlength : m.encode.length ≥ MessageHeader.size := by
    rw [m.length_encode]
    decide
  rw [StartsWithHeader, LooksVersioned, and_iff_right hlength, ← UInt32.toNat_inj, hmagic,
    gt_iff_lt, UInt32.lt_iff_toNat_lt, hversion, UInt32.toNat_zero, Nat.div_pos_iff]
  simp

/-- What `n` more loads leave of a file. -/
def afterLoads : ℕ → Option Bytes → Option Bytes
  | 0, file => file
  | n + 1, file =>
      match loadMetadata file with
      | .ok (_, file) => afterLoads n file
      | .error _ => file

/-- Loading once more gives the same. -/
theorem loaded_afterLoads (n : ℕ) (file : Option Bytes) :
    loaded (afterLoads n file) = loaded file := by
  induction n generalizing file with
  | zero => rfl
  | succ n ih =>
      obtain ⟨file', hload, hloaded⟩ := exists_loadMetadata file
      rw [afterLoads, hload]
      exact (ih file').trans hloaded

/-- Files of both formats give back what was stored: a saved one, and a bare struct, which is
read as such, rewritten, and read back ever after. -/
structure ReadsBack (m : RecoveryMetadata) : Prop where
  saved : loadMetadata (saveMetadata m) = .ok (m, saveMetadata m)
  recognised : ¬ StartsWithHeader m.encode
  legacy : loadMetadata (some m.encode) = .ok (m, saveMetadata m)
  later : ∀ n, loaded (afterLoads n (some m.encode)) = m

/-- **Which metadata survive both formats.** -/
theorem readsBack_iff (m : RecoveryMetadata) : ReadsBack m ↔ ¬ LooksVersioned m := by
  constructor
  · intro h
    rw [← startsWithHeader_encode]
    exact h.recognised
  · intro h
    have hlegacy : ¬ StartsWithHeader m.encode := (startsWithHeader_encode m).not.mpr h
    have hload : loadMetadata (some m.encode) = .ok (m, saveMetadata m) := by
      rw [loadMetadata_of_legacy hlegacy m.length_encode.ge, RecoveryMetadata.decode_encode,
        List.take_of_length_le m.length_encode.le]
      rfl
    refine ⟨?_, hlegacy, hload, fun n => ?_⟩
    · rw [saveMetadata, loadMetadata_withHeader m.length_encode, RecoveryMetadata.decode_encode]
    · rw [loaded_afterLoads, loaded, hload]

/-- A legacy file that is read as a file of version 1, without its counters. -/
theorem legacy_file_mistaken :
    loadMetadata (some (RecoveryMetadata.encode ⟨0x153594E41, 2, 3, 4⟩)) =
        .ok (.zeroed, some (RecoveryMetadata.encode ⟨0x153594E41, 2, 3, 4⟩)) ∧
      ¬ ReadsBack ⟨0x153594E41, 2, 3, 4⟩ := by
  have hstarts : StartsWithHeader (RecoveryMetadata.encode ⟨0x153594E41, 2, 3, 4⟩) :=
    (startsWithHeader_encode _).mpr ⟨by decide, by decide⟩
  refine ⟨?_, fun h => h.recognised hstarts⟩
  rw [loadMetadata_of_header hstarts]
  rfl

/-! ## Damaged files -/

/-- The checksum of `save_metadata`. -/
def fnv1a (payload : Bytes) : UInt32 := (MessageHeader.forPayload payload).checksum

/-- The file of `m` with another payload behind its header. -/
def damaged (m : RecoveryMetadata) (payload : Bytes) : Bytes :=
  (MessageHeader.forPayload m.encode).encode ++ payload

/-- Bytes of the payload are altered or cut off, so that the stored checksum or the stored
length tells. -/
structure Corrupted (m : RecoveryMetadata) (payload : Bytes) : Prop where
  length_le : payload.length ≤ RecoveryMetadata.size
  detectable : fnv1a payload ≠ (MessageHeader.forPayload m.encode).checksum ∨
    payload.length ≠ (MessageHeader.forPayload m.encode).payloadSize.toNat

/-- One step of the checksum loses nothing. -/
theorem fnv1a_step_inj {s t : UInt32} {b c : UInt8}
    (h : (s ^^^ b.toUInt32) * 16777619 = (t ^^^ c.toUInt32) * 16777619) :
    s ^^^ b.toUInt32 = t ^^^ c.toUInt32 := by
  have hinverse : ∀ x : UInt32, x * 16777619 * 899433627 = x := by
    intro x
    rw [mul_assoc, show (16777619 * 899433627 : UInt32) = 1 by decide, mul_one]
  rw [← hinverse (s ^^^ b.toUInt32), h, hinverse]

/-- Each round of the checksum can be undone, since its factor is odd. -/
theorem fnv1a_foldl_inj {s t : UInt32} {bytes : Bytes}
    (h : bytes.foldl (fun hash b => (hash ^^^ b.toUInt32) * 16777619) s =
      bytes.foldl (fun hash b => (hash ^^^ b.toUInt32) * 16777619) t) : s = t := by
  induction bytes generalizing s t with
  | nil => exact h
  | cons b bytes ih =>
      have hxor := fnv1a_step_inj (ih h)
      have hcancel := congrArg (· ^^^ b.toUInt32) hxor
      simpa [UInt32.xor_assoc] using hcancel

/-- **The checksum tells every single byte.** -/
theorem fnv1a_set_ne {payload : Bytes} {i : ℕ} {x y : UInt8} (hy : payload[i]? = some y)
    (hne : y ≠ x) : fnv1a (payload.set i x) ≠ fnv1a payload := by
  obtain ⟨hi, rfl⟩ := List.getElem?_eq_some_iff.mp hy
  intro h
  have hset : payload.set i x = payload.take i ++ x :: payload.drop (i + 1) :=
    List.set_eq_take_append_cons_drop .. |>.trans (if_pos hi)
  have hself : payload = payload.take i ++ payload[i] :: payload.drop (i + 1) := by
    rw [List.getElem_cons_drop, List.take_append_drop]
  rw [fnv1a, fnv1a, hset] at h
  nth_rewrite 3 [hself] at h
  simp only [MessageHeader.forPayload, List.foldl_append, List.foldl_cons] at h
  have hxor := fnv1a_step_inj (fnv1a_foldl_inj h)
  generalize (payload.take i).foldl (fun hash b => (hash ^^^ b.toUInt32) * 16777619) 2166136261 =
    s at hxor
  have hcancel := congrArg (s ^^^ ·) hxor
  simp only [← UInt32.xor_assoc, UInt32.xor_self, UInt32.zero_xor] at hcancel
  exact hne (UInt8.toUInt32_inj.mp hcancel).symm

/-- One changed byte is a corruption. -/
theorem corrupted_set {m : RecoveryMetadata} {i : ℕ} {x y : UInt8} (hy : m.encode[i]? = some y)
    (hne : y ≠ x) : Corrupted m (m.encode.set i x) :=
  ⟨by rw [List.length_set, m.length_encode], .inl (fnv1a_set_ne hy hne)⟩

/-- A payload of the right length is the encoding of what is read from it. -/
theorem encode_decode {payload : Bytes} (h : payload.length = RecoveryMetadata.size) :
    (RecoveryMetadata.decode payload).encode = payload := by
  have hword : ∀ i, i + 8 ≤ 32 → leBytes 8
      (UInt64.ofNat (ofLeBytes ((payload.drop i).take 8))).toNat = (payload.drop i).take 8 := by
    intro i hi
    have hlength : ((payload.drop i).take 8).length = 8 := by
      rw [List.length_take, List.length_drop, h, RecoveryMetadata.size]
      omega
    have hlt := ofLeBytes_lt ((payload.drop i).take 8)
    rw [hlength] at hlt
    rw [UInt64.toNat_ofNat_of_lt' hlt, leBytes_ofLeBytes hlength]
  have hsplit : ∀ i, (payload.drop i).take 8 ++ payload.drop (i + 8) = payload.drop i := by
    intro i
    rw [← List.drop_drop, List.take_append_drop]
  have hlast : (payload.drop 24).take 8 = payload.drop 24 :=
    List.take_of_length_le (by rw [List.length_drop, h]; decide)
  have hzero := hword 0 (by decide)
  rw [List.drop_zero] at hzero
  rw [RecoveryMetadata.encode, RecoveryMetadata.decode, hzero, hword 8 (by decide),
    hword 16 (by decide), hword 24 (by decide), hlast, hsplit 16, hsplit 8, List.take_append_drop]

/-- Only zeros are read as zeros. -/
theorem decode_eq_zeroed_iff {payload : Bytes} (h : payload.length = RecoveryMetadata.size) :
    RecoveryMetadata.decode payload = .zeroed ↔
      payload = List.replicate RecoveryMetadata.size 0 := by
  have hzeroed : RecoveryMetadata.zeroed.encode = List.replicate RecoveryMetadata.size 0 := rfl
  rw [← hzeroed]
  constructor
  · intro hdecode
    rw [← hdecode, encode_decode h]
  · rintro rfl
    exact RecoveryMetadata.decode_encode _

/-- **Which corrupted files are rejected**: nothing is compared with the header. -/
theorem corrupted_rejected_iff {m : RecoveryMetadata} {payload : Bytes} (h : Corrupted m payload) :
    loadMetadata (some (damaged m payload)) = .ok (.zeroed, some (damaged m payload)) ↔
      payload.length < RecoveryMetadata.size ∨
        payload = List.replicate RecoveryMetadata.size 0 := by
  rw [damaged, loadMetadata_header_append]
  obtain hlt | heq := h.length_le.lt_or_eq
  · rw [if_neg (Nat.not_le.mpr hlt)]
    exact iff_of_true rfl (.inl hlt)
  · rw [if_pos heq.ge, or_iff_right heq.ge.not_gt, ← decode_eq_zeroed_iff heq]
    simp

/-- One byte of the first counter is altered, and the altered counter is returned. -/
theorem altered_counter_accepted :
    Corrupted ⟨1, 0, 0, 0⟩ (RecoveryMetadata.encode ⟨2, 0, 0, 0⟩) ∧
      loadMetadata (some (damaged ⟨1, 0, 0, 0⟩ (RecoveryMetadata.encode ⟨2, 0, 0, 0⟩))) =
        .ok (⟨2, 0, 0, 0⟩, some (damaged ⟨1, 0, 0, 0⟩ (RecoveryMetadata.encode ⟨2, 0, 0, 0⟩))) := by
  refine ⟨?_, ?_⟩
  · exact corrupted_set (i := 0) (x := 2) (y := 1) rfl (by decide)
  · rw [damaged, loadMetadata_header_append]
    rfl

/-- The first 20 of its 32 bytes are no payload. -/
theorem truncated_counters_rejected :
    loadMetadata (some (damaged ⟨5, 2, 1, 77⟩ ((RecoveryMetadata.encode ⟨5, 2, 1, 77⟩).take 20))) =
      .ok (.zeroed,
        some (damaged ⟨5, 2, 1, 77⟩ ((RecoveryMetadata.encode ⟨5, 2, 1, 77⟩).take 20))) :=
  (corrupted_rejected_iff ⟨by decide, .inr (by decide)⟩).mpr (.inl (by decide))

/-! ## Writing and dying -/

/-- Where the process dies while it writes a file: before the open that truncates it, or with
`n` bytes in it. -/
inductive CrashPoint where
  | beforeOpen
  | written (n : ℕ)

/-- The file that is found afterwards. -/
def CrashPoint.leaves (before : Option Bytes) (bytes : Bytes) : CrashPoint → Option Bytes
  | beforeOpen => before
  | written n => some (bytes.take n)

/-- Nothing less than the whole file counts. -/
theorem loaded_take {payload : Bytes} (h : payload.length = RecoveryMetadata.size) (n : ℕ) :
    loaded (some ((withHeader payload).take n)) =
      if n < MessageHeader.size + RecoveryMetadata.size then .zeroed else .decode payload := by
  have hheader := MessageHeader.length_encode (.forPayload payload)
  split_ifs with hn
  · obtain hlt | hge := Nat.lt_or_ge n MessageHeader.size
    · have hlength : ((withHeader payload).take n).length < MessageHeader.size :=
        (List.length_take_le _ _).trans_lt hlt
      rw [loaded, loadMetadata_of_short fun hstarts => hstarts.1.not_gt hlength]
      exact hlength.trans (by decide)
    · have hrest : (payload.take (n - MessageHeader.size)).length < RecoveryMetadata.size := by
        rw [List.length_take]
        omega
      rw [withHeader, List.take_append, hheader,
        List.take_of_length_le (hheader.le.trans hge), loaded, loadMetadata_header_append,
        if_neg (Nat.not_le.mpr hrest)]
  · have hlength : (withHeader payload).length ≤ n := by
      rw [withHeader, List.length_append, hheader, h]
      omega
    rw [List.take_of_length_le hlength, loaded, loadMetadata_withHeader h]

/-- `save_metadata` over a file. -/
def CrashPoint.afterSave (before : Option Bytes) (new : RecoveryMetadata) (p : CrashPoint) :
    Option Bytes := p.leaves before (withHeader new.encode)

/-- The migration of `load_metadata`. -/
def CrashPoint.afterMigration (raw : Bytes) (p : CrashPoint) : Option Bytes :=
  p.leaves (some raw) (withHeader (raw.take RecoveryMetadata.size))

/-- What the next `load_metadata` returns. -/
def CrashPoint.outcome (old new : RecoveryMetadata) : CrashPoint → RecoveryMetadata
  | beforeOpen => old
  | written n => if n < MessageHeader.size + RecoveryMetadata.size then .zeroed else new

/-- **Old, new or the defaults**, but never a mixture, wherever the process dies. -/
theorem old_new_or_defaults (p : CrashPoint) :
    (∀ before new, loaded (p.afterSave before new) = p.outcome (loaded before) new) ∧
      ∀ raw, ¬ StartsWithHeader raw → RecoveryMetadata.size ≤ raw.length →
        loaded (p.afterMigration raw) = p.outcome (loaded (some raw)) (loaded (some raw)) := by
  constructor
  · intro before new
    cases p with
    | beforeOpen => rfl
    | written n =>
        have htake := loaded_take new.length_encode n
        rwa [RecoveryMetadata.decode_encode] at htake
  · intro raw hlegacy hlength
    cases p with
    | beforeOpen => rfl
    | written n =>
        have hpayload : (raw.take RecoveryMetadata.size).length = RecoveryMetadata.size :=
          List.length_take_of_le hlength
        have hload : loaded (some raw) = .decode raw := by
          rw [loaded, loadMetadata_of_legacy hlegacy hlength]
        have htake := loaded_take hpayload n
        rwa [RecoveryMetadata.decode_take, ← hload] at htake

/-- Between the open and the last byte neither the old nor the new counters are there. -/
theorem truncated_save_loses_both :
    let file := (CrashPoint.written 0).afterSave (saveMetadata ⟨1, 0, 0, 0⟩) ⟨2, 0, 0, 0⟩
    loaded file = .zeroed ∧ loaded file ≠ ⟨1, 0, 0, 0⟩ ∧ loaded file ≠ ⟨2, 0, 0, 0⟩ := by
  intro file
  have hloaded : loaded file = .zeroed :=
    (old_new_or_defaults (.written 0)).1 (saveMetadata ⟨1, 0, 0, 0⟩) ⟨2, 0, 0, 0⟩
  rw [hloaded]
  decide

/-! ## Versions -/

/-- The reader's version or the one before it. -/
def InWindow (readerVer dataVer : UInt32) : Prop :=
  dataVer.toNat ≤ readerVer.toNat ∧ readerVer.toNat ≤ dataVer.toNat + 1

/-- Where `is_compatible` says so. -/
def WindowKept (readerVer dataVer : UInt32) : Prop :=
  if readerVer.toNat + 1 = 2 ^ 32 then dataVer.toNat + 1 < readerVer.toNat
  else readerVer.toNat ≤ dataVer.toNat + 1 ∧ dataVer.toNat ≠ readerVer.toNat + 1

/-- What the source computes: a sum that wraps, compared with the version of the data. -/
theorem isCompatible_eq {readerVer dataVer : UInt32} (hdata : 1 ≤ dataVer.toNat) :
    SchemaMigration.isCompatible readerVer dataVer = true ↔
      dataVer.toNat ≤ (readerVer.toNat + 1) % 2 ^ 32 := by
  have hzero : dataVer ≠ 0 := by
    rintro rfl
    cases hdata
  rw [SchemaMigration.isCompatible, if_neg hzero, decide_eq_true_iff, ge_iff_le,
    UInt32.le_iff_toNat_le, UInt32.toNat_add]
  rfl

/-- When that is the documented window. -/
theorem inWindow_iff_windowKept {readerVer dataVer : UInt32} (hdata : 1 ≤ dataVer.toNat) :
    (SchemaMigration.isCompatible readerVer dataVer = true ↔ InWindow readerVer dataVer) ↔
      WindowKept readerVer dataVer := by
  have hreader := readerVer.toNat_lt
  have hlt := dataVer.toNat_lt
  rw [isCompatible_eq hdata, InWindow, WindowKept]
  split_ifs with hmax
  · rw [hmax, Nat.mod_self]
    omega
  · rw [Nat.mod_eq_of_lt (by omega)]
    omega

/-- What is returned for another version: by a migration, if there is a path, or the
defaults. -/
def loadForeign (hdr : MessageHeader) (payload : Bytes) : Except MigrateError RecoveryMetadata :=
  match schema.hasPath schemaFuel hdr.schemaVersion kRecoverySchemaVersion with
  | .error e => .error (.search e)
  | .ok false => .ok .zeroed
  | .ok true =>
      (schema.migrate schemaFuel payload hdr.schemaVersion kRecoverySchemaVersion).map
        fun migrated =>
          if migrated.length ≥ RecoveryMetadata.size then .decode migrated else .zeroed

/-- A payload of another version is not read directly. -/
def KeepsWindow (hdr : MessageHeader) (payload : Bytes) : Prop :=
  ¬ InWindow kRecoverySchemaVersion hdr.schemaVersion →
    loadVersioned hdr payload = loadForeign hdr payload

/-- From version 1 the window has no older neighbour but 0. -/
theorem inWindow_one {v : UInt32} (hv : v > 0) : InWindow kRecoverySchemaVersion v ↔ v = 1 := by
  rw [gt_iff_lt, UInt32.lt_iff_toNat_lt, UInt32.toNat_zero] at hv
  have hone : kRecoverySchemaVersion.toNat = 1 := rfl
  have hone' : (1 : UInt32).toNat = 1 := rfl
  rw [InWindow, ← UInt32.toNat_inj, hone, hone']
  omega

/-- Data outside the window is replaced by zeros. -/
theorem loadForeign_eq {hdr : MessageHeader} (hversion : hdr.schemaVersion > 0)
    (hwindow : ¬ InWindow kRecoverySchemaVersion hdr.schemaVersion) (payload : Bytes) :
    loadForeign hdr payload = .ok .zeroed := by
  have hzero : hdr.schemaVersion ≠ 0 := by
    intro h
    rw [h] at hversion
    exact absurd hversion (by decide)
  have hone : hdr.schemaVersion ≠ 1 := (inWindow_one hversion).not.mp hwindow
  rw [loadForeign, hasPath_schema hzero hone]

/-- The exception is the next version, which is read in the layout of this one. -/
theorem keepsWindow_iff {hdr : MessageHeader} (hversion : hdr.schemaVersion > 0)
    (payload : Bytes) :
    KeepsWindow hdr payload ↔ hdr.schemaVersion ≠ 2 ∨ payload.length < RecoveryMetadata.size ∨
      payload.take RecoveryMetadata.size = List.replicate RecoveryMetadata.size 0 := by
  by_cases hwindow : InWindow kRecoverySchemaVersion hdr.schemaVersion
  · have hone := (inWindow_one hversion).mp hwindow
    refine iff_of_true (fun h => absurd hwindow h) (.inl ?_)
    rw [hone]
    decide
  · rw [KeepsWindow, loadVersioned_eq hversion, loadForeign_eq hversion hwindow]
    have hone : hdr.schemaVersion ≠ 1 := (inWindow_one hversion).not.mp hwindow
    have htwo : hdr.schemaVersion ≤ 2 ↔ hdr.schemaVersion = 2 := by
      rw [gt_iff_lt, UInt32.lt_iff_toNat_lt, UInt32.toNat_zero] at hversion
      have htoNat : (2 : UInt32).toNat = 2 := rfl
      have hne : hdr.schemaVersion.toNat ≠ 1 := fun h => hone (UInt32.toNat_inj.mp h)
      rw [UInt32.le_iff_toNat_le, ← UInt32.toNat_inj, htoNat]
      omega
    rw [forall_prop_of_true hwindow]
    by_cases hv : hdr.schemaVersion = 2
    · by_cases hlength : RecoveryMetadata.size ≤ payload.length
      · have htake : (payload.take RecoveryMetadata.size).length = RecoveryMetadata.size :=
          List.length_take_of_le hlength
        rw [if_pos ⟨htwo.mpr hv, hlength⟩, or_iff_right (not_not.mpr hv),
          or_iff_right hlength.not_gt, ← decode_eq_zeroed_iff htake, RecoveryMetadata.decode_take]
        exact ⟨Except.ok.inj, congrArg _⟩
      · rw [if_neg fun h => hlength h.2]
        exact iff_of_true rfl (.inr (.inl (Nat.not_le.mp hlength)))
    · rw [if_neg fun h => hv (htwo.mp h.1)]
      exact iff_of_true rfl (.inl hv)

/-- **The window of versions**, over all versions and all files with a header. -/
theorem version_window_iff {readerVer dataVer : UInt32} (hdata : 1 ≤ dataVer.toNat)
    {hdr : MessageHeader} (hversion : hdr.schemaVersion > 0) (payload : Bytes) :
    ((SchemaMigration.isCompatible readerVer dataVer = true ↔ InWindow readerVer dataVer) ↔
        WindowKept readerVer dataVer) ∧
      (KeepsWindow hdr payload ↔ hdr.schemaVersion ≠ 2 ∨ payload.length < RecoveryMetadata.size ∨
        payload.take RecoveryMetadata.size = List.replicate RecoveryMetadata.size 0) :=
  ⟨inWindow_iff_windowKept hdata, keepsWindow_iff hversion payload⟩

/-- A reader of version 2 and data of version 1. -/
theorem version_window_two_one :
    ((SchemaMigration.isCompatible 2 1 = true ↔ InWindow 2 1) ↔ WindowKept 2 1) ∧
      (KeepsWindow ⟨MessageHeader.kMagic, 2, 32, 0⟩ [] ↔ (2 : UInt32) ≠ 2 ∨
        ([] : Bytes).length < RecoveryMetadata.size ∨
        ([] : Bytes).take RecoveryMetadata.size = List.replicate RecoveryMetadata.size 0) :=
  version_window_iff (by decide) (by decide) []

/-- A newer version is read directly, and so is one that is two versions older. -/
theorem window_is_one_sided :
    (SchemaMigration.isCompatible 1 2 = true ∧ ¬ InWindow 1 2) ∧
      (SchemaMigration.isCompatible 3 1 = true ∧ ¬ InWindow 3 1) ∧
      loadVersioned ⟨MessageHeader.kMagic, 2, 32, 0⟩ (RecoveryMetadata.encode ⟨7, 0, 0, 0⟩) =
        .ok ⟨7, 0, 0, 0⟩ := by
  refine ⟨⟨by decide, fun h => ?_⟩, ⟨by decide, fun h => ?_⟩, rfl⟩
  · exact absurd h.1 (by decide)
  · exact absurd h.2 (by decide)

end Synapse.Recovery
