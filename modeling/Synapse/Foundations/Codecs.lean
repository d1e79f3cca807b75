import Synapse.Foundations.ByteRecords

/-!
# Codecs that find their own end

A decoder that reads an encoding from the front of a byte string and ignores what follows.
Then every byte string starts with at most one encoding, so values written one after the
other are found again without lengths between them (`append_inj`, `flatMap_inj`).

Fixed-width words, pairs, length-prefixed lists and what is given by its fields are such
codecs.

### One equivalence

A codec is a serializer and a deserializer with one law, an equivalence (`deserialize_iff`):
the decoder returns a value exactly if the bytes begin with the value's encoding.  From right
to left it is the round trip, whatever follows.  From left to right it says that nothing else
is ever accepted, and this is the half that the other results rest on: since the decoder is a
function, two encodings that begin the same byte string are equal.

The decoder does not return what it has not read, so how far it has come is recovered from the
value (`parse`).  This is how a library that decodes from a slice and ignores the rest
behaves.
-/

namespace ByteRecords

/-- The bytes of a little-endian word one by one. -/
theorem getElem?_leBytes {n j : ℕ} (h : j < n) (x : ℕ) :
    (leBytes n x)[j]? = some (UInt8.ofNat (x / 256 ^ j)) := by
  induction n generalizing j x with
  | zero => exact absurd h (Nat.not_lt_zero j)
  | succ n ih =>
      cases j with
      | zero => rw [leBytes, List.getElem?_cons_zero, pow_zero, Nat.div_one]
      | succ j =>
          rw [leBytes, List.getElem?_cons_succ, ih (Nat.lt_of_succ_lt_succ h),
            Nat.div_div_eq_div_mul, pow_succ']

/-- A word is its low bytes and its high bytes. -/
theorem leBytes_add (n k x : ℕ) : leBytes (n + k) x = leBytes n x ++ leBytes k (x / 256 ^ n) := by
  induction n generalizing x with
  | zero => rw [Nat.zero_add, pow_zero, Nat.div_one, leBytes, List.nil_append]
  | succ n ih =>
      rw [Nat.succ_add, leBytes, leBytes, ih, List.cons_append, Nat.div_div_eq_div_mul, pow_succ']

/-- Encodings that are found at the front of a byte string. -/
structure Codec (α : Type*) where
  serialize : α → Bytes
  deserialize : Bytes → Except String α
  deserialize_iff (bytes : Bytes) (v : α) :
    deserialize bytes = .ok v ↔ ∃ rest, bytes = serialize v ++ rest

namespace Codec

variable {α β : Type*} (c : Codec α) (d : Codec β)

/-- The round trip, whatever follows the encoding. -/
theorem deserialize_append (v : α) (rest : Bytes) :
    c.deserialize (c.serialize v ++ rest) = .ok v :=
  (c.deserialize_iff _ v).mpr ⟨rest, rfl⟩

/-- A byte string starts with one encoding at most. -/
theorem append_inj {v w : α} {s t : Bytes} (h : c.serialize v ++ s = c.serialize w ++ t) :
    v = w ∧ s = t := by
  have hv := c.deserialize_append v s
  rw [h, c.deserialize_append w t] at hv
  obtain rfl := Except.ok.inj hv
  exact ⟨rfl, List.append_cancel_left h⟩

/-- As many values one after the other. -/
theorem flatMap_inj {vs ws : List α} {s t : Bytes} (hlength : vs.length = ws.length)
    (h : vs.flatMap c.serialize ++ s = ws.flatMap c.serialize ++ t) : vs = ws ∧ s = t := by
  induction vs generalizing ws with
  | nil =>
      obtain rfl := List.eq_nil_of_length_eq_zero hlength.symm
      exact ⟨rfl, h⟩
  | cons v vs ih =>
      cases ws with
      | nil => cases hlength
      | cons w ws =>
          rw [List.flatMap_cons, List.flatMap_cons, List.append_assoc, List.append_assoc] at h
          obtain ⟨rfl, hrest⟩ := c.append_inj h
          obtain ⟨rfl, rfl⟩ := ih (Nat.succ_injective hlength) hrest
          exact ⟨rfl, rfl⟩

/-- What begins with all of `vs` and has no byte behind them. -/
theorem flatMap_inj_of_le (hne : ∀ v, c.serialize v ≠ []) {vs ws : List α}
    (hlength : vs.length ≤ ws.length) (h : vs.flatMap c.serialize = ws.flatMap c.serialize) :
    vs = ws := by
  rw [← List.take_append_drop vs.length ws, List.flatMap_append, ← List.append_nil (vs.flatMap _)]
    at h
  obtain ⟨htake, hdrop⟩ := c.flatMap_inj (List.length_take_of_le hlength).symm h
  have hnil : ws.drop vs.length = [] := by
    refine List.eq_nil_iff_forall_not_mem.mpr fun v hv => hne v ?_
    exact List.flatMap_eq_nil_iff.mp hdrop.symm v hv
  rw [htake, List.take_eq_self_iff]
  exact List.drop_eq_nil_iff.mp hnil

/-- A codec from one that also says what follows. -/
def ofParser (serialize : α → Bytes) (parse : Bytes → Option (α × Bytes))
    (h : ∀ bytes v rest, parse bytes = some (v, rest) ↔ bytes = serialize v ++ rest) :
    Codec α where
  serialize := serialize
  deserialize bytes :=
    match parse bytes with
    | some (v, _) => .ok v
    | none => .error "unexpected end of file"
  deserialize_iff bytes v := by
    constructor
    · intro hv
      cases hparse : parse bytes with
      | none => simp [hparse] at hv
      | some p =>
          obtain ⟨w, rest⟩ := p
          rw [hparse] at hv
          obtain rfl := Except.ok.inj hv
          exact ⟨rest, (h _ _ _).mp hparse⟩
    · rintro ⟨rest, hbytes⟩
      rw [(h bytes v rest).mpr hbytes]

/-- The value a byte string starts with, and what follows it. -/
def parse (bytes : Bytes) : Option (α × Bytes) :=
  (c.deserialize bytes).toOption.map fun v => (v, bytes.drop (c.serialize v).length)

/-- What is found in front, and what is left behind it. -/
theorem parse_iff (bytes : Bytes) (v : α) (rest : Bytes) :
    c.parse bytes = some (v, rest) ↔ bytes = c.serialize v ++ rest := by
  unfold parse
  constructor
  · intro h
    cases hv : c.deserialize bytes with
    | error e => simp [hv, Except.toOption] at h
    | ok w =>
        obtain ⟨t, rfl⟩ := (c.deserialize_iff _ _).mp hv
        simp only [hv, Except.toOption, Option.map_some, Option.some.injEq, Prod.mk.injEq,
          List.drop_left] at h
        obtain ⟨rfl, rfl⟩ := h
        rfl
  · rintro rfl
    rw [c.deserialize_append]
    simp [Except.toOption]

/-! ### Words, pairs, lists and records -/

/-- Numbers below `256 ^ n`, given by a type for them. -/
def word (n : ℕ) (toNat : α → ℕ) (ofNat : ℕ → α) (hlt : ∀ v, toNat v < 256 ^ n)
    (hto : ∀ x < 256 ^ n, toNat (ofNat x) = x) (hof : ∀ v, ofNat (toNat v) = v) : Codec α :=
  ofParser (fun v => leBytes n (toNat v))
    (fun bytes => if n ≤ bytes.length then some (ofNat (ofLeBytes (bytes.take n)), bytes.drop n)
      else none) (by
    intro bytes v rest
    constructor
    · intro h
      split_ifs at h with hn
      obtain ⟨rfl, rfl⟩ := Prod.mk.inj (Option.some_injective _ h)
      have hlength : (bytes.take n).length = n := List.length_take_of_le hn
      have hbound := ofLeBytes_lt (bytes.take n)
      rw [hlength] at hbound
      rw [hto _ hbound, leBytes_ofLeBytes hlength, List.take_append_drop]
    · rintro rfl
      have hlength := length_leBytes n (toNat v)
      rw [if_pos (by rw [List.length_append, hlength]; omega), List.take_left' hlength,
        List.drop_left' hlength, ofLeBytes_leBytes_of_lt (hlt v), hof])

/-- A byte. -/
def uint8 : Codec UInt8 :=
  word 1 UInt8.toNat UInt8.ofNat UInt8.toNat_lt (fun _ h => UInt8.toNat_ofNat_of_lt' h)
    fun _ => UInt8.ofNat_toNat

/-- A word of four bytes, the lowest first. -/
def uint32 : Codec UInt32 :=
  word 4 UInt32.toNat UInt32.ofNat UInt32.toNat_lt (fun _ h => UInt32.toNat_ofNat_of_lt' h)
    fun _ => UInt32.ofNat_toNat

/-- A word of eight bytes, the lowest first. -/
def uint64 : Codec UInt64 :=
  word 8 UInt64.toNat UInt64.ofNat UInt64.toNat_lt (fun _ h => UInt64.toNat_ofNat_of_lt' h)
    fun _ => UInt64.ofNat_toNat

/-- Two values one after the other. -/
def both : Codec (α × β) :=
  ofParser (fun v => c.serialize v.1 ++ d.serialize v.2)
    (fun bytes => (c.parse bytes).bind fun p =>
      (d.parse p.2).map fun q => ((p.1, q.1), q.2)) (by
    rintro bytes ⟨v, w⟩ rest
    constructor
    · intro h
      obtain ⟨⟨v', t⟩, hv, h⟩ := Option.bind_eq_some_iff.mp h
      obtain ⟨⟨w', t'⟩, hw, h⟩ := Option.map_eq_some_iff.mp h
      simp only [Prod.mk.injEq] at h
      obtain ⟨⟨rfl, rfl⟩, rfl⟩ := h
      have ht : t = d.serialize w' ++ t' := (d.parse_iff _ _ _).mp hw
      rw [(c.parse_iff _ _ _).mp hv, ht, List.append_assoc]
    · rintro rfl
      rw [(c.parse_iff _ v (d.serialize w ++ rest)).mpr (List.append_assoc _ _ _)]
      rw [Option.bind_some, (d.parse_iff _ w rest).mpr rfl]
      rfl)

/-- What its fields say, where they are well formed. -/
def record (fields : β → α) (build : α → Option β) (h : ∀ v b, build v = some b ↔ v = fields b) :
    Codec β :=
  ofParser (fun b => c.serialize (fields b))
    (fun bytes => (c.parse bytes).bind fun p => (build p.1).map fun b => (b, p.2)) (by
    intro bytes b rest
    constructor
    · intro hb
      obtain ⟨⟨v, t⟩, hv, hb⟩ := Option.bind_eq_some_iff.mp hb
      obtain ⟨b', hb', hb⟩ := Option.map_eq_some_iff.mp hb
      obtain ⟨rfl, rfl⟩ := Prod.mk.inj hb
      rw [(c.parse_iff _ _ _).mp hv, (h v b').mp hb']
    · rintro rfl
      rw [(c.parse_iff _ (fields b) rest).mpr rfl, Option.bind_some, (h _ b).mpr rfl]
      rfl)

/-- `n` values one after the other. -/
def parseMany : ℕ → Bytes → Option (List α × Bytes)
  | 0, bytes => some ([], bytes)
  | n + 1, bytes =>
      (c.parse bytes).bind fun p => (parseMany n p.2).map fun q => (p.1 :: q.1, q.2)

/-- A known number of values, one after the other; by induction on the number. -/
theorem parseMany_iff (n : ℕ) (bytes : Bytes) (vs : List α) (rest : Bytes) :
    c.parseMany n bytes = some (vs, rest) ↔
      vs.length = n ∧ bytes = vs.flatMap c.serialize ++ rest := by
  induction n generalizing bytes vs with
  | zero =>
      constructor
      · intro h
        obtain ⟨rfl, rfl⟩ := Prod.mk.inj (Option.some_injective _ h)
        exact ⟨rfl, rfl⟩
      · rintro ⟨hlength, rfl⟩
        obtain rfl := List.eq_nil_of_length_eq_zero hlength
        rfl
  | succ n ih =>
      rw [parseMany]
      constructor
      · intro h
        obtain ⟨⟨v, t⟩, hv, h⟩ := Option.bind_eq_some_iff.mp h
        obtain ⟨⟨vs', t'⟩, hvs, h⟩ := Option.map_eq_some_iff.mp h
        obtain ⟨rfl, rfl⟩ := Prod.mk.inj h
        have ht : vs'.length = n ∧ t = vs'.flatMap c.serialize ++ t' := (ih _ _).mp hvs
        refine ⟨congrArg Nat.succ ht.1, ?_⟩
        rw [(c.parse_iff _ _ _).mp hv, ht.2, List.flatMap_cons, List.append_assoc]
      · rintro ⟨hlength, rfl⟩
        cases vs with
        | nil => cases hlength
        | cons v vs =>
            rw [List.flatMap_cons, List.append_assoc, (c.parse_iff _ v _).mpr rfl,
              Option.bind_some, (ih _ vs).mpr ⟨Nat.succ_injective hlength, rfl⟩]
            rfl

/-- A list after its length. -/
def vec : Codec {vs : List α // vs.length < 2 ^ 64} :=
  ofParser (fun vs => leBytes 8 vs.1.length ++ vs.1.flatMap c.serialize)
    (fun bytes => (uint64.parse bytes).bind fun p =>
      (c.parseMany p.1.toNat p.2).bind fun q =>
        if h : q.1.length < 2 ^ 64 then some (⟨q.1, h⟩, q.2) else none) (by
    rintro bytes ⟨vs, hvs⟩ rest
    constructor
    · intro h
      obtain ⟨⟨n, t⟩, hn, h⟩ := Option.bind_eq_some_iff.mp h
      obtain ⟨⟨ws, t'⟩, hws, h⟩ := Option.bind_eq_some_iff.mp h
      have ht : ws.length = n.toNat ∧ t = ws.flatMap c.serialize ++ t' :=
        (c.parseMany_iff _ _ _ _).mp hws
      split_ifs at h
      simp only [Option.some.injEq, Prod.mk.injEq, Subtype.mk.injEq] at h
      obtain ⟨rfl, rfl⟩ := h
      have hbytes : bytes = leBytes 8 n.toNat ++ t := (uint64.parse_iff _ _ _).mp hn
      rw [hbytes, ht.2, ← ht.1, List.append_assoc]
    · rintro rfl
      have hsize : (UInt64.ofNat vs.length).toNat = vs.length := UInt64.toNat_ofNat_of_lt' hvs
      have hn : uint64.parse (leBytes 8 vs.length ++ vs.flatMap c.serialize ++ rest) =
          some (UInt64.ofNat vs.length, vs.flatMap c.serialize ++ rest) := by
        refine (uint64.parse_iff _ _ _).mpr ?_
        rw [List.append_assoc]
        exact congrArg (leBytes 8 · ++ _) hsize.symm
      rw [hn, Option.bind_some, hsize, (c.parseMany_iff _ _ vs rest).mpr ⟨rfl, rfl⟩,
        Option.bind_some, dif_pos hvs])

end Codec

end ByteRecords
