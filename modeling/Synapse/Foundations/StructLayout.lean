import Synapse.Foundations.ByteRecords

/-!
# Structs in memory

Where the primitive members of a struct stand, by the rules of C: every member at the next
multiple of its alignment, and the whole a multiple of the largest one.  The bytes between
them are whatever they were when the struct was stored.

A layout carries that they follow one another within its size; so what is stored by a
layout is read back by it, from any bytes (`read_store`).

### Layouts that cannot overlap

A layout is a size, an alignment, and members at offsets, and it has as fields that the
members follow one another and end within the size.  Structs are put together from layouts by
appending, with padding in between, so the fields are proved once, for appending and padding.
Storing writes the members over what memory held, and what is not a member stays as it was.
-/

namespace StructLayout

open ByteRecords

/-! ## Windows of memory -/

/-- `n` bytes from `o` on. -/
def slice (o n : ℕ) (image : Bytes) : Bytes := (image.drop o).take n

/-- `bytes` from `o` on. -/
def write (o : ℕ) (bytes image : Bytes) : Bytes :=
  image.take o ++ (bytes ++ image.drop (o + bytes.length))

/-- A piece in two parts. -/
theorem slice_add (o m n : ℕ) (image : Bytes) :
    slice o (m + n) image = slice o m image ++ slice (o + m) n image := by
  unfold slice
  rw [List.take_add, List.drop_drop]

/-- The first part of it. -/
theorem take_slice (o m n : ℕ) (image : Bytes) :
    (slice o (m + n) image).take m = slice o m image := by
  unfold slice
  rw [List.take_take, Nat.min_eq_left (Nat.le_add_right m n)]

section write

variable {o : ℕ} {bytes image : Bytes} (h : o + bytes.length ≤ image.length)

include h

/-- Writing changes no length. -/
theorem length_write : (write o bytes image).length = image.length := by
  unfold write
  simp only [List.length_append, List.length_take, List.length_drop]
  omega

/-- What has been written is read. -/
theorem slice_write_self : slice o bytes.length (write o bytes image) = bytes := by
  have htake : (image.take o).length = o := by
    rw [List.length_take]
    omega
  unfold slice write
  rw [List.drop_left' htake, List.take_left' rfl]

/-- What is written elsewhere changes nothing here. -/
theorem slice_write_of_disjoint {o' n : ℕ} (hdisjoint : o' + n ≤ o ∨ o + bytes.length ≤ o') :
    slice o' n (write o bytes image) = slice o' n image := by
  have htake : (image.take o).length = o := by
    rw [List.length_take]
    omega
  unfold slice write
  rcases hdisjoint with hbefore | hbehind
  · rw [List.drop_append_of_le_length (by omega), List.take_append_of_le_length, List.drop_take,
      List.take_take, Nat.min_eq_left (by omega)]
    rw [List.length_drop, htake]
    omega
  · obtain ⟨d, rfl⟩ := Nat.exists_eq_add_of_le hbehind
    rw [Nat.add_assoc, ← List.drop_drop, List.drop_left' htake, ← List.drop_drop, List.drop_left,
      List.drop_drop, Nat.add_assoc]

end write

/-! ## Primitive types -/

/-- How the bits of a value are read: as a number, in two's complement, or as a truth value that
is 0 or 1. -/
inductive Kind where
  | unsigned
  | signed
  | flag
  deriving DecidableEq, Repr

/-- A primitive type: its width, and how its bytes are read. -/
structure Primitive where
  width : ℕ
  kind : Kind
  width_pos : 0 < width
  deriving DecidableEq

namespace Primitive

variable (s : Primitive)

/-- The values of the type. -/
def Has (v : ℤ) : Prop :=
  match s.kind with
  | .unsigned => 0 ≤ v ∧ v < 256 ^ s.width
  | .signed => -(256 ^ s.width) ≤ 2 * v ∧ 2 * v < 256 ^ s.width
  | .flag => v = 0 ∨ v = 1

/-- The bytes of a value, the lowest first; negative ones wrap. -/
def encode (v : ℤ) : Bytes := leBytes s.width (v % 256 ^ s.width).toNat

/-- `none` if the bytes are those of no value. -/
def decode (bytes : Bytes) : Option ℤ :=
  let n : ℤ := ofLeBytes bytes
  match s.kind with
  | .unsigned => some n
  | .signed => some (if 2 * n < 256 ^ s.width then n else n - 256 ^ s.width)
  | .flag => if n = 0 ∨ n = 1 then some n else none

/-- As many as the type has. -/
theorem length_encode (v : ℤ) : (s.encode v).length = s.width := length_leBytes _ _

/-- The number in them, modulo the type. -/
theorem ofLeBytes_encode (v : ℤ) : (ofLeBytes (s.encode v) : ℤ) = v % 256 ^ s.width := by
  have hpos : (0 : ℤ) < 256 ^ s.width := by positivity
  have hnonneg := Int.emod_nonneg v hpos.ne'
  have hlt := Int.emod_lt_of_pos v hpos
  rw [encode, ofLeBytes_leBytes_of_lt, Int.toNat_of_nonneg hnonneg]
  zify
  rwa [Int.toNat_of_nonneg hnonneg]

/-- The lowest byte comes first. -/
theorem toNat_head_encode {v : ℤ} {b : UInt8} {rest : Bytes} (h : b :: rest = s.encode v) :
    (b.toNat : ℤ) = v % 256 := by
  have hwhole := s.ofLeBytes_encode v
  have hlt := b.toNat_lt
  have hdvd : (256 : ℤ) ∣ 256 ^ s.width := dvd_pow_self 256 s.width_pos.ne'
  rw [← h, ofLeBytes] at hwhole
  have hmod := congrArg (· % 256) hwhole
  rw [Int.emod_emod_of_dvd v hdvd] at hmod
  omega

/-- Values survive the trip through their bytes. -/
theorem decode_encode {v : ℤ} (hv : s.Has v) : s.decode (s.encode v) = some v := by
  have hlarge : (256 : ℤ) ≤ 256 ^ s.width := le_self_pow₀ (by norm_num) s.width_pos.ne'
  unfold Has at hv
  unfold decode
  rw [ofLeBytes_encode]
  cases hkind : s.kind with
  | unsigned =>
      rw [hkind] at hv
      exact congrArg some (Int.emod_eq_of_lt hv.1 hv.2)
  | signed =>
      rw [hkind] at hv
      obtain ⟨hge, hlt⟩ := hv
      refine congrArg some ?_
      rcases le_or_gt 0 v with hpos | hneg
      · rw [Int.emod_eq_of_lt hpos (by omega), if_pos hlt]
      · -- the negative ones stand in the upper half
        have hmod : v % 256 ^ s.width = v + 256 ^ s.width := by
          rw [← Int.add_emod_right, Int.emod_eq_of_lt (by omega) (by omega)]
        rw [hmod, if_neg (by omega), add_sub_cancel_right]
  | flag =>
      rw [hkind] at hv
      have hmod : v % 256 ^ s.width = v := by
        rcases hv with rfl | rfl
        · exact Int.zero_emod _
        · exact Int.emod_eq_of_lt one_pos.le (by omega)
      dsimp only
      rw [hmod]
      exact if_pos hv

end Primitive

/-! ## Layouts -/

/-- A primitive member and its place. -/
structure Member where
  offset : ℕ
  type : Primitive
  deriving DecidableEq

/-- Where a member ends. -/
def Member.stop (a : Member) : ℕ := a.offset + a.type.width

/-- A member of a struct within a struct. -/
def Member.shift (o : ℕ) (a : Member) : Member := { a with offset := o + a.offset }

/-- It ends where it would, further on. -/
theorem Member.stop_shift (o : ℕ) (a : Member) : (a.shift o).stop = o + a.stop :=
  Nat.add_assoc _ _ _

/-- The primitive members of a type, in their order, with nothing in common. -/
structure Layout where
  size : ℕ
  align : ℕ
  members : List Member
  ordered : members.Pairwise fun a b => a.stop ≤ b.offset
  bounded : ∀ a ∈ members, a.stop ≤ size

namespace Layout

/-- The next multiple of `align` from `n` on. -/
def roundUp (n align : ℕ) : ℕ := n + (align - n % align) % align

/-- Rounding up never goes down. -/
theorem le_roundUp (n align : ℕ) : n ≤ roundUp n align := Nat.le_add_right _ _

/-- Natural alignment. -/
def primitive (type : Primitive) : Layout where
  size := type.width
  align := type.width
  members := [⟨0, type⟩]
  ordered := List.pairwise_singleton _ _
  bounded := by
    intro a ha
    obtain rfl := List.mem_singleton.mp ha
    exact (Nat.zero_add _).le

/-- The struct without members. -/
def empty : Layout where
  size := 0
  align := 1
  members := []
  ordered := List.Pairwise.nil
  bounded := List.forall_mem_nil _

/-- `l` at `o`, behind what there is. -/
def place (body : Layout) (o : ℕ) (ho : body.size ≤ o) (l : Layout) : Layout where
  size := o + l.size
  align := max body.align l.align
  members := body.members ++ l.members.map (Member.shift o)
  ordered := by
    refine List.pairwise_append.mpr ⟨body.ordered, ?_, ?_⟩
    · refine List.pairwise_map.mpr (l.ordered.imp fun hab => ?_)
      rw [Member.stop_shift]
      exact Nat.add_le_add_left hab o
    · intro a ha b hb
      obtain ⟨c, -, rfl⟩ := List.mem_map.mp hb
      exact (body.bounded a ha).trans (ho.trans (Nat.le_add_right o c.offset))
  bounded := by
    refine List.forall_mem_append.mpr ⟨fun a ha => ?_, fun a ha => ?_⟩
    · exact (body.bounded a ha).trans (ho.trans (Nat.le_add_right o l.size))
    · obtain ⟨c, hc, rfl⟩ := List.mem_map.mp ha
      rw [Member.stop_shift]
      exact Nat.add_le_add_left (l.bounded c hc) o

/-- `n` elements, one right behind the other. -/
def array (l : Layout) : ℕ → Layout
  | 0 => { empty with align := l.align }
  | n + 1 => (array l n).place (array l n).size le_rfl l

/-- The next member of a struct, at a multiple of its alignment. -/
def append (body l : Layout) : Layout :=
  body.place (roundUp body.size l.align) (le_roundUp _ _) l

/-- The same with a larger size. -/
def pad (body : Layout) (size : ℕ) (h : body.size ≤ size) : Layout :=
  { body with size := size, bounded := fun a ha => (body.bounded a ha).trans h }

/-- The members one after the other, and padding behind them. -/
def struct (members : List Layout) : Layout :=
  let body := members.foldl append empty
  body.pad (roundUp body.size body.align) (le_roundUp _ _)

/-! ## Storing and reading -/

/-- A value for each member. -/
def Fits (l : Layout) (values : List ℤ) : Prop :=
  List.Forall₂ (fun a v => a.type.Has v) l.members values

/-- The members are written, and the other bytes stay what they are. -/
def store (l : Layout) (values : List ℤ) (fill : Bytes) : Bytes :=
  (l.members.zip values).foldl (fun image p => write p.1.offset (p.1.type.encode p.2) image) fill

/-- The values in an image, none where the bytes are no value. -/
def read (l : Layout) (image : Bytes) : List (Option ℤ) :=
  l.members.map fun a => a.type.decode (slice a.offset a.type.width image)

/-- A member ends behind its bytes. -/
theorem stop_eq (a : Member) (v : ℤ) : a.stop = a.offset + (a.type.encode v).length := by
  rw [Member.stop, Primitive.length_encode]

/-- What is written elsewhere is not in this window. -/
theorem slice_foldl_write {pairs : List (Member × ℤ)} {o n : ℕ} {image : Bytes}
    (hbounded : ∀ p ∈ pairs, p.1.stop ≤ image.length)
    (hdisjoint : ∀ p ∈ pairs, o + n ≤ p.1.offset ∨ p.1.stop ≤ o) :
    slice o n (pairs.foldl (fun image p => write p.1.offset (p.1.type.encode p.2) image) image) =
      slice o n image := by
  induction pairs generalizing image with
  | nil => rfl
  | cons p pairs ih =>
      obtain ⟨hp, hpairs⟩ := List.forall_mem_cons.mp hbounded
      obtain ⟨hdp, hdpairs⟩ := List.forall_mem_cons.mp hdisjoint
      rw [stop_eq p.1 p.2] at hp hdp
      rw [List.foldl_cons, ih ?_ hdpairs, slice_write_of_disjoint hp hdp]
      rwa [length_write hp]

/-- Every member is where it was written. -/
theorem slice_foldl_write_of_mem {pairs : List (Member × ℤ)} {image : Bytes}
    (hordered : pairs.Pairwise fun p q => p.1.stop ≤ q.1.offset)
    (hbounded : ∀ p ∈ pairs, p.1.stop ≤ image.length) {p : Member × ℤ} (hp : p ∈ pairs) :
    slice p.1.offset p.1.type.width
        (pairs.foldl (fun image p => write p.1.offset (p.1.type.encode p.2) image) image) =
      p.1.type.encode p.2 := by
  induction pairs generalizing image with
  | nil => cases hp
  | cons q pairs ih =>
      obtain ⟨hq, hpairs⟩ := List.forall_mem_cons.mp hbounded
      obtain ⟨hbehind, hordered⟩ := List.pairwise_cons.mp hordered
      rw [stop_eq q.1 q.2] at hq
      have hlength := length_write hq
      rw [List.foldl_cons]
      rcases List.mem_cons.mp hp with rfl | hmem
      -- the members behind it are written later
      · rw [slice_foldl_write (by rwa [hlength]) fun q hq => Or.inl (hbehind q hq)]
        have hself := slice_write_self hq
        rwa [Primitive.length_encode] at hself
      · exact ih hordered (by rwa [hlength]) hmem

section store

variable {l : Layout} {values : List ℤ} {fill : Bytes} (hfill : fill.length = l.size)

include hfill

/-- The members that are stored lie within the image. -/
theorem bounded_zip : ∀ p ∈ l.members.zip values, p.1.stop ≤ fill.length := by
  intro p hp
  rw [hfill]
  exact l.bounded p.1 (List.of_mem_zip hp).1

/-- A stored member. -/
theorem slice_store (hlength : l.members.length ≤ values.length) {a : Member} {v : ℤ}
    (h : (a, v) ∈ l.members.zip values) :
    slice a.offset a.type.width (l.store values fill) = a.type.encode v := by
  have hordered : (l.members.zip values).Pairwise fun p q => p.1.stop ≤ q.1.offset := by
    have hmapped : ((l.members.zip values).map Prod.fst).Pairwise fun a b => a.stop ≤ b.offset := by
      rw [List.map_fst_zip hlength]
      exact l.ordered
    exact List.pairwise_map.mp hmapped
  exact slice_foldl_write_of_mem hordered (bounded_zip hfill) h

/-- Padding. -/
theorem slice_store_of_disjoint {o n : ℕ}
    (h : ∀ a ∈ l.members, o + n ≤ a.offset ∨ a.stop ≤ o) :
    slice o n (l.store values fill) = slice o n fill :=
  slice_foldl_write (bounded_zip hfill) fun p hp => h p.1 (List.of_mem_zip hp).1

/-- **What is stored is read back**, whatever the padding is. -/
theorem read_store (hvalues : l.Fits values) : l.read (l.store values fill) = values.map some := by
  obtain ⟨hlength, hhas⟩ := List.forall₂_iff_zip.mp hvalues
  have hmembers : (l.members.zip values).map Prod.fst = l.members := List.map_fst_zip hlength.le
  have hsnd : (l.members.zip values).map Prod.snd = values := List.map_snd_zip hlength.ge
  conv_rhs => rw [← hsnd, List.map_map]
  rw [read]
  conv_lhs => rw [← hmembers, List.map_map]
  refine List.map_congr_left fun p hp => ?_
  show p.1.type.decode (slice p.1.offset p.1.type.width (l.store values fill)) = some p.2
  rw [slice_store hfill hlength.le hp, p.1.type.decode_encode (hhas hp)]

/-- A reader that differs in the last member alone depends on what it finds there. -/
theorem read_store_iff_of_last {r : Layout} {body : List Member} {a b : Member} {first : List ℤ}
    {v : ℤ} (hl : l.members = body ++ [a]) (hr : r.members = body ++ [b])
    (hvalues : l.Fits (first ++ [v])) :
    r.read (l.store (first ++ [v]) fill) = (first ++ [v]).map some ↔
      b.type.decode (slice b.offset b.type.width (l.store (first ++ [v]) fill)) = some v := by
  have hread := read_store hfill hvalues
  rw [read, hl, List.map_append, List.map_append] at hread
  obtain ⟨hbody, -⟩ := List.append_inj' hread rfl
  rw [read, hr, List.map_append, List.map_append, hbody, List.append_right_inj]
  exact List.singleton_inj

end store

end Layout

end StructLayout
