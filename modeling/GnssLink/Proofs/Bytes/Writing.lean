import GnssLink.Bytes.Writer

/-!
# Sequences of writes

A payload is written by calls on a writer, one for each field: a byte, a word of two or four bytes,
a byte string, or some zero bytes.  Each call writes its bytes as one field, so a sequence of calls
that stops at the first failure writes a list of fields.

## Main definitions

* `Writer.Step` — one call on a writer, with the bytes that it writes.
* `Writer.performAll` — calls in order, up to the first one that fails.

## Main results

* `Writer.Step.perform_eq` — a call writes its bytes as one field.
* `Writer.performAll_eq` — a sequence of calls writes a list of fields.
-/

namespace GnssLink

namespace Writer

/-- One call on a writer. -/
inductive Step where
  | u8 (value : UInt8)
  | u16 (value : UInt16)
  | u32 (value : UInt32)
  | slice (field : Bytes)
  | zeros (count : Nat)

namespace Step

/-- The bytes that a call writes. -/
def bytes : Step → Bytes
  | u8 value => [value]
  | u16 value => LittleEndian.ofUInt16 value
  | u32 value => LittleEndian.ofUInt32 value
  | slice field => field
  | zeros count => List.replicate count 0

/-- The call itself. -/
def perform (w : Writer) : Step → Except WriterError Writer
  | u8 value => w.write [value]
  | u16 value => w.write (LittleEndian.ofUInt16 value)
  | u32 value => w.write (LittleEndian.ofUInt32 value)
  | slice field => w.write field
  | zeros count => w.zeros count

/-- A call writes its bytes as one field. -/
theorem perform_eq (w : Writer) (s : Step) : s.perform w = w.write s.bytes := by
  cases s with
  | zeros count =>
    by_cases h : count ≤ w.available
    · exact if_pos h
    · have hlong : ¬ w.position + (List.replicate count (0 : UInt8)).length ≤ w.area.length := by
        have hposition := w.position_le
        rw [available] at h
        rw [List.length_replicate]
        omega
      rw [perform, Writer.zeros, if_neg h, bytes, write, if_neg hlong, List.length_replicate]
  | _ => rfl

end Step

/-- Calls in order, up to the first one that fails. -/
def performAll (w : Writer) (steps : List Step) : Except WriterError Writer :=
  steps.foldlM Step.perform w

/-- A sequence of calls writes a list of fields. -/
theorem performAll_eq (w : Writer) (steps : List Step) :
    w.performAll steps = w.writeAll (steps.map Step.bytes) := by
  have hperform : Step.perform = fun w s => write w s.bytes :=
    funext fun w => funext fun s => Step.perform_eq w s
  rw [performAll, writeAll, List.foldlM_map, hperform]

end Writer

end GnssLink
