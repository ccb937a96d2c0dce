import GnssLink.Bytes.Basic

/-!
# Reading fields out of a payload

A reader is a payload with a position in it.  Fields are whole bytes, little-endian, and are read
from the position on; a layout that is documented by offsets moves the position with `seek`.  A read
past the end fails, names the position, the number of bytes asked for and the number left, and
moves nothing.

## Main definitions

* `Reader` — a payload and a position inside it.
* `ReaderError` — the one way a read fails.
* `Read` — a computation that reads fields one after the other.
* `Read.seek`, `Read.take`, `Read.rest`, `Read.skip`, `Read.u8`, `Read.u16`, `Read.i16`,
  `Read.u32`, `Read.i32` — the steps of such a computation.

## Main results

* `Reader.position_add_remaining` — what was passed and what is left make up the payload.
-/

namespace GnssLink

/-- A payload and the position of the next byte to read. -/
structure Reader where
  bytes : Bytes
  position : Nat
  position_le : position ≤ bytes.length

/-- A read that leaves the payload: from `offset` on `asked` bytes were wanted, and `available`
were there. -/
inductive ReaderError where
  | outOfBounds (offset asked available : Nat)
  deriving DecidableEq, Repr

namespace ReaderError

/-- The diagnostic of a failed read. -/
def message : ReaderError → String
  | .outOfBounds offset asked available =>
    "Attempted to read out of bounds -> offset: " ++ toString offset ++ ", asked: "
      ++ toString asked ++ ", available: " ++ toString available

end ReaderError

namespace Reader

/-- A reader at the start of a payload. -/
def ofBytes (bytes : Bytes) : Reader :=
  ⟨bytes, 0, Nat.zero_le _⟩

/-- The number of bytes not read yet. -/
def remaining (r : Reader) : Nat :=
  r.bytes.length - r.position

theorem position_add_remaining (r : Reader) : r.position + r.remaining = r.bytes.length :=
  Nat.add_sub_cancel' r.position_le

end Reader

/-- A computation that reads fields and may fail.  After a failure the reader stands where the
failed step found it. -/
abbrev Read := StateT Reader (Except ReaderError)

namespace Read

/-- Move to an absolute offset, at most the length of the payload. -/
def seek (offset : Nat) : Read Unit := fun r =>
  if h : offset ≤ r.bytes.length then
    .ok ((), { r with position := offset, position_le := h })
  else
    .error (.outOfBounds offset 0 r.bytes.length)

/-- Read the next `count` bytes and pass them. -/
def take (count : Nat) : Read Bytes := fun r =>
  if h : r.position + count ≤ r.bytes.length then
    .ok ((r.bytes.drop r.position).take count,
      { r with position := r.position + count, position_le := h })
  else
    .error (.outOfBounds r.position count r.remaining)

/-- Read all bytes that are left. -/
def rest : Read Bytes := fun r =>
  take r.remaining r

/-- Pass `count` reserved bytes. -/
def skip (count : Nat) : Read Unit := do
  discard (take count)

/-- The number in the next `width` bytes. -/
def word (width : Nat) : Read Nat := do
  return LittleEndian.decode (← take width)

/-- The next byte. -/
def u8 : Read UInt8 := do
  return UInt8.ofNat (← word 1)

/-- The next two bytes, as an unsigned number. -/
def u16 : Read UInt16 := do
  return UInt16.ofNat (← word 2)

/-- The next two bytes, in two's complement. -/
def i16 : Read Int16 := do
  return (← u16).toInt16

/-- The next four bytes, as an unsigned number. -/
def u32 : Read UInt32 := do
  return UInt32.ofNat (← word 4)

/-- The next four bytes, in two's complement. -/
def i32 : Read Int32 := do
  return (← u32).toInt32

end Read

end GnssLink
