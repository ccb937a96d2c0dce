import GnssLink.Bytes.Writer
import GnssLink.Frame.Basic

/-!
# Commands and their frames

A command is a message type and a way to lay its payload into an area.  A command that is a
sequence of fields writes them in order and reports how many bytes it wrote; a command may also lay
out its payload by any other rule that keeps the length of the area.

A frame is made inside one buffer: the payload is laid out behind the room for the header, and the
header and the checksum are put around it afterwards.  Bytes of the buffer behind the frame keep
what they held before.

## Main definitions

* `Command`, `Command.ofFields` — a message type with a layout, and the layout of a list of fields.
* `SerializationError` — the ways in which a command cannot be laid out.
* `Frame.encode` — a frame around a given payload.
* `Command.encode` — a frame around the payload that a command lays out.
-/

namespace GnssLink

/-- The ways in which a command cannot be laid out. -/
inductive SerializationError where
  | bufferTooSmall
  | tooManyGnssBlocks (count : Nat)
  | writer (e : WriterError)
  deriving DecidableEq, Repr

namespace SerializationError

/-- The diagnostic of a command that cannot be laid out. -/
def message : SerializationError → String
  | .bufferTooSmall => "Buffer too small"
  | .tooManyGnssBlocks count => "Too many GNSS blocks: " ++ toString count
  | .writer e => "ByteWriter error: " ++ e.message

end SerializationError

/-! ### Frames in a buffer -/

namespace Frame

/-- Put header and checksum around a payload of `n` bytes that stands in the buffer behind the room
for the header.  The answer is the length of the frame and the buffer. -/
def finish (type : MessageType) (n : Nat) (buffer : Bytes) :
    Except SerializationError (Nat × Bytes) :=
  if n < UInt16.size ∧ wireLength n ≤ buffer.length then
    let payload := (buffer.drop headerLength).take n
    .ok (wireLength n, (Frame.mk type payload).wire ++ buffer.drop (wireLength n))
  else
    .error .bufferTooSmall

/-- Lay a frame at the start of a buffer. -/
def encode (f : Frame) (buffer : Bytes) : Except SerializationError (Nat × Bytes) :=
  let n := f.payload.length
  if wireLength n ≤ buffer.length then
    finish f.type n
      (buffer.take headerLength ++ f.payload ++ buffer.drop (headerLength + n))
  else
    .error .bufferTooSmall

end Frame

/-! ### Commands -/

/-- A message type and a way to lay out a payload.  The layout is given an area and answers the
length of the payload, which starts the area, and the area as it is then; it cannot change the
length of the area. -/
structure Command where
  type : MessageType
  layOut : Bytes → Except SerializationError (Nat × Bytes)
  length_layOut : ∀ {area area' : Bytes} {n : Nat},
    layOut area = .ok (n, area') → area'.length = area.length

namespace Command

/-- The command whose payload is a list of fields, written in order. -/
def ofFields (type : MessageType) (fields : List Bytes) : Command where
  type := type
  layOut area :=
    match (Writer.ofArea area).writeAll fields with
    | .ok w => .ok (w.position, w.area)
    | .error e => .error (.writer e)
  length_layOut := by
    intro area area' n h
    split at h
    · next w hw =>
      cases h
      exact Writer.length_writeAll hw
    · simp at h

/-- Lay the frame of a command at the start of a buffer.  A buffer that has no room for a frame
without payload is refused before the payload is laid out. -/
def encode (c : Command) (buffer : Bytes) : Except SerializationError (Nat × Bytes) :=
  if buffer.length < Frame.wireLength 0 then
    .error .bufferTooSmall
  else
    let room := buffer.length - Frame.wireLength 0
    match c.layOut ((buffer.drop Frame.headerLength).take room) with
    | .error e => .error e
    | .ok (n, area) =>
      Frame.finish c.type n
        (buffer.take Frame.headerLength ++ area ++ buffer.drop (Frame.headerLength + room))

end Command

end GnssLink
