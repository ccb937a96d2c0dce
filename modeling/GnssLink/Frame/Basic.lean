import GnssLink.Bytes.Basic
import GnssLink.Frame.Checksum
import GnssLink.Message.Type
import GnssLink.Text.Hexadecimal

/-!
# Frames

A frame carries one message.  On the wire it is two synchronisation bytes, a header of class, id
and the length of the payload, the payload, and the checksum of everything from the class to the
last byte of the payload.

## Main definitions

* `Frame` — a message type and a payload.
* `Frame.body`, `Frame.wire` — the part under the checksum, and the whole frame.
* `Frame.wireLength` — the length of a frame.
* `FrameError` — the ways in which a received frame is broken.

## Main results

* `Frame.length_wire`, `Frame.wireLength_eq` — a frame is eight bytes longer than its payload.
-/

namespace GnssLink

/-- A message type and the payload that belongs to it. -/
structure Frame where
  type : MessageType
  payload : Bytes
  deriving DecidableEq, Repr

namespace Frame

/-- The first synchronisation byte. -/
def sync1 : UInt8 := 0xB5

/-- The second synchronisation byte. -/
def sync2 : UInt8 := 0x62

/-- Two synchronisation bytes, class, id and the two bytes of the length. -/
def headerLength : Nat := 6

/-- The two sums of the checksum. -/
def checksumLength : Nat := 2

/-- The length of a frame around a payload of `n` bytes. -/
def wireLength (n : Nat) : Nat :=
  headerLength + n + checksumLength

/-- The longest payload that is received. -/
def maxPayload : Nat := 256

/-- Class, id, length and payload: the part of a frame that the checksum covers. -/
def body (f : Frame) : Bytes :=
  f.type.cls :: f.type.id :: (LittleEndian.encode 2 f.payload.length ++ f.payload)

/-- A frame as it is transmitted. -/
def wire (f : Frame) : Bytes :=
  sync1 :: sync2 :: (f.body ++ (Checksum.ofBytes f.body).toBytes)

/-- Header and checksum are eight bytes together. -/
theorem wireLength_eq (n : Nat) : wireLength n = 8 + n := by
  simp only [wireLength, headerLength, checksumLength]
  omega

theorem length_wire (f : Frame) : f.wire.length = wireLength f.payload.length := by
  simp only [wire, body, Checksum.toBytes, List.length_cons, List.length_append, List.length_nil,
    LittleEndian.length_encode, wireLength_eq]
  omega

end Frame

/-- The ways in which a received frame is broken.  A checksum mismatch names the sum that was
computed and the one that was received. -/
inductive FrameError where
  | oversizedPayload (declared : UInt16) (capacity : Nat)
  | checksumA (expected received : UInt8)
  | checksumB (expected received : UInt8)
  deriving DecidableEq, Repr

namespace FrameError

/-- The diagnostic of a broken frame. -/
def message : FrameError → String
  | .oversizedPayload declared capacity =>
    "Declared payload length " ++ toString declared ++ " exceeds capacity " ++ toString capacity
  | .checksumA expected received =>
    "Checksum A mismatch: expected " ++ Hexadecimal.literal expected ++ ", received "
      ++ Hexadecimal.literal received
  | .checksumB expected received =>
    "Checksum B mismatch: expected " ++ Hexadecimal.literal expected ++ ", received "
      ++ Hexadecimal.literal received

end FrameError

end GnssLink
