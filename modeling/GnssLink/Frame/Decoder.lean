import GnssLink.Bytes.Store
import GnssLink.Frame.Basic

/-!
# Recognising frames in a byte stream

The decoder takes one byte at a time and never goes back.  It searches for the two synchronisation
bytes, takes the header, collects as many payload bytes as the header declares and compares the two
bytes behind them with the checksum.  A declared length above `Frame.maxPayload` and a checksum byte
that differs are counted, and the search starts again at the next byte.  A byte that follows the
first synchronisation byte and is not the second is dropped together with it; it is not tried as a
first synchronisation byte of its own.

The state is one flat record: the fields of an abandoned frame stay where they are until the next
frame overwrites them.

## Main definitions

* `DecodeStep` — the position inside a frame.
* `Decoder` — the step, the fields of the frame so far, and the counters.
* `Outcome` — what one byte brought about.
* `Decoder.feed` — take one byte.
* `Decoder.feedAll` — the outcomes of a byte string, one for each byte.
-/

namespace GnssLink

/-- The part of a frame that the next byte belongs to. -/
inductive DecodeStep where
  | sync1
  | sync2
  | cls
  | id
  | lengthLow
  | lengthHigh
  | payload
  | checksumA
  | checksumB
  deriving DecidableEq, Repr

/-- What one byte brought about: nothing yet, a verified frame, a verified frame that is passed
over, or a broken frame. -/
inductive Outcome where
  | pending
  | frame (f : Frame)
  | skipped
  | rejected (e : FrameError)
  deriving DecidableEq, Repr

/-- Counters modulo 2³²: the frames whose checksum was right, and the broken ones. -/
structure DecoderStats where
  packets : UInt32
  errors : UInt32
  deriving DecidableEq, Repr

/-- The state of the recognition.  `declared` is the length in the header and `consumed` the number
of payload bytes taken; `skip` marks a frame that is counted and passed over. -/
structure Decoder where
  step : DecodeStep
  type : MessageType
  declared : UInt16
  consumed : UInt16
  payload : Store Frame.maxPayload
  checksum : Checksum
  skip : Bool
  stats : DecoderStats

namespace Decoder

/-- A decoder that searches for its first frame. -/
def initial : Decoder where
  step := .sync1
  type := ⟨0, 0⟩
  declared := 0
  consumed := 0
  payload := Store.empty
  checksum := Checksum.zero
  skip := false
  stats := ⟨0, 0⟩

/-- Count a broken frame and start the search again. -/
def reject (d : Decoder) (e : FrameError) : Outcome × Decoder :=
  (.rejected e, { d with step := .sync1, stats.errors := d.stats.errors + 1 })

/-- Begin the payload, or the checksum if the payload is empty. -/
def beginPayload (d : Decoder) : Decoder :=
  { d with
    consumed := 0
    payload := d.payload.clear
    step := if d.declared = 0 then .checksumA else .payload }

/-- The frame that was collected. -/
def collected (d : Decoder) : Frame :=
  ⟨d.type, d.payload.toBytes⟩

/-- Take one byte. -/
def feed (d : Decoder) (byte : UInt8) : Outcome × Decoder :=
  match d.step with
  | .sync1 =>
    if byte = Frame.sync1 then (.pending, { d with skip := false, step := .sync2 })
    else (.pending, d)
  | .sync2 =>
    (.pending, { d with step := if byte = Frame.sync2 then .cls else .sync1 })
  | .cls =>
    (.pending, { d with type.cls := byte, checksum := Checksum.seeded byte, step := .id })
  | .id =>
    (.pending, { d with type.id := byte, checksum := d.checksum.push byte, step := .lengthLow })
  | .lengthLow =>
    (.pending,
      { d with
        declared := byte.toUInt16
        checksum := d.checksum.push byte
        step := .lengthHigh })
  | .lengthHigh =>
    let d := { d with
      declared := d.declared ||| (byte.toUInt16 <<< 8)
      checksum := d.checksum.push byte }
    if Frame.maxPayload < d.declared.toNat then
      d.reject (.oversizedPayload d.declared Frame.maxPayload)
    else (.pending, d.beginPayload)
  | .payload =>
    (.pending,
      { d with
        checksum := d.checksum.push byte
        payload := d.payload.store d.consumed.toNat byte
        step := if d.consumed = d.declared - 1 then .checksumA else .payload
        consumed := d.consumed + 1 })
  | .checksumA =>
    if byte = d.checksum.a then (.pending, { d with step := .checksumB })
    else { d with skip := true }.reject (.checksumA d.checksum.a byte)
  | .checksumB =>
    if byte = d.checksum.b then
      (if d.skip then .skipped else .frame d.collected,
        { d with step := .sync1, stats.packets := d.stats.packets + 1 })
    else d.reject (.checksumB d.checksum.b byte)

/-- The outcomes of a byte string, one for each byte, and the decoder after it. -/
def feedAll (d : Decoder) : Bytes → List Outcome × Decoder
  | [] => ([], d)
  | byte :: rest =>
    let (outcome, d) := d.feed byte
    let (outcomes, d) := d.feedAll rest
    (outcome :: outcomes, d)

end Decoder

end GnssLink
