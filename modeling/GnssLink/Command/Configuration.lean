import GnssLink.Command.Basic
import GnssLink.Settings.Engine

/-!
# Configuration commands

The commands that configure the receiver.  Each is a record of its parameters, and `toCommand`
gives its message type and its fields in order; reserved fields are zero.

## Main definitions

* `NavigationEngine` — platform model and kind of fix.
* `MessageRate` — how often a message is output.
* `MeasurementRate` — the period of the measurements.
* `Augmentation` — the augmentation service.
* `GnssBlock`, `SystemSelection` — the satellite systems, at most `maxGnssBlocks` of them.
* `transmitCapacity` — the buffer that every command of this file fits into.

## Main results

* `SystemSelection.push_of_lt`, `SystemSelection.push_of_le` — a selection takes up blocks until it
  is full.
-/

namespace GnssLink

/-! ### Navigation engine -/

/-- The platform model and the kind of fix of the navigation engine. -/
structure NavigationEngine where
  dynamicModel : DynamicModel
  fixMode : FixMode
  deriving DecidableEq, Repr

namespace NavigationEngine

/-- The factory settings of the engine.  Bytes 2 and 3 are the codes of the platform model and of
the kind of fix. -/
def factory : Bytes :=
  [0xFF, 0xFF, 0x03, 0x03, 0x00, 0x00, 0x00, 0x00, 0x10, 0x27, 0x00, 0x00,
   0x05, 0x00, 0xFA, 0x00, 0xFA, 0x00, 0x64, 0x00, 0x2C, 0x01, 0x00, 0x3C,
   0x00, 0x00, 0x00, 0x00, 0xC8, 0x00, 0x00, 0x00, 0x00, 0x00, 0x00, 0x00]

/-- The factory settings with the two codes in their places. -/
def payload (e : NavigationEngine) : Bytes :=
  (factory.set 2 e.dynamicModel.code).set 3 e.fixMode.code

/-- The payload is one field. -/
def toCommand (e : NavigationEngine) : Command :=
  .ofFields .cfgNav5 [e.payload]

end NavigationEngine

/-! ### Rates -/

/-- The output rate of a message: the number of solutions from one output to the next.  At rate 0
the message is no longer output by itself. -/
structure MessageRate where
  target : MessageType
  rate : UInt8
  deriving DecidableEq, Repr

/-- Class and id of the message, and the rate. -/
def MessageRate.toCommand (m : MessageRate) : Command :=
  .ofFields .cfgMsg [[m.target.cls], [m.target.id], [m.rate]]

/-- The period of the measurements in milliseconds, the number of measurements for one solution and
the code of the time scale. -/
structure MeasurementRate where
  period : UInt16
  perSolution : UInt16
  timeReference : UInt16
  deriving DecidableEq, Repr

namespace MeasurementRate

/-- One solution for each measurement, on the time scale of the satellite system. -/
def ofPeriod (period : UInt16) : MeasurementRate :=
  ⟨period, 1, 1⟩

/-- Three half words. -/
def toCommand (m : MeasurementRate) : Command :=
  .ofFields .cfgRate
    [LittleEndian.ofUInt16 m.period, LittleEndian.ofUInt16 m.perSolution,
      LittleEndian.ofUInt16 m.timeReference]

end MeasurementRate

/-! ### Augmentation -/

/-- The selection of the augmentation service. -/
structure Augmentation where
  mode : SbasMode
  deriving DecidableEq, Repr

/-- Whether the service is used (3) or not (2), its use for ranging, corrections and integrity (3),
the number of channels (3), a second mask that is empty, and the mask of the satellites. -/
def Augmentation.toCommand (a : Augmentation) : Command :=
  .ofFields .cfgSbas
    [[if a.mode.isEnabled then 3 else 2], [3], [3], [0], LittleEndian.ofUInt32 a.mode.scanMask]

/-! ### Satellite systems -/

/-- The use of one satellite system: the channels reserved for it, the most it may have, whether it
is enabled, and the mask of its signals. -/
structure GnssBlock where
  system : UInt8
  reservedChannels : UInt8
  maxChannels : UInt8
  enabled : Bool
  signalMask : UInt8
  deriving DecidableEq, Repr

namespace GnssBlock

/-- The augmentation system, enabled unless the service is `SbasMode.none`. -/
def sbas (mode : SbasMode) : GnssBlock where
  system := 1
  reservedChannels := if mode.isEnabled then 1 else 0
  maxChannels := 3
  enabled := mode.isEnabled
  signalMask := 1

/-- The Galileo system. -/
def galileo (enabled : Bool) : GnssBlock where
  system := 2
  reservedChannels := if enabled then 4 else 0
  maxChannels := 8
  enabled := enabled
  signalMask := 1

/-- The eight fields of a block, one byte each. -/
def fields (b : GnssBlock) : List Bytes :=
  [[b.system], [b.reservedChannels], [b.maxChannels], [0], [if b.enabled then 1 else 0], [0],
    [b.signalMask], [0]]

end GnssBlock

/-- The most systems that one command selects. -/
def maxGnssBlocks : Nat := 7

/-- A selection of satellite systems, in the order in which they were added. -/
structure SystemSelection where
  blocks : List GnssBlock
  length_le : blocks.length ≤ maxGnssBlocks

namespace SystemSelection

/-- Nothing selected. -/
def empty : SystemSelection :=
  ⟨[], Nat.zero_le _⟩

/-- A selection that is not full has room for one more. -/
theorem length_append_le (s : SystemSelection) (b : GnssBlock)
    (h : s.blocks.length < maxGnssBlocks) : (s.blocks ++ [b]).length ≤ maxGnssBlocks := by
  rw [List.length_append]
  exact h

/-- Add a system.  A full selection refuses it and names the number it would have reached. -/
def push (s : SystemSelection) (b : GnssBlock) : Except SerializationError SystemSelection :=
  if h : s.blocks.length < maxGnssBlocks then
    .ok ⟨s.blocks ++ [b], s.length_append_le b h⟩
  else
    .error (.tooManyGnssBlocks (s.blocks.length + 1))

/-- The number of tracking channels to use. -/
def usedChannels : UInt8 := 32

/-- A header of four bytes (two reserved ones, the number of channels, the number of blocks), and
the blocks. -/
def toCommand (s : SystemSelection) : Command :=
  .ofFields .cfgGnss
    ([[0], [0], [usedChannels], [UInt8.ofNat s.blocks.length]] ++ s.blocks.flatMap GnssBlock.fields)

theorem push_of_lt (s : SystemSelection) (b : GnssBlock) (h : s.blocks.length < maxGnssBlocks) :
    s.push b = .ok ⟨s.blocks ++ [b], s.length_append_le b h⟩ :=
  dif_pos h

theorem push_of_le (s : SystemSelection) (b : GnssBlock) (h : maxGnssBlocks ≤ s.blocks.length) :
    s.push b = .error (.tooManyGnssBlocks (s.blocks.length + 1)) := by
  simp [push, Nat.not_lt.2 h]

end SystemSelection

/-! ### Version request -/

/-- The request for a version report has no payload and leaves the area alone. -/
def versionRequest : Command :=
  .ofFields .monVer []

/-! ### The transmit buffer -/

/-- The longest payload of a command: a full selection of satellite systems. -/
def maxCommandPayload : Nat := 4 + 8 * maxGnssBlocks

/-- The length of the buffer in which commands are framed. -/
def transmitCapacity : Nat := Frame.wireLength maxCommandPayload

end GnssLink
