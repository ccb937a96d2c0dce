/-!
# Message types

A message is named by two bytes, its class and its id within the class.  The same pair stands in
the header of a frame, in the body of a reply, which names the command it answers, and in a rate
command, which names the message it switches.

## Main definitions

* `MessageType` — class and id.
* `MessageType.navPosLlh`, … — the types that the link reads or sends.
-/

namespace GnssLink

/-- The class and the id of a message. -/
structure MessageType where
  cls : UInt8
  id : UInt8
  deriving DecidableEq, Repr

namespace MessageType

/-! ### Navigation results -/

/-- The class of navigation results. -/
def navClass : UInt8 := 0x01

/-- Geodetic position. -/
def navPosLlh : MessageType := ⟨navClass, 0x02⟩

/-- Fix status. -/
def navStatus : MessageType := ⟨navClass, 0x03⟩

/-- Summary of the navigation solution. -/
def navSol : MessageType := ⟨navClass, 0x06⟩

/-- Position, velocity and time in one message. -/
def navPvt : MessageType := ⟨navClass, 0x07⟩

/-- Velocity in the local frame. -/
def navVelNed : MessageType := ⟨navClass, 0x12⟩

/-- Time of day and date. -/
def navTimeUtc : MessageType := ⟨navClass, 0x21⟩

/-- Space vehicles, as earlier hardware reports them. -/
def navSvInfo : MessageType := ⟨navClass, 0x30⟩

/-- Satellites, as later hardware reports them. -/
def navSat : MessageType := ⟨navClass, 0x35⟩

/-- Signals.  The receivers use the id of `navSat` for them. -/
def navSig : MessageType := ⟨navClass, 0x35⟩

/-! ### Replies -/

/-- A command was refused. -/
def ackNak : MessageType := ⟨0x05, 0x00⟩

/-- A command was accepted. -/
def ackAck : MessageType := ⟨0x05, 0x01⟩

/-! ### Configuration -/

/-- Output rate of a message. -/
def cfgMsg : MessageType := ⟨0x06, 0x01⟩

/-- Period of the measurements. -/
def cfgRate : MessageType := ⟨0x06, 0x08⟩

/-- Selection of the augmentation service. -/
def cfgSbas : MessageType := ⟨0x06, 0x16⟩

/-- Settings of the navigation engine. -/
def cfgNav5 : MessageType := ⟨0x06, 0x24⟩

/-- Selection of the satellite systems. -/
def cfgGnss : MessageType := ⟨0x06, 0x3E⟩

/-! ### Monitoring -/

/-- Versions of software and hardware. -/
def monVer : MessageType := ⟨0x0A, 0x04⟩

/-! ### Text sentences

Rate commands address the text sentences as messages of a class of their own. -/

/-- The text sentences of the receiver, in the order of their ids: GGA, GLL, GSA, GSV, RMC, VTG. -/
def nmeaSentences : List MessageType :=
  [0x00, 0x01, 0x02, 0x03, 0x04, 0x05].map fun id => ⟨0xF0, id⟩

end MessageType

end GnssLink
