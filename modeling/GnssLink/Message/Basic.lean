import GnssLink.Message.Navigation
import GnssLink.Message.Version

/-!
# Received messages

A received message is a report, a reply to a command, or a message that the link has no use for.
Which layout reads a payload is looked up by its message type.

## Main definitions

* `Message` — what a payload says.
* `Reply` — the command that was accepted or refused.
* `Message.layouts` — the layouts of all messages that are read.
* `Message.parse` — read a payload by its type.
-/

namespace GnssLink

/-- The answer to a command names the type of the command. -/
structure Reply where
  command : MessageType
  deriving DecidableEq, Repr

namespace Reply

/-- The two bytes of the command that is answered. -/
def read : Read Reply := do
  let cls ← Read.u8
  let id ← Read.u8
  return ⟨⟨cls, id⟩⟩

/-- The layout of a positive answer. -/
def acceptedLayout : Layout Reply :=
  ⟨.ackAck, 2, read⟩

/-- The layout of a negative answer. -/
def refusedLayout : Layout Reply :=
  ⟨.ackNak, 2, read⟩

end Reply

/-- What a payload says. -/
inductive Message where
  | position (r : PositionReport)
  | fix (r : FixReport)
  | summary (r : SummaryReport)
  | velocity (r : VelocityReport)
  | time (r : TimeReport)
  | pvt (r : PvtReport)
  | version (r : VersionReport)
  | accepted (r : Reply)
  | refused (r : Reply)
  | other (type : MessageType)
  deriving DecidableEq, Repr

namespace Message

/-- The layouts of all messages that are read.  No two of them are of one type. -/
def layouts : List (Layout Message) :=
  [PositionReport.layout.map position,
   FixReport.layout.map fix,
   SummaryReport.layout.map summary,
   VelocityReport.layout.map velocity,
   TimeReport.layout.map time,
   PvtReport.layout.map pvt,
   VersionReport.layout.map version,
   Reply.acceptedLayout.map accepted,
   Reply.refusedLayout.map refused]

/-- Read a payload by the layout of its type.  A type without a layout is of no further use. -/
def parse (type : MessageType) (payload : Bytes) : Except PayloadError Message :=
  match layouts.find? (·.type = type) with
  | some l => l.decode payload
  | none => .ok (.other type)

end Message

end GnssLink
