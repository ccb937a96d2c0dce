import GnssLink.Command.Configuration
import GnssLink.Negotiation.Error
import GnssLink.Negotiation.Reply
import GnssLink.Serial.Line

/-!
# Sending a command

A command is framed in a buffer of fixed length and written in one piece.  From then on its reply is
waited for, also if the write failed.  A command that does not fit the buffer reaches neither the
line nor the tracker.

## Main definitions

* `Command.send` — frame a command, write it, and wait for its reply.
-/

namespace GnssLink

variable {σ ε : Type} [SerialLine σ ε]

/-- Frame a command, write the frame, and begin to wait for the reply. -/
def Command.send (c : Command) (tracker : ReplyTracker) (line : σ) :
    Except (SendError ε) Unit × ReplyTracker × σ :=
  match c.encode (List.replicate transmitCapacity 0) with
  | .error e => (.error (.serialization e), tracker, line)
  | .ok (n, buffer) =>
    let (result, line) := SerialLine.write line (buffer.take n)
    (result.mapError .send, tracker.begin c.type.id, line)

end GnssLink
