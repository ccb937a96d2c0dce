import GnssLink.Command.Basic

/-!
# Failures of the negotiation

A negotiation fails because a command cannot be laid out, because the line fails, or because the
receiver refuses a command that it must accept.  `ε` is the type of failures of the line.

## Main definitions

* `SendError` — failures of sending one command.
* `NegotiationError` — failures of the negotiation.
* `Progress` — what an attempt that did not fail came to.
-/

namespace GnssLink

/-- What an attempt came to that did not fail: it has to be made again later, or it is finished. -/
inductive Progress where
  | pending
  | ready
  deriving DecidableEq, Repr

/-- Failures of sending one command. -/
inductive SendError (ε : Type) where
  | serialization (e : SerializationError)
  | send (e : ε)
  deriving DecidableEq, Repr

/-- Failures of the negotiation. -/
inductive NegotiationError (ε : Type) where
  | serial (e : ε)
  | rejected (command : MessageType)
  | send (e : SendError ε)
  deriving DecidableEq, Repr

variable {ε : Type} [ToString ε]

/-- The diagnostic of a command that was not sent. -/
def SendError.message : SendError ε → String
  | .serialization e => "Serialization failed: " ++ e.message
  | .send e => "Serial write error: " ++ toString e

/-- The diagnostic of a negotiation that failed. -/
def NegotiationError.message : NegotiationError ε → String
  | .serial e => "Serial transport error: " ++ toString e
  | .rejected command =>
    "Command " ++ Hexadecimal.literal command.cls ++ "/" ++ Hexadecimal.literal command.id
      ++ " rejected by the module"
  | .send e => e.message

end GnssLink
