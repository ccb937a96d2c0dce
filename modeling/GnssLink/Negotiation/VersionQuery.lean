import GnssLink.Negotiation.Capabilities
import GnssLink.Negotiation.Send
import GnssLink.Time

/-!
# Asking for the version

The receiver is asked for its version until its generation is known, at most
`Timing.versionAttempts` times, with a wait after each request.  A receiver that never answers is no
failure: it is configured as an unknown one.

## Main definitions

* `VersionQuery` — the requests so far and the instant of the last one.
* `VersionQuery.poll` — go on as far as possible.
-/

namespace GnssLink

/-- The number of requests so far, and the instant of the last one if it is still waited for. -/
structure VersionQuery where
  attempts : UInt8
  sentAt : Option Instant
  deriving DecidableEq, Repr

namespace VersionQuery

/-- A query that has not begun. -/
def start : VersionQuery :=
  ⟨0, none⟩

variable {σ ε : Type} [SerialLine σ ε]

/-- Send a request.  If the generation is known already, that is enough. -/
def request (q : VersionQuery) (now : Instant) (known : Capabilities) (tracker : ReplyTracker)
    (line : σ) : Except (NegotiationError ε) Progress × VersionQuery × ReplyTracker × σ :=
  match versionRequest.send tracker line with
  | (.error e, tracker, line) => (.error (.send e), { q with sentAt := none }, tracker, line)
  | (.ok _, tracker, line) =>
    (.ok (if known.generation = .unknown then .pending else .ready),
      ⟨q.attempts + 1, some now⟩, tracker, line)

/-- Go on as far as the reports and the clock allow.  One call sends at most one request. -/
def poll (q : VersionQuery) (now : Instant) (known : Capabilities) (tracker : ReplyTracker)
    (line : σ) : Except (NegotiationError ε) Progress × VersionQuery × ReplyTracker × σ :=
  match q.sentAt with
  | none => q.request now known tracker line
  | some sentAt =>
    if known.generation ≠ .unknown then
      (.ok .ready, q, tracker, line)
    else if now.since sentAt < Timing.commandWait.toMicros then
      (.ok .pending, q, tracker, line)
    else if Timing.versionAttempts ≤ q.attempts then
      (.ok .ready, q, tracker, line)
    else
      q.request now known tracker line

end VersionQuery

end GnssLink
