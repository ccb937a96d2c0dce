import GnssLink.Link.Session

/-!
# The link

The link owns the line and lives through any number of sessions.  A tick runs the two tasks of the
session, first the receiving and then the protocol task.  If one of them fails, the session is
replaced by a new one and the tick reports that the communication was lost; the last solution and
the counters stay.

## Main definitions

* `LinkStatus` — what a tick reports.
* `Link`, `Link.start` — the link.
* `Link.poll` — one tick.
* `Link.stats` — the counters over all sessions.
-/

namespace GnssLink

/-- What a tick reports: the negotiation goes on, solutions are taken, or the session was
replaced. -/
inductive LinkStatus where
  | negotiating
  | running
  | communicationLost
  deriving DecidableEq, Repr

/-- Counters modulo 2³² over all sessions: frames, broken frames, published solutions, and replaced
sessions. -/
structure LinkStats where
  packets : UInt32
  errors : UInt32
  epochs : UInt32
  restarts : UInt32
  deriving DecidableEq, Repr

/-- A line, the settings, the present session, the last published solution, and the counters.  The
frames of the present session are counted by its decoder and are not in `counters` yet. -/
structure Link (σ : Type) where
  line : σ
  settings : Settings
  session : Session
  solution : Option Solution
  counters : LinkStats

namespace Link

variable {σ ε : Type}

/-- A link that has not begun.  Nothing is sent, and no ceiling runs, before the first tick. -/
def start (line : σ) (settings : Settings) : Link σ where
  line := line
  settings := settings
  session := .start settings
  solution := none
  counters := ⟨0, 0, 0, 0⟩

/-- The counters over all sessions, the present one included. -/
def stats (l : Link σ) : LinkStats :=
  { l.counters with
    packets := l.counters.packets + l.session.decoder.stats.packets
    errors := l.counters.errors + l.session.decoder.stats.errors }

/-- Replace the session by a new one, and keep its counters. -/
def restart (l : Link σ) : Link σ :=
  { l with
    session := .start l.settings
    counters := { l.stats with restarts := l.counters.restarts + 1 } }

/-- Publish a solution, if there is one. -/
def publish (l : Link σ) : Option Solution → Link σ
  | none => l
  | some solution =>
    { l with solution := some solution, counters.epochs := l.counters.epochs + 1 }

/-- The status of a link whose tick did not fail. -/
def status (l : Link σ) : LinkStatus :=
  match l.session.phase with
  | .running => .running
  | _ => .negotiating

variable [SerialLine σ ε]

/-- Run both tasks.  The protocol task runs only if the receiving task did not fail. -/
def tick (l : Link σ) (now : Instant) : Except (LinkError ε) (Option Solution) × Link σ :=
  match l.session.receive l.line with
  | (.error e, session, line) => (.error e, { l with session := session, line := line })
  | (.ok _, session, line) =>
    let (result, session, line) := session.runProtocol l.settings now line
    (result, { l with session := session, line := line })

/-- One tick. -/
def poll (l : Link σ) (now : Instant) : LinkStatus × Link σ :=
  match l.tick now with
  | (.error _, l) => (.communicationLost, l.restart)
  | (.ok published, l) =>
    let l := l.publish published
    (l.status, l)

end Link

end GnssLink
