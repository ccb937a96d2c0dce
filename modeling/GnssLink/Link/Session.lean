import GnssLink.Frame.Decoder
import GnssLink.Navigation.Assembler
import GnssLink.Negotiation.BaudAlignment
import GnssLink.Negotiation.PlanRun
import GnssLink.Negotiation.VersionQuery

/-!
# Sessions

A session is one life of the link, from the first byte to the first failure.  It has two tasks.  The
receiving task drains the line through the decoder and acts on every frame: version reports raise
the capabilities, replies go to the tracker, navigation reports to the assembler, and a completed
epoch waits in a slot for one solution, where a newer one takes its place.  The protocol task goes
through the phases of the negotiation and afterwards takes the solution out of the slot.

Every phase has a ceiling, which is checked at the end of each call of the protocol task.

## Main definitions

* `Phase` — the phases, each with its own state.
* `LinkError` — why a session ends.
* `Session`, `Session.start` — the state of both tasks.
* `Session.takeByte`, `Session.receive` — the receiving task.
* `Session.advance`, `Session.runProtocol` — the protocol task.
-/

namespace GnssLink

/-- The phases of the protocol task. -/
inductive Phase where
  | baud (a : BaudAlignment)
  | version (q : VersionQuery)
  | configuration (r : PlanRun)
  | running
  deriving DecidableEq, Repr

/-- Why a session ends. -/
inductive LinkError (ε : Type) where
  | receive (e : ε)
  | ceilingExceeded (limit : Milliseconds)
  | negotiation (e : NegotiationError ε)
  deriving DecidableEq, Repr

/-- The diagnostic of the end of a session. -/
def LinkError.message {ε : Type} [ToString ε] : LinkError ε → String
  | .receive e => "Serial read error: " ++ toString e
  | .ceilingExceeded limit => "Phase ceiling of " ++ toString limit ++ " ms exceeded"
  | .negotiation e => e.message

/-- The state of both tasks.  `epoch` is the slot for a solution that is complete and not yet
taken. -/
structure Session where
  decoder : Decoder
  assembler : Assembler
  tracker : ReplyTracker
  known : Capabilities
  phase : Phase
  ceiling : Ceiling
  epoch : Option Solution

namespace Session

/-- A session that has not begun.  Its ceiling starts with the first call of the protocol task. -/
def start (settings : Settings) : Session where
  decoder := .initial
  assembler := .initial
  tracker := .initial
  known := .initial
  phase := .baud (.start settings.baudRate settings.autoBaud)
  ceiling := Ceiling.off.defer
    (if settings.autoBaud then Timing.autoBaudCeiling else Timing.phaseCeiling)
  epoch := none

/-! ### The receiving task -/

/-- Act on a message.  The assembler sees every message. -/
def dispatch (s : Session) (m : Message) : Session :=
  let s := match m with
    | .version report => { s with known := s.known.learn report }
    | .accepted reply => { s with tracker := s.tracker.accept reply }
    | .refused reply => { s with tracker := s.tracker.refuse reply }
    | _ => s
  let (complete, assembler) := s.assembler.apply m
  { s with assembler := assembler, epoch := complete.or s.epoch }

/-- Act on a frame.  A frame that cannot be read is ignored. -/
def takeFrame (s : Session) (f : Frame) : Session :=
  match Message.parse f.type f.payload with
  | .ok m => s.dispatch m
  | .error _ => s

/-- Take one received byte, and act on the frame that it completes. -/
def takeByte (s : Session) (byte : UInt8) : Session :=
  let (outcome, decoder) := s.decoder.feed byte
  let s := { s with decoder := decoder }
  match outcome with
  | .frame f => s.takeFrame f
  | .pending | .skipped | .rejected _ => s

variable {σ ε : Type} [SerialLine σ ε]

/-- Take all bytes that are waiting, up to a failure of the line. -/
def receive (s : Session) (line : σ) : Except (LinkError ε) Unit × Session × σ :=
  let (result, s, line) := SerialLine.drain takeByte s line
  (result.mapError .receive, s, line)

/-! ### The protocol task -/

/-- Begin a phase.  A configuration arms its own ceilings, group by group; every other phase has the
phase ceiling from now on.  Solutions that were completed before do not count. -/
def enter (s : Session) (phase : Phase) (now : Instant) : Session :=
  { s with
    phase := phase
    ceiling := match phase with
      | .configuration _ => s.ceiling
      | _ => s.ceiling.arm now Timing.phaseCeiling
    epoch := none }

/-- While running: take the completed solution, and give the next one the whole phase ceiling. -/
def consume (s : Session) (now : Instant) : Option Solution × Session :=
  match s.epoch with
  | none => (none, s)
  | some solution =>
    (some solution,
      { s with epoch := none, ceiling := s.ceiling.arm now Timing.phaseCeiling })

/-- Go on with the configuration, and behind it with running. -/
def configure (s : Session) (run : PlanRun) (now : Instant) (line : σ) :
    Except (LinkError ε) (Option Solution) × Session × σ :=
  let (result, run, tracker, ceiling, line) := run.poll now s.tracker s.ceiling line
  let s := { s with phase := .configuration run, tracker := tracker, ceiling := ceiling }
  match result with
  | .error e => (.error (.negotiation e), s, line)
  | .ok .pending => (.ok none, s, line)
  | .ok .ready =>
    let (solution, s) := (s.enter .running now).consume now
    (.ok solution, s, line)

/-- Go on with the version query, and behind it with the configuration. -/
def askVersion (s : Session) (settings : Settings) (query : VersionQuery) (now : Instant)
    (line : σ) : Except (LinkError ε) (Option Solution) × Session × σ :=
  let (result, query, tracker, line) := query.poll now s.known s.tracker line
  let s := { s with phase := .version query, tracker := tracker }
  match result with
  | .error e => (.error (.negotiation e), s, line)
  | .ok .pending => (.ok none, s, line)
  | .ok .ready =>
    let run := PlanRun.start (.make settings s.known)
    (s.enter (.configuration run) now).configure run now line

/-- Go on with the alignment, and behind it with the version query, or with running if the receiver
is not to be configured. -/
def alignBaud (s : Session) (settings : Settings) (alignment : BaudAlignment) (now : Instant)
    (line : σ) : Except (LinkError ε) (Option Solution) × Session × σ :=
  let (result, alignment, line) := alignment.poll now line
  let s := { s with phase := .baud alignment }
  match result with
  | .error e => (.error (.negotiation e), s, line)
  | .ok .pending => (.ok none, s, line)
  | .ok .ready =>
    if settings.autoConfig then
      (s.enter (.version .start) now).askVersion settings .start now line
    else
      let (solution, s) := (s.enter .running now).consume now
      (.ok solution, s, line)

/-- Go on from the present phase as far as possible.  The answer is the solution that was taken. -/
def advance (s : Session) (settings : Settings) (now : Instant) (line : σ) :
    Except (LinkError ε) (Option Solution) × Session × σ :=
  match s.phase with
  | .baud alignment => s.alignBaud settings alignment now line
  | .version query => s.askVersion settings query now line
  | .configuration run => s.configure run now line
  | .running =>
    let (solution, s) := s.consume now
    (.ok solution, s, line)

/-- One call of the protocol task: go on, and check the ceiling. -/
def runProtocol (s : Session) (settings : Settings) (now : Instant) (line : σ) :
    Except (LinkError ε) (Option Solution) × Session × σ :=
  match { s with ceiling := s.ceiling.start now }.advance settings now line with
  | (.error e, s, line) => (.error e, s, line)
  | (.ok solution, s, line) =>
    if s.ceiling.expired now then (.error (.ceilingExceeded s.ceiling.limit), s, line)
    else (.ok solution, s, line)

end Session

end GnssLink
