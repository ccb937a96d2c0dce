import GnssLink.Negotiation.Error
import GnssLink.Serial.Line
import GnssLink.Time

/-!
# Aligning the line speed

The receiver may be at any of the six speeds.  If the present speed is unknown, the line is switched
to one candidate after the other, and at each of them the sentence is sent that asks the receiver
for the target speed; nothing is read back.  A candidate is left only after the transmitter has run
empty and a pause has passed.  At last the line is switched to the target.  If the speed is known,
this last switch is all.

A line failure leaves the alignment at the operation that failed.

## Main definitions

* `BaudStep` — the position in the alignment.
* `BaudAlignment` — the target, whether candidates are tried, and the position.
* `BaudAlignment.poll` — go on as far as possible.
-/

namespace GnssLink

/-- The position in the alignment: pending output leaves at the old speed, a candidate is to be
tried, its sentence is in the transmitter, its pause runs, or all is done. -/
inductive BaudStep where
  | waitTxIdle
  | probe (index : Nat)
  | draining (index : Nat)
  | settling (index : Nat) (since : Instant)
  | done
  deriving DecidableEq, Repr

/-- The alignment to a target speed. -/
structure BaudAlignment where
  target : BaudRate
  tryAll : Bool
  step : BaudStep
  deriving DecidableEq, Repr

namespace BaudAlignment

/-- An alignment that has not begun. -/
def start (target : BaudRate) (tryAll : Bool) : BaudAlignment :=
  ⟨target, tryAll, .waitTxIdle⟩

variable {σ ε : Type} [SerialLine σ ε]

/-- Switch the line to the target. -/
def finish (a : BaudAlignment) (line : σ) :
    Except (NegotiationError ε) Progress × BaudAlignment × σ :=
  match SerialLine.setBaudRate line a.target with
  | (.error e, line) => (.error (.serial e), a, line)
  | (.ok _, line) => (.ok .ready, { a with step := .done }, line)

/-- Begin the pause of a candidate if its sentence has left the transmitter. -/
def settle (a : BaudAlignment) (index : Nat) (now : Instant) (line : σ) :
    Except (NegotiationError ε) Progress × BaudAlignment × σ :=
  match SerialLine.txEmpty line with
  | (true, line) => (.ok .pending, { a with step := .settling index now }, line)
  | (false, line) => (.ok .pending, { a with step := .draining index }, line)

/-- Try a candidate.  Behind the last one the alignment is finished. -/
def probe (a : BaudAlignment) (index : Nat) (now : Instant) (line : σ) :
    Except (NegotiationError ε) Progress × BaudAlignment × σ :=
  let a := { a with step := .probe index }
  match BaudRate.candidates[index]? with
  | none => a.finish line
  | some candidate =>
    match SerialLine.setBaudRate line candidate with
    | (.error e, line) => (.error (.serial e), a, line)
    | (.ok _, line) =>
      match SerialLine.write line (Bytes.ofAscii a.target.switchSentence) with
      | (.error e, line) => (.error (.serial e), a, line)
      | (.ok _, line) => a.settle index now line

/-- Go on as far as the transmitter and the clock allow.  One call changes the speed at most
once. -/
def poll (a : BaudAlignment) (now : Instant) (line : σ) :
    Except (NegotiationError ε) Progress × BaudAlignment × σ :=
  match a.step with
  | .waitTxIdle =>
    match SerialLine.txEmpty line with
    | (false, line) => (.ok .pending, a, line)
    | (true, line) => if a.tryAll then a.probe 0 now line else a.finish line
  | .probe index => a.probe index now line
  | .draining index => a.settle index now line
  | .settling index since =>
    if now.since since < Timing.baudSettling.toMicros then (.ok .pending, a, line)
    else a.probe (index + 1) now line
  | .done => (.ok .ready, a, line)

end BaudAlignment

end GnssLink
