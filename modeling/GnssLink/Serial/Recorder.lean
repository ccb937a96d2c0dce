import GnssLink.Serial.Line

/-!
# Recording the calls on a line

A recorder is a serial line around another one.  It passes every operation on and keeps a list of
the changes of speed and of the writes, each with its success, in the order of the calls.

## Main definitions

* `LineCall` — a change of speed or a write, with its success.
* `Recorder` — a line and its calls so far.
* `Recorder.performed` — the calls that succeeded.
-/

namespace GnssLink

/-- A call that is meant for the line, and whether it succeeded. -/
inductive LineCall where
  | setBaudRate (rate : BaudRate) (ok : Bool)
  | write (bytes : Bytes) (ok : Bool)
  deriving DecidableEq, Repr

/-- The call succeeded. -/
def LineCall.ok : LineCall → Bool
  | .setBaudRate _ ok => ok
  | .write _ ok => ok

/-- A line with a list of the calls it received. -/
structure Recorder (σ : Type) where
  line : σ
  calls : List LineCall

namespace Recorder

variable {σ ε : Type}

/-- A recorder that recorded nothing. -/
def ofLine (line : σ) : Recorder σ :=
  ⟨line, []⟩

/-- The calls that succeeded, in order. -/
def performed (r : Recorder σ) : List LineCall :=
  r.calls.filter LineCall.ok

/-- Append a call and go on with another state of the line. -/
def record (r : Recorder σ) (line : σ) (call : LineCall) : Recorder σ :=
  ⟨line, r.calls ++ [call]⟩

instance [SerialLine σ ε] : SerialLine (Recorder σ) ε where
  hasWaiting r := SerialLine.hasWaiting r.line
  readByte r :=
    let (result, line) := SerialLine.readByte r.line
    (result, { r with line := line })
  write r bytes :=
    let (result, line) := SerialLine.write r.line bytes
    (result, r.record line (.write bytes result.isOk))
  txEmpty r :=
    let (answer, line) := SerialLine.txEmpty r.line
    (answer, { r with line := line })
  setBaudRate r rate :=
    let (result, line) := SerialLine.setBaudRate r.line rate
    (result, r.record line (.setBaudRate rate result.isOk))
  backlog r := SerialLine.backlog r.line
  backlog_readByte := by
    intro r r' byte h
    obtain ⟨hresult, rfl⟩ := Prod.mk.inj h
    exact SerialLine.backlog_readByte (Prod.ext hresult rfl)

end Recorder

end GnssLink
