import GnssLink.Bytes.Basic
import GnssLink.Settings.BaudRate

/-!
# Serial lines

A serial line is a state with five operations, none of which waits.  Reading, writing and changing
the speed may fail; the line is in a new state also after a failure.  The bytes that a line can
deliver without new input are bounded: every successful read lowers the backlog.  So a line can be
drained in finitely many steps.

## Main definitions

* `SerialLine` — the operations, and the backlog that bounds the reads.
* `SerialLine.drain` — read until nothing is waiting or a read fails.
-/

namespace GnssLink

/-- The operations of a serial line with states in `σ` and failures in `ε`. -/
class SerialLine (σ : Type) (ε : outParam Type) where
  /-- A byte can be read right now. -/
  hasWaiting : σ → Bool
  /-- Take one received byte. -/
  readByte : σ → Except ε UInt8 × σ
  /-- Queue bytes for transmission. -/
  write : σ → Bytes → Except ε Unit × σ
  /-- Every queued byte has left the transmitter. -/
  txEmpty : σ → Bool × σ
  /-- Change the line speed. -/
  setBaudRate : σ → BaudRate → Except ε Unit × σ
  /-- The most bytes that can be read before new ones arrive. -/
  backlog : σ → Nat
  /-- A successful read takes its byte from the backlog. -/
  backlog_readByte : ∀ {line line' : σ} {byte : UInt8},
    readByte line = (.ok byte, line') → backlog line' < backlog line

namespace SerialLine

variable {σ ε β : Type} [SerialLine σ ε]

/-- Read until nothing is waiting or a read fails, and combine the bytes in the order in which they
were read. -/
def drain (combine : β → UInt8 → β) (start : β) (line : σ) : Except ε Unit × β × σ :=
  if hasWaiting line then
    match h : readByte line with
    | (.error e, line') => (.error e, start, line')
    | (.ok byte, line') =>
      have : backlog line' < backlog line := backlog_readByte h
      drain combine (combine start byte) line'
  else
    (.ok (), start, line)
termination_by backlog line

end SerialLine

end GnssLink
