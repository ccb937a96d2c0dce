import GnssLink.Serial.Line

/-!
# A scripted line

A line that plays a script: the bytes that were received, the answers about the transmitter, and the
failures.  A read failure is armed with a number of reads that go before it; it consumes no byte and
happens once.  While it is armed the line reports a byte as waiting even if there is none, and then
a read finds the queue empty.

## Main definitions

* `ScriptedLine` — the script that is still to be played.
* `LineFault` — the failures.
* `ScriptedLine.readByte` — play one read.
-/

namespace GnssLink

/-- The failures of a scripted line. -/
inductive LineFault where
  | overrun
  | empty
  | setFailed
  | writeFailed
  deriving DecidableEq, Repr

/-- A failure is shown as its name in double quotes. -/
instance : ToString LineFault where
  toString
    | .overrun => "\"rx overrun\""
    | .empty => "\"rx empty\""
    | .setFailed => "\"set failed\""
    | .writeFailed => "\"write failed\""

/-- The script of a line: the received bytes, the number of reads before an armed read failure, the
answers about the transmitter, of which the last is repeated, and whether changes of speed and
writes fail. -/
structure ScriptedLine where
  queue : Bytes
  readFault : Option Nat
  txAnswers : List Bool
  failSet : Bool
  failWrite : Bool
  deriving DecidableEq, Repr

namespace ScriptedLine

/-- A line that received nothing and fails nowhere. -/
def idle : ScriptedLine :=
  ⟨[], none, [true], false, false⟩

/-- Take the first byte of the queue. -/
def pop (p : ScriptedLine) : Except LineFault UInt8 × ScriptedLine :=
  match p.queue with
  | [] => (.error .empty, p)
  | byte :: rest => (.ok byte, { p with queue := rest })

/-- Play one read.  The read counts toward an armed failure even if the queue is empty. -/
def readByte (p : ScriptedLine) : Except LineFault UInt8 × ScriptedLine :=
  match p.readFault with
  | some 0 => (.error .overrun, { p with readFault := none })
  | some (n + 1) => { p with readFault := some n }.pop
  | none => p.pop

/-- Play one answer about the transmitter. -/
def txEmpty (p : ScriptedLine) : Bool × ScriptedLine :=
  match p.txAnswers with
  | [] => (true, p)
  | [last] => (last, p)
  | answer :: rest => (answer, { p with txAnswers := rest })

theorem length_queue_pop {p p' : ScriptedLine} {byte : UInt8} (h : p.pop = (.ok byte, p')) :
    p'.queue.length < p.queue.length := by
  unfold pop at h
  split at h
  · simp at h
  · next hq =>
    cases h
    simp [hq]

theorem length_queue_readByte {p p' : ScriptedLine} {byte : UInt8}
    (h : p.readByte = (.ok byte, p')) : p'.queue.length < p.queue.length := by
  unfold readByte at h
  split at h
  · simp at h
  · have := length_queue_pop h
    exact this
  · exact length_queue_pop h

instance : SerialLine ScriptedLine LineFault where
  hasWaiting p := !p.queue.isEmpty || p.readFault.isSome
  readByte := readByte
  write p _ := (if p.failWrite then .error .writeFailed else .ok (), p)
  txEmpty := txEmpty
  setBaudRate p _ := (if p.failSet then .error .setFailed else .ok (), p)
  backlog p := p.queue.length
  backlog_readByte := length_queue_readByte

end ScriptedLine

end GnssLink
