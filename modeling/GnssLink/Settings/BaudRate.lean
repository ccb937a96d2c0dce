import GnssLink.Text.Sentence

/-!
# Line speeds

The receiver can be switched to six line speeds by a text sentence that names the serial line, the
protocols on it and the speed.  A host that does not know the present speed of the receiver tries
the six in a fixed order.

## Main definitions

* `BaudRate` — the six speeds.
* `BaudRate.candidates` — the order in which they are tried.
* `BaudRate.switchSentence` — the sentence that switches the receiver.
-/

namespace GnssLink

/-- A line speed that the receiver can be switched to. -/
inductive BaudRate where
  | b115200
  | b57600
  | b38400
  | b19200
  | b9600
  | b230400
  deriving DecidableEq, Repr, Inhabited

namespace BaudRate

/-- All speeds, in the order in which they are tried. -/
def candidates : List BaudRate :=
  [b115200, b57600, b38400, b19200, b9600, b230400]

/-- The speed in bits per second. -/
def bitsPerSecond : BaudRate → Nat
  | b115200 => 115200
  | b57600 => 57600
  | b38400 => 38400
  | b19200 => 19200
  | b9600 => 9600
  | b230400 => 230400

/-- The sentence that switches the first serial line of the receiver to a speed: binary frames and
text in, binary frames out. -/
def switchSentence (rate : BaudRate) : String :=
  Sentence.ofBody ("PUBX,41,1,0003,0001," ++ toString rate.bitsPerSecond ++ ",0")

end BaudRate

end GnssLink
