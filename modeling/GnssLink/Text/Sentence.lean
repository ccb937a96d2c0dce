import GnssLink.Bytes.Basic
import GnssLink.Text.Hexadecimal

/-!
# Text sentences

Besides binary frames a receiver understands sentences of ASCII text.  A sentence is a dollar sign,
the body, an asterisk, two upper-case hexadecimal digits and a line end; the digits are the
exclusive or of all bytes of the body.

## Main definitions

* `Sentence.check` — the check value of a body.
* `Sentence.ofBody` — a sentence.
-/

namespace GnssLink.Sentence

/-- The exclusive or of all bytes of a body. -/
def check (body : String) : UInt8 :=
  (Bytes.ofAscii body).foldl (· ^^^ ·) 0

/-- The sentence of a body. -/
def ofBody (body : String) : String :=
  "$" ++ body ++ "*" ++ String.ofList (Hexadecimal.pair .upper (check body)) ++ "\r\n"

end GnssLink.Sentence
