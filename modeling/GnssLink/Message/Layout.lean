import GnssLink.Bytes.Reader
import GnssLink.Message.Type
import GnssLink.Text.Hexadecimal

/-!
# Payload layouts

A layout says of which type a message is, how long its payload is at least, and how its fields are
read.  Longer payloads are read as well: later hardware appends fields, and what a layout does not
name is passed over.

## Main definitions

* `Layout` — a message type, a least length and a way to read the fields.
* `PayloadError` — why a payload cannot be read.
* `Layout.decode` — read a payload.
* `Layout.map` — the same layout with another reading of its fields.
-/

namespace GnssLink

/-- Why a payload cannot be read: it is shorter than its layout, or a field lies outside it. -/
inductive PayloadError where
  | tooShort (type : MessageType) (expected actual : Nat)
  | reader (e : ReaderError)
  deriving DecidableEq, Repr

namespace PayloadError

/-- The diagnostic of a payload that cannot be read. -/
def message : PayloadError → String
  | .tooShort type expected actual =>
    "Invalid data length for " ++ Hexadecimal.literal type.cls ++ "/" ++ Hexadecimal.literal type.id
      ++ ": expected at least " ++ toString expected ++ ", got " ++ toString actual
  | .reader e => "ByteReader error: " ++ e.message

end PayloadError

/-- How the payload of one message type is read. -/
structure Layout (α : Type) where
  type : MessageType
  minLength : Nat
  read : Read α

namespace Layout

variable {α β : Type}

/-- Read a payload.  Its length is checked first. -/
def decode (l : Layout α) (payload : Bytes) : Except PayloadError α :=
  if payload.length < l.minLength then
    .error (.tooShort l.type l.minLength payload.length)
  else
    match l.read (Reader.ofBytes payload) with
    | .ok (fields, _) => .ok fields
    | .error e => .error (.reader e)

/-- The layout whose fields are read further by a function. -/
def map (f : α → β) (l : Layout α) : Layout β where
  type := l.type
  minLength := l.minLength
  read := f <$> l.read

end Layout

end GnssLink
