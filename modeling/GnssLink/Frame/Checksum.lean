import GnssLink.Bytes.Basic

/-!
# The frame checksum

The checksum of a byte string is the eight-bit Fletcher pair: for every byte, in order, the first
sum takes up the byte and the second sum takes up the first, both modulo 256.  It covers the class,
the id, the two length bytes and the payload of a frame; the synchronisation bytes and the checksum
itself stand outside.

## Main definitions

* `Checksum` — the pair of running sums.
* `Checksum.push`, `Checksum.append` — take up one byte, or several.
* `Checksum.seeded` — the sums after a first byte.
* `Checksum.ofBytes` — the checksum of a byte string.

## Main results

* `Checksum.append_append` — taking up two strings one after the other takes up their join.
* `Checksum.seeded_eq` — the seeded pair is the pair of a string of one byte.
-/

namespace GnssLink

/-- Two running sums modulo 256, in the order of transmission. -/
structure Checksum where
  a : UInt8
  b : UInt8
  deriving DecidableEq, Repr

namespace Checksum

/-- The sums of the empty string. -/
def zero : Checksum :=
  ⟨0, 0⟩

/-- The sums after a first byte: both are that byte. -/
def seeded (first : UInt8) : Checksum :=
  ⟨first, first⟩

/-- Take up one byte. -/
def push (c : Checksum) (byte : UInt8) : Checksum :=
  ⟨c.a + byte, c.b + (c.a + byte)⟩

/-- Take up several bytes in order. -/
def append (c : Checksum) (bytes : Bytes) : Checksum :=
  bytes.foldl push c

/-- The checksum of a byte string. -/
def ofBytes (bytes : Bytes) : Checksum :=
  zero.append bytes

/-- The two sums as they are transmitted. -/
def toBytes (c : Checksum) : Bytes :=
  [c.a, c.b]

@[simp] theorem append_nil (c : Checksum) : c.append [] = c := rfl

@[simp] theorem append_cons (c : Checksum) (byte : UInt8) (rest : Bytes) :
    c.append (byte :: rest) = (c.push byte).append rest := rfl

theorem append_append (c : Checksum) (xs ys : Bytes) :
    (c.append xs).append ys = c.append (xs ++ ys) :=
  (List.foldl_append ..).symm

theorem seeded_eq (first : UInt8) : seeded first = ofBytes [first] := by
  simp [seeded, ofBytes, zero, push]

end Checksum

end GnssLink
