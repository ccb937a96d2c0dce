/-!
# Byte strings and little-endian words

Payloads, frames and text slots are finite byte strings.  Every word of more than one byte on the
link is little-endian: the low byte comes first.  `LittleEndian.encode` writes any number of low
bytes of a natural number and `LittleEndian.decode` is the value of a byte string, so the words of
two and four bytes are instances of one pair of functions.

## Main definitions

* `Bytes` — a finite byte string.
* `Bytes.ofAscii` — the bytes of a text of ASCII characters.
* `Bytes.untilNul`, `Bytes.slots`, `Bytes.contains` — text slots and the search in them.
* `LittleEndian.encode`, `LittleEndian.decode` — words as byte strings.

## Main results

* `LittleEndian.decode_ofUInt16`, `LittleEndian.decode_ofUInt32` — a word that was written reads
  back.
-/

namespace GnssLink

/-- A finite byte string, in the order of transmission. -/
abbrev Bytes := List UInt8

namespace Bytes

/-- The bytes of a text of ASCII characters, one for each character. -/
def ofAscii (text : String) : Bytes :=
  text.toList.map fun c => UInt8.ofNat c.toNat

/-- The text of a slot that is padded with NUL bytes: all bytes before the first NUL. -/
def untilNul (slot : Bytes) : Bytes :=
  slot.takeWhile (· != 0)

/-- An area cut into slots of `width` bytes: slot `k` holds the bytes from `width * k` on, and the
last slot may be shorter. -/
def slots (width : Nat) (area : Bytes) : List Bytes :=
  (List.range ((area.length + width - 1) / width)).map fun k => (area.drop (width * k)).take width

/-- The marker occurs as a run of neighbouring bytes. -/
def contains (marker : Bytes) : Bytes → Bool
  | [] => marker.isEmpty
  | b :: rest => marker.isPrefixOf (b :: rest) || contains marker rest

end Bytes

namespace LittleEndian

/-- The lowest `width` bytes of a number, low byte first. -/
def encode : Nat → Nat → Bytes
  | 0, _ => []
  | width + 1, n => UInt8.ofNat n :: encode width (n / 256)

/-- The number that a byte string stands for, low byte first. -/
def decode : Bytes → Nat
  | [] => 0
  | b :: rest => b.toNat + 256 * decode rest

/-- The two bytes of a half word. -/
def ofUInt16 (word : UInt16) : Bytes :=
  encode 2 word.toNat

/-- The four bytes of a word. -/
def ofUInt32 (word : UInt32) : Bytes :=
  encode 4 word.toNat

@[simp] theorem length_encode (width n : Nat) : (encode width n).length = width := by
  induction width generalizing n with
  | zero => rfl
  | succ width ih => simp [encode, ih]

theorem decode_ofUInt16 (word : UInt16) : decode (ofUInt16 word) = word.toNat := by
  have h := word.toNat_lt
  simp only [ofUInt16, encode, decode, UInt8.toNat_ofNat']
  omega

theorem decode_ofUInt32 (word : UInt32) : decode (ofUInt32 word) = word.toNat := by
  have h := word.toNat_lt
  simp only [ofUInt32, encode, decode, UInt8.toNat_ofNat']
  omega

end LittleEndian

end GnssLink
