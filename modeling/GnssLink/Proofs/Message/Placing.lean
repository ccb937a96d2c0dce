import GnssLink.Proofs.Frame.Wire
import GnssLink.Proofs.Message.Reading

/-!
# Fields placed over a background

The documentation of a layout names an offset for each field.  To lay a message out is to put the
bytes of its fields at these offsets over a background, which shows in the gaps between the fields
and behind the last one.  Fields that lie in ascending order do not touch one another, so each one
stands in the result, whatever the background is (`FieldBytes.InOrder.standsIn`).

What is read at an offset is decided by the bytes that stand there, and the other way round
(`Bytes.u8At_eq_iff`, …): a word is read if and only if its encoding stands at the offset.

## Main definitions

* `LittleEndian.ofInt32` — a signed word in two's complement.
* `FieldBytes`, `FieldBytes.StandsIn` — the bytes of a field with their offset.
* `FieldBytes.placeInto`, `FieldBytes.placeAll` — fields put over a background.
* `FieldBytes.InOrder` — fields in ascending order that do not overlap.

## Main results

* `Bytes.u8At_eq_iff`, `Bytes.u16At_eq_iff`, `Bytes.u32At_eq_iff`, `Bytes.i32At_eq_iff` — a word is
  read where its encoding stands.
* `FieldBytes.InOrder.standsIn` — fields that were placed stand where they belong.
-/

namespace GnssLink

/-! ### Words and their encodings -/

namespace LittleEndian

/-- The four bytes of a signed word: a negative one is counted down from 2³². -/
def ofInt32 (word : Int32) : Bytes :=
  encode 4 (word.toInt % UInt32.size).toNat

@[simp] theorem length_ofUInt16 (word : UInt16) : (ofUInt16 word).length = 2 :=
  length_encode 2 _

@[simp] theorem length_ofUInt32 (word : UInt32) : (ofUInt32 word).length = 4 :=
  length_encode 4 _

@[simp] theorem length_ofInt32 (word : Int32) : (ofInt32 word).length = 4 :=
  length_encode 4 _

/-- A signed word is encoded as the unsigned word of the same bits. -/
theorem ofInt32_eq (word : Int32) : ofInt32 word = ofUInt32 word.toUInt32 := by
  have hsigned : word.toInt = (word.toUInt32.toNat : Int).bmod UInt32.size :=
    BitVec.toInt_eq_toNat_bmod word.toBitVec
  have hlt : word.toUInt32.toNat < UInt32.size := word.toUInt32.toNat_lt
  rw [ofInt32, ofUInt32, hsigned, Int.bmod_emod, ← Int.natCast_emod, Int.toNat_natCast,
    Nat.mod_eq_of_lt hlt]

theorem decode_lt (bytes : Bytes) : decode bytes < 256 ^ bytes.length := by
  induction bytes with
  | nil => decide
  | cons b rest ih =>
    have hb := b.toNat_lt
    rw [List.length_cons, Nat.pow_succ, decode]
    omega

/-- A byte string stands for a number if and only if it is the encoding of that number. -/
theorem decode_eq_iff {bytes : Bytes} {width n : Nat} (hlength : bytes.length = width)
    (hn : n < 256 ^ width) : decode bytes = n ↔ bytes = encode width n := by
  constructor
  · rintro rfl
    rw [← hlength, encode_decode]
  · rintro rfl
    exact decode_encode width n hn

end LittleEndian

/-! ### Words at an offset -/

namespace Bytes

variable {payload : Bytes} {offset : Nat}

theorem u8At_eq_iff (h : offset + 1 ≤ payload.length) {byte : UInt8} :
    payload.u8At offset = byte ↔ payload.slice offset 1 = [byte] := by
  have hdecode := LittleEndian.decode_lt (payload.slice offset 1)
  rw [length_slice h] at hdecode
  have hencode : LittleEndian.encode 1 byte.toNat = [byte] := by
    simp only [LittleEndian.encode, UInt8.ofNat_toNat]
  rw [u8At, ← UInt8.toNat_inj, UInt8.toNat_ofNat_of_lt' hdecode,
    LittleEndian.decode_eq_iff (length_slice h) byte.toNat_lt, hencode]

theorem u16At_eq_iff (h : offset + 2 ≤ payload.length) {word : UInt16} :
    payload.u16At offset = word ↔ payload.slice offset 2 = LittleEndian.ofUInt16 word := by
  have hdecode := LittleEndian.decode_lt (payload.slice offset 2)
  rw [length_slice h] at hdecode
  rw [u16At, ← UInt16.toNat_inj, UInt16.toNat_ofNat_of_lt' hdecode,
    LittleEndian.decode_eq_iff (length_slice h) word.toNat_lt, LittleEndian.ofUInt16]

theorem u32At_eq_iff (h : offset + 4 ≤ payload.length) {word : UInt32} :
    payload.u32At offset = word ↔ payload.slice offset 4 = LittleEndian.ofUInt32 word := by
  have hdecode := LittleEndian.decode_lt (payload.slice offset 4)
  rw [length_slice h] at hdecode
  rw [u32At, ← UInt32.toNat_inj, UInt32.toNat_ofNat_of_lt' hdecode,
    LittleEndian.decode_eq_iff (length_slice h) word.toNat_lt, LittleEndian.ofUInt32]

theorem i32At_eq_iff (h : offset + 4 ≤ payload.length) {word : Int32} :
    payload.i32At offset = word ↔ payload.slice offset 4 = LittleEndian.ofInt32 word := by
  rw [LittleEndian.ofInt32_eq, ← u32At_eq_iff h, i32At]
  constructor
  · rintro rfl
    exact (UInt32.toUInt32_toInt32 _).symm
  · intro hword
    rw [hword, Int32.toInt32_toUInt32]

end Bytes

/-! ### Fields -/

/-- The bytes of a field, and the offset that they belong at. -/
structure FieldBytes where
  offset : Nat
  bytes : Bytes

namespace FieldBytes

variable {f g : FieldBytes} {payload background : Bytes} {start limit : Nat}
  {fields : List FieldBytes}

/-- The offset behind the last byte. -/
def behind (f : FieldBytes) : Nat :=
  f.offset + f.bytes.length

/-- The bytes stand at their offset. -/
def StandsIn (f : FieldBytes) (payload : Bytes) : Prop :=
  payload.slice f.offset f.bytes.length = f.bytes

/-- The bytes are put over those that stood at their offset. -/
def placeInto (f : FieldBytes) (payload : Bytes) : Bytes :=
  payload.take f.offset ++ f.bytes ++ payload.drop f.behind

/-- All fields are put over a background. -/
def placeAll (fields : List FieldBytes) (background : Bytes) : Bytes :=
  fields.foldr placeInto background

/-- The fields lie one behind the other, from one offset on and in front of another. -/
def InOrder (start limit : Nat) : List FieldBytes → Prop
  | [] => start ≤ limit
  | f :: rest => start ≤ f.offset ∧ InOrder f.behind limit rest

theorem length_placeInto (h : f.behind ≤ payload.length) :
    (f.placeInto payload).length = payload.length := by
  unfold behind at h
  simp only [placeInto, behind, List.length_append, List.length_take, List.length_drop]
  omega

theorem standsIn_placeInto (h : f.behind ≤ payload.length) : f.StandsIn (f.placeInto payload) := by
  have hfront : (payload.take f.offset).length = f.offset :=
    List.length_take_of_le (Nat.le_trans (Nat.le_add_right _ _) h)
  rw [StandsIn, placeInto, Bytes.slice, List.append_assoc, List.drop_left' hfront, List.take_left]

/-- Behind a field that is placed nothing changes. -/
theorem getElem?_placeInto_of_behind_le (h : f.behind ≤ payload.length) {i : Nat}
    (hi : f.behind ≤ i) : (f.placeInto payload)[i]? = payload[i]? := by
  have hfront : (payload.take f.offset ++ f.bytes).length = f.behind := by
    rw [List.length_append, List.length_take_of_le (Nat.le_trans (Nat.le_add_right _ _) h), behind]
  rw [placeInto, List.getElem?_append_right (by omega), hfront, List.getElem?_drop,
    Nat.add_sub_cancel' hi]

theorem StandsIn.placeInto (hg : g.StandsIn payload) (h : f.behind ≤ payload.length)
    (hapart : f.behind ≤ g.offset) : g.StandsIn (f.placeInto payload) := by
  have hsame : (f.placeInto payload).slice g.offset g.bytes.length =
      payload.slice g.offset g.bytes.length :=
    Bytes.slice_congr fun i hi _ =>
      getElem?_placeInto_of_behind_le h (Nat.le_trans hapart hi)
  exact hsame.trans hg

theorem InOrder.start_le (h : InOrder start limit fields) : start ≤ limit := by
  induction fields generalizing start with
  | nil => exact h
  | cons f rest ih =>
    exact Nat.le_trans h.1 (Nat.le_trans (Nat.le_add_right _ _) (ih h.2))

theorem InOrder.of_mem (h : InOrder start limit fields) (hf : f ∈ fields) :
    start ≤ f.offset ∧ f.behind ≤ limit := by
  induction fields generalizing start with
  | nil => cases hf
  | cons first rest ih =>
    rcases List.mem_cons.1 hf with rfl | hrest
    · exact ⟨h.1, h.2.start_le⟩
    · obtain ⟨hoffset, hbehind⟩ := ih h.2 hrest
      exact ⟨Nat.le_trans h.1 (Nat.le_trans (Nat.le_add_right _ _) hoffset), hbehind⟩

theorem InOrder.length_placeAll (h : InOrder start limit fields)
    (hlong : limit ≤ background.length) :
    (placeAll fields background).length = background.length := by
  induction fields generalizing start with
  | nil => rfl
  | cons f rest ih =>
    have hbehind : f.behind ≤ (placeAll rest background).length := by
      rw [ih h.2]
      exact Nat.le_trans h.2.start_le hlong
    exact (length_placeInto hbehind).trans (ih h.2)

/-- **Fields that were placed stand where they belong**, whatever the background is. -/
theorem InOrder.standsIn (h : InOrder start limit fields) (hlong : limit ≤ background.length)
    (hf : f ∈ fields) : f.StandsIn (placeAll fields background) := by
  induction fields generalizing start with
  | nil => cases hf
  | cons first rest ih =>
    have hbehind : first.behind ≤ (placeAll rest background).length := by
      rw [h.2.length_placeAll hlong]
      exact Nat.le_trans h.2.start_le hlong
    rcases List.mem_cons.1 hf with rfl | hrest
    · exact standsIn_placeInto hbehind
    · -- the first field is placed last, in front of the others
      exact (ih h.2 hrest).placeInto hbehind (h.2.of_mem hrest).1

end FieldBytes

end GnssLink
