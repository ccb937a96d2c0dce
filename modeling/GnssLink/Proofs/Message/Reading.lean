import GnssLink.Message.Layout

/-!
# Reading fields at their offsets

A layout reads its fields one after the other, and its documentation names the offset of each.  A
step that stays inside the payload gives the bytes from the position on and leaves the reader behind
them; so the position in front of a field is its offset, whatever was read before, and reading a
whole layout is a matter of going from step to step.

## Main definitions

* `Bytes.slice`, `Bytes.u8At`, `Bytes.u16At`, `Bytes.u32At`, `Bytes.i32At` — what stands at an
  offset of a payload.
* `Layout.Reads` — what a layout reads in every payload that is long enough.

## Main results

* `Bytes.slice_congr` — a slice is decided by the bytes at its offsets.
* `Read.take_bind`, `Read.seek_bind`, `Read.u32_bind`, … — one step, followed by others.
* `Layout.Reads.decode_of_le` — such a payload is read.
-/

namespace GnssLink

namespace Bytes

/-- The `width` bytes from an offset on. -/
def slice (payload : Bytes) (offset width : Nat) : Bytes :=
  (payload.drop offset).take width

/-- The byte at an offset. -/
def u8At (payload : Bytes) (offset : Nat) : UInt8 :=
  UInt8.ofNat (LittleEndian.decode (payload.slice offset 1))

/-- The half word at an offset. -/
def u16At (payload : Bytes) (offset : Nat) : UInt16 :=
  UInt16.ofNat (LittleEndian.decode (payload.slice offset 2))

/-- The word at an offset. -/
def u32At (payload : Bytes) (offset : Nat) : UInt32 :=
  UInt32.ofNat (LittleEndian.decode (payload.slice offset 4))

/-- The word at an offset, in two's complement. -/
def i32At (payload : Bytes) (offset : Nat) : Int32 :=
  (payload.u32At offset).toInt32

theorem length_slice {payload : Bytes} {offset width : Nat} (h : offset + width ≤ payload.length) :
    (payload.slice offset width).length = width := by
  rw [slice, List.length_take, List.length_drop]
  omega

theorem getElem?_slice (payload : Bytes) (offset width i : Nat) :
    (payload.slice offset width)[i]? = if i < width then payload[offset + i]? else none := by
  rw [slice, List.getElem?_take, List.getElem?_drop]

/-- A slice is decided by the bytes at its offsets. -/
theorem slice_congr {p q : Bytes} {offset width : Nat}
    (h : ∀ i, offset ≤ i → i < offset + width → p[i]? = q[i]?) :
    p.slice offset width = q.slice offset width := by
  refine List.ext_getElem? fun i => ?_
  rw [getElem?_slice, getElem?_slice]
  split
  · exact h _ (Nat.le_add_right _ _) (by omega)
  · rfl

end Bytes

/-! ### Steps -/

namespace Read

variable {β : Type} {payload : Bytes} {start : Nat} {hstart : start ≤ payload.length}

/-- A step that succeeds hands on its value and the reader behind it. -/
theorem bind_of_eq_ok {α : Type} {read : Read α} {next : α → Read β} {r r' : Reader} {x : α}
    (h : read r = .ok (x, r')) : (read >>= next) r = next x r' := by
  show (read r >>= fun p => next p.1 p.2) = next x r'
  rw [h]
  rfl

theorem take_eq {count : Nat} (h : start + count ≤ payload.length) :
    take count ⟨payload, start, hstart⟩ =
      .ok (payload.slice start count, ⟨payload, start + count, h⟩) :=
  dif_pos h

theorem take_bind {count : Nat} {next : Bytes → Read β} (h : start + count ≤ payload.length) :
    (take count >>= next) ⟨payload, start, hstart⟩ =
      next (payload.slice start count) ⟨payload, start + count, h⟩ :=
  bind_of_eq_ok (take_eq h)

/-- Reading what is left never fails. -/
theorem rest_bind {next : Bytes → Read β} :
    (rest >>= next) ⟨payload, start, hstart⟩ =
      next (payload.drop start) ⟨payload, payload.length, Nat.le_refl _⟩ := by
  have hall : start + (payload.length - start) = payload.length := Nat.add_sub_cancel' hstart
  have hrest : payload.slice start (payload.length - start) = payload.drop start :=
    List.take_of_length_le (Nat.le_of_eq List.length_drop)
  have htaken : rest ⟨payload, start, hstart⟩ =
      .ok (payload.drop start, ⟨payload, payload.length, Nat.le_refl _⟩) := by
    show take (payload.length - start) ⟨payload, start, hstart⟩ = _
    rw [take_eq (Nat.le_of_eq hall), hrest]
    simp only [hall]
  exact bind_of_eq_ok htaken

theorem seek_bind {offset : Nat} {next : Unit → Read β} (h : offset ≤ payload.length) :
    (seek offset >>= next) ⟨payload, start, hstart⟩ = next () ⟨payload, offset, h⟩ :=
  bind_of_eq_ok (dif_pos h)

theorem skip_bind {count : Nat} {next : Unit → Read β} (h : start + count ≤ payload.length) :
    (skip count >>= next) ⟨payload, start, hstart⟩ = next () ⟨payload, start + count, h⟩ := by
  have hskipped : skip count ⟨payload, start, hstart⟩ = .ok ((), ⟨payload, start + count, h⟩) := by
    show (take count ⟨payload, start, hstart⟩ >>= fun p => pure ((), p.2)) = _
    rw [take_eq h]
    rfl
  exact bind_of_eq_ok hskipped

theorem word_eq {width : Nat} (h : start + width ≤ payload.length) :
    word width ⟨payload, start, hstart⟩ =
      .ok (LittleEndian.decode (payload.slice start width), ⟨payload, start + width, h⟩) :=
  take_bind h

theorem u8_bind {next : UInt8 → Read β} (h : start + 1 ≤ payload.length) :
    (u8 >>= next) ⟨payload, start, hstart⟩ =
      next (payload.u8At start) ⟨payload, start + 1, h⟩ :=
  bind_of_eq_ok (bind_of_eq_ok (word_eq h))

theorem u16_bind {next : UInt16 → Read β} (h : start + 2 ≤ payload.length) :
    (u16 >>= next) ⟨payload, start, hstart⟩ =
      next (payload.u16At start) ⟨payload, start + 2, h⟩ :=
  bind_of_eq_ok (bind_of_eq_ok (word_eq h))

theorem u32_bind {next : UInt32 → Read β} (h : start + 4 ≤ payload.length) :
    (u32 >>= next) ⟨payload, start, hstart⟩ =
      next (payload.u32At start) ⟨payload, start + 4, h⟩ :=
  bind_of_eq_ok (bind_of_eq_ok (word_eq h))

theorem i32_bind {next : Int32 → Read β} (h : start + 4 ≤ payload.length) :
    (i32 >>= next) ⟨payload, start, hstart⟩ =
      next (payload.i32At start) ⟨payload, start + 4, h⟩ :=
  bind_of_eq_ok (u32_bind h)

end Read

/-! ### Layouts -/

namespace Layout

variable {α β : Type} {l : Layout α} {fields : Bytes → α}

/-- The layout reads these fields in every payload that is as long as its least length. -/
def Reads (l : Layout α) (fields : Bytes → α) : Prop :=
  ∀ {payload : Bytes}, l.minLength ≤ payload.length →
    ∃ r, l.read (Reader.ofBytes payload) = .ok (fields payload, r)

/-- A mapped layout reads what the map gives. -/
theorem Reads.map (h : l.Reads fields) (f : α → β) :
    (l.map f).Reads fun payload => f (fields payload) := by
  intro payload hlong
  obtain ⟨r, hread⟩ := h hlong
  refine ⟨r, ?_⟩
  show (l.read (Reader.ofBytes payload) >>= fun p => pure (f p.1, p.2)) = _
  rw [hread]
  rfl

theorem Reads.decode_of_le (h : l.Reads fields) {payload : Bytes}
    (hlong : l.minLength ≤ payload.length) : l.decode payload = .ok (fields payload) := by
  obtain ⟨r, hread⟩ := h hlong
  rw [decode, if_neg (Nat.not_lt.2 hlong), hread]

theorem decode_of_lt (l : Layout α) {payload : Bytes} (hshort : payload.length < l.minLength) :
    l.decode payload = .error (.tooShort l.type l.minLength payload.length) :=
  if_pos hshort

end Layout

end GnssLink
