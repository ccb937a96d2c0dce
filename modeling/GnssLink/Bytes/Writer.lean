import GnssLink.Bytes.Basic

/-!
# Laying fields into a bounded area

A writer is an area of fixed length with a position in it.  Fields are written from the position
on; a field that is longer than what is left is refused, and then neither the position nor the area
changes.  Bytes behind the position keep what the area held before.

## Main definitions

* `Writer` — an area and a position inside it.
* `WriterError` — the one way a write fails.
* `Writer.write`, `Writer.writeAll` — one field, and several in order.
* `Writer.zeros` — a reserved field.
* `Writer.written`, `Writer.unwritten` — the area in front of the position and behind it.

## Main results

* `Writer.write_eq_ok_iff` — a field is written if and only if it is no longer than what is left.
* `Writer.written_write`, `Writer.unwritten_write` — a field is appended to what was written, and
  what stands behind it is left alone.
* `Writer.length_write`, `Writer.length_writeAll` — writing keeps the length of the area.
-/

namespace GnssLink

/-- An area of fixed length and the number of bytes written so far. -/
structure Writer where
  area : Bytes
  position : Nat
  position_le : position ≤ area.length

/-- A write that leaves the area: `asked` bytes were to be written where `available` were left. -/
inductive WriterError where
  | outOfBounds (asked available : Nat)
  deriving DecidableEq, Repr

namespace WriterError

/-- The diagnostic of a refused write. -/
def message : WriterError → String
  | .outOfBounds asked available =>
    "Attempted to write out of bounds -> asked: " ++ toString asked ++ ", available: "
      ++ toString available

end WriterError

namespace Writer

/-- A writer at the start of an area: what is written is empty. -/
def ofArea (area : Bytes) : Writer :=
  ⟨area, 0, List.nil_prefix.length_le⟩

/-- The number of bytes that can still be written. -/
def available (w : Writer) : Nat :=
  w.area.length - w.position

/-- The bytes written so far. -/
def written (w : Writer) : Bytes :=
  w.area.take w.position

/-- The part of the area that is not written yet. -/
def unwritten (w : Writer) : Bytes :=
  w.area.drop w.position

/-- A field that replaces the bytes at the position ends inside the area. -/
theorem position_add_le (w : Writer) (field : Bytes) :
    w.position + field.length ≤
      (w.area.take w.position ++ field ++ w.area.drop (w.position + field.length)).length := by
  rw [List.length_append, List.length_append, List.length_take, Nat.min_eq_left w.position_le]
  exact Nat.le_add_right _ _

/-- Write a field at the position and pass it. -/
def write (w : Writer) (field : Bytes) : Except WriterError Writer :=
  if w.position + field.length ≤ w.area.length then
    .ok {
      area := w.area.take w.position ++ field ++ w.area.drop (w.position + field.length)
      position := w.position + field.length
      position_le := w.position_add_le field }
  else
    .error (.outOfBounds field.length w.available)

/-- Write `count` zero bytes.  The room is checked before the zeros are made. -/
def zeros (w : Writer) (count : Nat) : Except WriterError Writer :=
  if count ≤ w.available then w.write (List.replicate count 0)
  else .error (.outOfBounds count w.available)

/-- Write fields in order, up to the first one that does not fit. -/
def writeAll (w : Writer) (fields : List Bytes) : Except WriterError Writer :=
  fields.foldlM write w

theorem write_eq_ok_iff (w : Writer) (field : Bytes) :
    (∃ w', w.write field = .ok w') ↔ field.length ≤ w.available := by
  have hp := w.position_le
  unfold write available
  split
  · simp only [Except.ok.injEq, exists_eq', true_iff]
    omega
  · simp only [reduceCtorEq, exists_false, false_iff]
    omega

theorem written_write {w w' : Writer} {field : Bytes} (h : w.write field = .ok w') :
    w'.written = w.written ++ field := by
  unfold write at h
  split at h
  · cases h
    have hp := w.position_le
    have hl : (w.area.take w.position ++ field).length = w.position + field.length := by
      rw [List.length_append, List.length_take, Nat.min_eq_left hp]
    simp only [written]
    rw [List.take_append_of_le_length (Nat.le_of_eq hl.symm),
      List.take_of_length_le (Nat.le_of_eq hl)]
  · simp at h

theorem unwritten_write {w w' : Writer} {field : Bytes} (h : w.write field = .ok w') :
    w'.unwritten = w.unwritten.drop field.length := by
  unfold write at h
  split at h
  · cases h
    have hp := w.position_le
    have hl : (w.area.take w.position ++ field).length = w.position + field.length := by
      rw [List.length_append, List.length_take, Nat.min_eq_left hp]
    simp only [unwritten]
    rw [List.drop_append_of_le_length (Nat.le_of_eq hl.symm), List.drop_drop,
      List.drop_of_length_le (Nat.le_of_eq hl), List.nil_append]
  · simp at h

theorem length_write {w w' : Writer} {field : Bytes} (h : w.write field = .ok w') :
    w'.area.length = w.area.length := by
  simp only [write] at h
  split at h
  · cases h
    simp
    omega
  · simp at h

theorem length_writeAll {w w' : Writer} {fields : List Bytes} (h : w.writeAll fields = .ok w') :
    w'.area.length = w.area.length := by
  induction fields generalizing w with
  | nil => cases h; rfl
  | cons field rest ih =>
    simp only [writeAll, List.foldlM_cons] at h
    cases hw : w.write field with
    | error e => simp [hw, bind, Except.bind] at h
    | ok v =>
      simp only [hw, bind, Except.bind] at h
      rw [ih h, length_write hw]

end Writer

end GnssLink
