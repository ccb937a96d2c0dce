import GnssLink.Proofs.Bytes.Writing
import GnssLink.Proofs.Command.Accesses
import GnssLink.Proofs.Consecutive

/-!
# Calls that may be refused

A call on a writer that asks for more than is left is refused, and the next call goes on from the
same place.  So after any calls the area begins with the bytes of those that were carried out, and
ends as it did before (`Writer.writes_after`, `Writer.Writes.area_eq`).

In memory a call is not one step: the room is checked, the bytes are copied over a range of the
buffer, and the position is moved.  Here each access to the buffer names its range.  None leaves the
buffer, and a call that is refused has changed neither the buffer nor the position
(`Writer.write_cursor`).

## Main definitions

* `Writer.Step.width` — the number of bytes that a call asks for.
* `Writer.attempt` — a call that may be refused.
* `Writer.accepted` — the calls that were carried out.
* `Cursor`, `Cursor.write` — a buffer with a position in memory, and a call in place.

## Main results

* `Writer.attempt_of_le`, `Writer.attempt_of_lt` — when a call is carried out, and when not.
* `Writer.writes_after`, `Writer.Writes.area_eq` — what the area holds after any calls.
* `Writer.write_cursor` — a call in place.
-/

namespace GnssLink

namespace Writer

variable {w w' : Writer} {s : Step} {field : Bytes}

/-! ### One call -/

namespace Step

/-- The number of bytes that a call asks for. -/
def width : Step → Nat
  | u8 _ => 1
  | u16 _ => 2
  | u32 _ => 4
  | slice field => field.length
  | zeros count => count

@[simp] theorem length_bytes (s : Step) : s.bytes.length = s.width := by
  cases s <;> simp [bytes, width, LittleEndian.ofUInt16, LittleEndian.ofUInt32]

end Step

/-- Carry out a call.  A call that is refused leaves the writer as it is. -/
def attempt (s : Step) : StateM Writer (Except WriterError Unit) := fun w =>
  match s.perform w with
  | .ok w' => (.ok (), w')
  | .error e => (.error e, w)

/-- `field` was written between two states of a writer. -/
structure Writes (w w' : Writer) (field : Bytes) : Prop where
  written : w'.written = w.written ++ field
  unwritten : w'.unwritten = w.unwritten.drop field.length

theorem width_le_iff (w : Writer) (s : Step) :
    s.width ≤ w.available ↔ w.position + s.bytes.length ≤ w.area.length := by
  have hposition := w.position_le
  rw [available, s.length_bytes]
  omega

/-- A call that fits is carried out. -/
theorem attempt_of_le (h : s.width ≤ w.available) :
    ∃ w', attempt s w = (.ok (), w') ∧ w.Writes w' s.bytes := by
  obtain ⟨w', hw'⟩ := (w.write_eq_ok_iff s.bytes).2 (by rwa [s.length_bytes])
  refine ⟨w', ?_, written_write hw', unwritten_write hw'⟩
  rw [attempt, Step.perform_eq, hw']

/-- A call that does not fit is refused, and nothing changes. -/
theorem attempt_of_lt (h : w.available < s.width) :
    attempt s w = (.error (.outOfBounds s.width w.available), w) := by
  have hlong : ¬ w.position + s.bytes.length ≤ w.area.length :=
    mt (w.width_le_iff s).2 (Nat.not_le.2 h)
  rw [attempt, Step.perform_eq, write, if_neg hlong, s.length_bytes]

/-! ### Several calls -/

/-- The calls that were carried out. -/
def accepted (steps : List Step) (answers : List (Except WriterError Unit)) : List Step :=
  ((steps.zip answers).filter fun entry => entry.2.isOk).map Prod.fst

theorem Writes.trans {w'' : Writer} {field' : Bytes} (h : w.Writes w' field)
    (h' : w'.Writes w'' field') : w.Writes w'' (field ++ field') where
  written := by rw [h'.written, h.written, List.append_assoc]
  unwritten := by rw [h'.unwritten, h.unwritten, List.drop_drop, List.length_append]

/-- **Any calls write the bytes of those that are carried out.** -/
theorem writes_after (w : Writer) (steps : List Step) :
    w.Writes (Consecutive.after attempt w steps)
      ((accepted steps (Consecutive.answers attempt w steps)).flatMap Step.bytes) := by
  induction steps generalizing w with
  | nil => exact ⟨(List.append_nil _).symm, rfl⟩
  | cons s steps ih =>
    rw [Consecutive.answers_cons, Consecutive.after_cons]
    rcases Nat.lt_or_ge w.available s.width with hlt | hle
    · rw [attempt_of_lt hlt]
      exact ih w
    · obtain ⟨w', hw', hwrites⟩ := attempt_of_le hle
      rw [hw']
      exact hwrites.trans (ih w')

/-- What the area of a new writer holds behind a field. -/
theorem Writes.area_eq {area : Bytes} (h : (ofArea area).Writes w field) :
    w.position = field.length ∧ w.area = field ++ area.drop field.length := by
  have hwritten : w.written = field := h.written
  have hunwritten : w.unwritten = area.drop field.length := h.unwritten
  refine ⟨?_, ?_⟩
  · rw [← w.length_written, hwritten]
  · rw [← w.written_append_unwritten, hwritten, hunwritten]

end Writer

/-! ### In place -/

/-- A buffer and a position as they stand in memory; nothing is known of them. -/
structure Cursor where
  buffer : Bytes
  position : Nat

namespace Cursor

/-- A computation on a buffer in place.  An access that leaves the buffer ends it. -/
abbrev InPlace := StateT Cursor (Except OutOfRange)

/-- Check the room, copy the bytes over a range of the buffer, and move the position. -/
def write (field : Bytes) : InPlace (Except WriterError Unit) := do
  let ⟨buffer, position⟩ ← get
  let behind := position + field.length
  if buffer.length < behind then
    return .error (.outOfBounds field.length (buffer.length - position))
  else
    let filled ← buffer.replaceRange position behind field
    set (Cursor.mk filled position)
    modify fun c => { c with position := behind }
    return .ok ()

variable {buffer field : Bytes} {position : Nat}

/-- A field that does not fit is refused before anything is changed. -/
theorem write_of_lt (h : buffer.length < position + field.length) :
    (write field).run ⟨buffer, position⟩ =
      .ok (.error (.outOfBounds field.length (buffer.length - position)), ⟨buffer, position⟩) := by
  simp only [write, StateT.run_bind, StateT.run_get, pure_bind, if_pos h]
  rfl

/-- A field that fits is copied, and the position is moved behind it. -/
theorem write_of_le (h : position + field.length ≤ buffer.length) :
    (write field).run ⟨buffer, position⟩ =
      .ok (.ok (), ⟨buffer.take position ++ field ++ buffer.drop (position + field.length),
        position + field.length⟩) := by
  have hreplaced : buffer.replaceRange position (position + field.length) field =
      .ok (buffer.take position ++ field ++ buffer.drop (position + field.length)) :=
    if_pos ⟨rfl, h⟩
  simp only [write, StateT.run_bind, StateT.run_get, pure_bind, if_neg (Nat.not_lt.2 h),
    hreplaced]
  rfl

end Cursor

namespace Writer

/-- The buffer and the position of a writer. -/
def cursor (w : Writer) : Cursor :=
  ⟨w.area, w.position⟩

/-- **In place a call gives the same answer** and leaves the same buffer and position. -/
theorem write_cursor (s : Step) (w : Writer) :
    (Cursor.write s.bytes).run w.cursor = .ok ((attempt s w).1, (attempt s w).2.cursor) := by
  rcases Nat.lt_or_ge w.available s.width with hlt | hle
  · have hlong : w.area.length < w.position + s.bytes.length :=
      Nat.not_le.1 (mt (w.width_le_iff s).2 (Nat.not_le.2 hlt))
    rw [cursor, Cursor.write_of_lt hlong, attempt_of_lt hlt, s.length_bytes]
    rfl
  · have hfits : w.position + s.bytes.length ≤ w.area.length := (w.width_le_iff s).1 hle
    rw [cursor, Cursor.write_of_le hfits, attempt, Step.perform_eq, Writer.write, if_pos hfits]
    rfl

end Writer

end GnssLink
