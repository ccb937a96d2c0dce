import Mathlib.Data.List.Forall2
import GnssLink.Proofs.Bytes.Attempts
import GnssLink.Proofs.Message.Reading

/-!
# Reading back what was written

A read that asks for more than is left fails and leaves the reader where it is.  Reads that match
the calls by which some bytes were written give the values that were written: each word in its
width, as a signed word if it is read so, and each byte string with its length
(`Reader.answers_of_readAs`).  A call that was refused left no trace, so it has no read that matches
it (`Writer.carriesOut`).

## Main definitions

* `Reader.Step`, `Reader.Value` — one read, and what it gives.
* `Reader.attempt`, `Cursor.read` — a read that may fail, and the same in place.
* `Writer.Step.ReadAs` — a read that matches a call, with the value that was written.
* `Writer.CarriesOut` — what is known of calls on a writer, and of reads behind them.

## Main results

* `Reader.attempt_of_le`, `Reader.attempt_of_lt` — when a read succeeds, and when not.
* `Reader.answers_of_readAs` — matching reads give what was written.
* `Writer.carriesOut` — the rule for all areas and calls.
-/

namespace GnssLink

/-! ### One read -/

namespace Reader

/-- One read. -/
inductive Step where
  | u8
  | u16
  | i16
  | u32
  | i32
  | slice (count : Nat)
  | skip (count : Nat)

/-- What a read gives. -/
inductive Value where
  | u8 (value : UInt8)
  | u16 (value : UInt16)
  | i16 (value : Int16)
  | u32 (value : UInt32)
  | i32 (value : Int32)
  | slice (bytes : Bytes)
  | skipped

namespace Step

/-- The number of bytes that a read asks for. -/
def width : Step → Nat
  | u8 => 1
  | u16 | i16 => 2
  | u32 | i32 => 4
  | slice count | skip count => count

/-- What the bytes of a read stand for. -/
def value : Step → Bytes → Value
  | u8, bytes => .u8 (UInt8.ofNat (LittleEndian.decode bytes))
  | u16, bytes => .u16 (UInt16.ofNat (LittleEndian.decode bytes))
  | i16, bytes => .i16 (UInt16.ofNat (LittleEndian.decode bytes)).toInt16
  | u32, bytes => .u32 (UInt32.ofNat (LittleEndian.decode bytes))
  | i32, bytes => .i32 (UInt32.ofNat (LittleEndian.decode bytes)).toInt32
  | slice _, bytes => .slice bytes
  | skip _, _ => .skipped

/-- The read itself. -/
def perform : Step → Read Value
  | u8 => return .u8 (← Read.u8)
  | u16 => return .u16 (← Read.u16)
  | i16 => return .i16 (← Read.i16)
  | u32 => return .u32 (← Read.u32)
  | i32 => return .i32 (← Read.i32)
  | slice count => return .slice (← Read.take count)
  | skip count => do
    Read.skip count
    return .skipped

/-- A read takes its bytes and gives what they stand for. -/
theorem perform_eq (s : Step) : s.perform = (do return s.value (← Read.take s.width)) := by
  cases s <;> simp [perform, width, value, Read.u8, Read.u16, Read.i16, Read.u32, Read.i32,
    Read.word, Read.skip, Functor.discard, map_const]

end Step

/-- Carry out a read.  A read that fails leaves the reader as it is. -/
def attempt (s : Step) : StateM Reader (Except ReaderError Value) := fun r =>
  match s.perform r with
  | .ok (value, r') => (.ok value, r')
  | .error e => (.error e, r)

variable {r : Reader} {s : Step}

/-- The bytes that are not read yet. -/
def unread (r : Reader) : Bytes :=
  r.bytes.drop r.position

theorem length_unread (r : Reader) : r.unread.length = r.remaining :=
  List.length_drop

/-- Pass bytes that are there. -/
def passing (r : Reader) (count : Nat) (h : count ≤ r.remaining) : Reader where
  bytes := r.bytes
  position := r.position + count
  position_le := by
    rw [← r.position_add_remaining]
    exact Nat.add_le_add_left h _

theorem width_le_iff (r : Reader) (s : Step) :
    s.width ≤ r.remaining ↔ r.position + s.width ≤ r.bytes.length := by
  rw [← r.position_add_remaining, Nat.add_le_add_iff_left]

theorem unread_passing {count : Nat} (h : count ≤ r.remaining) :
    (r.passing count h).unread = r.unread.drop count := by
  rw [unread, unread, List.drop_drop]
  rfl

/-- A read that stays inside gives what its bytes stand for. -/
theorem attempt_of_le (h : s.width ≤ r.remaining) :
    attempt s r = (.ok (s.value (r.unread.take s.width)), r.passing s.width h) := by
  have hfits : r.position + s.width ≤ r.bytes.length := (r.width_le_iff s).1 h
  rw [attempt, s.perform_eq, Read.take_bind hfits]
  rfl

/-- A read past the end fails, and the reader stays where it is. -/
theorem attempt_of_lt (h : r.remaining < s.width) :
    attempt s r = (.error (.outOfBounds r.position s.width r.remaining), r) := by
  have hlong : ¬ r.position + s.width ≤ r.bytes.length :=
    mt (r.width_le_iff s).2 (Nat.not_le.2 h)
  have htaken : Read.take s.width r = .error (.outOfBounds r.position s.width r.remaining) :=
    dif_neg hlong
  have hread : s.perform r = .error (.outOfBounds r.position s.width r.remaining) := by
    rw [s.perform_eq]
    show (Read.take s.width r >>= fun p => pure (s.value p.1, p.2)) = _
    rw [htaken]
    rfl
  rw [attempt, hread]

/-- The payload and the position of a reader. -/
def cursor (r : Reader) : Cursor :=
  ⟨r.bytes, r.position⟩

end Reader

namespace Cursor

/-- Check that the bytes are there, take them, and move the position. -/
def read (s : Reader.Step) : InPlace (Except ReaderError Reader.Value) := do
  let ⟨buffer, position⟩ ← get
  let behind := position + s.width
  if buffer.length < behind then
    return .error (.outOfBounds position s.width (buffer.length - position))
  else
    let bytes ← buffer.readRange position behind
    set (Cursor.mk buffer behind)
    return .ok (s.value bytes)

variable {buffer : Bytes} {position : Nat} {s : Reader.Step}

/-- A read past the end fails before anything is changed. -/
theorem read_of_lt (h : buffer.length < position + s.width) :
    (read s).run ⟨buffer, position⟩ =
      .ok (.error (.outOfBounds position s.width (buffer.length - position)),
        ⟨buffer, position⟩) := by
  simp only [read, StateT.run_bind, StateT.run_get, pure_bind, if_pos h]
  rfl

theorem read_of_le (h : position + s.width ≤ buffer.length) :
    (read s).run ⟨buffer, position⟩ =
      .ok (.ok (s.value (buffer.slice position s.width)), ⟨buffer, position + s.width⟩) := by
  have htaken : buffer.readRange position (position + s.width) =
      .ok (buffer.slice position s.width) := by
    rw [Bytes.readRange, if_pos ⟨Nat.le_add_right _ _, h⟩, Nat.add_sub_cancel_left, Bytes.slice]
  simp only [read, StateT.run_bind, StateT.run_get, pure_bind, if_neg (Nat.not_lt.2 h), htaken]
  rfl

end Cursor

namespace Reader

/-- **In place a read gives the same answer** and leaves the same position. -/
theorem read_cursor (s : Step) (r : Reader) :
    (Cursor.read s).run r.cursor = .ok ((attempt s r).1, (attempt s r).2.cursor) := by
  rcases Nat.lt_or_ge r.remaining s.width with hlt | hle
  · have hlong : r.bytes.length < r.position + s.width :=
      Nat.not_le.1 (mt (r.width_le_iff s).2 (Nat.not_le.2 hlt))
    rw [cursor, Cursor.read_of_lt hlong, attempt_of_lt hlt]
    rfl
  · have hfits : r.position + s.width ≤ r.bytes.length := (r.width_le_iff s).1 hle
    rw [cursor, Cursor.read_of_le hfits, attempt_of_le hle]
    rfl

end Reader

/-! ### Matching reads -/

/-- A read that matches a call, and the value that it has to give: what was written, in two's
complement if it is read as a signed word, and nothing if it is passed over. -/
inductive Writer.Step.ReadAs : Writer.Step → Reader.Step × Reader.Value → Prop
  | u8 (value : UInt8) : ReadAs (.u8 value) (.u8, .u8 value)
  | u16 (value : UInt16) : ReadAs (.u16 value) (.u16, .u16 value)
  | i16 (value : UInt16) : ReadAs (.u16 value) (.i16, .i16 value.toInt16)
  | u32 (value : UInt32) : ReadAs (.u32 value) (.u32, .u32 value)
  | i32 (value : UInt32) : ReadAs (.u32 value) (.i32, .i32 value.toInt32)
  | slice (field : Bytes) : ReadAs (.slice field) (.slice field.length, .slice field)
  | zeros (count : Nat) : ReadAs (.zeros count) (.slice count, .slice (List.replicate count 0))
  | skipped (s : Writer.Step) : ReadAs s (.skip s.width, .skipped)

namespace Writer.Step.ReadAs

variable {s : Writer.Step} {read : Reader.Step × Reader.Value}

theorem width_eq (h : s.ReadAs read) : read.1.width = s.width := by
  cases h <;> rfl

/-- The bytes of the call stand for the value. -/
theorem value_eq (h : s.ReadAs read) : read.1.value s.bytes = read.2 := by
  cases h <;> simp [bytes, Reader.Step.value, LittleEndian.decode_ofUInt16,
    LittleEndian.decode_ofUInt32, LittleEndian.decode]

end Writer.Step.ReadAs

namespace Reader

/-- **Matching reads give what was written**, and end behind it. -/
theorem answers_of_readAs {steps : List Writer.Step} {reads : List (Step × Value)} {behind : Bytes}
    (h : List.Forall₂ Writer.Step.ReadAs steps reads)
    (hunread : r.unread = steps.flatMap Writer.Step.bytes ++ behind) :
    Consecutive.answers attempt r (reads.map Prod.fst) = reads.map (fun read => .ok read.2) ∧
      (Consecutive.after attempt r (reads.map Prod.fst)).unread = behind := by
  induction h generalizing r with
  | nil => exact ⟨rfl, hunread⟩
  | @cons s read steps reads hread _ ih =>
    rw [List.flatMap_cons, List.append_assoc] at hunread
    have hwidth : s.bytes.length = read.1.width := s.length_bytes.trans hread.width_eq.symm
    have hfits : read.1.width ≤ r.remaining := by
      rw [← r.length_unread, hunread, List.length_append, hwidth]
      exact Nat.le_add_right _ _
    have hrest : (r.passing read.1.width hfits).unread =
        steps.flatMap Writer.Step.bytes ++ behind := by
      rw [unread_passing, hunread, List.drop_left' hwidth]
    obtain ⟨hanswers, hbehind⟩ := ih hrest
    rw [List.map_cons, Consecutive.answers_cons, Consecutive.after_cons, attempt_of_le hfits,
      hunread, List.take_left' hwidth, hread.value_eq, hanswers]
    exact ⟨rfl, hbehind⟩

end Reader

/-! ### The whole rule -/

namespace Writer

open Consecutive (answers after)

/-- What is known of the answers to calls on a new writer over an area, of the writer behind them,
and of reads from what was written. -/
structure CarriesOut (area : Bytes) (steps : List Step) (given : List (Except WriterError Unit))
    (w : Writer) : Prop where
  /-- A call is refused if and only if it asks for more than the calls before it have left. -/
  answered : ∀ early step late, steps = early ++ step :: late →
    let before := after attempt (ofArea area) early
    given[early.length]? = some (if step.width ≤ before.available then .ok ()
      else .error (.outOfBounds step.width before.available))
  /-- A call that is refused changes nothing, so the next one goes on from the same place. -/
  unchanged : ∀ early step late, steps = early ++ step :: late →
    let before := after attempt (ofArea area) early
    before.available < step.width → after attempt (ofArea area) (early ++ [step]) = before
  /-- In place the calls make no access outside of the buffer, give the same answers and leave the
  same buffer and position. -/
  inPlace : (steps.mapM fun step => Cursor.write step.bytes).run ⟨area, 0⟩ = .ok (given, w.cursor)
  /-- In front of the position stand the bytes of the calls that were carried out. -/
  written : w.area.take w.position = (accepted steps given).flatMap Step.bytes
  /-- From the position on the area holds what it held before. -/
  kept : ∀ i, w.position ≤ i → w.area[i]? = area[i]?
  /-- Reads that match the calls that were carried out give what was written, and nothing is left
  behind them. -/
  readBack : ∀ reads, List.Forall₂ Step.ReadAs (accepted steps given) reads →
    let r := Reader.ofBytes (w.area.take w.position)
    answers Reader.attempt r (reads.map Prod.fst) = reads.map (fun read => .ok read.2) ∧
      (after Reader.attempt r (reads.map Prod.fst)).remaining = 0
  /-- A read past the end fails and leaves the reader where it is, whatever was read before. -/
  pastEnd : ∀ reads read,
    let r := after Reader.attempt (.ofBytes (w.area.take w.position)) reads
    r.remaining < read.width →
      Reader.attempt read r = (.error (.outOfBounds r.position read.width r.remaining), r)
  /-- In place the reads make no access outside of the buffer either. -/
  readInPlace : ∀ reads : List Reader.Step,
    let r := Reader.ofBytes (w.area.take w.position)
    (reads.mapM Cursor.read).run r.cursor =
      .ok (answers Reader.attempt r reads, (after Reader.attempt r reads).cursor)

/-- **Calls on a writer are carried out as a whole or refused**, and what they wrote is read
back. -/
theorem carriesOut (area : Bytes) (steps : List Step) :
    CarriesOut area steps (answers attempt (ofArea area) steps)
      (after attempt (ofArea area) steps) := by
  have hwrites := writes_after (ofArea area) steps
  obtain ⟨hposition, harea⟩ := hwrites.area_eq
  refine ⟨?answered, ?unchanged, Consecutive.run_eq_pure write_cursor (ofArea area) steps,
    hwrites.written, ?kept, ?readBack, fun reads read => Reader.attempt_of_lt,
    fun reads => Consecutive.run_eq_pure Reader.read_cursor _ reads⟩
  case answered =>
    rintro early step late rfl before
    rw [Consecutive.getElem?_answers]
    split
    · next hle =>
      obtain ⟨w', hw', -⟩ := attempt_of_le hle
      rw [hw']
    · next hgt => rw [attempt_of_lt (Nat.lt_of_not_le hgt)]
  case unchanged =>
    intro early step late _ before hlt
    rw [Consecutive.after_concat, attempt_of_lt hlt]
  case kept =>
    intro i hi
    rw [harea, List.getElem?_append_right (by omega), List.getElem?_drop, ← hposition,
      Nat.add_sub_cancel' hi]
  case readBack =>
    intro reads hreads r
    have hunread : r.unread = (accepted steps (answers attempt (ofArea area) steps)).flatMap
        Step.bytes ++ [] := by
      rw [List.append_nil]
      exact hwrites.written
    obtain ⟨hanswers, hbehind⟩ := Reader.answers_of_readAs hreads hunread
    refine ⟨hanswers, ?_⟩
    rw [← Reader.length_unread, hbehind, List.length_nil]

end Writer

end GnssLink
