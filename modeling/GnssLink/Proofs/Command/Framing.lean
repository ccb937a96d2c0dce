import GnssLink.Command.Configuration
import GnssLink.Proofs.Frame.Wire

/-!
# What a buffer holds after framing

A frame is put around a payload that already stands in the buffer, and around a payload that is
given; in both cases the buffer begins with the wire form of the frame and keeps the bytes behind
it (`Frame.finish_eq`, `Frame.encode_eq`).  So the frame of a command is the wire form of the bytes
that it lays out (`Command.LaysOut.encode_eq`), which for a list of fields are their join.

## Main definitions

* `Frame.encoded` — the bytes that a frame is encoded into.
* `Command.LaysOut` — the bytes that a command lays out.
* `Command.transmitted` — the bytes that are written when a command is sent.

## Main results

* `Frame.encode_eq` — a frame is encoded in its wire form whenever there is room for it.
* `Command.encode_append` — a command lays out its payload between header and checksum.
* `Command.LaysOut.encode_eq` — a command is framed around the bytes that it lays out.
* `Command.encode_ofFields` — a list of fields is framed as their join.
* `Command.transmitted_ofFields` — the bytes that are written for a list of fields.
-/

namespace GnssLink

/-- A buffer that is long enough has a part of some length behind a part of another. -/
theorem Bytes.exists_parts {buffer : Bytes} {first n : Nat} (h : first + n ≤ buffer.length) :
    ∃ before middle after : Bytes, buffer = before ++ (middle ++ after) ∧
      before.length = first ∧ middle.length = n := by
  refine ⟨buffer.take first, (buffer.drop first).take n, (buffer.drop first).drop n, ?_, ?_, ?_⟩
  · rw [List.take_append_drop, List.take_append_drop]
  · exact List.length_take_of_le (by omega)
  · exact List.length_take_of_le (by rw [List.length_drop]; omega)

/-! ### Frames in a buffer -/

namespace Frame

/-- A buffer with room for a frame without payload has parts for the header, for what a command lays
out, and for the checksum. -/
theorem exists_rooms {buffer : Bytes} (h : wireLength 0 ≤ buffer.length) :
    ∃ header area sums : Bytes, buffer = header ++ (area ++ sums) ∧
      header.length = headerLength ∧ sums.length = checksumLength := by
  have hempty : wireLength 0 = headerLength + checksumLength := rfl
  have hlong : headerLength + (buffer.length - wireLength 0) ≤ buffer.length := by omega
  obtain ⟨header, area, sums, rfl, hheader, harea⟩ := Bytes.exists_parts hlong
  refine ⟨header, area, sums, rfl, hheader, ?_⟩
  simp only [List.length_append] at harea h
  omega

/-- Header and checksum are put around a payload that stands behind the room for the header. -/
theorem finish_eq {type : MessageType} {room payload behind : Bytes}
    (hroom : room.length = headerLength) (hlt : payload.length < UInt16.size)
    (hbehind : checksumLength ≤ behind.length) :
    finish type payload.length (room ++ (payload ++ behind)) =
      .ok (wireLength payload.length,
        (Frame.mk type payload).wire ++ behind.drop checksumLength) := by
  have hfits : wireLength payload.length ≤ (room ++ (payload ++ behind)).length := by
    simp only [wireLength, List.length_append, hroom]
    omega
  have hpayload : ((room ++ (payload ++ behind)).drop headerLength).take payload.length =
      payload := by
    rw [← hroom, List.drop_left, List.take_left]
  have hrest : (room ++ (payload ++ behind)).drop (wireLength payload.length) =
      behind.drop checksumLength := by
    rw [wireLength, ← hroom, Nat.add_assoc, List.drop_length_add_append,
      List.drop_length_add_append]
  rw [finish, if_pos ⟨hlt, hfits⟩]
  simp only [hpayload, hrest]

/-- **A frame is encoded in its wire form.**  Its length is that of the wire form, and the bytes of
the buffer behind it stay. -/
theorem encode_eq (f : Frame) {buffer : Bytes} (hlt : f.payload.length < UInt16.size)
    (hfits : wireLength f.payload.length ≤ buffer.length) :
    f.encode buffer = .ok (wireLength f.payload.length,
      f.wire ++ buffer.drop (wireLength f.payload.length)) := by
  have hbound : headerLength + f.payload.length + checksumLength ≤ buffer.length := hfits
  have hroom : (buffer.take headerLength).length = headerLength :=
    List.length_take_of_le (by omega)
  have hbehind : checksumLength ≤ (buffer.drop (headerLength + f.payload.length)).length := by
    rw [List.length_drop]
    omega
  rw [encode, if_pos hfits, List.append_assoc, finish_eq hroom hlt hbehind, List.drop_drop]
  rfl

/-- The bytes that a frame is encoded into, at the start of a buffer. -/
def encoded (f : Frame) (buffer : Bytes) : Except SerializationError Bytes :=
  (f.encode buffer).map fun answer => answer.2.take answer.1

/-- What a frame is encoded into is its wire form. -/
theorem eq_wire_of_encoded {f : Frame} {buffer bytes : Bytes}
    (hlt : f.payload.length < UInt16.size) (h : f.encoded buffer = .ok bytes) :
    bytes = f.wire := by
  by_cases hfits : wireLength f.payload.length ≤ buffer.length
  · rw [encoded, f.encode_eq hlt hfits, ← f.length_wire] at h
    simpa [Except.map] using h.symm
  · simp [encoded, encode, hfits, Except.map] at h

end Frame

/-! ### Fields in an area -/

namespace Writer

theorem written_append_unwritten (w : Writer) : w.written ++ w.unwritten = w.area :=
  List.take_append_drop _ _

theorem length_written (w : Writer) : w.written.length = w.position :=
  List.length_take_of_le w.position_le

theorem length_unwritten (w : Writer) : w.unwritten.length = w.available :=
  List.length_drop

/-- A field that was written takes its room. -/
theorem available_write {w w' : Writer} {field : Bytes} (h : w.write field = .ok w') :
    w'.available = w.available - field.length := by
  rw [← length_unwritten, ← length_unwritten, unwritten_write h, List.length_drop]

/-- Fields that fit together are all written, one behind the other. -/
theorem writeAll_of_le {w : Writer} {fields : List Bytes}
    (h : fields.flatten.length ≤ w.available) :
    ∃ w', w.writeAll fields = .ok w' ∧ w'.written = w.written ++ fields.flatten ∧
      w'.unwritten = w.unwritten.drop fields.flatten.length := by
  induction fields generalizing w with
  | nil => exact ⟨w, rfl, (List.append_nil _).symm, rfl⟩
  | cons field rest ih =>
    rw [List.flatten_cons, List.length_append] at h
    obtain ⟨v, hv⟩ := (w.write_eq_ok_iff field).2 (by omega)
    have hunwritten := unwritten_write hv
    have havailable := available_write hv
    have hrest : rest.flatten.length ≤ v.available := by omega
    obtain ⟨w', hw', hwritten', hunwritten'⟩ := ih hrest
    refine ⟨w', ?_, ?_, ?_⟩
    · simp only [writeAll, List.foldlM_cons, hv]
      exact hw'
    · rw [hwritten', written_write hv, List.flatten_cons, List.append_assoc]
    · rw [hunwritten', hunwritten, List.flatten_cons, List.drop_drop, List.length_append]

/-- Fields that do not fit together are refused at one of them. -/
theorem writeAll_of_lt {w : Writer} {fields : List Bytes}
    (h : w.available < fields.flatten.length) : ∃ e, w.writeAll fields = .error e := by
  induction fields generalizing w with
  | nil => exact absurd h (Nat.not_lt_zero _)
  | cons field rest ih =>
    rw [List.flatten_cons, List.length_append] at h
    simp only [writeAll, List.foldlM_cons]
    cases hfield : w.write field with
    | error e => exact ⟨e, rfl⟩
    | ok v =>
      have hroom := (w.write_eq_ok_iff field).1 ⟨v, hfield⟩
      have havailable := available_write hfield
      exact ih (by omega)

end Writer

/-! ### Commands -/

namespace Command

/-- The command lays out these bytes: they are put at the start of every area that they fit into,
whose other bytes stay, and a shorter area is refused. -/
structure LaysOut (c : Command) (payload : Bytes) : Prop where
  fits : ∀ {area : Bytes}, payload.length ≤ area.length →
    c.layOut area = .ok (payload.length, payload ++ area.drop payload.length)
  refuses : ∀ {area : Bytes}, area.length < payload.length → ∃ e, c.layOut area = .error e

/-- A list of fields lays out their join. -/
theorem laysOut_ofFields (type : MessageType) (fields : List Bytes) :
    (ofFields type fields).LaysOut fields.flatten where
  fits := by
    intro area h
    have hroom : fields.flatten.length ≤ (Writer.ofArea area).available := h
    obtain ⟨w, hw, hwritten, hunwritten⟩ := Writer.writeAll_of_le hroom
    have hposition : w.position = fields.flatten.length := by
      rw [← w.length_written, hwritten]
      rfl
    have harea : w.area = fields.flatten ++ area.drop fields.flatten.length := by
      rw [← w.written_append_unwritten, hwritten, hunwritten]
      rfl
    simp only [ofFields, hw, hposition, harea]
  refuses := by
    intro area h
    have hroom : (Writer.ofArea area).available < fields.flatten.length := h
    obtain ⟨e, he⟩ := Writer.writeAll_of_lt hroom
    exact ⟨.writer e, by simp only [ofFields, he]⟩

/-- A buffer that is too short for a frame without payload is refused at once. -/
theorem encode_of_short (c : Command) {buffer : Bytes} (h : buffer.length < Frame.wireLength 0) :
    c.encode buffer = .error .bufferTooSmall :=
  if_pos h

/-- In any other buffer the command lays out its payload between the rooms for the header and for
the checksum, and the frame is finished around it. -/
theorem encode_append (c : Command) {header area sums : Bytes}
    (hheader : header.length = Frame.headerLength) (hsums : sums.length = Frame.checksumLength) :
    c.encode (header ++ (area ++ sums)) =
      match c.layOut area with
      | .error e => .error e
      | .ok (n, area') => Frame.finish c.type n (header ++ (area' ++ sums)) := by
  have hempty : Frame.wireLength 0 = Frame.headerLength + Frame.checksumLength := rfl
  have hlength : (header ++ (area ++ sums)).length = area.length + Frame.wireLength 0 := by
    simp only [List.length_append]
    omega
  have hroom : (header ++ (area ++ sums)).length - Frame.wireLength 0 = area.length := by omega
  have hsplit : (header ++ (area ++ sums)).drop (Frame.headerLength + area.length) = sums := by
    rw [← List.drop_drop, List.drop_left' hheader, List.drop_left]
  have hlong : ¬(header ++ (area ++ sums)).length < Frame.wireLength 0 := by omega
  cases h : c.layOut area <;>
    simp only [encode, if_neg hlong, hroom, List.take_left' hheader, List.drop_left' hheader,
      List.take_left, hsplit, List.append_assoc, h]

/-- **A command is framed around the bytes that it lays out.**  Its frame has the wire form, and the
bytes of the buffer behind it stay. -/
theorem LaysOut.encode_eq {c : Command} {payload buffer : Bytes} (h : c.LaysOut payload)
    (hlt : payload.length < UInt16.size)
    (hfits : Frame.wireLength payload.length ≤ buffer.length) :
    c.encode buffer = .ok (Frame.wireLength payload.length,
      (Frame.mk c.type payload).wire ++ buffer.drop (Frame.wireLength payload.length)) := by
  have hempty : Frame.wireLength 0 ≤ Frame.wireLength payload.length := by
    simp only [Frame.wireLength]
    omega
  obtain ⟨header, area, sums, rfl, hheader, hsums⟩ :=
    Frame.exists_rooms (Nat.le_trans hempty hfits)
  have harea : payload.length ≤ area.length := by
    simp only [Frame.wireLength, List.length_append] at hfits
    omega
  have hbehind : Frame.checksumLength ≤ (area.drop payload.length ++ sums).length := by
    rw [List.length_append]
    omega
  have hdrop : (header ++ (area ++ sums)).drop (Frame.wireLength payload.length) =
      (area.drop payload.length ++ sums).drop Frame.checksumLength := by
    rw [Frame.wireLength, ← List.drop_drop, ← List.drop_drop, List.drop_left' hheader,
      List.drop_append_of_le_length harea]
  rw [c.encode_append hheader hsums, h.fits harea, hdrop]
  simp only [List.append_assoc]
  exact Frame.finish_eq hheader hlt hbehind

/-- A list of fields is framed as their join. -/
theorem encode_ofFields {type : MessageType} {fields : List Bytes} {buffer : Bytes}
    (hlt : fields.flatten.length < UInt16.size)
    (hfits : Frame.wireLength fields.flatten.length ≤ buffer.length) :
    (ofFields type fields).encode buffer = .ok (Frame.wireLength fields.flatten.length,
      (Frame.mk type fields.flatten).wire ++
        buffer.drop (Frame.wireLength fields.flatten.length)) :=
  (laysOut_ofFields type fields).encode_eq hlt hfits

/-- The bytes that are written when a command is sent. -/
def transmitted (c : Command) : Bytes :=
  match c.encode (List.replicate transmitCapacity 0) with
  | .ok (n, buffer) => buffer.take n
  | .error _ => []

theorem transmitted_ofFields {type : MessageType} {fields : List Bytes}
    (h : fields.flatten.length ≤ maxCommandPayload) :
    (ofFields type fields).transmitted = (Frame.mk type fields.flatten).wire := by
  have hlt : fields.flatten.length < UInt16.size := Nat.lt_of_le_of_lt h (by decide)
  have hfits : Frame.wireLength fields.flatten.length ≤
      (List.replicate transmitCapacity (0 : UInt8)).length := by
    simp only [List.length_replicate, transmitCapacity, Frame.wireLength]
    omega
  simp only [transmitted, encode_ofFields hlt hfits]
  rw [← Frame.length_wire (Frame.mk type fields.flatten), List.take_left]

end Command

end GnssLink
