import GnssLink.Proofs.Command.Framing

/-!
# Framing in place

The buffer of a command is filled step by step: the command lays its payload into a part of it, the
header is copied in front of the payload, the checksum is taken of a part of the buffer, and its two
sums are stored one after the other.  Here each of these accesses names its range, and one that
leaves the buffer fails.  None ever does, whatever the command answers, and what is left in the
buffer is what framing in one piece gives (`Command.encodeInPlace_eq`).

## Main definitions

* `OutOfRange` — an access that leaves a buffer.
* `Bytes.readRange`, `Bytes.replaceRange`, `Bytes.replaceByte` — the accesses.
* `Frame.finishInPlace`, `Command.encodeInPlace` — framing, access by access.

## Main results

* `Frame.finishInPlace_eq`, `Command.encodeInPlace_eq` — no access leaves the buffer, and the answer
  is that of `Frame.finish` and `Command.encode`.
-/

namespace GnssLink

/-! ### Accesses -/

/-- An access to the bytes from `first` on and in front of `behind`, in a buffer that does not have
them all. -/
structure OutOfRange where
  first : Nat
  behind : Nat
  length : Nat
  deriving DecidableEq, Repr

namespace Bytes

variable {buffer : Bytes} {first behind index : Nat} {byte : UInt8}

/-- The bytes of a range. -/
def readRange (buffer : Bytes) (first behind : Nat) : Except OutOfRange Bytes :=
  if first ≤ behind ∧ behind ≤ buffer.length then
    .ok ((buffer.drop first).take (behind - first))
  else
    .error ⟨first, behind, buffer.length⟩

/-- The buffer with as many other bytes in a range. -/
def replaceRange (buffer : Bytes) (first behind : Nat) (bytes : Bytes) : Except OutOfRange Bytes :=
  if first + bytes.length = behind ∧ behind ≤ buffer.length then
    .ok (buffer.take first ++ bytes ++ buffer.drop behind)
  else
    .error ⟨first, behind, buffer.length⟩

/-- The buffer with another byte at an index. -/
def replaceByte (buffer : Bytes) (index : Nat) (byte : UInt8) : Except OutOfRange Bytes :=
  if index < buffer.length then
    .ok (buffer.set index byte)
  else
    .error ⟨index, index + 1, buffer.length⟩

/-- A buffer with room for two bytes begins with two. -/
theorem exists_cons_cons (h : 2 ≤ buffer.length) :
    ∃ old old' after, buffer = old :: old' :: after := by
  rcases buffer with _ | ⟨old, _ | ⟨old', after⟩⟩
  · exact absurd h (by decide)
  · exact absurd h (by simp)
  · exact ⟨old, old', after, rfl⟩

theorem readRange_append {before middle after : Bytes} (hfirst : before.length = first)
    (hbehind : first + middle.length = behind) :
    (before ++ (middle ++ after)).readRange first behind = .ok middle := by
  have hinside : first ≤ behind ∧ behind ≤ (before ++ (middle ++ after)).length := by
    simp only [List.length_append]
    omega
  have hwidth : behind - first = middle.length := by omega
  rw [readRange, if_pos hinside, List.drop_left' hfirst, hwidth, List.take_left]

theorem replaceRange_append {before old new after : Bytes} (hfirst : before.length = first)
    (hbehind : first + old.length = behind) (hsame : new.length = old.length) :
    (before ++ (old ++ after)).replaceRange first behind new = .ok (before ++ (new ++ after)) := by
  have hinside : first + new.length = behind ∧ behind ≤ (before ++ (old ++ after)).length := by
    simp only [List.length_append]
    omega
  have hdrop : (before ++ (old ++ after)).drop behind = after := by
    rw [← List.append_assoc, List.drop_left' (by rw [List.length_append]; omega)]
  rw [replaceRange, if_pos hinside, List.take_left' hfirst, hdrop, List.append_assoc]

theorem replaceByte_append {before after : Bytes} {old : UInt8} (hindex : before.length = index) :
    (before ++ old :: after).replaceByte index byte = .ok (before ++ byte :: after) := by
  have hinside : index < (before ++ old :: after).length := by
    rw [List.length_append, List.length_cons]
    omega
  rw [replaceByte, if_pos hinside, List.set_append_right _ _ (Nat.le_of_eq hindex), hindex,
    Nat.sub_self, List.set_cons_zero]

end Bytes

/-! ### Framing -/

namespace Frame

variable {type : MessageType} {room payload after : Bytes} {old old' : UInt8}

/-- Copy the header in front of a payload of `n` bytes, and store the two sums behind it. -/
def sealInPlace (type : MessageType) (n : Nat) (buffer : Bytes) : Except OutOfRange Bytes := do
  let header := [sync1, sync2, type.cls, type.id] ++ LittleEndian.encode 2 n
  let buffer ← buffer.replaceRange 0 headerLength header
  let sum := Checksum.ofBytes (← buffer.readRange 2 (headerLength + n))
  let buffer ← buffer.replaceByte (headerLength + n) sum.a
  buffer.replaceByte (headerLength + n + 1) sum.b

/-- Put header and checksum around a payload of `n` bytes that stands in the buffer behind the room
for the header, access by access. -/
def finishInPlace (type : MessageType) (n : Nat) (buffer : Bytes) :
    Except OutOfRange (Except SerializationError (Nat × Bytes)) :=
  if n < UInt16.size ∧ wireLength n ≤ buffer.length then do
    return .ok (wireLength n, ← sealInPlace type n buffer)
  else
    return .error .bufferTooSmall

/-- The header and the payload are the synchronisation bytes and the body. -/
theorem header_append (type : MessageType) (payload behind : Bytes) :
    [sync1, sync2, type.cls, type.id] ++ LittleEndian.encode 2 payload.length ++
      (payload ++ behind) = [sync1, sync2] ++ ((Frame.mk type payload).body ++ behind) := by
  simp only [body, List.cons_append, List.nil_append, List.append_assoc]

/-- Around a payload with two more bytes behind it all accesses stay inside. -/
theorem sealInPlace_append (hroom : room.length = headerLength) :
    sealInPlace type payload.length (room ++ (payload ++ old :: old' :: after)) =
      .ok ((Frame.mk type payload).wire ++ after) := by
  -- the accesses only depend on where the body stands and how long it is
  obtain ⟨body, hbody⟩ : ∃ body, body = (Frame.mk type payload).body := ⟨_, rfl⟩
  have hlength : ([sync1, sync2] ++ body).length = headerLength + payload.length := by
    have hbound := length_body (Frame.mk type payload)
    rw [← hbody] at hbound
    simp only [List.length_append, List.length_cons, List.length_nil, hbound, headerLength]
    omega
  have hcopied : Bytes.replaceRange (room ++ (payload ++ old :: old' :: after)) 0 headerLength
      ([sync1, sync2, type.cls, type.id] ++ LittleEndian.encode 2 payload.length) =
      .ok ([sync1, sync2] ++ (body ++ old :: old' :: after)) := by
    have hreplaced : Bytes.replaceRange ([] ++ (room ++ (payload ++ old :: old' :: after))) 0
        headerLength ([sync1, sync2, type.cls, type.id] ++ LittleEndian.encode 2 payload.length) =
        _ :=
      Bytes.replaceRange_append rfl ((Nat.zero_add _).trans hroom) hroom.symm
    rwa [header_append, ← hbody] at hreplaced
  have htaken : Bytes.readRange ([sync1, sync2] ++ (body ++ old :: old' :: after)) 2
      (headerLength + payload.length) = .ok body :=
    Bytes.readRange_append rfl (by rw [← hlength, List.length_append]; rfl)
  have hfirst : ∀ byte, Bytes.replaceByte ([sync1, sync2] ++ (body ++ old :: old' :: after))
      (headerLength + payload.length) byte =
      .ok ([sync1, sync2] ++ body ++ [byte] ++ old' :: after) := by
    intro byte
    rw [← List.append_assoc, Bytes.replaceByte_append hlength, List.append_assoc _ [byte]]
    rfl
  have hsecond : ∀ byte byte', Bytes.replaceByte ([sync1, sync2] ++ body ++ [byte] ++ old' :: after)
      (headerLength + payload.length + 1) byte' =
      .ok ([sync1, sync2] ++ body ++ [byte] ++ byte' :: after) := by
    intro byte byte'
    exact Bytes.replaceByte_append (by rw [List.length_append, hlength]; rfl)
  simp only [sealInPlace, bind, Except.bind, hcopied, htaken, hfirst, hsecond]
  simp only [wire, ← hbody, Checksum.toBytes, List.append_assoc, List.cons_append, List.nil_append]

/-- No access of `Frame.finishInPlace` leaves the buffer. -/
theorem finishInPlace_eq (type : MessageType) (n : Nat) (buffer : Bytes) :
    finishInPlace type n buffer = .ok (finish type n buffer) := by
  by_cases hfits : n < UInt16.size ∧ wireLength n ≤ buffer.length
  · have hbound : headerLength + n + checksumLength ≤ buffer.length := hfits.2
    obtain ⟨room, payload, behind, rfl, hroom, rfl⟩ :=
      Bytes.exists_parts (Nat.le_trans (Nat.le_add_right _ checksumLength) hbound)
    have hsums : checksumLength ≤ behind.length := by
      simp only [List.length_append, hroom] at hbound
      omega
    obtain ⟨old, old', after, rfl⟩ := Bytes.exists_cons_cons hsums
    rw [finish_eq hroom hfits.1 hsums, finishInPlace, if_pos hfits, sealInPlace_append hroom]
    rfl
  · rw [finishInPlace, if_neg hfits, finish, if_neg hfits]
    rfl

end Frame

namespace Command

/-- Lay the frame of a command at the start of a buffer, access by access. -/
def encodeInPlace (c : Command) (buffer : Bytes) :
    Except OutOfRange (Except SerializationError (Nat × Bytes)) :=
  if buffer.length < Frame.wireLength 0 then
    return .error .bufferTooSmall
  else do
    let behind := Frame.headerLength + (buffer.length - Frame.wireLength 0)
    let area ← Bytes.readRange buffer Frame.headerLength behind
    match c.layOut area with
    | .error e => return .error e
    | .ok (n, area) =>
      let buffer ← Bytes.replaceRange buffer Frame.headerLength behind area
      Frame.finishInPlace c.type n buffer

/-- **No access leaves the buffer**, whatever the command answers, and framing in place gives what
framing in one piece gives. -/
theorem encodeInPlace_eq (c : Command) (buffer : Bytes) :
    c.encodeInPlace buffer = .ok (c.encode buffer) := by
  by_cases hshort : buffer.length < Frame.wireLength 0
  · rw [encodeInPlace, if_pos hshort, c.encode_of_short hshort]
    rfl
  · obtain ⟨header, area, sums, rfl, hheader, hsums⟩ := Frame.exists_rooms (Nat.le_of_not_lt hshort)
    have hempty : Frame.wireLength 0 = Frame.headerLength + Frame.checksumLength := rfl
    have hbehind : Frame.headerLength + area.length = Frame.headerLength +
        ((header ++ (area ++ sums)).length - Frame.wireLength 0) := by
      simp only [List.length_append]
      omega
    rw [c.encode_append hheader hsums, encodeInPlace, if_neg hshort]
    simp only [bind, Except.bind, Bytes.readRange_append hheader hbehind]
    cases hlaid : c.layOut area with
    | error e => rfl
    | ok answer =>
      obtain ⟨n, area'⟩ := answer
      have hsame : area'.length = area.length := c.length_layOut hlaid
      simp only [Bytes.replaceRange_append hheader hbehind hsame, Frame.finishInPlace_eq]

end Command

end GnssLink
