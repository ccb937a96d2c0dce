import GnssLink.Proofs.Command.Framing
import GnssLink.Proofs.Consecutive
import GnssLink.Proofs.Frame.RoundTrip
import GnssLink.Proofs.Message.Placing
import GnssLink.Proofs.Negotiation.Sending

/-!
# Configuration commands are recovered

A rate command and a selection of satellite systems always fit the transmit buffer.  A decoder that
is fed the frame reports it with its last byte, and the parameters of the command stand in the
payload that is reported: bytes and half words at their offsets, and the blocks of a selection one
behind the other, as many as the header says (`ConfigCommand.recovered`).

A selection takes up seven systems.  The eighth and every later one is refused and changes nothing,
neither in the list of the systems nor in the cells and the number that stand for it in memory
(`SystemSelection.push_cells`).

## Main definitions

* `MessageRate.ofPayload`, `MeasurementRate.ofPayload`, `SystemSelection.ofPayload` — the parameters
  of a command in its payload.
* `Command.Recovers` — a command that is encoded, decoded and read back.
* `SystemSelection.attempt` — a system is added or refused.
* `SystemCells`, `SystemCells.push` — a selection in memory, and the same in place.
* `SystemSelection.TakesUp` — what is known of adding systems to an empty selection.

## Main results

* `SystemSelection.blocks_after` — a selection holds the first systems that were added.
* `SystemSelection.push_cells` — adding a system in place.
* `ConfigCommand.recovered` — the rule for the three commands.
-/

namespace GnssLink

/-! ### Parameters in a payload -/

/-- Class and id of the message, and the rate. -/
def MessageRate.ofPayload (payload : Bytes) : MessageRate :=
  ⟨⟨payload.u8At 0, payload.u8At 1⟩, payload.u8At 2⟩

/-- Period, number of measurements and time scale. -/
def MeasurementRate.ofPayload (payload : Bytes) : MeasurementRate :=
  ⟨payload.u16At 0, payload.u16At 2, payload.u16At 4⟩

namespace GnssBlock

/-- The first eight bytes of what is left: system, the two numbers of channels, the flag and the
mask, with a reserved byte behind each of the last three. -/
def ofPayload (payload : Bytes) : GnssBlock where
  system := payload.u8At 0
  reservedChannels := payload.u8At 1
  maxChannels := payload.u8At 2
  enabled := payload.u8At 4 ≠ 0
  signalMask := payload.u8At 6

/-- Several blocks of eight bytes, one behind the other. -/
def listOfPayload : Nat → Bytes → List GnssBlock
  | 0, _ => []
  | count + 1, payload => ofPayload payload :: listOfPayload count (payload.drop 8)

end GnssBlock

/-- The number of blocks in the header, and that many blocks behind it. -/
def SystemSelection.ofPayload (payload : Bytes) : Nat × List GnssBlock :=
  ((payload.u8At 3).toNat, GnssBlock.listOfPayload (payload.u8At 3).toNat (payload.drop 4))

theorem MessageRate.ofPayload_fields (m : MessageRate) :
    ofPayload [m.target.cls, m.target.id, m.rate] = m := by
  simp [ofPayload, Bytes.u8At, Bytes.slice, LittleEndian.decode]

theorem MeasurementRate.ofPayload_fields (m : MeasurementRate) :
    ofPayload (LittleEndian.ofUInt16 m.period ++ (LittleEndian.ofUInt16 m.perSolution ++
      LittleEndian.ofUInt16 m.timeReference)) = m := by
  show MeasurementRate.mk (UInt16.ofNat (LittleEndian.decode (LittleEndian.ofUInt16 m.period)))
    (UInt16.ofNat (LittleEndian.decode (LittleEndian.ofUInt16 m.perSolution)))
    (UInt16.ofNat (LittleEndian.decode (LittleEndian.ofUInt16 m.timeReference))) = m
  simp only [LittleEndian.decode_ofUInt16, UInt16.ofNat_toNat]

theorem GnssBlock.ofPayload_fields (b : GnssBlock) (behind : Bytes) :
    ofPayload (b.fields.flatten ++ behind) = b := by
  obtain ⟨system, reservedChannels, maxChannels, enabled, signalMask⟩ := b
  cases enabled <;> simp [ofPayload, fields, Bytes.u8At, Bytes.slice, LittleEndian.decode]

/-- Blocks that were laid out one behind the other are read back. -/
theorem GnssBlock.listOfPayload_fields (blocks : List GnssBlock) :
    listOfPayload blocks.length (blocks.flatMap fields).flatten = blocks := by
  induction blocks with
  | nil => rfl
  | cons b blocks ih =>
    have hrest : (b.fields.flatten ++ (blocks.flatMap fields).flatten).drop 8 =
        (blocks.flatMap fields).flatten := List.drop_left' rfl
    rw [List.flatMap_cons, List.flatten_append, List.length_cons, listOfPayload, ofPayload_fields,
      hrest, ih]

theorem SystemSelection.ofPayload_fields (s : SystemSelection) :
    ofPayload ([[0], [0], [usedChannels], [UInt8.ofNat s.blocks.length]] ++
      s.blocks.flatMap GnssBlock.fields).flatten = (s.blocks.length, s.blocks) := by
  have hcount : (UInt8.ofNat s.blocks.length).toNat = s.blocks.length :=
    UInt8.toNat_ofNat_of_lt' (Nat.lt_of_le_of_lt s.length_le (by decide))
  rw [List.flatten_append]
  show ((UInt8.ofNat (LittleEndian.decode [UInt8.ofNat s.blocks.length])).toNat,
    GnssBlock.listOfPayload (UInt8.ofNat (LittleEndian.decode [UInt8.ofNat s.blocks.length])).toNat
      (s.blocks.flatMap GnssBlock.fields).flatten) = _
  simp only [LittleEndian.decode, hcount, Nat.mul_zero, Nat.add_zero]
  rw [GnssBlock.listOfPayload_fields]

/-! ### Encoded, decoded and read back -/

/-- A command is encoded into every transmit buffer; a decoder that searches for a frame reports one
of the type at the last byte, whose payload has the width; and reading that payload gives the
value. -/
def Command.Recovers {α : Type} (c : Command) (type : MessageType) (width : Nat) (read : Bytes → α)
    (value : α) : Prop :=
  ∀ buffer : Bytes, buffer.length = transmitCapacity → ∃ buffer' payload : Bytes,
    c.encode buffer = .ok (8 + width, buffer') ∧ payload.length = width ∧ read payload = value ∧
    ∀ d : Decoder, d.step = .sync1 →
      (d.feedAll (buffer'.take (8 + width))).1 =
        List.replicate (7 + width) .pending ++ [.frame ⟨type, payload⟩]

/-- A command with a list of fields is recovered if they are no longer than the longest payload. -/
theorem Command.recovers_ofFields {α : Type} {type : MessageType} {fields : List Bytes}
    {width : Nat} {read : Bytes → α} {value : α} (hwidth : fields.flatten.length = width)
    (hle : width ≤ maxCommandPayload) (hread : read fields.flatten = value) :
    (ofFields type fields).Recovers type width read value := by
  intro buffer hbuffer
  have hlt : fields.flatten.length < UInt16.size := by
    rw [hwidth]
    exact Nat.lt_of_le_of_lt hle (by decide)
  have hfits : Frame.wireLength fields.flatten.length ≤ buffer.length := by
    rw [hbuffer, hwidth, transmitCapacity, Frame.wireLength, Frame.wireLength]
    omega
  have hlength : Frame.wireLength fields.flatten.length = 8 + width := by
    rw [hwidth, Frame.wireLength_eq]
  have hwire : (Frame.mk type fields.flatten).wire.length = 8 + width := by
    rw [Frame.length_wire, hlength]
  have hencode : (ofFields type fields).encode buffer = .ok (Frame.wireLength fields.flatten.length,
      (Frame.mk type fields.flatten).wire ++
        buffer.drop (Frame.wireLength fields.flatten.length)) := encode_ofFields hlt hfits
  rw [hlength] at hencode
  refine ⟨_, fields.flatten, hencode, hwidth, hread, fun d hd => ?_⟩
  have hpayload : (Frame.mk type fields.flatten).payload.length ≤ Frame.maxPayload := by
    show fields.flatten.length ≤ Frame.maxPayload
    rw [hwidth]
    exact Nat.le_trans hle (by decide)
  obtain ⟨houtcomes, -⟩ := Decoder.feedAll_frame hd hpayload
  rw [List.take_left' hwire, houtcomes, Nat.add_comm 7, ← hwidth]

theorem MessageRate.recovers (m : MessageRate) :
    m.toCommand.Recovers ⟨0x06, 0x01⟩ 3 ofPayload m :=
  Command.recovers_ofFields rfl (by decide) m.ofPayload_fields

theorem MeasurementRate.recovers (m : MeasurementRate) :
    m.toCommand.Recovers ⟨0x06, 0x08⟩ 6 ofPayload m :=
  Command.recovers_ofFields rfl (by decide) m.ofPayload_fields

theorem SystemSelection.recovers (s : SystemSelection) :
    s.toCommand.Recovers ⟨0x06, 0x3E⟩ (4 + 8 * s.blocks.length) ofPayload
      (s.blocks.length, s.blocks) := by
  have hle : 4 + 8 * s.blocks.length ≤ maxCommandPayload := by
    have hlength := s.length_le
    rw [maxCommandPayload]
    omega
  exact Command.recovers_ofFields s.length_fields hle s.ofPayload_fields

/-! ### Adding systems -/

namespace SystemSelection

open Consecutive (answers after)

variable {s : SystemSelection} {b : GnssBlock} {pushed : List GnssBlock}

/-- Add a system.  A selection that refuses it stays as it is. -/
def attempt (b : GnssBlock) : StateM SystemSelection (Except SerializationError Unit) := fun s =>
  match s.push b with
  | .ok s' => (.ok (), s')
  | .error e => (.error e, s)

/-- A selection that is not full takes the system up. -/
theorem attempt_of_lt (h : s.blocks.length < maxGnssBlocks) :
    attempt b s = (.ok (), ⟨s.blocks ++ [b], s.length_append_le b h⟩) := by
  rw [attempt, push_of_lt s b h]

/-- A full selection refuses it. -/
theorem attempt_of_full (h : s.blocks.length = maxGnssBlocks) :
    attempt b s = (.error (.tooManyGnssBlocks (maxGnssBlocks + 1)), s) := by
  rw [attempt, push_of_le s b (Nat.le_of_eq h.symm), h]

theorem lt_or_full (s : SystemSelection) :
    s.blocks.length < maxGnssBlocks ∨ s.blocks.length = maxGnssBlocks :=
  Nat.lt_or_eq_of_le s.length_le

/-- **A selection holds the first systems that were added.** -/
theorem blocks_after (s : SystemSelection) (pushed : List GnssBlock) :
    (after attempt s pushed).blocks = (s.blocks ++ pushed).take maxGnssBlocks := by
  induction pushed generalizing s with
  | nil => rw [List.append_nil, List.take_of_length_le s.length_le]; rfl
  | cons b pushed ih =>
    rw [Consecutive.after_cons]
    rcases s.lt_or_full with hlt | hfull
    · rw [attempt_of_lt hlt, ih, List.append_assoc]
      rfl
    · rw [attempt_of_full hfull, ih, List.take_left' hfull, List.take_left' hfull]

theorem blocks_after_empty (pushed : List GnssBlock) :
    (after attempt empty pushed).blocks = pushed.take maxGnssBlocks :=
  blocks_after empty pushed

theorem length_after_empty (pushed : List GnssBlock) :
    (after attempt empty pushed).blocks.length = min maxGnssBlocks pushed.length := by
  rw [blocks_after_empty, List.length_take]

end SystemSelection

/-! ### In place -/

/-- A selection in memory: a cell for each system that there can be, and the number of those in
use. -/
structure SystemCells where
  cells : List GnssBlock
  count : Nat

namespace SystemCells

/-- Look for the cell behind those in use, write the system into it, and count it. -/
def push (b : GnssBlock) : StateM SystemCells (Except SerializationError Unit) := do
  let s ← get
  if s.count < s.cells.length then
    set { s with cells := s.cells.set s.count b }
    modify fun s => { s with count := s.count + 1 }
    return .ok ()
  else
    return .error (.tooManyGnssBlocks (s.count + 1))

variable {cells : List GnssBlock} {count : Nat} {b : GnssBlock}

theorem push_of_lt (h : count < cells.length) :
    (push b).run ⟨cells, count⟩ = pure (.ok (), ⟨cells.set count b, count + 1⟩) := by
  simp only [push, StateT.run_bind, StateT.run_get, pure_bind, if_pos h]
  rfl

theorem push_of_le (h : cells.length ≤ count) :
    (push b).run ⟨cells, count⟩ =
      pure (.error (.tooManyGnssBlocks (count + 1)), ⟨cells, count⟩) := by
  simp only [push, StateT.run_bind, StateT.run_get, pure_bind, if_neg (Nat.not_lt.2 h)]
  rfl

/-- The header, and the systems in the cells in use. -/
def toCommand (s : SystemCells) : Command :=
  .ofFields .cfgGnss
    ([[0], [0], [SystemSelection.usedChannels], [UInt8.ofNat s.count]] ++
      (s.cells.take s.count).flatMap GnssBlock.fields)

end SystemCells

namespace SystemSelection

/-- The cells of a selection, of which those behind its systems are blank. -/
def cells (s : SystemSelection) : SystemCells where
  cells := s.blocks ++ List.replicate (maxGnssBlocks - s.blocks.length) ⟨0, 0, 0, false, 0⟩
  count := s.blocks.length

theorem length_cells (s : SystemSelection) : s.cells.cells.length = maxGnssBlocks := by
  rw [cells, List.length_append, List.length_replicate, Nat.add_sub_cancel' s.length_le]

theorem toCommand_cells (s : SystemSelection) : s.cells.toCommand = s.toCommand := by
  rw [SystemCells.toCommand, cells, List.take_left, toCommand]

/-- **In place a system is added or refused alike**, and a refusal changes neither a cell nor the
number of those in use. -/
theorem push_cells (b : GnssBlock) (s : SystemSelection) :
    (SystemCells.push b).run s.cells = pure ((attempt b s).1, (attempt b s).2.cells) := by
  rcases s.lt_or_full with hlt | hfull
  · have hcell : s.blocks.length < s.cells.cells.length := by
      rwa [s.length_cells]
    have hspare : maxGnssBlocks - s.blocks.length =
        maxGnssBlocks - (s.blocks.length + 1) + 1 := by omega
    rw [attempt_of_lt hlt]
    refine (SystemCells.push_of_lt hcell).trans ?_
    simp only [cells, hspare, List.replicate_succ, List.length_append, List.length_singleton]
    rw [List.set_append_right _ _ (Nat.le_refl _), Nat.sub_self, List.set_cons_zero,
      List.append_assoc]
    rfl
  · have hcell : s.cells.cells.length ≤ s.blocks.length :=
      Nat.le_of_eq (s.length_cells.trans hfull.symm)
    rw [attempt_of_full hfull, ← hfull]
    exact SystemCells.push_of_le hcell

/-! ### The whole rule -/

open Consecutive (answers after)

/-- What is known of the answers to adding systems to an empty selection, and of the selection
behind them. -/
structure TakesUp (pushed : List GnssBlock) (given : List (Except SerializationError Unit))
    (s : SystemSelection) : Prop where
  /-- The first seven are taken up and every later one is refused. -/
  answered : ∀ early b late, pushed = early ++ b :: late →
    given[early.length]? = some (if early.length < 7 then .ok () else .error (.tooManyGnssBlocks 8))
  /-- A refusal changes nothing. -/
  unchanged : ∀ early b late, pushed = early ++ b :: late → 7 ≤ early.length →
    after attempt empty (early ++ [b]) = after attempt empty early
  /-- In place the answers are the same and the selection is the one in the cells, which is encoded
  like it. -/
  inPlace : (pushed.mapM SystemCells.push).run empty.cells = (given, s.cells) ∧
    s.cells.toCommand = s.toCommand
  /-- The first seven are recovered, and so is their number. -/
  recovers : s.toCommand.Recovers ⟨0x06, 0x3E⟩ (4 + 8 * min 7 pushed.length) ofPayload
    (min 7 pushed.length, pushed.take 7)

theorem takesUp (pushed : List GnssBlock) :
    TakesUp pushed (answers attempt empty pushed) (after attempt empty pushed) := by
  have hseven : maxGnssBlocks = 7 := rfl
  have hfull : ∀ early : List GnssBlock, 7 ≤ early.length →
      (after attempt empty early).blocks.length = maxGnssBlocks := by
    intro early hlong
    rw [length_after_empty, hseven]
    exact Nat.min_eq_left hlong
  refine ⟨?answered, ?unchanged,
    ⟨Consecutive.run_eq_pure push_cells empty pushed, toCommand_cells _⟩, ?recovers⟩
  case answered =>
    rintro early b late rfl
    rw [Consecutive.getElem?_answers]
    rcases Nat.lt_or_ge early.length 7 with hlt | hge
    · have hroom : (after attempt empty early).blocks.length < maxGnssBlocks := by
        rw [length_after_empty, hseven]
        exact Nat.lt_of_le_of_lt (Nat.min_le_right _ _) hlt
      rw [attempt_of_lt hroom, if_pos hlt]
    · rw [attempt_of_full (hfull early hge), if_neg (Nat.not_lt.2 hge), hseven]
  case unchanged =>
    intro early b late _ hge
    rw [Consecutive.after_concat, attempt_of_full (hfull early hge)]
  case recovers =>
    have hrecovers := (after attempt empty pushed).recovers
    rwa [length_after_empty, blocks_after_empty] at hrecovers

end SystemSelection

/-- **Configuration commands are recovered** from the frames that a decoder reports: a rate command
with its message and its rate, the period of the measurements, and the systems of a selection, of
which it takes up seven. -/
theorem ConfigCommand.recovered :
    (∀ m : MessageRate, m.toCommand.Recovers ⟨0x06, 0x01⟩ 3 MessageRate.ofPayload m) ∧
    (∀ m : MeasurementRate, m.toCommand.Recovers ⟨0x06, 0x08⟩ 6 MeasurementRate.ofPayload m) ∧
    ∀ pushed : List GnssBlock, SystemSelection.TakesUp pushed
      (Consecutive.answers SystemSelection.attempt .empty pushed)
      (Consecutive.after SystemSelection.attempt .empty pushed) :=
  ⟨MessageRate.recovers, MeasurementRate.recovers, SystemSelection.takesUp⟩

end GnssLink
