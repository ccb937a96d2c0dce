import GnssLink.Proofs.Bytes.Writing
import GnssLink.Proofs.Command.Accesses

/-!
# Two ways to encode

A command that writes its payload through a writer is encoded exactly like a frame that is given the
same payload: both succeed in the same buffers, with the same answer, which is the wire form of the
frame at the start of the buffer.  Every command of the link is of this kind.  A command that lays
out its payload in any other way may be refused, but its encoding never leaves the buffer
(`Command.encodes_like_frame`).

## Main definitions

* `Command.WritesThrough` — the payload is written by a sequence of calls on a writer.
* `Command.IsPredefined` — the commands that the link has.
* `Command.EncodesLikeFrame` — encoding the command and encoding the frame agree.

## Main results

* `Command.IsPredefined.writesThrough` — all of them write their payload through a writer.
* `Command.encodes_like_frame` — the rule for all commands and buffers.
-/

namespace GnssLink

/-! ### What is refused -/

namespace Frame

/-- A payload of `n` bytes can be framed in a buffer: the frame fits into it, and its length fits
into two bytes. -/
def FitsInto (n : Nat) (buffer : Bytes) : Prop :=
  wireLength n ≤ buffer.length ∧ n < UInt16.size

theorem fitsInto_iff {n : Nat} {buffer : Bytes} :
    FitsInto n buffer ↔ 8 + n ≤ buffer.length ∧ n ≤ 65535 := by
  have hsize : UInt16.size = 65535 + 1 := rfl
  rw [FitsInto, wireLength_eq, hsize]
  omega

theorem finish_error {type : MessageType} {n : Nat} {buffer : Bytes} (h : ¬ FitsInto n buffer) :
    finish type n buffer = .error .bufferTooSmall :=
  if_neg fun hfits => h hfits.symm

/-- A frame that does not fit is refused. -/
theorem encode_error (f : Frame) {buffer : Bytes} (h : ¬ FitsInto f.payload.length buffer) :
    f.encode buffer = .error .bufferTooSmall := by
  by_cases hlong : wireLength f.payload.length ≤ buffer.length
  · rw [encode, if_pos hlong]
    refine finish_error fun hfits => h ⟨hlong, hfits.2⟩
  · rw [encode, if_neg hlong]

end Frame

namespace Command

variable {c : Command} {payload buffer : Bytes}

/-- A command whose frame does not fit is refused, by its writer or when it is framed. -/
theorem LaysOut.encode_error (h : c.LaysOut payload)
    (hfits : ¬ Frame.FitsInto payload.length buffer) : ∃ e, c.encode buffer = .error e := by
  rcases Nat.lt_or_ge buffer.length (Frame.wireLength 0) with hshort | hlong
  · exact ⟨_, c.encode_of_short hshort⟩
  · obtain ⟨header, area, sums, rfl, hheader, hsums⟩ := Frame.exists_rooms hlong
    rw [c.encode_append hheader hsums]
    -- the payload does not fit into its area, or its length does not fit into two bytes
    rcases Nat.lt_or_ge area.length payload.length with hrefused | hlaid
    · obtain ⟨e, he⟩ := h.refuses hrefused
      exact ⟨e, by rw [he]⟩
    · refine ⟨.bufferTooSmall, ?_⟩
      rw [h.fits hlaid]
      refine Frame.finish_error fun hagain => hfits ⟨?_, hagain.2⟩
      rw [Frame.wireLength]
      simp only [List.length_append]
      omega

/-! ### Writing through a writer -/

/-- The command writes the payload by a sequence of calls on a writer and answers the position that
it ends at; a call that fails ends it. -/
def WritesThrough (c : Command) (payload : Bytes) : Prop :=
  ∃ steps : List Writer.Step, steps.flatMap Writer.Step.bytes = payload ∧
    ∀ area, c.layOut area =
      match (Writer.ofArea area).performAll steps with
      | .ok w => .ok (w.position, w.area)
      | .error e => .error (.writer e)

theorem WritesThrough.laysOut (h : c.WritesThrough payload) : c.LaysOut payload := by
  obtain ⟨steps, rfl, hlayOut⟩ := h
  have hfields := laysOut_ofFields c.type (steps.map Writer.Step.bytes)
  rw [← List.flatMap_def] at hfields
  have hsame : ∀ area, c.layOut area =
      (ofFields c.type (steps.map Writer.Step.bytes)).layOut area := by
    intro area
    rw [hlayOut, Writer.performAll_eq]
    rfl
  constructor
  · intro area hroom
    rw [hsame]
    exact hfields.fits hroom
  · intro area hroom
    rw [hsame]
    exact hfields.refuses hroom

/-- A list of fields is written by one call for each. -/
theorem writesThrough_ofFields (type : MessageType) (fields : List Bytes) :
    (ofFields type fields).WritesThrough fields.flatten := by
  have hbytes : (fields.map Writer.Step.slice).map Writer.Step.bytes = fields := by
    rw [List.map_map]
    exact List.map_id fields
  refine ⟨fields.map .slice, by rw [List.flatMap_def, hbytes], fun area => ?_⟩
  rw [Writer.performAll_eq, hbytes]
  rfl

/-- The commands that the link has. -/
inductive IsPredefined : Command → Prop
  | navigationEngine (e : NavigationEngine) : IsPredefined e.toCommand
  | messageRate (m : MessageRate) : IsPredefined m.toCommand
  | measurementRate (m : MeasurementRate) : IsPredefined m.toCommand
  | augmentation (a : Augmentation) : IsPredefined a.toCommand
  | systems (s : SystemSelection) : IsPredefined s.toCommand
  | versionRequest : IsPredefined versionRequest

theorem IsPredefined.writesThrough (h : c.IsPredefined) : ∃ payload, c.WritesThrough payload := by
  cases h <;> exact ⟨_, writesThrough_ofFields _ _⟩

/-! ### Both encodings -/

/-- Encoding the command agrees with encoding a frame around the payload. -/
structure EncodesLikeFrame (c : Command) (payload buffer : Bytes) : Prop where
  /-- The command is encoded if and only if there is room for its frame and its length fits into
  two bytes. -/
  ok_iff : (∃ answer, c.encode buffer = .ok answer) ↔
    8 + payload.length ≤ buffer.length ∧ payload.length ≤ 65535
  /-- The frame is encoded in the same buffers, with the same answer. -/
  same : ∀ answer, c.encode buffer = .ok answer ↔
    (Frame.mk c.type payload).encode buffer = .ok answer
  /-- The answer is the length of the frame, and the buffer with the wire form of the frame at its
  start and all other bytes as they were. -/
  wire : ∀ n buffer', c.encode buffer = .ok (n, buffer') → n = 8 + payload.length ∧
    buffer' = [0xB5, 0x62, c.type.cls, c.type.id] ++ LittleEndian.encode 2 payload.length ++
      payload ++ (Checksum.ofBytes (c.type.cls :: c.type.id ::
        (LittleEndian.encode 2 payload.length ++ payload))).toBytes ++ buffer.drop n

theorem LaysOut.encodesLikeFrame (h : c.LaysOut payload) (buffer : Bytes) :
    c.EncodesLikeFrame payload buffer := by
  by_cases hfits : Frame.FitsInto payload.length buffer
  · have hcommand := h.encode_eq hfits.2 hfits.1
    have hframe := (Frame.mk c.type payload).encode_eq hfits.2 hfits.1
    refine ⟨iff_of_true ⟨_, hcommand⟩ (Frame.fitsInto_iff.1 hfits), fun answer => ?_, ?_⟩
    · rw [hcommand, hframe]
    · intro n buffer' hanswer
      obtain ⟨rfl, rfl⟩ := Prod.mk.inj (Except.ok.inj (hcommand.symm.trans hanswer))
      refine ⟨Frame.wireLength_eq _, ?_⟩
      simp only [Frame.wire, Frame.body, Frame.sync1, Frame.sync2, List.cons_append,
        List.nil_append, List.append_assoc]
  · obtain ⟨e, hcommand⟩ := h.encode_error hfits
    have hframe := (Frame.mk c.type payload).encode_error hfits
    refine ⟨iff_of_false ?_ (mt Frame.fitsInto_iff.2 hfits), fun answer => ?_, ?_⟩
    · rintro ⟨answer, hanswer⟩
      cases hcommand.symm.trans hanswer
    · simp only [hcommand, hframe, reduceCtorEq]
    · intro n buffer' hanswer
      cases hcommand.symm.trans hanswer

/-- **A command that writes its payload through a writer is encoded like a frame** around that
payload; every command of the link does so; and no command, however it lays out its payload, makes
an access outside of the buffer. -/
theorem encodes_like_frame :
    (∀ (c : Command) (payload : Bytes), c.WritesThrough payload →
      ∀ buffer, c.EncodesLikeFrame payload buffer) ∧
    (∀ c : Command, c.IsPredefined → ∃ payload, c.WritesThrough payload) ∧
    ∀ (c : Command) (buffer : Bytes), c.encodeInPlace buffer = .ok (c.encode buffer) :=
  ⟨fun _ _ h => h.laysOut.encodesLikeFrame, fun _ h => h.writesThrough, encodeInPlace_eq⟩

/-- A rate command in a buffer that its frame just fills. -/
theorem encodes_like_frame_rate :
    (MessageRate.toCommand ⟨.navPvt, 1⟩).WritesThrough [0x01, 0x07, 0x01] ∧
      ∃ answer,
        (MessageRate.toCommand ⟨.navPvt, 1⟩).encode (List.replicate 11 0xFF) = .ok answer := by
  have hwrites : (MessageRate.toCommand ⟨.navPvt, 1⟩).WritesThrough [0x01, 0x07, 0x01] :=
    writesThrough_ofFields .cfgMsg [[0x01], [0x07], [0x01]]
  exact ⟨hwrites, (encodes_like_frame.1 _ _ hwrites _).ok_iff.2 (by decide)⟩

end Command

end GnssLink
