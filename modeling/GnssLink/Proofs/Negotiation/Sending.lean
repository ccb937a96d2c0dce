import GnssLink.Negotiation.PlanRun
import GnssLink.Negotiation.VersionQuery
import GnssLink.Proofs.Command.Framing
import GnssLink.Proofs.Serial.Calls

/-!
# Sending commands

Every command that the negotiation sends fits the transmit buffer: the version request, and all
commands of a plan.  So sending one never fails before the write.  It is exactly one write, of the
wire form of the command, and from then on the reply is waited for, whether the write succeeded or
not (`Command.Fits.send_state`).

## Main definitions

* `Command.Fits` — the frame of a command fits the transmit buffer.

## Main results

* `versionRequest_fits`, `ConfigCommand.fits` — the commands that are sent.
* `Command.Fits.send_state`, `Command.Fits.send_cases` — what sending does, over any line and over a
  recorded one.
-/

namespace GnssLink

/-! ### Commands that fit -/

/-- The frame of a command fits the transmit buffer, and what is written is its wire form. -/
def Command.Fits (c : Command) : Prop :=
  ∃ n buffer, c.encode (List.replicate transmitCapacity 0) = .ok (n, buffer) ∧
    ∃ payload, c.transmitted = (Frame.mk c.type payload).wire

theorem Command.fits_ofFields {type : MessageType} {fields : List Bytes}
    (h : fields.flatten.length ≤ maxCommandPayload) : (Command.ofFields type fields).Fits := by
  have hlt : fields.flatten.length < UInt16.size := Nat.lt_of_le_of_lt h (by decide)
  have hfits : Frame.wireLength fields.flatten.length ≤
      (List.replicate transmitCapacity (0 : UInt8)).length := by
    simp only [List.length_replicate, transmitCapacity, Frame.wireLength]
    omega
  exact ⟨_, _, encode_ofFields hlt hfits, _, transmitted_ofFields h⟩

theorem versionRequest_fits : versionRequest.Fits :=
  Command.fits_ofFields (by decide)

/-- The header and eight bytes for each system. -/
theorem SystemSelection.length_fields (s : SystemSelection) :
    ([[0], [0], [usedChannels], [UInt8.ofNat s.blocks.length]] ++
      s.blocks.flatMap GnssBlock.fields).flatten.length = 4 + 8 * s.blocks.length := by
  have hblocks : (s.blocks.flatMap GnssBlock.fields).flatten.length = 8 * s.blocks.length := by
    induction s.blocks with
    | nil => rfl
    | cons b rest ih =>
      rw [List.flatMap_cons, List.flatten_append, List.length_append, ih, List.length_cons]
      simp only [GnssBlock.fields, List.flatten_cons, List.flatten_nil, List.length_append,
        List.length_singleton, List.length_nil]
      omega
  rw [List.flatten_append, List.length_append, hblocks]
  rfl

/-- Every command of a plan fits the transmit buffer. -/
theorem ConfigCommand.fits (c : ConfigCommand) : c.toCommand.Fits := by
  cases c with
  | navigationEngine e =>
    refine Command.fits_ofFields ?_
    simp only [NavigationEngine.payload, List.flatten_cons, List.flatten_nil, List.append_nil,
      List.length_set]
    decide
  | messageRate m => exact Command.fits_ofFields (Nat.le_of_ble_eq_true rfl)
  | measurementRate m => exact Command.fits_ofFields (Nat.le_of_ble_eq_true rfl)
  | augmentation a => exact Command.fits_ofFields (Nat.le_of_ble_eq_true rfl)
  | systems c =>
    refine Command.fits_ofFields ?_
    rw [SystemSelection.length_fields, maxCommandPayload]
    have h := c.selection.length_le
    omega

/-! ### Sending -/

variable {σ ε : Type} [SerialLine σ ε]

/-- **Sending is one write** of the wire form of the command, and the reply is waited for also if
the write failed. -/
theorem Command.Fits.send_state {c : Command} (hc : c.Fits) {tracker tracker' : ReplyTracker}
    {line line' : σ} {result : Except (SendError ε) Unit}
    (h : c.send tracker line = (result, tracker', line')) :
    tracker' = tracker.begin c.type.id ∧ ∃ written : Except ε Unit,
      SerialLine.write line c.transmitted = (written, line') ∧ result = written.mapError .send := by
  obtain ⟨n, buffer, hencode, -⟩ := hc
  have hbytes : c.transmitted = buffer.take n := by simp only [transmitted, hencode]
  rcases hwrite : SerialLine.write line (buffer.take n) with ⟨written, line1⟩
  simp only [send, hencode, hwrite, Prod.mk.injEq] at h
  obtain ⟨rfl, rfl, rfl⟩ := h
  exact ⟨rfl, written, hbytes ▸ hwrite, rfl⟩

/-- On a recorded line the write is recorded. -/
theorem Command.Fits.send_cases {c : Command} (hc : c.Fits) {tracker tracker' : ReplyTracker}
    {r r' : Recorder σ} {result : Except (SendError ε) Unit}
    (h : c.send tracker r = (result, tracker', r')) :
    tracker' = tracker.begin c.type.id ∧
      ((result = .ok () ∧ r'.calls = r.calls ++ [.write c.transmitted true]) ∨
       (∃ e, result = .error (.send e) ∧ r'.calls = r.calls ++ [.write c.transmitted false])) := by
  obtain ⟨htracker, e | ⟨⟩, hwrite, rfl⟩ := hc.send_state h
  · exact ⟨htracker, .inr ⟨e, rfl, Recorder.calls_write hwrite⟩⟩
  · exact ⟨htracker, .inl ⟨rfl, Recorder.calls_write hwrite⟩⟩

/-- Whether it fails or not, the write is the last thing that is recorded. -/
theorem Command.Fits.calls_send {c : Command} (hc : c.Fits) {tracker tracker' : ReplyTracker}
    {r r' : Recorder σ} {result : Except (SendError ε) Unit}
    (h : c.send tracker r = (result, tracker', r')) :
    ∃ ok, r'.calls = r.calls ++ [.write c.transmitted ok] := by
  obtain ⟨-, ⟨-, hcalls⟩ | ⟨e, -, hcalls⟩⟩ := hc.send_cases h
  · exact ⟨true, hcalls⟩
  · exact ⟨false, hcalls⟩

end GnssLink
