import GnssLink.Proofs.Command.Framing
import GnssLink.Proofs.Frame.Progress

/-!
# Encoded frames are decoded

Whatever a decoder holds in its other fields, as long as it searches for a frame it passes noise
without a first synchronisation byte, and it reports a frame that was encoded into a buffer at the
last byte of that frame and nothing before (`Decoder.feedAll_bursts`).  Nothing is asked of the
payload but its length: it may hold synchronisation bytes and whole frames.

## Main definitions

* `Burst` — noise, and a frame behind it that is encoded into a buffer.
* `Burst.Sendable`, `Burst.bytes`, `Burst.outcomes` — what is asked of a burst, its bytes on the
  line, and the outcomes that they have to bring about.

## Main results

* `Decoder.Within.feedAll_item` — the bytes of an item are pending up to its last one.
* `Decoder.feedAll_frame` — one frame, from any searching decoder.
* `Decoder.feedAll_bursts` — any number of bursts, from any searching decoder.
-/

namespace GnssLink

/-! ### Bursts -/

/-- A stretch of traffic: noise, and behind it a frame that is encoded at the start of a buffer. -/
structure Burst where
  noise : Bytes
  frame : Frame
  buffer : Bytes

namespace Burst

/-- The noise has no first synchronisation byte, the payload is not too long to be received, and
the buffer has room for the frame. -/
structure Sendable (b : Burst) : Prop where
  noise : Frame.sync1 ∉ b.noise
  payload_le : b.frame.payload.length ≤ Frame.maxPayload
  room : Frame.wireLength b.frame.payload.length ≤ b.buffer.length

/-- The bytes on the line: the noise, and as much of the buffer as the encoding answers. -/
def bytes (b : Burst) : Except SerializationError Bytes :=
  (b.frame.encode b.buffer).map fun (n, buffer) => b.noise ++ buffer.take n

/-- One outcome for each byte: all but the last one are pending. -/
def outcomes (b : Burst) : List Outcome :=
  List.replicate (b.noise.length + (b.frame.payload.length + 7)) .pending ++ [.frame b.frame]

theorem Sendable.bytes_eq {b : Burst} (h : b.Sendable) :
    b.bytes = .ok (b.noise ++ b.frame.wire) := by
  have hlt := Nat.lt_of_le_of_lt h.payload_le Frame.maxPayload_lt
  rw [bytes, b.frame.encode_eq hlt h.room, Except.map, ← b.frame.length_wire]
  simp only [List.take_left]

theorem mapM_bytes {bursts : List Burst} (h : ∀ b ∈ bursts, b.Sendable) :
    bursts.mapM bytes = .ok (bursts.map fun b => b.noise ++ b.frame.wire) := by
  induction bursts with
  | nil => rfl
  | cons b rest ih =>
    have hb := (h b List.mem_cons_self).bytes_eq
    have hrest := ih fun c hc => h c (List.mem_cons_of_mem b hc)
    rw [List.mapM_cons, hb, hrest]
    rfl

end Burst

/-! ### Outcomes and counters -/

namespace DecoderStats

theorem foldl_count_replicate_pending (s : DecoderStats) (n : Nat) :
    (List.replicate n Outcome.pending).foldl count s = s := by
  induction n with
  | zero => rfl
  | succ n ih => rw [List.replicate_succ, List.foldl_cons, count, ih]

/-- A burst is counted as one verified frame. -/
theorem foldl_count_outcomes (s : DecoderStats) (b : Burst) :
    b.outcomes.foldl count s = { s with packets := s.packets + 1 } := by
  rw [Burst.outcomes, List.foldl_append, foldl_count_replicate_pending]
  rfl

theorem foldl_count_bursts (s : DecoderStats) (bursts : List Burst) :
    (bursts.flatMap Burst.outcomes).foldl count s =
      { s with packets := s.packets + UInt32.ofNat bursts.length } := by
  induction bursts generalizing s with
  | nil => simp
  | cons b rest ih =>
    rw [List.flatMap_cons, List.foldl_append, foldl_count_outcomes, ih, List.length_cons,
      ← one_add_ofNat]
    simp only [UInt32.add_assoc]

end DecoderStats

/-! ### Feeding bursts -/

namespace Decoder

variable {d : Decoder}

/-- Noise without a first synchronisation byte leaves a searching decoder as it is. -/
theorem feedAll_noise (hd : d.step = .sync1) {noise : Bytes} (h : Frame.sync1 ∉ noise) :
    d.feedAll noise = (List.replicate noise.length .pending, d) := by
  induction noise with
  | nil => rfl
  | cons b rest ih =>
    rw [List.mem_cons, not_or] at h
    have hfeed : d.feed b = (.pending, d) := by simp [feed, hd, Ne.symm h.1]
    simp only [feedAll, hfeed, ih h.2, List.length_cons, List.replicate_succ]

/-- **The bytes of an item are pending up to its last one.**  There the item is reported, and the
search begins again. -/
theorem Within.feedAll_item {taken rest : Bytes} (h : d.Within taken) {n : Nat} {outcome : Outcome}
    (hhead : Stream.head (taken ++ rest) = some (taken.length + n, outcome))
    (hlen : rest.length = n + 1) :
    (d.feedAll rest).1 = List.replicate n .pending ++ [outcome] ∧
      (d.feedAll rest).2.step = .sync1 := by
  induction rest generalizing d taken n with
  | nil => simp at hlen
  | cons b rest ih =>
    have hsplit := List.append_cons taken b rest
    rcases h.feed b with ⟨hnone, hpending, hwithin⟩ | ⟨hsome, hwithin⟩
    · cases n with
      | zero =>
        have hnil : rest = [] := List.length_eq_zero_iff.1 (by simpa using hlen)
        rw [hnil, hnone] at hhead
        simp at hhead
      | succ n =>
        have hindex : taken.length + (n + 1) = (taken ++ [b]).length + n := by
          rw [List.length_append, List.length_singleton]
          omega
        rw [hsplit, hindex] at hhead
        obtain ⟨houtcomes, hstep⟩ := ih hwithin hhead (by simpa using hlen)
        refine ⟨?_, hstep⟩
        simp only [feedAll, hpending, houtcomes, List.replicate_succ, List.cons_append]
    · have hhead' := Stream.head_append hsome rest
      rw [← hsplit, hhead] at hhead'
      simp only [Option.some.injEq, Prod.mk.injEq] at hhead'
      have hzero : n = 0 := by omega
      subst hzero
      have hnil : rest = [] := List.length_eq_zero_iff.1 (by simpa using hlen)
      subst hnil
      exact ⟨by simp only [feedAll, hhead'.2]; rfl, within_nil_iff.1 hwithin⟩

/-- A searching decoder reports a frame in its wire form at the last byte, and searches again. -/
theorem feedAll_frame (hd : d.step = .sync1) {f : Frame}
    (h : f.payload.length ≤ Frame.maxPayload) :
    (d.feedAll f.wire).1 = List.replicate (f.payload.length + 7) .pending ++ [.frame f] ∧
      (d.feedAll f.wire).2.step = .sync1 := by
  have hlen : f.wire.length = f.payload.length + 7 + 1 := by
    rw [Frame.length_wire, Frame.wireLength_eq]
    omega
  have hhead : Stream.head ([] ++ f.wire) =
      some (([] : Bytes).length + (f.payload.length + 7), .frame f) := by
    rw [List.nil_append, Stream.head_wire f h, List.length_nil, Nat.zero_add]
  exact (Within.sync1 hd).feedAll_item hhead hlen

theorem feedAll_burst (hd : d.step = .sync1) {b : Burst} (h : b.Sendable) :
    (d.feedAll (b.noise ++ b.frame.wire)).1 = b.outcomes ∧
      (d.feedAll (b.noise ++ b.frame.wire)).2.step = .sync1 := by
  obtain ⟨houtcomes, hstep⟩ := feedAll_frame hd h.payload_le
  rw [feedAll_append, feedAll_noise hd h.noise]
  refine ⟨?_, hstep⟩
  rw [houtcomes, Burst.outcomes, ← List.append_assoc, List.replicate_append_replicate]

theorem feedAll_flatten (hd : d.step = .sync1) {bursts : List Burst}
    (h : ∀ b ∈ bursts, b.Sendable) :
    (d.feedAll (bursts.map fun b => b.noise ++ b.frame.wire).flatten).1 =
        bursts.flatMap Burst.outcomes ∧
      (d.feedAll (bursts.map fun b => b.noise ++ b.frame.wire).flatten).2.step = .sync1 := by
  induction bursts generalizing d with
  | nil => exact ⟨rfl, hd⟩
  | cons b rest ih =>
    obtain ⟨houtcomes, hstep⟩ := feedAll_burst hd (h b List.mem_cons_self)
    obtain ⟨hrest, hstep'⟩ := ih hstep fun c hc => h c (List.mem_cons_of_mem b hc)
    rw [List.map_cons, List.flatten_cons, feedAll_append]
    exact ⟨by rw [houtcomes, hrest, List.flatMap_cons], hstep'⟩

/-- **Encoded frames are decoded, each exactly once.**  From any decoder that searches for a frame,
whatever its other fields hold, every byte of a sequence of bursts is pending but the last byte of
each frame, which reports that frame.  The decoder searches again at the end, has counted the frames
and no errors. -/
theorem feedAll_bursts (hd : d.step = .sync1) {bursts : List Burst}
    (h : ∀ b ∈ bursts, b.Sendable) :
    ∃ chunks, bursts.mapM Burst.bytes = .ok chunks ∧
      (d.feedAll chunks.flatten).1 = bursts.flatMap Burst.outcomes ∧
      (d.feedAll chunks.flatten).2.step = .sync1 ∧
      (d.feedAll chunks.flatten).2.stats =
        ⟨d.stats.packets + UInt32.ofNat bursts.length, d.stats.errors⟩ := by
  obtain ⟨houtcomes, hstep⟩ := feedAll_flatten hd h
  refine ⟨_, Burst.mapM_bytes h, houtcomes, hstep, ?_⟩
  rw [stats_feedAll, houtcomes, DecoderStats.foldl_count_bursts]

/-- Two frames behind noise, into a decoder that was left by a broken frame.  The first payload
holds synchronisation bytes, the second one is empty. -/
theorem feedAll_bursts_after_error :
    let d := (initial.feedAll [0xB5, 0x62, 0x05, 0x01, 0x02, 0x00, 0x06, 0x01, 0x00]).2
    let bursts : List Burst :=
      [⟨[0x24, 0x62], ⟨⟨0x0A, 0x04⟩, [0xB5, 0x62, 0xB5]⟩, List.replicate 16 0xFF⟩,
        ⟨[], ⟨⟨0x05, 0x01⟩, []⟩, List.replicate 8 0⟩]
    d.step = .sync1 ∧ d.stats = ⟨0, 1⟩ ∧ (∀ b ∈ bursts, b.Sendable) ∧
      ∃ chunks, bursts.mapM Burst.bytes = .ok chunks ∧
        (d.feedAll chunks.flatten).1 = bursts.flatMap Burst.outcomes ∧
        (d.feedAll chunks.flatten).2.step = .sync1 ∧
        (d.feedAll chunks.flatten).2.stats =
          ⟨d.stats.packets + UInt32.ofNat 2, d.stats.errors⟩ := by
  intro d bursts
  have hd : d.step = .sync1 := by decide
  have h : ∀ b ∈ bursts, b.Sendable := by
    intro b hb
    simp only [bursts, List.mem_cons, List.not_mem_nil, or_false] at hb
    rcases hb with rfl | rfl
    · exact ⟨by decide, by decide, by decide⟩
    · exact ⟨by decide, by decide, by decide⟩
  exact ⟨hd, by decide, h, feedAll_bursts hd h⟩

end Decoder

end GnssLink
