import GnssLink.Proofs.Frame.Scan

/-!
# What a decoder counts

The counters of a decoder are modulo 2³².  For a decoder that began with a byte string they say how
many frames the scan of that string finds, and how many broken ones.  A frame that is passed over
would be counted, too, but there is none: nothing that stands at the start of a stream is reported
as one.

Every frame that is opened, by two synchronisation bytes, comes to exactly one outcome.  One byte
keeps the balance of the frames that were opened and those that came to an outcome
(`Decoder.openings_feed`), so a whole stream does.

## Main definitions

* `Stream.frames`, `Stream.broken` — the numbers of frames and of broken frames in a stream.
* `DecodeStep.isInside` — the steps inside a frame.
* `Decoder.openings` — the number of frames that a byte string opens.

## Main results

* `Decoder.Within.skipped_notMem_feedAll` — no frame is passed over.
* `Decoder.stats_feedAll_initial` — the counters of a decoder that took a byte string.
* `Decoder.openings_feedAll` — the frames that were opened, from any state.
* `Decoder.accounts_feedAll_initial` — every frame is accounted for by one outcome.
-/

namespace GnssLink

/-- A verified frame. -/
def Outcome.isFrame : Outcome → Bool
  | .frame _ => true
  | .pending | .skipped | .rejected _ => false

/-- A broken frame. -/
def Outcome.isRejected : Outcome → Bool
  | .rejected _ => true
  | .pending | .skipped | .frame _ => false

namespace Stream

/-- The number of frames in a stream. -/
def frames (stream : Bytes) : Nat :=
  (scan 0 stream).countP fun item => item.2.isFrame

/-- The number of broken frames in a stream. -/
def broken (stream : Bytes) : Nat :=
  (scan 0 stream).countP fun item => item.2.isRejected

theorem verdict_ne_skipped (f : Frame) (n last : Nat) (behind : Bytes) :
    verdict f n behind ≠ some (last, .skipped) := by
  unfold verdict
  split
  · exact fun h => nomatch h
  · dsimp only
    split
    · split
      · exact fun h => nomatch h
      · split <;> simp
    · simp

/-- Nothing that stands at the start of a stream is passed over. -/
theorem head_ne_skipped (stream : Bytes) (last : Nat) : head stream ≠ some (last, .skipped) := by
  intro h
  rcases head_cases h with ⟨_, _, -, -, hpending⟩ | ⟨_, _, -, -, hpending⟩ |
    ⟨_, _, _, _, _, -, -, hrejected⟩ | ⟨_, _, _, _, _, _, -, -, -, hverdict⟩
  · cases hpending
  · cases hpending
  · cases hrejected
  · exact verdict_ne_skipped _ _ _ _ hverdict

end Stream

namespace DecoderStats

/-- The counters after some outcomes, of which none is a frame that was passed over. -/
theorem foldl_count (s : DecoderStats) {outcomes : List Outcome} (h : .skipped ∉ outcomes) :
    outcomes.foldl count s =
      ⟨s.packets + UInt32.ofNat (outcomes.countP Outcome.isFrame),
        s.errors + UInt32.ofNat (outcomes.countP Outcome.isRejected)⟩ := by
  induction outcomes generalizing s with
  | nil => simp
  | cons outcome rest ih =>
    have hrest : .skipped ∉ rest := fun hmem => h (List.mem_cons_of_mem outcome hmem)
    rw [List.foldl_cons, ih _ hrest]
    cases outcome with
    | pending => rfl
    | frame f =>
      rw [List.countP_cons_of_pos rfl, ← one_add_ofNat, ← UInt32.add_assoc]
      rfl
    | skipped => exact absurd List.mem_cons_self h
    | rejected e =>
      rw [List.countP_cons_of_pos (p := Outcome.isRejected) rfl, ← one_add_ofNat,
        ← UInt32.add_assoc]
      rfl

end DecoderStats

namespace Decoder

variable {d : Decoder}

/-- **No frame is passed over.** -/
theorem Within.skipped_notMem_feedAll {taken : Bytes} (h : d.Within taken) (bytes : Bytes) :
    .skipped ∉ (d.feedAll bytes).1 := by
  induction bytes generalizing d taken with
  | nil => exact List.not_mem_nil
  | cons byte rest ih =>
    simp only [feedAll, List.mem_cons, not_or]
    rcases h.feed byte with ⟨-, hpending, hwithin⟩ | ⟨hhead, hwithin⟩
    · rw [hpending]
      exact ⟨Outcome.noConfusion, ih hwithin⟩
    · refine ⟨fun hskipped => ?_, ih hwithin⟩
      rw [← hskipped] at hhead
      exact Stream.head_ne_skipped _ _ hhead

/-- What is reported can be counted byte by byte. -/
theorem countP_events (d : Decoder) (start : Nat) (bytes : Bytes) {p : Outcome → Bool}
    (hp : p .pending = false) :
    (d.events start bytes).countP (fun item => p item.2) = (d.feedAll bytes).1.countP p := by
  have hfst : (((d.feedAll bytes).1.zipIdx start).map Prod.fst) = (d.feedAll bytes).1 :=
    List.zipIdx_map_fst start _
  rw [events, List.countP_map, List.countP_filter, ← hfst, List.countP_map, hfst]
  refine List.countP_congr fun item _ => ?_
  by_cases hitem : item.1 = .pending
  · simp [hitem, hp]
  · simp [hitem]

/-- **The counters of a decoder** that took a byte string say what the scan of it finds. -/
theorem stats_feedAll_initial (stream : Bytes) :
    (initial.feedAll stream).2.stats =
      ⟨UInt32.ofNat (Stream.frames stream), UInt32.ofNat (Stream.broken stream)⟩ := by
  have hscan : initial.events 0 stream = Stream.scan 0 stream := within_initial.events 0 stream
  rw [stats_feedAll, DecoderStats.foldl_count _ (within_initial.skipped_notMem_feedAll stream),
    Stream.frames, Stream.broken, ← hscan, countP_events _ _ _ rfl, countP_events _ _ _ rfl]
  simp [initial]

end Decoder

/-! ### Frames that are opened -/

/-- The step is inside a frame: its two synchronisation bytes are taken. -/
def DecodeStep.isInside : DecodeStep → Bool
  | .sync1 | .sync2 => false
  | .cls | .id | .lengthLow | .lengthHigh | .payload | .checksumA | .checksumB => true

theorem DecodeStep.ne_cls {step : DecodeStep} (h : step.isInside = false) : step ≠ .cls := by
  rintro rfl
  exact Bool.noConfusion h

/-- The outcome is that of a frame, whatever became of it. -/
def Outcome.isClosing : Outcome → Bool
  | .pending => false
  | .frame _ | .skipped | .rejected _ => true

theorem Outcome.countP_isClosing {outcomes : List Outcome} (h : .skipped ∉ outcomes) :
    outcomes.countP Outcome.isClosing =
      outcomes.countP Outcome.isFrame + outcomes.countP Outcome.isRejected := by
  induction outcomes with
  | nil => rfl
  | cons outcome rest ih =>
    rw [List.mem_cons, not_or] at h
    have hrest := ih h.2
    simp only [List.countP_cons, hrest]
    cases outcome with
    | pending => rfl
    | frame f => exact Nat.add_right_comm _ _ 1
    | skipped => exact absurd rfl h.1
    | rejected e => exact Nat.add_assoc _ _ 1

namespace Decoder

variable {d : Decoder}

/-- Outside of a frame nothing is reported, and the only step inside that is next is that of the
class. -/
theorem feed_outside (h : d.step.isInside = false) (byte : UInt8) :
    (d.feed byte).1 = .pending ∧
      ((d.feed byte).2.step.isInside = false ∨ (d.feed byte).2.step = .cls) := by
  cases hstep : d.step with
  | sync1 => by_cases hb : byte = Frame.sync1 <;> simp [feed, hstep, hb, DecodeStep.isInside]
  | sync2 => by_cases hb : byte = Frame.sync2 <;> simp [feed, hstep, hb, DecodeStep.isInside]
  | _ => simp [hstep, DecodeStep.isInside] at h

/-- Inside of a frame a byte leads on to a later step, or the frame comes to its outcome. -/
theorem feed_inside (h : d.step.isInside = true) (byte : UInt8) :
    ((d.feed byte).1 = .pending ∧
      (d.feed byte).2.step.isInside = true ∧ (d.feed byte).2.step ≠ .cls) ∨
    ((d.feed byte).1.isClosing = true ∧ (d.feed byte).2.step = .sync1) := by
  cases hstep : d.step with
  | sync1 | sync2 => simp [hstep, DecodeStep.isInside] at h
  | cls | id | lengthLow => exact .inl (by simp [feed, hstep, DecodeStep.isInside])
  | lengthHigh =>
    simp only [feed, hstep]
    split
    · exact .inr ⟨rfl, rfl⟩
    · refine .inl ⟨rfl, ?_⟩
      by_cases hzero : (d.declared ||| byte.toUInt16 <<< 8) = 0 <;>
        simp [beginPayload, hzero, DecodeStep.isInside]
  | payload =>
    refine .inl ⟨by simp only [feed, hstep], ?_⟩
    by_cases hlast : d.consumed = d.declared - 1 <;>
      simp [feed, hstep, hlast, DecodeStep.isInside]
  | checksumA =>
    by_cases hb : byte = d.checksum.a
    · exact .inl (by simp [feed, hstep, hb, DecodeStep.isInside])
    · exact .inr (by simp [feed, hstep, hb, reject, Outcome.isClosing])
  | checksumB =>
    refine .inr ?_
    by_cases hb : byte = d.checksum.b
    · cases hskip : d.skip <;> simp [feed, hstep, hb, hskip, Outcome.isClosing]
    · simp [feed, hstep, hb, reject, Outcome.isClosing]

/-- One byte leads a decoder into the step of the class. -/
def Opens (d : Decoder) (byte : UInt8) : Prop :=
  d.step ≠ .cls ∧ (d.feed byte).2.step = .cls

instance (d : Decoder) (byte : UInt8) : Decidable (d.Opens byte) :=
  inferInstanceAs (Decidable (_ ∧ _))

/-- The number of times that a byte string leads a decoder into the step of the class. -/
def openings (d : Decoder) : Bytes → Nat
  | [] => 0
  | byte :: rest => (if d.Opens byte then 1 else 0) + (d.feed byte).2.openings rest

/-- One byte keeps the balance: a frame that a decoder was inside of, or that the byte opens, comes
to an outcome, or the decoder is inside of it afterwards. -/
theorem openings_feed (d : Decoder) (byte : UInt8) :
    (if d.step.isInside then 1 else 0) + (if d.Opens byte then 1 else 0) =
      (if (d.feed byte).1.isClosing then 1 else 0) +
        (if (d.feed byte).2.step.isInside then 1 else 0) := by
  cases hinside : d.step.isInside with
  | false =>
    have hne := DecodeStep.ne_cls hinside
    obtain ⟨hpending, houtside | hcls⟩ := feed_outside hinside byte
    · have hnext := DecodeStep.ne_cls houtside
      simp [Opens, hpending, houtside, hnext, Outcome.isClosing]
    · simp [Opens, hne, hpending, hcls, DecodeStep.isInside, Outcome.isClosing]
  | true =>
    rcases feed_inside hinside byte with ⟨hpending, hnext, hne⟩ | ⟨hclosing, hnext⟩
    · simp [Opens, hpending, hnext, hne, Outcome.isClosing]
    · simp [Opens, hclosing, hnext, DecodeStep.isInside]

/-- A byte string keeps the balance. -/
theorem openings_feedAll (d : Decoder) (bytes : Bytes) :
    (if d.step.isInside then 1 else 0) + d.openings bytes =
      (d.feedAll bytes).1.countP Outcome.isClosing +
        (if (d.feedAll bytes).2.step.isInside then 1 else 0) := by
  induction bytes generalizing d with
  | nil => exact Nat.add_comm _ 0
  | cons byte rest ih =>
    have hbyte := d.openings_feed byte
    have hrest := ih (d.feed byte).2
    rw [openings, feedAll_cons, List.countP_cons]
    dsimp only
    omega

/-- **Every frame is accounted for by one outcome.**  No frame is passed over; the counters are the
numbers of frames and of broken frames that were reported; and each time that a frame was opened one
of them was reported, but for the frame that the decoder is inside of. -/
theorem accounts_feedAll_initial (stream : Bytes) :
    let outcomes := (initial.feedAll stream).1
    let d := (initial.feedAll stream).2
    .skipped ∉ outcomes ∧
    d.stats = ⟨UInt32.ofNat (outcomes.countP Outcome.isFrame),
      UInt32.ofNat (outcomes.countP Outcome.isRejected)⟩ ∧
    initial.openings stream = outcomes.countP Outcome.isFrame +
      outcomes.countP Outcome.isRejected + (if d.step.isInside then 1 else 0) := by
  have hskipped := within_initial.skipped_notMem_feedAll stream
  have hbalance := initial.openings_feedAll stream
  have hstart : (if initial.step.isInside then 1 else 0) = 0 := rfl
  rw [hstart, Nat.zero_add, Outcome.countP_isClosing hskipped] at hbalance
  refine ⟨hskipped, ?_, hbalance⟩
  rw [stats_feedAll, DecoderStats.foldl_count _ hskipped]
  simp [initial]

end Decoder

end GnssLink
