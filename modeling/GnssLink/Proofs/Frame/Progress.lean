import GnssLink.Proofs.Frame.Wire

/-!
# What a decoder has taken of a frame

A decoder keeps the fields of the frame that it is in, not its bytes.  The bytes that it has taken
since its search began can be read off those fields: `Decoder.Within d taken` says which they are,
step by step.  All other fields may hold anything, so leftovers of an abandoned frame do no harm.

One more byte either goes on with the bytes taken so far, which then complete nothing, or completes
exactly what `Stream.head` says stands at their start, and the search begins again
(`Decoder.Within.feed`).

## Main definitions

* `Decoder.HasHeader` — a header is taken, and the payload and the checksum belong to it.
* `Decoder.Within` — the bytes that a decoder has taken since its search began.
* `DecoderStats.count` — the counters after an outcome.

## Main results

* `Decoder.Within.feed` — one byte, seen by the decoder and by `Stream.head`.
* `Decoder.stats_feed` — a byte is counted by its outcome.
-/

namespace GnssLink

namespace Decoder

open GnssLink.Frame (sync1 sync2)

/-- A header with the two length bytes `low` and `high` is taken, its length is admitted, and the
checksum covers everything from the class to the last byte in the store. -/
structure HasHeader (d : Decoder) (low high : UInt8) : Prop where
  skip : d.skip = false
  declared : d.declared.toNat = LittleEndian.decode [low, high]
  declared_le : d.declared.toNat ≤ Frame.maxPayload
  checksum : d.checksum = Checksum.ofBytes
    (d.type.cls :: d.type.id :: low :: high :: d.payload.toBytes)

/-- The bytes of a frame up to the last payload byte in the store. -/
def opened (d : Decoder) (low high : UInt8) : Bytes :=
  sync1 :: sync2 :: d.type.cls :: d.type.id :: low :: high :: d.payload.toBytes

/-- The bytes that a decoder has taken since its search began.  They complete nothing. -/
inductive Within (d : Decoder) : Bytes → Prop
  | sync1 (hstep : d.step = .sync1) : Within d []
  | sync2 (hstep : d.step = .sync2) (hskip : d.skip = false) : Within d [Frame.sync1]
  | cls (hstep : d.step = .cls) (hskip : d.skip = false) :
      Within d [Frame.sync1, Frame.sync2]
  | id (hstep : d.step = .id) (hskip : d.skip = false)
      (hsum : d.checksum = Checksum.ofBytes [d.type.cls]) :
      Within d [Frame.sync1, Frame.sync2, d.type.cls]
  | lengthLow (hstep : d.step = .lengthLow) (hskip : d.skip = false)
      (hsum : d.checksum = Checksum.ofBytes [d.type.cls, d.type.id]) :
      Within d [Frame.sync1, Frame.sync2, d.type.cls, d.type.id]
  | lengthHigh (low : UInt8) (hstep : d.step = .lengthHigh) (hskip : d.skip = false)
      (hdeclared : d.declared = low.toUInt16)
      (hsum : d.checksum = Checksum.ofBytes [d.type.cls, d.type.id, low]) :
      Within d [Frame.sync1, Frame.sync2, d.type.cls, d.type.id, low]
  | payload (low high : UInt8) (hstep : d.step = .payload) (hheader : d.HasHeader low high)
      (hconsumed : d.consumed.toNat = d.payload.length)
      (hlt : d.payload.length < d.declared.toNat) : Within d (d.opened low high)
  | checksumA (low high : UInt8) (hstep : d.step = .checksumA) (hheader : d.HasHeader low high)
      (hlen : d.payload.length = d.declared.toNat) : Within d (d.opened low high)
  | checksumB (low high : UInt8) (hstep : d.step = .checksumB) (hheader : d.HasHeader low high)
      (hlen : d.payload.length = d.declared.toNat) :
      Within d (d.opened low high ++ [d.checksum.a])

theorem within_nil_iff {d : Decoder} : d.Within [] ↔ d.step = .sync1 := by
  constructor
  · intro h
    generalize htaken : ([] : Bytes) = taken at h
    cases h with
    | sync1 hstep => exact hstep
    | checksumB => simp [opened] at htaken
    | _ => simp [opened] at htaken
  · exact .sync1

theorem within_initial : initial.Within [] :=
  .sync1 rfl

/-! ### One byte -/

/-- One byte behind `taken` goes on with it, or completes what stands at its start. -/
def Follows (d : Decoder) (taken : Bytes) (byte : UInt8) : Prop :=
  (Stream.head (taken ++ [byte]) = none ∧ (d.feed byte).1 = .pending ∧
    (d.feed byte).2.Within (taken ++ [byte])) ∨
  (Stream.head (taken ++ [byte]) = some (taken.length, (d.feed byte).1) ∧
    (d.feed byte).2.Within [])

variable {d : Decoder} {low high : UInt8}

private theorem follows_sync1 (hstep : d.step = .sync1) (byte : UInt8) : d.Follows [] byte := by
  by_cases hb : byte = sync1
  · have hfeed : d.feed byte = (.pending, { d with skip := false, step := .sync2 }) := by
      simp [feed, hstep, hb]
    refine .inl ⟨by simp [Stream.head, hb], by rw [hfeed], ?_⟩
    rw [hfeed, hb]
    exact .sync2 rfl rfl
  · have hfeed : d.feed byte = (.pending, d) := by simp [feed, hstep, hb]
    refine .inr ⟨by simp [Stream.head, hb, hfeed], ?_⟩
    rw [hfeed]
    exact .sync1 hstep

private theorem follows_sync2 (hstep : d.step = .sync2) (hskip : d.skip = false) (byte : UInt8) :
    d.Follows [sync1] byte := by
  by_cases hb : byte = sync2
  · have hfeed : d.feed byte = (.pending, { d with step := .cls }) := by simp [feed, hstep, hb]
    refine .inl ⟨by simp [Stream.head, hb], by rw [hfeed], ?_⟩
    rw [hfeed, hb]
    exact .cls rfl hskip
  · have hfeed : d.feed byte = (.pending, { d with step := .sync1 }) := by simp [feed, hstep, hb]
    refine .inr ⟨by simp [Stream.head, hb, hfeed], ?_⟩
    rw [hfeed]
    exact .sync1 rfl

private theorem follows_cls (hstep : d.step = .cls) (hskip : d.skip = false) (byte : UInt8) :
    d.Follows [sync1, sync2] byte := by
  have hfeed : d.feed byte =
      (.pending, { d with type.cls := byte, checksum := Checksum.seeded byte, step := .id }) := by
    simp [feed, hstep]
  refine .inl ⟨by simp [Stream.head], by rw [hfeed], ?_⟩
  rw [hfeed]
  exact .id rfl hskip (Checksum.seeded_eq byte)

private theorem follows_id (hstep : d.step = .id) (hskip : d.skip = false)
    (hsum : d.checksum = Checksum.ofBytes [d.type.cls]) (byte : UInt8) :
    d.Follows [sync1, sync2, d.type.cls] byte := by
  have hfeed : d.feed byte =
      (.pending, { d with
        type.id := byte, checksum := d.checksum.push byte, step := .lengthLow }) := by
    simp [feed, hstep]
  refine .inl ⟨by simp [Stream.head], by rw [hfeed], ?_⟩
  rw [hfeed]
  exact .lengthLow rfl hskip (by rw [hsum]; rfl)

private theorem follows_lengthLow (hstep : d.step = .lengthLow) (hskip : d.skip = false)
    (hsum : d.checksum = Checksum.ofBytes [d.type.cls, d.type.id]) (byte : UInt8) :
    d.Follows [sync1, sync2, d.type.cls, d.type.id] byte := by
  have hfeed : d.feed byte =
      (.pending, { d with
        declared := byte.toUInt16, checksum := d.checksum.push byte, step := .lengthHigh }) := by
    simp [feed, hstep]
  refine .inl ⟨by simp [Stream.head], by rw [hfeed], ?_⟩
  rw [hfeed]
  exact .lengthHigh byte rfl hskip rfl (by rw [hsum]; rfl)

private theorem follows_lengthHigh (hstep : d.step = .lengthHigh) (hskip : d.skip = false)
    (hdeclared : d.declared = low.toUInt16)
    (hsum : d.checksum = Checksum.ofBytes [d.type.cls, d.type.id, low]) (byte : UInt8) :
    d.Follows [sync1, sync2, d.type.cls, d.type.id, low] byte := by
  let d' := { d with
    declared := d.declared ||| (byte.toUInt16 <<< 8), checksum := d.checksum.push byte }
  have hvalue : d'.declared.toNat = LittleEndian.decode [low, byte] := by
    simp only [d', hdeclared]
    exact LittleEndian.toNat_or_shiftLeft low byte
  by_cases hbig : Frame.maxPayload < d'.declared.toNat
  · have hfeed : d.feed byte = d'.reject (.oversizedPayload d'.declared Frame.maxPayload) := by
      simp only [feed, hstep]
      exact if_pos hbig
    refine .inr ⟨?_, .sync1 (by rw [hfeed]; rfl)⟩
    have hword : UInt16.ofNat (LittleEndian.decode [low, byte]) = d'.declared := by
      rw [← hvalue, UInt16.ofNat_toNat]
    simp only [List.cons_append, List.nil_append]
    rw [Stream.head_header, if_pos (hvalue ▸ hbig), hword, hfeed]
    rfl
  · have hfeed : d.feed byte = (.pending, d'.beginPayload) := by
      simp only [feed, hstep]
      exact if_neg hbig
    have hle := Nat.not_lt.1 hbig
    have hempty : d'.beginPayload.payload.toBytes = [] := Store.toBytes_clear _
    have hheader : d'.beginPayload.HasHeader low byte := by
      refine ⟨hskip, hvalue, hle, ?_⟩
      rw [hempty]
      simp only [beginPayload, d', hsum]
      rfl
    have htaken : [sync1, sync2, d.type.cls, d.type.id, low] ++ [byte] =
        d'.beginPayload.opened low byte := by
      rw [opened, hempty]
      rfl
    refine .inl ⟨Stream.head_short (Nat.zero_le _) (hvalue ▸ hle), by rw [hfeed], ?_⟩
    rw [hfeed, htaken]
    by_cases hzero : d'.declared = 0
    · refine .checksumA low byte (by simp [beginPayload, hzero]) hheader ?_
      simp [beginPayload, hzero, Store.clear]
    · refine .payload low byte (by simp [beginPayload, hzero]) hheader rfl ?_
      have hne : d'.declared.toNat ≠ 0 := fun h => hzero (UInt16.toNat_inj.mp h)
      simp only [beginPayload, Store.clear]
      omega

/-- The last index of a payload that is not empty. -/
theorem declared_sub_one_add_one (h : 1 ≤ d.declared.toNat) :
    (d.declared - 1).toNat + 1 = d.declared.toNat := by
  have hone : (1 : UInt16) ≤ d.declared := UInt16.le_iff_toNat_le.2 h
  rw [UInt16.toNat_sub_of_le _ _ hone]
  exact Nat.sub_add_cancel h

/-- Inside of an admitted payload the count does not wrap around. -/
theorem consumed_add_one (hle : d.declared.toNat ≤ Frame.maxPayload)
    (hlt : d.consumed.toNat < d.declared.toNat) :
    (d.consumed + 1).toNat = d.consumed.toNat + 1 := by
  have hmax := Frame.maxPayload_lt
  rw [UInt16.toNat_add]
  exact Nat.mod_eq_of_lt (Nat.lt_of_le_of_lt (Nat.le_trans hlt hle) hmax)

private theorem follows_payload (hstep : d.step = .payload) (hheader : d.HasHeader low high)
    (hconsumed : d.consumed.toNat = d.payload.length) (hlt : d.payload.length < d.declared.toNat)
    (byte : UInt8) : d.Follows (d.opened low high) byte := by
  have hle := hheader.declared_le
  have hroom : d.payload.length < Frame.maxPayload := Nat.lt_of_lt_of_le hlt hle
  let d' := { d with
    checksum := d.checksum.push byte
    payload := d.payload.store d.payload.length byte
    step := if d.consumed = d.declared - 1 then .checksumA else .payload
    consumed := d.consumed + 1 }
  have hfeed : d.feed byte = (.pending, d') := by
    simp only [feed, hstep, hconsumed]
    rfl
  have hbytes : d'.payload.toBytes = d.payload.toBytes ++ [byte] :=
    Store.toBytes_store d.payload byte hroom
  have hlength : d'.payload.length = d.payload.length + 1 := by
    rw [← Store.length_toBytes, hbytes, List.length_append, Store.length_toBytes]
    rfl
  have hheader' : d'.HasHeader low high := by
    refine ⟨hheader.skip, hheader.declared, hle, ?_⟩
    rw [hbytes]
    simp only [d', hheader.checksum, Checksum.ofBytes, ← List.cons_append,
      ← Checksum.append_append]
    rfl
  have htaken : d.opened low high ++ [byte] = d'.opened low high := by
    simp only [opened, hbytes, List.cons_append, d']
  have hlast : (d.consumed = d.declared - 1) ↔ d.payload.length + 1 = d.declared.toNat := by
    have hindex : (d.declared - 1).toNat + 1 = d.declared.toNat :=
      declared_sub_one_add_one (Nat.lt_of_le_of_lt (Nat.zero_le _) hlt)
    rw [← UInt16.toNat_inj, hconsumed]
    omega
  have hnext : d'.consumed.toNat = d'.payload.length := by
    rw [hlength, ← hconsumed]
    exact consumed_add_one hle (hconsumed ▸ hlt)
  refine .inl ⟨?_, by rw [hfeed], ?_⟩
  · rw [htaken, opened]
    refine Stream.head_short ?_ (hheader.declared ▸ hle)
    rw [Store.length_toBytes, hlength, ← hheader.declared]
    exact hlt
  · rw [hfeed, htaken]
    by_cases hdone : d.consumed = d.declared - 1
    · exact .checksumA low high (by simp [d', hdone]) hheader' (hlength.trans (hlast.1 hdone))
    · refine .payload low high (by simp [d', hdone]) hheader' hnext ?_
      have hne := mt hlast.2 hdone
      rw [hlength]
      exact Nat.lt_of_le_of_ne hlt hne

private theorem HasHeader.body_eq (h : d.HasHeader low high)
    (hlen : d.payload.length = d.declared.toNat) :
    d.collected.body = d.type.cls :: d.type.id :: low :: high :: d.payload.toBytes := by
  refine Frame.body_eq ?_
  rw [Store.length_toBytes, hlen, h.declared]

/-- Behind a whole payload the answer is the verdict on the collected frame. -/
private theorem HasHeader.head_opened (h : d.HasHeader low high)
    (hlen : d.payload.length = d.declared.toNat) (behind : Bytes) :
    Stream.head (d.opened low high ++ behind) =
      Stream.verdict d.collected d.payload.length behind := by
  have hlength := d.payload.length_toBytes
  have hhead : Stream.head (sync1 :: sync2 :: d.type.cls :: d.type.id :: low :: high ::
      (d.payload.toBytes ++ behind)) =
      Stream.verdict d.collected d.payload.toBytes.length behind :=
    Stream.head_payload behind (by rw [hlength, hlen, h.declared])
      (by rw [hlength, hlen]; exact h.declared_le)
  rw [hlength] at hhead
  exact hhead

private theorem HasHeader.ofBytes_body (h : d.HasHeader low high)
    (hlen : d.payload.length = d.declared.toNat) :
    Checksum.ofBytes d.collected.body = d.checksum := by
  rw [h.body_eq hlen, h.checksum]

private theorem follows_checksumA (hstep : d.step = .checksumA) (hheader : d.HasHeader low high)
    (hlen : d.payload.length = d.declared.toNat) (byte : UInt8) :
    d.Follows (d.opened low high) byte := by
  have hsum := hheader.ofBytes_body hlen
  have hlength : (d.opened low high).length = d.payload.length + 6 := by simp [opened]
  have hhead := hheader.head_opened hlen [byte]
  by_cases hb : byte = d.checksum.a
  · have hfeed : d.feed byte = (.pending, { d with step := .checksumB }) := by
      simp [feed, hstep, hb]
    refine .inl ⟨?_, by rw [hfeed], ?_⟩
    · rw [hhead]
      simp [Stream.verdict, hsum, hb]
    · rw [hfeed, hb]
      exact .checksumB low high rfl ⟨hheader.1, hheader.2, hheader.3, hheader.4⟩ hlen
  · have hfeed : d.feed byte = { d with skip := true }.reject (.checksumA d.checksum.a byte) := by
      simp [feed, hstep, hb]
    refine .inr ⟨?_, .sync1 (by rw [hfeed]; rfl)⟩
    rw [hhead, hlength, hfeed]
    simp [Stream.verdict, hsum, hb, reject]

private theorem follows_checksumB (hstep : d.step = .checksumB) (hheader : d.HasHeader low high)
    (hlen : d.payload.length = d.declared.toNat) (byte : UInt8) :
    d.Follows (d.opened low high ++ [d.checksum.a]) byte := by
  have hsum := hheader.ofBytes_body hlen
  have hlength : (d.opened low high ++ [d.checksum.a]).length = d.payload.length + 7 := by
    simp [opened]
  have hhead : Stream.head (d.opened low high ++ [d.checksum.a] ++ [byte]) =
      Stream.verdict d.collected d.payload.length [d.checksum.a, byte] := by
    rw [List.append_assoc]
    exact hheader.head_opened hlen _
  by_cases hb : byte = d.checksum.b
  · have hfeed : d.feed byte = (.frame d.collected,
        { d with step := .sync1, stats.packets := d.stats.packets + 1 }) := by
      simp [feed, hstep, hb, hheader.skip]
    refine .inr ⟨?_, .sync1 (by rw [hfeed])⟩
    rw [hhead, hlength, hfeed]
    simp [Stream.verdict, hsum, hb]
  · have hfeed : d.feed byte = d.reject (.checksumB d.checksum.b byte) := by
      simp [feed, hstep, hb]
    refine .inr ⟨?_, .sync1 (by rw [hfeed]; rfl)⟩
    rw [hhead, hlength, hfeed]
    simp [Stream.verdict, hsum, hb, reject]

/-- **One byte, seen by the decoder and by the stream.**  Either the bytes taken so far go on and
still complete nothing, or they complete what `Stream.head` finds at their start, the decoder
reports just that, and it searches again. -/
theorem Within.feed {taken : Bytes} (h : d.Within taken) (byte : UInt8) : d.Follows taken byte := by
  cases h with
  | sync1 hstep => exact follows_sync1 hstep byte
  | sync2 hstep hskip => exact follows_sync2 hstep hskip byte
  | cls hstep hskip => exact follows_cls hstep hskip byte
  | id hstep hskip hsum => exact follows_id hstep hskip hsum byte
  | lengthLow hstep hskip hsum => exact follows_lengthLow hstep hskip hsum byte
  | lengthHigh low hstep hskip hdeclared hsum =>
    exact follows_lengthHigh hstep hskip hdeclared hsum byte
  | payload low high hstep hheader hconsumed hlt =>
    exact follows_payload hstep hheader hconsumed hlt byte
  | checksumA low high hstep hheader hlen => exact follows_checksumA hstep hheader hlen byte
  | checksumB low high hstep hheader hlen => exact follows_checksumB hstep hheader hlen byte

/-- The bytes taken by a decoder complete nothing. -/
theorem Within.head_eq_none {taken : Bytes} (h : d.Within taken) : Stream.head taken = none := by
  cases h with
  | payload low high hstep hheader hconsumed hlt =>
    refine Stream.head_short ?_ (hheader.declared ▸ hheader.declared_le)
    rw [Store.length_toBytes, ← hheader.declared]
    exact Nat.le_of_lt hlt
  | checksumA low high hstep hheader hlen =>
    refine Stream.head_short (Nat.le_of_eq ?_) (hheader.declared ▸ hheader.declared_le)
    rw [Store.length_toBytes, ← hheader.declared, hlen]
  | checksumB low high hstep hheader hlen =>
    rw [hheader.head_opened hlen]
    simp [Stream.verdict, hheader.ofBytes_body hlen]
  | _ => simp [Stream.head]

end Decoder

/-! ### Counters -/

/-- The counters after an outcome: a verified frame is counted, and so is a broken one. -/
def DecoderStats.count (s : DecoderStats) : Outcome → DecoderStats
  | .pending => s
  | .frame _ | .skipped => { s with packets := s.packets + 1 }
  | .rejected _ => { s with errors := s.errors + 1 }

/-- Counting one more. -/
theorem DecoderStats.one_add_ofNat (n : Nat) : 1 + UInt32.ofNat n = UInt32.ofNat (n + 1) := by
  rw [UInt32.ofNat_add, UInt32.add_comm]
  rfl

namespace Decoder

/-- A byte is counted by its outcome. -/
theorem stats_feed (d : Decoder) (byte : UInt8) :
    (d.feed byte).2.stats = d.stats.count (d.feed byte).1 := by
  cases hstep : d.step with
  | sync1 => by_cases hb : byte = Frame.sync1 <;> simp [feed, hstep, hb, DecoderStats.count]
  | sync2 | cls | id | lengthLow | payload => simp [feed, hstep, DecoderStats.count]
  | lengthHigh =>
    simp only [feed, hstep]
    split <;> rfl
  | checksumA =>
    by_cases hb : byte = d.checksum.a <;> simp [feed, hstep, hb, reject, DecoderStats.count]
  | checksumB =>
    by_cases hb : byte = d.checksum.b
    · cases hskip : d.skip <;> simp [feed, hstep, hb, hskip, DecoderStats.count]
    · simp [feed, hstep, hb, reject, DecoderStats.count]

theorem stats_feedAll (d : Decoder) (bytes : Bytes) :
    (d.feedAll bytes).2.stats = (d.feedAll bytes).1.foldl DecoderStats.count d.stats := by
  induction bytes generalizing d with
  | nil => rfl
  | cons byte rest ih => simp only [feedAll, List.foldl_cons, ih, stats_feed]

end Decoder

end GnssLink
