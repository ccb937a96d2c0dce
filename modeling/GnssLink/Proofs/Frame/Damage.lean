import GnssLink.Proofs.Frame.RoundTrip
import GnssLink.Proofs.Frame.Scan

/-!
# Frames with a damaged byte

A frame may arrive with one byte changed.  The first sum of the checksum differs for two byte
strings that differ in one byte (`Checksum.ofBytes_a_ne`), so a frame whose class, id, payload or
first sum was changed is broken at the first sum, and one whose second sum was changed is broken
there (`DamagedFrame.bytes_eq`).  Changed synchronisation and length bytes are another matter: with
them the frame begins or ends elsewhere.

A frame that is broken at its first sum leaves its second sum behind, which is the first byte of the
new search.  If that byte happens to be the first synchronisation byte, the decoder drops the first
byte of the next frame together with it, and the rest of that frame is too short to hold the frame
itself, whatever else it may hold.

## Main definitions

* `Frame.sealedBy` — a frame in front of two sums that may be wrong.
* `DamagedFrame`, `DamagedFrame.bytes` — an encoded frame of which one byte is changed, and the
  bytes that arrive.

## Main results

* `Checksum.ofBytes_a_ne` — the first sum tells strings apart that differ in one byte.
* `Decoder.notMem_feedAll_wire` — a frame that loses its first byte is not reported.
* `Decoder.feedAll_damaged` — a damaged frame, and the frame behind it.
-/

namespace GnssLink

/-! ### The first sum -/

namespace Checksum

/-- Behind the same bytes the first sums differ as they did in front of them. -/
theorem append_a_inj {c c' : Checksum} (bytes : Bytes) :
    (c.append bytes).a = (c'.append bytes).a ↔ c.a = c'.a := by
  induction bytes generalizing c c' with
  | nil => rfl
  | cons byte rest ih =>
    rw [append_cons, append_cons, ih]
    exact UInt8.add_left_inj byte

/-- **The first sum tells two byte strings apart that differ in one byte.** -/
theorem ofBytes_a_ne {x y : UInt8} (h : x ≠ y) (before behind : Bytes) :
    (ofBytes (before ++ x :: behind)).a ≠ (ofBytes (before ++ y :: behind)).a := by
  have hsplit (z : UInt8) : ofBytes (before ++ z :: behind) =
      ((ofBytes before).push z).append behind := by
    rw [ofBytes, ofBytes, ← append_append, append_cons]
  rw [hsplit, hsplit, Ne, append_a_inj]
  exact fun heq => h ((UInt8.add_right_inj _).1 heq)

end Checksum

/-! ### Frames with any sums -/

namespace Frame

/-- A frame in front of two sums, which need not be those of the frame. -/
def sealedBy (f : Frame) (sums : Checksum) : Bytes :=
  sync1 :: sync2 :: (f.body ++ sums.toBytes)

theorem length_sealedBy (f : Frame) (sums : Checksum) :
    (f.sealedBy sums).length = f.payload.length + 8 := by
  simp [sealedBy, length_body, Checksum.toBytes]

theorem getLast?_sealedBy (f : Frame) (sums : Checksum) :
    (f.sealedBy sums).getLast? = some sums.b := by
  simp [sealedBy, Checksum.toBytes, List.getLast?_cons]

/-- Exchanging a byte of the part under the checksum, outside of the length, gives another frame of
the same length. -/
theorem exists_body_exchanged {f : Frame} {before behind : Bytes} {x : UInt8}
    (hlt : f.payload.length < UInt16.size) (hbody : f.body = before ++ x :: behind)
    (hspared : before.length ∉ [2, 3]) (y : UInt8) :
    ∃ g : Frame, g.body = before ++ y :: behind ∧ g.payload.length = f.payload.length := by
  obtain ⟨low, high, hlen, hwritten⟩ := f.exists_length_bytes hlt
  rw [hwritten] at hbody
  match before with
  | [] =>
    obtain ⟨rfl, rfl⟩ := List.cons_eq_cons.1 hbody
    exact ⟨⟨⟨y, f.type.id⟩, f.payload⟩, body_eq hlen, rfl⟩
  | [cls] =>
    simp only [List.cons_append, List.nil_append, List.cons.injEq] at hbody
    obtain ⟨rfl, rfl, rfl⟩ := hbody
    exact ⟨⟨⟨f.type.cls, y⟩, f.payload⟩, body_eq hlen, rfl⟩
  | [_, _] | [_, _, _] => simp at hspared
  | cls :: id :: l :: h :: front =>
    simp only [List.cons_append, List.cons.injEq] at hbody
    obtain ⟨rfl, rfl, rfl, rfl, hpayload⟩ := hbody
    have hlen' : (front ++ y :: behind).length = f.payload.length := by
      simp [hpayload]
    exact ⟨⟨f.type, front ++ y :: behind⟩, body_eq (hlen'.trans hlen), hlen'⟩

end Frame

/-! ### Damaged frames -/

/-- An encoded frame that arrives with one byte changed, which is neither a synchronisation byte nor
a byte of the length.  `before` and `behind` are the bytes around the changed one. -/
structure DamagedFrame where
  frame : Frame
  buffer : Bytes
  before : Bytes
  sent : UInt8
  arrived : UInt8
  behind : Bytes
  payload_le : frame.payload.length ≤ Frame.maxPayload
  encoded : frame.encoded buffer = .ok (before ++ sent :: behind)
  arrived_ne : arrived ≠ sent
  spared : before.length ∉ [0, 1, 4, 5]

/-- A byte of a string that ends in two bytes is one of the two or stands in front of them. -/
private theorem append_pair_cases {xs before behind : Bytes} {a b x : UInt8}
    (h : xs ++ [a, b] = before ++ x :: behind) :
    (behind = [] ∧ x = b ∧ before = xs ++ [a]) ∨ (behind = [b] ∧ x = a ∧ before = xs) ∨
    (∃ front, behind = front ++ [a, b] ∧ xs = before ++ x :: front) := by
  rcases List.append_eq_append_iff.1 h with ⟨front, hbefore, hpair⟩ | ⟨front, hxs, hbehind⟩
  · match front with
    | [] =>
      simp only [List.nil_append, List.cons.injEq] at hpair
      exact .inr (.inl ⟨hpair.2.symm, hpair.1.symm, by rw [hbefore, List.append_nil]⟩)
    | [_] =>
      simp only [List.cons_append, List.nil_append, List.cons.injEq] at hpair
      obtain ⟨rfl, rfl, rfl⟩ := hpair
      exact .inl ⟨rfl, rfl, hbefore⟩
    | _ :: _ :: _ => simp at hpair
  · match front with
    | [] =>
      simp only [List.nil_append, List.cons.injEq] at hbehind
      exact .inr (.inl ⟨hbehind.2, hbehind.1, by rw [hxs, List.append_nil]⟩)
    | y :: front =>
      obtain ⟨rfl, rfl⟩ := List.cons_eq_cons.1 hbehind
      exact .inr (.inr ⟨front, rfl, hxs⟩)

namespace DamagedFrame

/-- The bytes that arrive. -/
def bytes (f : DamagedFrame) : Bytes :=
  f.before ++ f.arrived :: f.behind

/-- **What a damaged frame looks like.**  Either the first sum is not that of the bytes in front of
it, or only the last byte is changed. -/
theorem bytes_eq (f : DamagedFrame) :
    (f.behind ≠ [] ∧ ∃ g sums, f.bytes = Frame.sealedBy g sums ∧
      g.payload.length = f.frame.payload.length ∧ sums.a ≠ (Checksum.ofBytes g.body).a) ∨
    (f.behind = [] ∧ ∃ sums, f.bytes = f.frame.sealedBy sums ∧
      sums.a = (Checksum.ofBytes f.frame.body).a ∧ sums.b ≠ (Checksum.ofBytes f.frame.body).b) := by
  obtain ⟨frame, buffer, before, sent, arrived, behind, hle, hencoded, hne, hspared⟩ := f
  have hlt := Nat.lt_of_le_of_lt hle Frame.maxPayload_lt
  have hwire := (Frame.eq_wire_of_encoded hlt hencoded).symm
  obtain ⟨middle, rfl⟩ : ∃ middle, before = Frame.sync1 :: Frame.sync2 :: middle := by
    match before with
    | [] | [_] => simp at hspared
    | first :: second :: middle =>
      simp only [Frame.wire, List.cons_append, List.cons.injEq] at hwire
      exact ⟨middle, by rw [hwire.1, hwire.2.1]⟩
  have hmiddle : middle.length ∉ [2, 3] := by
    simp only [List.length_cons, List.mem_cons, List.not_mem_nil, or_false, not_or] at hspared ⊢
    omega
  have hbody : frame.body ++ [(Checksum.ofBytes frame.body).a, (Checksum.ofBytes frame.body).b] =
      middle ++ sent :: behind := by
    simpa [Frame.wire, Checksum.toBytes] using hwire
  rcases append_pair_cases hbody with ⟨rfl, rfl, rfl⟩ | ⟨rfl, rfl, rfl⟩ | ⟨front, rfl, hfront⟩
  · -- the second sum is changed
    refine .inr ⟨rfl, { Checksum.ofBytes frame.body with b := arrived }, ?_, rfl, hne⟩
    simp [bytes, Frame.sealedBy, Checksum.toBytes]
  · -- the first sum is changed
    refine .inl ⟨List.cons_ne_nil _ _, frame, { Checksum.ofBytes frame.body with a := arrived },
      ?_, rfl, hne⟩
    simp [bytes, Frame.sealedBy, Checksum.toBytes]
  · -- a byte under the checksum is changed, and the sums stay those of the frame that was sent
    obtain ⟨g, hg, hlen⟩ := Frame.exists_body_exchanged hlt hfront hmiddle arrived
    refine .inl ⟨by simp, g, Checksum.ofBytes frame.body, ?_, hlen, ?_⟩
    · simp [bytes, Frame.sealedBy, Checksum.toBytes, hg]
    · rw [hg, hfront]
      exact Checksum.ofBytes_a_ne hne.symm _ _

end DamagedFrame

/-! ### Feeding damaged frames -/

namespace Decoder

variable {d : Decoder} {f g : Frame} {sums : Checksum}

/-- The byte behind a first synchronisation byte is dropped with it.  A frame that loses its first
byte so is not reported: what is left of it is shorter than the frame, whatever it holds. -/
theorem notMem_feedAll_wire (hd : d.step = .sync2) (g : Frame) :
    .frame g ∉ (d.feedAll g.wire).1 := by
  have hfeed : d.feed Frame.sync1 = (.pending, { d with step := .sync1 }) := by
    simp [feed, hd, Frame.sync1, Frame.sync2]
  rw [Frame.wire, feedAll_cons, hfeed]
  intro hmem
  -- what is reported was found in the frame less its first byte
  have hrest := (List.mem_cons.1 hmem).resolve_left Outcome.noConfusion
  have hle := (infix_of_mem_feedAll rfl hrest).length_le
  rw [Frame.wire, List.length_cons] at hle
  exact Nat.not_succ_le_self _ hle

theorem feed_of_searching (hd : d.step = .sync1) (byte : UInt8) :
    (d.feed byte).1 = .pending ∧
      (d.feed byte).2.step = if byte = Frame.sync1 then .sync2 else .sync1 := by
  by_cases hb : byte = Frame.sync1 <;> simp [feed, hd, hb]

/-- A frame with a wrong first sum is broken there.  The second sum is searched for the next
frame. -/
theorem feedAll_sealedBy_of_a_ne (hd : d.step = .sync1) (hf : f.payload.length ≤ Frame.maxPayload)
    (ha : sums.a ≠ (Checksum.ofBytes f.body).a) :
    (d.feedAll (f.sealedBy sums)).1 = List.replicate (f.payload.length + 6) .pending ++
        [.rejected (.checksumA (Checksum.ofBytes f.body).a sums.a), .pending] ∧
      (d.feedAll (f.sealedBy sums)).2.step = if sums.b = Frame.sync1 then .sync2 else .sync1 := by
  have hsplit : f.sealedBy sums =
      Frame.sync1 :: Frame.sync2 :: (f.body ++ [sums.a]) ++ [sums.b] := by
    simp [Frame.sealedBy, Checksum.toBytes]
  have hhead : Stream.head ([] ++ Frame.sync1 :: Frame.sync2 :: (f.body ++ [sums.a])) =
      some (([] : Bytes).length + (f.payload.length + 6),
        .rejected (.checksumA (Checksum.ofBytes f.body).a sums.a)) := by
    simp [Stream.head_body hf, Stream.verdict, ha]
  obtain ⟨houtcomes, hstep⟩ := (Within.sync1 hd).feedAll_item hhead (by simp [Frame.length_body])
  obtain ⟨hpending, hnext⟩ := feed_of_searching hstep sums.b
  rw [hsplit, feedAll_append, houtcomes, feedAll_cons, hpending]
  exact ⟨List.append_assoc _ _ _, hnext⟩

/-- A frame with a wrong second sum only is broken there. -/
theorem feedAll_sealedBy_of_b_ne (hd : d.step = .sync1) (hf : f.payload.length ≤ Frame.maxPayload)
    (ha : sums.a = (Checksum.ofBytes f.body).a) (hb : sums.b ≠ (Checksum.ofBytes f.body).b) :
    (d.feedAll (f.sealedBy sums)).1 = List.replicate (f.payload.length + 7) .pending ++
        [.rejected (.checksumB (Checksum.ofBytes f.body).b sums.b)] ∧
      (d.feedAll (f.sealedBy sums)).2.step = .sync1 := by
  have hhead : Stream.head ([] ++ f.sealedBy sums) =
      some (([] : Bytes).length + (f.payload.length + 7),
        .rejected (.checksumB (Checksum.ofBytes f.body).b sums.b)) := by
    simp [Frame.sealedBy, Checksum.toBytes, Stream.head_body hf, Stream.verdict, ha, hb]
  exact (Within.sync1 hd).feedAll_item hhead (f.length_sealedBy sums)

/-- A decoder that searches reports the next frame, and nothing else; one that has taken a first
synchronisation byte does not. -/
theorem feedAll_next (hd : d.step = .sync1 ∨ d.step = .sync2)
    (hg : g.payload.length ≤ Frame.maxPayload) :
    (.frame g ∈ (d.feedAll g.wire).1 ↔ d.step = .sync1) ∧
    (.frame g ∈ (d.feedAll g.wire).1 → (d.feedAll g.wire).1 =
      List.replicate (g.wire.length - 1) .pending ++ [.frame g]) := by
  rcases hd with hd | hd
  · have houtcomes := (feedAll_frame hd hg).1
    have hlength : g.wire.length = g.payload.length + 8 := g.length_sealedBy _
    refine ⟨by simp [houtcomes, hd], fun _ => ?_⟩
    rw [houtcomes, hlength]
    rfl
  · have hnone := notMem_feedAll_wire hd g
    exact ⟨by simp [hnone, hd], fun hmem => absurd hmem hnone⟩

/-- **A damaged frame is broken, and the next frame is found behind it unless its first byte is
swallowed.**  From any searching decoder, a frame of which one byte is changed brings about nothing
but one broken frame: at the second sum if that is the changed byte, and else at the first sum.  A
frame that follows at once is reported, and nothing but it, if and only if the damage was found at
the second sum or the last byte is no first synchronisation byte. -/
theorem feedAll_damaged (hd : d.step = .sync1) (f : DamagedFrame) {buffer next : Bytes}
    (hg : g.payload.length ≤ Frame.maxPayload) (hnext : g.encoded buffer = .ok next) :
    let outcomes := (d.feedAll f.bytes).1
    let answers := ((d.feedAll f.bytes).2.feedAll next).1
    (f.behind ≠ [] → ∃ expected received, outcomes =
      List.replicate (f.bytes.length - 2) .pending ++
        [.rejected (.checksumA expected received), .pending]) ∧
    (f.behind = [] → ∃ expected received, outcomes =
      List.replicate (f.bytes.length - 1) .pending ++
        [.rejected (.checksumB expected received)]) ∧
    (.frame g ∈ answers ↔
      (∃ expected received, .rejected (.checksumB expected received) ∈ outcomes) ∨
        f.bytes.getLast? ≠ some Frame.sync1) ∧
    (.frame g ∈ answers →
      answers = List.replicate (next.length - 1) .pending ++ [.frame g]) := by
  intro outcomes answers
  obtain rfl := Frame.eq_wire_of_encoded (Nat.lt_of_le_of_lt hg Frame.maxPayload_lt) hnext
  rcases f.bytes_eq with ⟨hbehind, h, sums, hbytes, hlen, ha⟩ | ⟨hbehind, sums, hbytes, ha, hb⟩
  · obtain ⟨houtcomes, hstep⟩ := feedAll_sealedBy_of_a_ne hd (hlen ▸ f.payload_le) ha
    have hlast := h.getLast?_sealedBy sums
    have hlength := h.length_sealedBy sums
    rw [← hbytes] at houtcomes hstep hlast hlength
    have hsearch : (d.feedAll f.bytes).2.step = .sync1 ∨ (d.feedAll f.bytes).2.step = .sync2 := by
      rw [hstep]
      split
      · exact .inr rfl
      · exact .inl rfl
    obtain ⟨hmem, halone⟩ := feedAll_next hsearch hg
    refine ⟨fun _ => ⟨_, _, by rw [hlength]; exact houtcomes⟩, fun hnil => absurd hnil hbehind,
      ?_, halone⟩
    rw [hmem, hstep, hlast]
    by_cases hsync : sums.b = Frame.sync1 <;> simp [outcomes, houtcomes, hsync]
  · obtain ⟨houtcomes, hstep⟩ := feedAll_sealedBy_of_b_ne hd f.payload_le ha hb
    have hlength := f.frame.length_sealedBy sums
    rw [← hbytes] at houtcomes hstep hlength
    obtain ⟨hmem, halone⟩ := feedAll_next (.inl hstep) hg
    refine ⟨fun hne => absurd hbehind hne, fun _ => ⟨_, _, by rw [hlength]; exact houtcomes⟩,
      ?_, halone⟩
    simp [outcomes, houtcomes, hmem.2 hstep, answers]

/-- A frame whose second sum is the first synchronisation byte.  If its class is changed, the frame
behind it is lost. -/
theorem feedAll_damaged_swallows :
    let f : DamagedFrame := {
      frame := ⟨⟨0x05, 0x8B⟩, []⟩, buffer := List.replicate 8 0
      before := [0xB5, 0x62], sent := 0x05, arrived := 0x04
      behind := [0x8B, 0x00, 0x00, 0x90, 0xB5]
      payload_le := by decide, encoded := rfl, arrived_ne := by decide, spared := by decide }
    let g : Frame := ⟨⟨0x05, 0x01⟩, [0x06, 0x01]⟩
    initial.step = .sync1 ∧ g.payload.length ≤ Frame.maxPayload ∧
      g.encoded (List.replicate 12 0xFF) = .ok g.wire ∧
      (∃ expected received, (initial.feedAll f.bytes).1 =
        List.replicate 6 .pending ++ [.rejected (.checksumA expected received), .pending]) ∧
      .frame g ∉ ((initial.feedAll f.bytes).2.feedAll g.wire).1 := by
  intro f g
  have hg : g.payload.length ≤ Frame.maxPayload := by decide
  have hnext : g.encoded (List.replicate 12 0xFF) = .ok g.wire := rfl
  obtain ⟨hbroken, -, hfound, -⟩ := feedAll_damaged (d := initial) rfl f hg hnext
  refine ⟨rfl, hg, hnext, hbroken (List.cons_ne_nil _ _), fun hmem => ?_⟩
  rcases hfound.1 hmem with ⟨expected, received, hlate⟩ | hlast
  · obtain ⟨e, r, houtcomes⟩ := hbroken (List.cons_ne_nil _ _)
    simp [houtcomes] at hlate
  · exact hlast rfl

end Decoder

end GnssLink
