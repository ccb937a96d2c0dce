import Mathlib.Algebra.Group.Nat.Defs
import GnssLink.Frame.Stream

/-!
# The wire form of a frame at the start of a stream

What stands at the start of a byte stream is decided by its first bytes: more bytes behind them do
not change the answer (`Stream.head_append`).  A frame in its wire form is found whole
(`Stream.head_wire`), and wherever a frame is found, its wire form stands there
(`Stream.eq_wire_append_of_head`).  So the frames that `Stream.head` finds are exactly the wire
forms of frames with a payload of at most `Frame.maxPayload` bytes.

## Main results

* `LittleEndian.encode_decode`, `LittleEndian.decode_encode` — words and byte strings, both ways.
* `Stream.head_append` — the answer at the start of a stream does not depend on what follows.
* `Stream.head_wire` — a frame is found in its wire form.
* `Stream.eq_wire_append_of_head` — a frame that is found stands there in its wire form.
-/

namespace GnssLink

/-! ### Words -/

namespace LittleEndian

theorem encode_decode (bytes : Bytes) : encode bytes.length (decode bytes) = bytes := by
  induction bytes with
  | nil => rfl
  | cons b rest ih =>
    have hb := b.toNat_lt
    have hdiv : (b.toNat + 256 * decode rest) / 256 = decode rest := by omega
    simp only [List.length_cons, encode, decode, hdiv, ih, List.cons.injEq, and_true]
    apply UInt8.toNat_inj.mp
    rw [UInt8.toNat_ofNat']
    omega

theorem decode_encode (width n : Nat) (h : n < 256 ^ width) : decode (encode width n) = n := by
  induction width generalizing n with
  | zero =>
    simp only [Nat.pow_zero, Nat.lt_one_iff] at h
    simp only [encode, decode, h]
  | succ width ih =>
    have hdiv : n / 256 < 256 ^ width := by
      rw [Nat.div_lt_iff_lt_mul (by decide), ← Nat.pow_succ]
      exact h
    simp only [encode, decode, ih _ hdiv, UInt8.toNat_ofNat']
    omega

/-- The two bytes of a half word, joined by shifting the high one. -/
theorem toNat_or_shiftLeft (low high : UInt8) :
    (low.toUInt16 ||| high.toUInt16 <<< 8).toNat = decode [low, high] := by
  have hlow := low.toNat_lt
  have hhigh := high.toNat_lt
  have hshift : (high.toUInt16 <<< 8).toNat = high.toNat <<< 8 := by
    rw [UInt16.toNat_shiftLeft, UInt8.toNat_toUInt16, Nat.shiftLeft_eq, Nat.shiftLeft_eq]
    simp
    omega
  rw [UInt16.toNat_or, UInt8.toNat_toUInt16, hshift, Nat.or_comm,
    ← Nat.shiftLeft_add_eq_or_of_lt hlow, Nat.shiftLeft_eq]
  simp only [decode]
  omega

end LittleEndian

/-! ### Frames -/

namespace Frame

theorem length_body (f : Frame) : f.body.length = f.payload.length + 4 := by
  rw [body, List.length_cons, List.length_cons, List.length_append, LittleEndian.length_encode]
  omega

/-- The part under the checksum, with the two bytes of the length written out. -/
theorem body_eq {cls id low high : UInt8} {payload : Bytes}
    (h : payload.length = LittleEndian.decode [low, high]) :
    (Frame.mk ⟨cls, id⟩ payload).body = cls :: id :: low :: high :: payload := by
  have hword : LittleEndian.encode 2 payload.length = [low, high] := by
    rw [h]
    exact LittleEndian.encode_decode [low, high]
  simp only [body, hword, List.cons_append, List.nil_append]

/-- The two bytes of the length in the header of a frame. -/
theorem exists_length_bytes (f : Frame) (h : f.payload.length < UInt16.size) :
    ∃ low high, f.payload.length = LittleEndian.decode [low, high] ∧
      f.body = f.type.cls :: f.type.id :: low :: high :: f.payload := by
  have hdecode : LittleEndian.decode (LittleEndian.encode 2 f.payload.length) = f.payload.length :=
    LittleEndian.decode_encode 2 _ h
  exact ⟨_, _, hdecode.symm, rfl⟩

theorem maxPayload_lt : maxPayload < UInt16.size := by decide

end Frame

/-! ### The start of a stream -/

namespace Stream

open GnssLink.Frame (sync1 sync2)

/-- Behind a complete header the declared length decides. -/
theorem head_header (cls id low high : UInt8) (rest : Bytes) :
    head (sync1 :: sync2 :: cls :: id :: low :: high :: rest) =
      if Frame.maxPayload < LittleEndian.decode [low, high] then
        some (5, .rejected (.oversizedPayload
          (UInt16.ofNat (LittleEndian.decode [low, high])) Frame.maxPayload))
      else
        verdict ⟨⟨cls, id⟩, rest.take (LittleEndian.decode [low, high])⟩
          (LittleEndian.decode [low, high]) (rest.drop (LittleEndian.decode [low, high])) := by
  simp only [head, if_true]

/-- Behind a whole payload the two checksum bytes decide. -/
theorem head_payload {cls id low high : UInt8} {payload : Bytes} (rest : Bytes)
    (hlen : payload.length = LittleEndian.decode [low, high])
    (hle : payload.length ≤ Frame.maxPayload) :
    head (sync1 :: sync2 :: cls :: id :: low :: high :: (payload ++ rest)) =
      verdict ⟨⟨cls, id⟩, payload⟩ payload.length rest := by
  rw [head_header, ← hlen, if_neg (Nat.not_lt.2 hle), List.take_left, List.drop_left]

theorem verdict_append {f : Frame} {n : Nat} {behind : Bytes} {answer : Nat × Outcome}
    (h : verdict f n behind = some answer) (more : Bytes) :
    verdict f n (behind ++ more) = some answer := by
  match behind with
  | [] => simp [verdict] at h
  | [a] =>
    by_cases ha : a = (Checksum.ofBytes f.body).a
    · simp [verdict, ha] at h
    · simpa [verdict, ha] using h
  | a :: b :: rest => exact h

/-- A payload that is cut short leaves no answer. -/
theorem head_short {cls id low high : UInt8} {payload : Bytes}
    (hlt : payload.length ≤ LittleEndian.decode [low, high])
    (hle : LittleEndian.decode [low, high] ≤ Frame.maxPayload) :
    head (sync1 :: sync2 :: cls :: id :: low :: high :: payload) = none := by
  rw [head_header, if_neg (Nat.not_lt.2 hle), List.drop_of_length_le hlt]
  rfl

/-- What may stand at the start of a stream: noise, a broken synchronisation, a declared length that
is too large, or a payload with at least one checksum byte behind it. -/
theorem head_cases {stream : Bytes} {answer : Nat × Outcome} (h : head stream = some answer) :
    (∃ b rest, b ≠ sync1 ∧ stream = b :: rest ∧ answer = (0, .pending)) ∨
    (∃ b rest, b ≠ sync2 ∧ stream = sync1 :: b :: rest ∧ answer = (1, .pending)) ∨
    (∃ cls id low high rest, Frame.maxPayload < LittleEndian.decode [low, high] ∧
      stream = sync1 :: sync2 :: cls :: id :: low :: high :: rest ∧
      answer = (5, .rejected (.oversizedPayload
        (UInt16.ofNat (LittleEndian.decode [low, high])) Frame.maxPayload))) ∨
    (∃ cls id low high payload behind, payload.length = LittleEndian.decode [low, high] ∧
      payload.length ≤ Frame.maxPayload ∧
      stream = sync1 :: sync2 :: cls :: id :: low :: high :: (payload ++ behind) ∧
      verdict ⟨⟨cls, id⟩, payload⟩ payload.length behind = some answer) := by
  match stream with
  | [] => simp [head] at h
  | first :: rest =>
    by_cases h1 : first = sync1
    · subst h1
      match rest with
      | [] => simp [head] at h
      | second :: rest =>
        by_cases h2 : second = sync2
        · subst h2
          match rest with
          | [] | [_] | [_, _] | [_, _, _] => simp [head] at h
          | cls :: id :: low :: high :: rest =>
            rw [head_header] at h
            split at h
            · next hbig =>
              exact .inr (.inr (.inl
                ⟨cls, id, low, high, rest, hbig, rfl, (Option.some.inj h).symm⟩))
            · next hsmall =>
              rcases Nat.lt_or_ge rest.length (LittleEndian.decode [low, high]) with hlt | hge
              · rw [List.drop_of_length_le (Nat.le_of_lt hlt)] at h
                simp [verdict] at h
              · have hlen := List.length_take_of_le hge
                have hsplit := List.take_append_drop (LittleEndian.decode [low, high]) rest
                refine .inr (.inr (.inr ⟨cls, id, low, high, _, _, hlen, ?_, by rw [hsplit], ?_⟩))
                · exact Nat.le_trans (Nat.le_of_eq hlen) (Nat.not_lt.1 hsmall)
                · rw [hlen]
                  exact h
        · simp only [head, h2, if_true, if_false, Option.some.injEq] at h
          exact .inr (.inl ⟨second, rest, h2, rfl, h.symm⟩)
    · simp only [head, h1, if_false, Option.some.injEq] at h
      exact .inl ⟨first, rest, h1, rfl, h.symm⟩

/-- **What stands at the start of a stream does not depend on what follows.** -/
theorem head_append {stream : Bytes} {answer : Nat × Outcome} (h : head stream = some answer)
    (more : Bytes) : head (stream ++ more) = some answer := by
  rcases head_cases h with ⟨b, rest, hb, rfl, rfl⟩ | ⟨b, rest, hb, rfl, rfl⟩ |
    ⟨cls, id, low, high, rest, hbig, rfl, rfl⟩ |
    ⟨cls, id, low, high, payload, behind, hlen, hle, rfl, hverdict⟩
  · simp [head, hb]
  · simp [head, hb]
  · simp only [List.cons_append, head_header, if_pos hbig]
  · simp only [List.cons_append, List.append_assoc]
    rw [head_payload _ hlen hle]
    exact verdict_append hverdict more

/-- Behind the whole part under the checksum the verdict on the frame decides. -/
theorem head_body {f : Frame} (h : f.payload.length ≤ Frame.maxPayload) (behind : Bytes) :
    head (sync1 :: sync2 :: (f.body ++ behind)) = verdict f f.payload.length behind := by
  obtain ⟨low, high, hlen, hbody⟩ :=
    f.exists_length_bytes (Nat.lt_of_le_of_lt h Frame.maxPayload_lt)
  rw [hbody]
  exact head_payload behind hlen h

/-- A frame is found in its wire form. -/
theorem head_wire (f : Frame) (h : f.payload.length ≤ Frame.maxPayload) :
    head f.wire = some (f.payload.length + 7, .frame f) := by
  rw [Frame.wire, head_body h]
  simp [verdict, Checksum.toBytes]

/-- The verdict reports a frame only if both checksum bytes are right. -/
theorem verdict_frame {f g : Frame} {n last : Nat} {behind : Bytes}
    (h : verdict f n behind = some (last, .frame g)) :
    g = f ∧ last = n + 7 ∧ ∃ rest, behind = (Checksum.ofBytes f.body).toBytes ++ rest := by
  match behind with
  | [] => simp [verdict] at h
  | a :: behind =>
    by_cases ha : a = (Checksum.ofBytes f.body).a
    · match behind with
      | [] => simp [verdict, ha] at h
      | b :: rest =>
        by_cases hb : b = (Checksum.ofBytes f.body).b
        · simp only [verdict, ha, hb, if_true, Option.some.injEq, Prod.mk.injEq,
            Outcome.frame.injEq] at h
          exact ⟨h.2.symm, h.1.symm, rest, by rw [ha, hb]; rfl⟩
        · simp [verdict, ha, hb] at h
    · simp [verdict, ha] at h

/-- **A frame that is found stands there in its wire form.** -/
theorem eq_wire_append_of_head {stream : Bytes} {last : Nat} {f : Frame}
    (h : head stream = some (last, .frame f)) :
    ∃ behind, stream = f.wire ++ behind ∧ last + 1 = f.wire.length ∧
      f.payload.length ≤ Frame.maxPayload := by
  rcases head_cases h with ⟨b, rest, hb, rfl, hpending⟩ | ⟨b, rest, hb, rfl, hpending⟩ |
    ⟨cls, id, low, high, rest, hbig, rfl, hrejected⟩ |
    ⟨cls, id, low, high, payload, behind, hlen, hle, rfl, hverdict⟩
  · simp at hpending
  · simp at hpending
  · simp at hrejected
  · obtain ⟨rfl, rfl, rest, rfl⟩ := verdict_frame hverdict
    refine ⟨rest, ?_, ?_, hle⟩
    · rw [Frame.wire, Frame.body_eq hlen]
      simp only [List.cons_append, List.append_assoc]
    · simp only [Frame.length_wire, Frame.wireLength_eq]
      omega

end Stream

end GnssLink
