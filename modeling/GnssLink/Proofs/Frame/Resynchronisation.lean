import GnssLink.Command.Basic
import GnssLink.Proofs.Frame.Progress

/-!
# A decoder comes back to its search

A decoder that is inside a frame searches again after a bounded number of bytes, whatever the bytes
are, because a stream that is as long as the longest frame always has an answer at its start
(`Stream.head_ne_none`).  Until then the fields stay within their bounds: the declared length can be
counted down, every payload byte finds its cell, and the store holds the payload as it arrived
(`Decoder.feedAll_initial_sound`).

A decoder that searches has forgotten the frames before.  Two decoders that have taken the same
bytes of a frame report the same on every stream, so two searching decoders do, whatever their
fields hold (`Decoder.outcomes_eq_of_searching`).

## Main definitions

* `Decoder.EndsWith` — the last bytes of a stream are those of the frame that a decoder is in.
* `Decoder.InPayload`, `Decoder.BehindPayload` — the bounds in the payload and behind it.
* `Decoder.HasRoom` — a payload byte is taken without loss.
* `Decoder.Sound` — the bounds in every step, and the way back to the search.

## Main results

* `Decoder.Within.exists_searching` — the bytes after which a decoder searches again.
* `Decoder.feedAll_initial_sound` — every state that a byte stream leads to.
* `Decoder.outcomes_eq_of_searching` — leftovers of earlier frames are never seen.
-/

namespace GnssLink

/-! ### Long streams -/

namespace Stream

open GnssLink.Frame (sync1 sync2)

/-- Two checksum bytes are enough for a verdict. -/
theorem verdict_ne_none (f : Frame) (n : Nat) {behind : Bytes} (h : 2 ≤ behind.length) :
    verdict f n behind ≠ none := by
  match behind with
  | [] | [_] => simp at h
  | a :: b :: rest =>
    by_cases ha : a = (Checksum.ofBytes f.body).a
    · by_cases hb : b = (Checksum.ofBytes f.body).b <;> simp [verdict, ha, hb]
    · simp [verdict, ha]

/-- A stream that is as long as the longest frame has an answer at its start. -/
theorem head_ne_none {stream : Bytes}
    (h : Frame.wireLength Frame.maxPayload ≤ stream.length) : head stream ≠ none := by
  have hlongest : Frame.wireLength Frame.maxPayload = Frame.maxPayload + 8 := rfl
  match stream with
  | [] | [_] | [_, _] | [_, _, _] | [_, _, _, _] | [_, _, _, _, _] => simp [hlongest] at h
  | first :: second :: cls :: id :: low :: high :: rest =>
    by_cases h1 : first = sync1
    · by_cases h2 : second = sync2
      · rw [h1, h2, head_header]
        split
        · exact Option.some_ne_none _
        · next hsmall =>
          simp only [List.length_cons] at h
          exact verdict_ne_none _ _ (by rw [List.length_drop]; omega)
      · simp [head, h1, h2]
    · simp [head, h1]

end Stream

namespace Decoder

variable {d e : Decoder} {taken : Bytes}

/-! ### Back to the search -/

/-- If the bytes taken so far and some more have an answer, the decoder searches again behind some
of the latter. -/
theorem Within.exists_searching (h : d.Within taken) {bytes : Bytes}
    (hhead : Stream.head (taken ++ bytes) ≠ none) :
    ∃ front, front <+: bytes ∧ front ≠ [] ∧ (d.feedAll front).2.step = .sync1 := by
  -- a byte that completes nothing moves from the bytes to come to those taken
  induction bytes generalizing d taken with
  | nil =>
    rw [List.append_nil] at hhead
    exact absurd h.head_eq_none hhead
  | cons byte rest ih =>
    rcases h.feed byte with ⟨-, -, hwithin⟩ | ⟨-, hwithin⟩
    · rw [List.append_cons] at hhead
      obtain ⟨front, hprefix, -, hstep⟩ := ih hwithin hhead
      exact ⟨byte :: front, (List.prefix_cons_inj byte).2 hprefix, List.cons_ne_nil _ _, hstep⟩
    · exact ⟨[byte], ⟨rest, rfl⟩, List.cons_ne_nil _ _, within_nil_iff.1 hwithin⟩

/-- A decoder that is not searching has taken a byte, so one byte less than the longest frame leads
it back to its search. -/
theorem Within.exists_searching_of_length (h : d.Within taken) (hstep : d.step ≠ .sync1)
    {bytes : Bytes} (hlen : Frame.wireLength Frame.maxPayload ≤ bytes.length + 1) :
    ∃ front, front <+: bytes ∧ front ≠ [] ∧ (d.feedAll front).2.step = .sync1 := by
  have hne : taken ≠ [] := by
    rintro rfl
    exact hstep (within_nil_iff.1 h)
  have hpos := List.length_pos_iff.2 hne
  exact h.exists_searching (Stream.head_ne_none (by rw [List.length_append]; omega))

/-! ### The fields inside a frame -/

/-- The last bytes of a stream are the header of the frame, the payload bytes in the store, and
`behind`. -/
def EndsWith (d : Decoder) (stream behind : Bytes) : Prop :=
  ∃ low high, d.declared.toNat = LittleEndian.decode [low, high] ∧
    d.opened low high ++ behind <:+ stream

/-- The bounds in the payload of a frame that a stream ends in. -/
structure InPayload (d : Decoder) (stream : Bytes) : Prop where
  declared_le : d.declared.toNat ≤ Frame.maxPayload
  one_le_declared : 1 ≤ d.declared.toNat
  consumed_lt : d.consumed.toNat < d.declared.toNat
  length_eq : d.payload.length = d.consumed.toNat
  endsWith : d.EndsWith stream []

/-- A payload byte is taken without loss: neither the declared length, less one, nor the count wraps
around, and there is a cell for the byte. -/
structure HasRoom (d : Decoder) : Prop where
  declared_sub_one : (d.declared - 1).toNat + 1 = d.declared.toNat
  isSome_store : ∀ byte, (d.payload.store? d.consumed.toNat byte).isSome
  consumed_add_one : (d.consumed + 1).toNat = d.consumed.toNat + 1

/-- The bounds behind the payload of a frame that a stream ends in.  `behind` is what the stream
holds of the checksum. -/
structure BehindPayload (d : Decoder) (stream behind : Bytes) : Prop where
  declared_le : d.declared.toNat ≤ Frame.maxPayload
  length_eq : d.payload.length = d.declared.toNat
  endsWith : d.EndsWith stream behind

/-- The fields of a decoder that took a stream are within their bounds, and it is never stuck inside
a frame: some of the next 263 bytes lead it back to its search. -/
structure Sound (d : Decoder) (stream : Bytes) : Prop where
  payload : d.step = .payload → d.InPayload stream ∧ d.HasRoom
  checksumA : d.step = .checksumA → d.BehindPayload stream []
  checksumB : d.step = .checksumB → d.BehindPayload stream [d.checksum.a]
  searchesAgain : d.step ≠ .sync1 → ∀ bytes : Bytes, bytes.length = 263 →
    ∃ front, front <+: bytes ∧ front ≠ [] ∧ (d.feedAll front).2.step = .sync1

theorem HasHeader.endsWith {low high : UInt8} {stream behind : Bytes} (h : d.HasHeader low high)
    (hsuffix : d.opened low high ++ behind <:+ stream) : d.EndsWith stream behind :=
  ⟨low, high, h.declared, hsuffix⟩

theorem Within.inPayload {stream : Bytes} (h : d.Within taken) (hsuffix : taken <:+ stream)
    (hstep : d.step = .payload) : d.InPayload stream := by
  cases h with
  | payload low high _ hheader hconsumed hlt =>
    exact {
      declared_le := hheader.declared_le
      one_le_declared := by omega
      consumed_lt := by omega
      length_eq := hconsumed.symm
      endsWith := hheader.endsWith (by rwa [List.append_nil]) }
  | _ => simp_all

theorem InPayload.hasRoom {stream : Bytes} (h : d.InPayload stream) : d.HasRoom := by
  have hcell : d.consumed.toNat < Frame.maxPayload :=
    Nat.lt_of_lt_of_le h.consumed_lt h.declared_le
  exact {
    declared_sub_one := declared_sub_one_add_one h.one_le_declared
    isSome_store := fun byte => by simp [Store.store?, hcell]
    consumed_add_one := consumed_add_one h.declared_le h.consumed_lt }

theorem Within.behindPayload_of_checksumA {stream : Bytes} (h : d.Within taken)
    (hsuffix : taken <:+ stream) (hstep : d.step = .checksumA) : d.BehindPayload stream [] := by
  cases h with
  | checksumA low high _ hheader hlen =>
    exact ⟨hheader.declared_le, hlen, hheader.endsWith (by rwa [List.append_nil])⟩
  | _ => simp_all

theorem Within.behindPayload_of_checksumB {stream : Bytes} (h : d.Within taken)
    (hsuffix : taken <:+ stream) (hstep : d.step = .checksumB) :
    d.BehindPayload stream [d.checksum.a] := by
  cases h with
  | checksumB low high _ hheader hlen =>
    exact ⟨hheader.declared_le, hlen, hheader.endsWith hsuffix⟩
  | _ => simp_all

/-- The bytes that a decoder has taken since its search began are the last ones that it was fed. -/
theorem Within.exists_suffix (h : d.Within taken) (bytes : Bytes) :
    ∃ taken', (d.feedAll bytes).2.Within taken' ∧ taken' <:+ taken ++ bytes := by
  induction bytes generalizing d taken with
  | nil => exact ⟨taken, h, by simp⟩
  | cons byte rest ih =>
    rcases h.feed byte with ⟨-, -, hwithin⟩ | ⟨-, hwithin⟩
    · obtain ⟨taken', hwithin', hsuffix⟩ := ih hwithin
      rw [List.append_assoc] at hsuffix
      exact ⟨taken', hwithin', hsuffix⟩
    · obtain ⟨taken', hwithin', hsuffix⟩ := ih hwithin
      refine ⟨taken', hwithin', hsuffix.trans ?_⟩
      exact ⟨taken ++ [byte], (List.append_cons taken byte rest).symm⟩

/-- **Every state that a stream leads to is sound.**  Inside a frame no subtraction and no count
wraps around, no payload byte is refused, the store holds exactly the payload bytes that arrived,
and 263 bytes of any content lead back to the search. -/
theorem feedAll_initial_sound (stream : Bytes) : (initial.feedAll stream).2.Sound stream := by
  obtain ⟨taken, hwithin, hsuffix⟩ := within_initial.exists_suffix stream
  exact {
    payload := fun hstep =>
      ⟨hwithin.inPayload hsuffix hstep, (hwithin.inPayload hsuffix hstep).hasRoom⟩
    checksumA := hwithin.behindPayload_of_checksumA hsuffix
    checksumB := hwithin.behindPayload_of_checksumB hsuffix
    searchesAgain := fun hstep bytes hlen =>
      hwithin.exists_searching_of_length hstep (by rw [hlen]; decide) }

/-! ### Leftovers -/

/-- Two decoders that have taken the same bytes of a frame report the same. -/
theorem Within.outcomes_eq (hd : d.Within taken) (he : e.Within taken) (bytes : Bytes) :
    (d.feedAll bytes).1 = (e.feedAll bytes).1 := by
  induction bytes generalizing d e taken with
  | nil => rfl
  | cons byte rest ih =>
    simp only [feedAll_cons, List.cons.injEq]
    rcases hd.feed byte with ⟨hnone, hpending, hwithin⟩ | ⟨hsome, hwithin⟩ <;>
      rcases he.feed byte with ⟨hnone', hpending', hwithin'⟩ | ⟨hsome', hwithin'⟩
    · exact ⟨hpending.trans hpending'.symm, ih hwithin hwithin'⟩
    · simp [hnone] at hsome'
    · simp [hnone'] at hsome
    · rw [hsome, Option.some.injEq, Prod.mk.injEq] at hsome'
      exact ⟨hsome'.2, ih hwithin hwithin'⟩

/-- **Leftovers of earlier frames are never seen.**  Two decoders that search report the same on
every byte of every stream, whatever their other fields hold. -/
theorem outcomes_eq_of_searching (hd : d.step = .sync1) (he : e.step = .sync1) (bytes : Bytes) :
    (d.feedAll bytes).1 = (e.feedAll bytes).1 :=
  (Within.sync1 hd).outcomes_eq (.sync1 he) bytes

/-- A decoder that was left by a broken frame holds its type, its payload, its sums and the mark to
pass over a frame.  On a frame with a shorter payload it reports the same as a fresh one. -/
theorem outcomes_eq_of_searching_after_error :
    let d := (initial.feedAll [0xB5, 0x62, 0x01, 0x02, 0x02, 0x00, 0xAA, 0xBB, 0x00]).2
    let bytes := (Frame.mk ⟨0x05, 0x01⟩ [0x06]).wire
    d.step = .sync1 ∧ initial.step = .sync1 ∧
      (d.skip ≠ initial.skip ∧ d.payload.toBytes ≠ initial.payload.toBytes ∧
        d.checksum ≠ initial.checksum ∧ d.stats ≠ initial.stats) ∧
      (d.feedAll bytes).1 = (initial.feedAll bytes).1 := by
  intro d bytes
  have hd : d.step = .sync1 := by decide
  exact ⟨hd, rfl, by decide, outcomes_eq_of_searching hd rfl bytes⟩

end Decoder

end GnssLink
