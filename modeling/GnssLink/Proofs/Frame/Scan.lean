import GnssLink.Proofs.Frame.Progress

/-!
# The decoder finds what the stream holds

A decoder that is fed byte by byte reports exactly what the scan of the whole stream finds, with the
same indices (`Decoder.Within.events`).  The invariant is that the bytes taken so far stand in front
of the rest of the stream: a byte that completes nothing moves from the rest to the bytes taken, and
a byte that completes something ends one step of the scan.

From the scan it can be read off that every reported frame stands in the stream in its wire form and
that no two reported frames share a byte (`Decoder.events_initial_eq_scan`).

## Main results

* `Stream.mem_scan_frame` — where a frame that the scan finds stands.
* `Decoder.Within.events` — the reports of a decoder, from any state.
* `Decoder.infix_of_mem_feedAll` — a frame that is reported stands in the bytes in its wire form.
* `Decoder.events_initial_eq_scan` — the reports of a fresh decoder.
-/

namespace GnssLink

/-! ### The scan -/

namespace Stream

theorem scan_of_head_eq_none {stream : Bytes} (h : head stream = none) (start : Nat) :
    scan start stream = [] := by
  rw [scan]
  split
  · rfl
  · next hsome => simp [h] at hsome

/-- One step of the scan. -/
theorem scan_of_head_eq_some {stream : Bytes} {last : Nat} {outcome : Outcome}
    (h : head stream = some (last, outcome)) (start : Nat) :
    scan start stream = (if outcome = .pending then [] else [(start + last, outcome)]) ++
      scan (start + last + 1) (stream.drop (last + 1)) := by
  rw [scan]
  split
  · next hnone => simp [h] at hnone
  · next last' outcome' hsome =>
    obtain ⟨rfl, rfl⟩ := Prod.mk.inj (Option.some.inj (h.symm.trans hsome))
    split <;> rfl

/-- A frame that the scan finds stands in the stream in its wire form, and its last byte has the
index that is reported. -/
theorem mem_scan_frame {stream : Bytes} {start i : Nat} {f : Frame}
    (h : (i, Outcome.frame f) ∈ scan start stream) :
    ∃ before after, stream = before ++ f.wire ++ after ∧
      i + 1 = start + (before ++ f.wire).length := by
  induction hn : stream.length using Nat.strongRecOn generalizing start stream with
  | ind n ih =>
    cases hhead : head stream with
    | none => simp [scan_of_head_eq_none hhead] at h
    | some answer =>
      obtain ⟨last, outcome⟩ := answer
      rw [scan_of_head_eq_some hhead, List.mem_append] at h
      rcases h with hitem | hbehind
      · split at hitem
        · simp at hitem
        · obtain ⟨rfl, rfl⟩ := Prod.mk.inj (List.mem_singleton.1 hitem)
          obtain ⟨behind, rfl, hlast, -⟩ := eq_wire_append_of_head hhead
          exact ⟨[], behind, rfl, by rw [List.nil_append, ← hlast]; omega⟩
      · have hne : stream ≠ [] := by
          rintro rfl
          simp [head] at hhead
        have hpos := List.length_pos_iff.2 hne
        obtain ⟨before, after, hdrop, hi⟩ :=
          ih _ (by rw [List.length_drop]; omega) hbehind rfl
        have hwire := f.length_wire
        have hlength := congrArg List.length hdrop
        simp only [List.length_drop, List.length_append] at hlength hi
        rw [Frame.wireLength_eq] at hwire
        refine ⟨stream.take (last + 1) ++ before, after, ?_, ?_⟩
        · rw [List.append_assoc, List.append_assoc, ← List.append_assoc before, ← hdrop,
            List.take_append_drop]
        · simp only [List.length_append, List.length_take]
          omega

/-- No two items that the scan finds share a byte: a frame begins behind the item before it. -/
theorem scan_pairwise (start : Nat) (stream : Bytes) :
    (scan start stream).Pairwise fun e e' => ∀ f, e'.2 = .frame f → e.1 + f.wire.length ≤ e'.1 := by
  induction hn : stream.length using Nat.strongRecOn generalizing start stream with
  | ind n ih =>
    cases hhead : head stream with
    | none =>
      rw [scan_of_head_eq_none hhead]
      exact .nil
    | some answer =>
      obtain ⟨last, outcome⟩ := answer
      have hne : stream ≠ [] := by
        rintro rfl
        simp [head] at hhead
      have hpos := List.length_pos_iff.2 hne
      have hrest := ih _ (by rw [List.length_drop]; omega) (start + last + 1)
        (stream.drop (last + 1)) rfl
      rw [scan_of_head_eq_some hhead]
      split
      · exact hrest
      · refine .cons ?_ hrest
        rintro ⟨i, outcome'⟩ hmem f rfl
        obtain ⟨before, after, -, hi⟩ := mem_scan_frame hmem
        rw [List.length_append] at hi
        omega

end Stream

/-! ### The reports of a decoder -/

namespace Decoder

variable {d : Decoder}

theorem events_cons (d : Decoder) (start : Nat) (byte : UInt8) (rest : Bytes) :
    d.events start (byte :: rest) =
      (if (d.feed byte).1 = .pending then [] else [(start, (d.feed byte).1)]) ++
        (d.feed byte).2.events (start + 1) rest := by
  simp only [events, feedAll, List.zipIdx_cons, List.filter_cons]
  by_cases h : (d.feed byte).1 = .pending <;> simp [h]

/-- **The decoder and the scan agree from any state.**  The bytes taken so far stand in front of the
bytes that are still to come. -/
theorem Within.events {taken : Bytes} (h : d.Within taken) (start : Nat) (stream : Bytes) :
    d.events (start + taken.length) stream = Stream.scan start (taken ++ stream) := by
  induction stream generalizing d taken start with
  | nil =>
    rw [List.append_nil, Stream.scan_of_head_eq_none h.head_eq_none]
    rfl
  | cons byte rest ih =>
    have hsplit := List.append_cons taken byte rest
    rw [events_cons]
    rcases h.feed byte with ⟨-, hpending, hwithin⟩ | ⟨hhead, hwithin⟩
    · have hrest := ih hwithin start
      rw [List.length_append, List.length_singleton, ← Nat.add_assoc] at hrest
      rw [if_pos hpending, List.nil_append, hrest, hsplit]
    · have hrest := ih hwithin (start + taken.length + 1)
      have hdrop : (taken ++ byte :: rest).drop (taken.length + 1) = rest := by
        rw [List.drop_length_add_append]
        rfl
      have hhead' := Stream.head_append hhead rest
      rw [← hsplit] at hhead'
      rw [Stream.scan_of_head_eq_some hhead', hdrop]
      exact congrArg _ hrest

theorem exists_mem_events (d : Decoder) (start : Nat) {bytes : Bytes} {outcome : Outcome}
    (h : outcome ∈ (d.feedAll bytes).1) (hne : outcome ≠ .pending) :
    ∃ i, (i, outcome) ∈ d.events start bytes := by
  induction bytes generalizing d start with
  | nil => simp [feedAll] at h
  | cons byte rest ih =>
    rw [feedAll_cons, List.mem_cons] at h
    rw [events_cons]
    rcases h with rfl | hrest
    · exact ⟨start, by simp [hne]⟩
    · obtain ⟨i, hi⟩ := ih _ (start + 1) hrest
      exact ⟨i, List.mem_append_right _ hi⟩

/-- A searching decoder reports only frames whose wire form it was fed. -/
theorem infix_of_mem_feedAll (hd : d.step = .sync1) {bytes : Bytes} {f : Frame}
    (h : .frame f ∈ (d.feedAll bytes).1) : f.wire <:+: bytes := by
  have hevents : d.events 0 bytes = Stream.scan 0 bytes := (Within.sync1 hd).events 0 bytes
  obtain ⟨i, hmem⟩ := d.exists_mem_events 0 h Outcome.noConfusion
  rw [hevents] at hmem
  obtain ⟨before, after, hbytes, -⟩ := Stream.mem_scan_frame hmem
  exact ⟨before, after, hbytes.symm⟩

/-- **A fresh decoder finds what the stream holds.**  It reports what the scan of the whole stream
finds, at the same bytes; every frame that it reports stands in the stream in its wire form and ends
at that byte; and a frame begins behind everything that was reported before it. -/
theorem events_initial_eq_scan (stream : Bytes) :
    initial.events 0 stream = Stream.scan 0 stream ∧
    (∀ i f, (i, Outcome.frame f) ∈ initial.events 0 stream →
      ∃ before after, stream = before ++ f.wire ++ after ∧ i + 1 = (before ++ f.wire).length) ∧
    (initial.events 0 stream).Pairwise
      fun e e' => ∀ f, e'.2 = .frame f → e.1 + f.wire.length ≤ e'.1 := by
  have hscan : initial.events 0 stream = Stream.scan 0 stream := within_initial.events 0 stream
  rw [hscan]
  refine ⟨rfl, ?_, Stream.scan_pairwise 0 stream⟩
  intro i f hmem
  obtain ⟨before, after, hstream, hi⟩ := Stream.mem_scan_frame hmem
  exact ⟨before, after, hstream, by rw [hi, Nat.zero_add]⟩

end Decoder

end GnssLink
