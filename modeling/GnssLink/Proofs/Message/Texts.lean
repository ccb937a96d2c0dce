import GnssLink.Message.Version
import GnssLink.Proofs.Message.Reading

/-!
# Texts in slots

The texts at the end of a payload are cut into slots of fixed width, of which the last one may be
shorter, and the text of a slot ends in front of its first NUL byte.  A marker is found in the text
of some slot if and only if it stands in the payload inside one slot, without a NUL byte between the
start of the slot and its own end (`Bytes.marked_iff`).

## Main definitions

* `Bytes.HoldsText` — the text that a padded slot holds.

## Main results

* `Bytes.untilNul_eq_iff` — the text of a slot is what stands in front of its padding.
* `Bytes.contains_iff_infix` — a search finds the marker if and only if it is there.
* `Bytes.mem_slots_drop_iff` — the slots at the end of a payload.
* `Bytes.marked_iff` — where a marker has to stand in a payload.
-/

namespace GnssLink

namespace Bytes

variable {slot text marker payload : Bytes} {front start offset width n : Nat}

/-! ### Padding -/

/-- The slot holds the text: the text has no NUL byte, and it fills the slot or a NUL byte stands
behind it. -/
def HoldsText (slot text : Bytes) : Prop :=
  0 ∉ text ∧ (slot = text ∨ ∃ rest, slot = text ++ 0 :: rest)

theorem holdsText_untilNul (slot : Bytes) : slot.HoldsText (untilNul slot) := by
  induction slot with
  | nil => exact ⟨List.not_mem_nil, .inl rfl⟩
  | cons b rest ih =>
    by_cases hb : b = 0
    · subst hb
      exact ⟨List.not_mem_nil, .inr ⟨rest, rfl⟩⟩
    · have huntil : untilNul (b :: rest) = b :: untilNul rest := by simp [untilNul, hb]
      obtain ⟨hnul, hrest⟩ := ih
      have hfree : 0 ∉ b :: untilNul rest := fun hmem =>
        (List.mem_cons.1 hmem).elim (fun hzero => hb hzero.symm) hnul
      rw [huntil]
      rcases hrest with hwhole | ⟨padding, hpadded⟩
      · exact ⟨hfree, .inl (congrArg (b :: ·) hwhole)⟩
      · exact ⟨hfree, .inr ⟨padding, congrArg (b :: ·) hpadded⟩⟩

theorem HoldsText.untilNul_eq (h : slot.HoldsText text) : untilNul slot = text := by
  obtain ⟨hnul, hslot⟩ := h
  have hall : ∀ b ∈ text, (b != 0) = true := by
    intro b hb
    exact bne_iff_ne.2 fun hzero => hnul (hzero ▸ hb)
  rcases hslot with rfl | ⟨rest, rfl⟩
  · have hwhole : untilNul (slot ++ []) = slot ++ untilNul [] :=
      List.takeWhile_append_of_pos hall
    simpa only [List.append_nil] using hwhole.trans (List.append_nil slot)
  · have hcut : untilNul (text ++ 0 :: rest) = text ++ untilNul (0 :: rest) :=
      List.takeWhile_append_of_pos hall
    exact hcut.trans (List.append_nil text)

/-- The text of a slot is what stands in front of its padding. -/
theorem untilNul_eq_iff : untilNul slot = text ↔ slot.HoldsText text :=
  ⟨fun h => h ▸ holdsText_untilNul slot, HoldsText.untilNul_eq⟩

/-- The first bytes of a slot belong to its text if and only if there is no NUL byte among them. -/
theorem le_length_untilNul_iff :
    n ≤ (untilNul slot).length ↔ n ≤ slot.length ∧ ∀ i < n, slot[i]? ≠ some 0 := by
  obtain ⟨hnul, hslot⟩ := holdsText_untilNul slot
  generalize untilNul slot = text at *
  rcases hslot with rfl | ⟨rest, rfl⟩
  · exact ⟨fun h => ⟨h, fun i _ hi => hnul (List.mem_of_getElem? hi)⟩, And.left⟩
  · constructor
    · intro h
      refine ⟨by rw [List.length_append]; omega, fun i hi hzero => hnul ?_⟩
      rw [List.getElem?_append_left (by omega)] at hzero
      exact List.mem_of_getElem? hzero
    · rintro ⟨-, hfree⟩
      exact Nat.le_of_not_lt fun hlt => hfree text.length hlt (by simp)

/-- Inside of its text a slot and its text agree. -/
theorem slice_untilNul (h : offset + width ≤ (untilNul slot).length) :
    (untilNul slot).slice offset width = slot.slice offset width := by
  refine slice_congr fun i _ hi => ?_
  have hlt : i < (untilNul slot).length := by omega
  obtain ⟨-, hslot⟩ := holdsText_untilNul slot
  generalize untilNul slot = text at *
  rcases hslot with rfl | ⟨rest, rfl⟩
  · rfl
  · rw [List.getElem?_append_left hlt]

/-! ### Markers -/

theorem contains_iff_infix : contains marker text = true ↔ marker <:+: text := by
  induction text with
  | nil => rw [contains, List.isEmpty_iff, List.infix_nil]
  | cons b rest ih =>
    rw [contains, Bool.or_eq_true, List.isPrefixOf_iff_prefix, ih, List.infix_cons_iff]

theorem infix_iff_slice : marker <:+: text ↔
    ∃ offset, offset + marker.length ≤ text.length ∧ text.slice offset marker.length = marker := by
  constructor
  · rintro ⟨before, behind, rfl⟩
    refine ⟨before.length, by simp only [List.length_append]; omega, ?_⟩
    rw [slice, List.append_assoc, List.drop_left, List.take_left]
  · rintro ⟨offset, -, hslice⟩
    rw [← hslice]
    exact (List.take_prefix _ _).isInfix.trans (List.drop_suffix _ _).isInfix

/-- Where a marker has to stand in a slot to be found in its text. -/
theorem infix_untilNul_iff : marker <:+: untilNul slot ↔
    ∃ offset, offset + marker.length ≤ slot.length ∧ slot.slice offset marker.length = marker ∧
      ∀ i < offset + marker.length, slot[i]? ≠ some 0 := by
  rw [infix_iff_slice]
  refine exists_congr fun offset => ?_
  constructor
  · rintro ⟨hinside, hslice⟩
    obtain ⟨hlength, hfree⟩ := le_length_untilNul_iff.1 hinside
    exact ⟨hlength, slice_untilNul hinside ▸ hslice, hfree⟩
  · rintro ⟨hlength, hslice, hfree⟩
    have hinside := le_length_untilNul_iff.2 ⟨hlength, hfree⟩
    exact ⟨hinside, (slice_untilNul hinside).trans hslice⟩

/-! ### Slots -/

theorem slice_slice (h : offset + n ≤ width) :
    (payload.slice start width).slice offset n = payload.slice (start + offset) n := by
  refine List.ext_getElem? fun i => ?_
  simp only [getElem?_slice, Nat.add_assoc]
  split
  · rw [if_pos (by omega)]
  · rfl

/-- The slots of what stands in a payload from some offset on. -/
theorem mem_slots_drop_iff (hwidth : 0 < width) : slot ∈ slots width (payload.drop front) ↔
    ∃ k, front + width * k < payload.length ∧
      payload.slice (front + width * k) width = slot := by
  have hcount : ∀ k, k < ((payload.drop front).length + width - 1) / width ↔
      front + width * k < payload.length := by
    intro k
    rw [Nat.lt_iff_add_one_le, Nat.le_div_iff_mul_le hwidth, Nat.succ_mul, Nat.mul_comm,
      List.length_drop]
    omega
  simp only [slots, List.mem_map, List.mem_range, hcount, List.drop_drop, slice]

/-- Where a marker has to stand in a payload to be found in the text of one slot. -/
theorem infix_untilNul_slice_iff (hstart : start ≤ payload.length) :
    marker <:+: untilNul (payload.slice start width) ↔
      ∃ offset, payload.slice offset marker.length = marker ∧ start ≤ offset ∧
        offset + marker.length ≤ min (start + width) payload.length ∧
        ∀ i, start ≤ i → i < offset + marker.length → payload[i]? ≠ some 0 := by
  have hlength : (payload.slice start width).length = min width (payload.length - start) := by
    rw [slice, List.length_take, List.length_drop]
  rw [infix_untilNul_iff, hlength]
  constructor
  · rintro ⟨inside, hend, hslice, hfree⟩
    refine ⟨start + inside, ?_, Nat.le_add_right _ _, by omega, fun i hi hlt => ?_⟩
    · exact (slice_slice (by omega)).symm.trans hslice
    · have hbyte := hfree (i - start) (by omega)
      rwa [getElem?_slice, if_pos (by omega), Nat.add_sub_cancel' hi] at hbyte
  · rintro ⟨offset, hslice, hle, hend, hfree⟩
    refine ⟨offset - start, by omega, ?_, fun i hi => ?_⟩
    · rwa [slice_slice (by omega), Nat.add_sub_cancel' hle]
    · rw [getElem?_slice, if_pos (by omega)]
      exact hfree _ (Nat.le_add_right _ _) (by omega)

/-- **Where a marker has to stand** in a payload to be found in a text of the slots from some offset
on: inside one slot and inside the payload, with no NUL byte in front of its end in that slot. -/
theorem marked_iff (hwidth : 0 < width) (hmarker : 0 < marker.length) :
    (∃ slot ∈ slots width (payload.drop front), marker <:+: untilNul slot) ↔
      ∃ k offset, payload.slice offset marker.length = marker ∧ front + width * k ≤ offset ∧
        offset + marker.length ≤ min (front + width * (k + 1)) payload.length ∧
        ∀ i, front + width * k ≤ i → i < offset + marker.length → payload[i]? ≠ some 0 := by
  have hnext : ∀ k, front + width * (k + 1) = front + width * k + width := fun k =>
    (Nat.add_assoc front (width * k) width).symm
  simp only [hnext]
  constructor
  · rintro ⟨slot, hslot, hmarked⟩
    obtain ⟨k, hk, rfl⟩ := (mem_slots_drop_iff hwidth).1 hslot
    exact ⟨k, (infix_untilNul_slice_iff (Nat.le_of_lt hk)).1 hmarked⟩
  · rintro ⟨k, offset, hslice, hle, hend, hfree⟩
    -- there is a slot at this place, since the marker is not empty
    have hk : front + width * k < payload.length := by omega
    exact ⟨_, (mem_slots_drop_iff hwidth).2 ⟨k, hk, rfl⟩,
      (infix_untilNul_slice_iff (Nat.le_of_lt hk)).2 ⟨offset, hslice, hle, hend, hfree⟩⟩

end Bytes

end GnssLink
