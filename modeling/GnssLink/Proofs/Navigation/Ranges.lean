import GnssLink.Proofs.Navigation.FixHistory

/-!
# The ranges of a solution

Whatever payloads arrive, the accuracies and the dilution of a solution are at most 9999, its
milliseconds at most 999, and its fix is none, a fix in two dimensions or one in three.  This is an
invariant of the assembler (`Assembler.Bounded`): every report is clamped before it is written, and
a fix is prepared only by a report that vouches for it.

No conversion on the way overflows or loses digits.  What a message writes is stated in integers
without a width (`Message.positionShown`, …), and the assembler writes just that
(`Message.WritesExactly`), for all values that a field can hold.  The course alone is left as it is
computed.

## Main definitions

* `Message.ofFrames` — the messages in frames of any type and payload.
* `Solution.InRange` — the ranges.
* `Message.WritesExactly` — what a message changes, in integers without a width.

## Main results

* `Assembler.Bounded.apply`, `Assembler.Bounded.applyAll` — the invariant.
* `Assembler.ofFrames_inRange` — the ranges, for all frames.
-/

namespace GnssLink

/-- The messages in some frames.  A frame whose payload cannot be read holds none. -/
def Message.ofFrames (frames : List Frame) : List Message :=
  frames.filterMap fun f => (Message.parse f.type f.payload).toOption

/-! ### Ranges -/

/-- A kind of fix that a report can vouch for. -/
def FixType.IsVouched (f : FixType) : Prop :=
  f = none ∨ f = fix2D ∨ f = fix3D

theorem FixType.isVouched_ofReport (ok : Bool) (code : UInt8) : (ofReport ok code).IsVouched := by
  unfold ofReport
  split
  · exact .inr (.inl rfl)
  · split
    · exact .inr (.inr rfl)
    · exact .inl rfl

/-- The ranges of a solution. -/
structure Solution.InRange (s : Solution) : Prop where
  horizontalAccuracy : s.horizontalAccuracy.toNat ≤ 9999
  verticalAccuracy : s.verticalAccuracy.toNat ≤ 9999
  speedAccuracy : s.speedAccuracy.toNat ≤ 9999
  headingAccuracy : s.headingAccuracy.toNat ≤ 9999
  dilution : s.dilution.toNat ≤ 9999
  millis : s.time.millis.toNat ≤ 999
  fixType : s.fixType.IsVouched

theorem Solution.inRange_blank : blank.InRange where
  horizontalAccuracy := Nat.zero_le _
  verticalAccuracy := Nat.zero_le _
  speedAccuracy := Nat.zero_le _
  headingAccuracy := Nat.zero_le _
  dilution := Nat.zero_le _
  millis := Nat.zero_le _
  fixType := .inl rfl

namespace Message

variable {m : Message}

/-! ### What is written -/

theorem positionShown_le {shown : PositionShown} (h : m.positionShown = some shown) :
    shown.horizontalAccuracy ≤ 9999 ∧ shown.verticalAccuracy ≤ 9999 := by
  cases m <;> cases h <;> exact ⟨Nat.min_le_right _ _, Nat.min_le_right _ _⟩

theorem velocityShown_le {shown : VelocityShown} (h : m.velocityShown = some shown) :
    shown.speedAccuracy ≤ 9999 ∧ shown.headingAccuracy ≤ 9999 := by
  cases m <;> cases h <;> exact ⟨Nat.min_le_right _ _, Nat.min_le_right _ _⟩

theorem summaryShown_le {shown : SummaryShown} (h : m.summaryShown = some shown) :
    shown.dilution ≤ 9999 := by
  cases m <;> cases h <;> exact Nat.min_le_right _ _

theorem timeShown_le {shown : TimeShown} (h : m.timeShown = some shown) : shown.millis ≤ 999 := by
  obtain ⟨t, -, rfl⟩ := Option.map_eq_some_iff.1 h
  exact Nat.min_le_right _ _

theorem vouchedFix_isVouched {f : FixType} (h : m.vouchedFix = some f) : f.IsVouched := by
  cases m <;> cases h <;> exact FixType.isVouched_ofReport _ _

/-- What a message changes in a solution, in integers without a width: a group that it bears shows
the values of the wire in the units of a solution, and the others stay as they are. -/
structure WritesExactly (m : Message) (before after : Solution) : Prop where
  position : after.positionShown = m.positionShown.getD before.positionShown
  velocity : after.velocityShown = m.velocityShown.getD before.velocityShown
  summary : after.summaryShown = m.summaryShown.getD before.summaryShown
  time : after.timeShown = m.timeShown.getD before.timeShown

end Message

namespace Assembler

variable {a : Assembler}

/-! ### The invariant -/

private theorem of_getD {α : Type} {p : α → Prop} {written : Option α} {before : α}
    (hwritten : ∀ x, written = some x → p x) (hbefore : p before) : p (written.getD before) := by
  cases written with
  | none => exact hbefore
  | some x => exact hwritten x rfl

/-- The working solution is in range, and the fix that is shown or prepared is one that a report can
vouch for. -/
structure Bounded (a : Assembler) : Prop where
  working : a.working.InRange
  prepared : a.nextFix.IsVouched
  backed : a.Backed

theorem bounded_initial : initial.Bounded :=
  ⟨Solution.inRange_blank, .inl rfl, backed_initial⟩

/-- Taking over a message keeps the ranges. -/
theorem Bounded.inRange_absorb (h : a.Bounded) (m : Message) : (a.absorb m).working.InRange := by
  have hposition : (a.absorb m).working.positionShown.horizontalAccuracy ≤ 9999 ∧
      (a.absorb m).working.positionShown.verticalAccuracy ≤ 9999 := by
    rw [positionShown_absorb]
    exact of_getD (fun _ => Message.positionShown_le)
      ⟨h.working.horizontalAccuracy, h.working.verticalAccuracy⟩
  have hvelocity : (a.absorb m).working.velocityShown.speedAccuracy ≤ 9999 ∧
      (a.absorb m).working.velocityShown.headingAccuracy ≤ 9999 := by
    rw [velocityShown_absorb]
    exact of_getD (fun _ => Message.velocityShown_le)
      ⟨h.working.speedAccuracy, h.working.headingAccuracy⟩
  have hsummary : (a.absorb m).working.summaryShown.dilution ≤ 9999 := by
    rw [summaryShown_absorb]
    exact of_getD (fun _ => Message.summaryShown_le) h.working.dilution
  have htime : (a.absorb m).working.timeShown.millis ≤ 999 := by
    rw [timeShown_absorb]
    exact of_getD (fun _ => Message.timeShown_le) h.working.millis
  have hfix : (a.absorb m).working.fixType.IsVouched := by
    rw [h.backed.fixType_absorb, nextFix_absorb]
    split
    · exact .inl rfl
    · split
      · exact of_getD (fun _ => Message.vouchedFix_isVouched) h.prepared
      · exact h.working.fixType
  exact ⟨hposition.1, hposition.2, hvelocity.1, hvelocity.2, hsummary, htime, hfix⟩

theorem Bounded.apply (h : a.Bounded) (m : Message) : (a.apply m).2.Bounded where
  working := by
    rw [(a.apply_keeps m).1]
    exact h.inRange_absorb m
  prepared := by
    rw [nextFix_apply]
    exact of_getD (fun _ => Message.vouchedFix_isVouched) h.prepared
  backed := h.backed.apply m

theorem Bounded.applyAll (h : a.Bounded) (messages : List Message) :
    (a.applyAll messages).Bounded :=
  applyAll_keeps (fun _ m hbefore => hbefore.apply m) h messages

/-- So every solution that is handed out is in range. -/
theorem Bounded.of_mem_snapshots (h : a.Bounded) {messages : List Message} {snapshot : Solution}
    (hmem : snapshot ∈ a.snapshots messages) : snapshot.InRange := by
  induction messages generalizing a with
  | nil => cases hmem
  | cons m rest ih =>
    rcases List.mem_append.1 hmem with hnow | hlater
    · rw [snapshot_eq_working (Option.mem_toList.1 hnow)]
      exact (h.apply m).working
    · exact ih (h.apply m) hlater

/-! ### Conversions -/

/-- No conversion overflows or loses digits. -/
theorem writesExactly_apply (a : Assembler) (m : Message) :
    m.WritesExactly a.working (a.apply m).2.working := by
  rw [(a.apply_keeps m).1]
  exact ⟨a.positionShown_absorb m, a.velocityShown_absorb m, a.summaryShown_absorb m,
    a.timeShown_absorb m⟩

/-- **Whatever payloads arrive, every solution is in range**, be it the working solution or one that
is handed out; and in every state that frames lead to, a message writes the exact values. -/
theorem ofFrames_inRange (frames : List Frame) :
    (initial.applyAll (Message.ofFrames frames)).working.InRange ∧
      (∀ snapshot ∈ initial.snapshots (Message.ofFrames frames), snapshot.InRange) ∧
      ∀ m : Message, m.WritesExactly (initial.applyAll (Message.ofFrames frames)).working
        ((initial.applyAll (Message.ofFrames frames)).apply m).2.working :=
  ⟨(bounded_initial.applyAll _).working, fun _ => bounded_initial.of_mem_snapshots,
    writesExactly_apply _⟩

end Assembler

end GnssLink
