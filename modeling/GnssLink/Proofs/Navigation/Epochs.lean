import GnssLink.Navigation.Assembler

/-!
# The halves of a snapshot

The assembler hands out a snapshot when both halves of an epoch, a position and a velocity, were
applied since the previous snapshot.  The snapshot shows the last position and the last velocity
among the messages since then (`Assembler.snapshot_halves`).

Both halves name the epoch that they belong to by the time of the week, but the assembler does not
compare the two times.  So a snapshot can show the position of one epoch beside the velocity of
another (`Assembler.snapshot_of_two_epochs`).  This takes a lost half: then the velocity of the
first epoch, or the position of the second, is not among the messages since the previous snapshot.

## Main definitions

* `PositionHalf`, `VelocityHalf` — the halves of an epoch in the units of a solution.
* `Solution.positionAt`, `Solution.velocityAt` — the halves that a solution shows.
* `Assembler.applyAll`, `Assembler.sinceSnapshot` — messages applied one after the other, and those
  since the last snapshot.

## Main results

* `Assembler.Gathers.absorb` — what is in the working solution while an epoch is gathered.
* `Assembler.snapshot_halves` — which halves a snapshot shows, and when they are of one epoch.
-/

namespace GnssLink

/-! ### Halves -/

/-- The position of an epoch, which is named by the time of the week. -/
structure PositionHalf where
  timeOfWeek : UInt32
  longitude : Int32
  latitude : Int32
  altitude : Int32
  ellipsoidAltitude : Int32
  horizontalAccuracy : UInt16
  verticalAccuracy : UInt16
  deriving DecidableEq

/-- The velocity of an epoch, which is named by the time of the week. -/
structure VelocityHalf where
  timeOfWeek : UInt32
  groundSpeed : UInt32
  groundCourse : UInt16
  velocity : LocalVelocity
  speedAccuracy : UInt16
  headingAccuracy : UInt16
  deriving DecidableEq

/-- The half that a report of the position gives. -/
def PositionReport.half (r : PositionReport) : PositionHalf where
  timeOfWeek := r.timeOfWeek
  longitude := r.longitude
  latitude := r.latitude
  altitude := r.heightAboveSea / 10
  ellipsoidAltitude := r.height / 10
  horizontalAccuracy := clampAccuracy (r.horizontalAccuracy / 10)
  verticalAccuracy := clampAccuracy (r.verticalAccuracy / 10)

/-- The half that a report of the velocity gives. -/
def VelocityReport.half (r : VelocityReport) : VelocityHalf where
  timeOfWeek := r.timeOfWeek
  groundSpeed := r.groundSpeed
  groundCourse := courseOfHeading r.heading
  velocity := ⟨r.north, r.east, r.down⟩
  speedAccuracy := clampAccuracy r.speedAccuracy
  headingAccuracy := clampAccuracy (r.headingAccuracy / 10000)

/-- The position in a report of position, velocity and time. -/
def PvtReport.positionHalf (r : PvtReport) : PositionHalf where
  timeOfWeek := r.timeOfWeek
  longitude := r.longitude
  latitude := r.latitude
  altitude := r.heightAboveSea / 10
  ellipsoidAltitude := r.height / 10
  horizontalAccuracy := clampAccuracy (r.horizontalAccuracy / 10)
  verticalAccuracy := clampAccuracy (r.verticalAccuracy / 10)

/-- The velocity in a report of position, velocity and time. -/
def PvtReport.velocityHalf (r : PvtReport) : VelocityHalf where
  timeOfWeek := r.timeOfWeek
  groundSpeed := (max (r.groundSpeed / 10) 0).toUInt32
  groundCourse := courseOfHeading r.heading
  velocity := ⟨r.north / 10, r.east / 10, r.down / 10⟩
  speedAccuracy := clampAccuracy (r.speedAccuracy / 10)
  headingAccuracy := clampAccuracy (r.headingAccuracy / 10000)

namespace Message

/-- The position that a message bears. -/
def positionHalf : Message → Option PositionHalf
  | position r => some r.half
  | pvt r => some r.positionHalf
  | _ => none

/-- The velocity that a message bears. -/
def velocityHalf : Message → Option VelocityHalf
  | velocity r => some r.half
  | pvt r => some r.velocityHalf
  | _ => none

/-- The positions among some messages, in order. -/
def positions (messages : List Message) : List PositionHalf :=
  messages.filterMap positionHalf

/-- The velocities among some messages, in order. -/
def velocities (messages : List Message) : List VelocityHalf :=
  messages.filterMap velocityHalf

theorem positions_concat (messages : List Message) (m : Message) :
    positions (messages ++ [m]) = positions messages ++ m.positionHalf.toList := by
  rw [positions, List.filterMap_append]
  rfl

theorem velocities_concat (messages : List Message) (m : Message) :
    velocities (messages ++ [m]) = velocities messages ++ m.velocityHalf.toList := by
  rw [velocities, List.filterMap_append]
  rfl

end Message

/-- The position that a solution shows, if it is that of an epoch. -/
def Solution.positionAt (s : Solution) (timeOfWeek : UInt32) : PositionHalf :=
  ⟨timeOfWeek, s.longitude, s.latitude, s.altitude, s.ellipsoidAltitude, s.horizontalAccuracy,
    s.verticalAccuracy⟩

/-- The velocity that a solution shows, if it is that of an epoch. -/
def Solution.velocityAt (s : Solution) (timeOfWeek : UInt32) : VelocityHalf :=
  ⟨timeOfWeek, s.groundSpeed, s.groundCourse, s.velocity, s.speedAccuracy, s.headingAccuracy⟩

private theorem eq_of_mem_toList {α : Type} {o : Option α} {x y : α} (hx : x ∈ o.toList)
    (hy : o.toList.getLast? = some y) : x = y := by
  cases o with
  | none => cases hx
  | some z =>
    rw [List.mem_singleton.1 hx]
    exact Option.some.inj hy

namespace Assembler

/-! ### One message -/

/-- A message that bears a position puts it in the working solution; no other one touches it. -/
theorem positionAt_absorb (a : Assembler) (m : Message) (t : UInt32) :
    (a.absorb m).working.positionAt t =
      match m.positionHalf with
      | some p => { p with timeOfWeek := t }
      | none => a.working.positionAt t := by
  cases m with
  | time r =>
    simp only [absorb, applyTime]
    split <;> rfl
  | pvt r =>
    simp only [absorb, applyPvt, applyTime]
    split <;> rfl
  | position _ | fix _ | summary _ | velocity _ => rfl
  | version _ | accepted _ | refused _ | other _ => rfl

/-- The same for the velocity. -/
theorem velocityAt_absorb (a : Assembler) (m : Message) (t : UInt32) :
    (a.absorb m).working.velocityAt t =
      match m.velocityHalf with
      | some v => { v with timeOfWeek := t }
      | none => a.working.velocityAt t := by
  cases m with
  | time r =>
    simp only [absorb, applyTime]
    split <;> rfl
  | pvt r =>
    simp only [absorb, applyPvt, applyTime]
    split <;> rfl
  | position _ | fix _ | summary _ | velocity _ => rfl
  | version _ | accepted _ | refused _ | other _ => rfl

/-- The latch is set by the halves that a message bears. -/
theorem latch_absorb (a : Assembler) (m : Message) :
    (a.absorb m).latch =
      ⟨a.latch.position || m.positionHalf.isSome, a.latch.velocity || m.velocityHalf.isSome⟩ := by
  cases m with
  | time r =>
    simp only [absorb, applyTime]
    split <;> simp [Message.positionHalf, Message.velocityHalf]
  | pvt r =>
    simp only [absorb, applyPvt, applyTime]
    split <;> simp [Message.positionHalf, Message.velocityHalf, EpochLatch.markPosition,
      EpochLatch.markVelocity]
  | position _ | fix _ | summary _ | velocity _ | version _ | accepted _ | refused _ | other _ =>
    simp [absorb, applyPosition, applySummary, prepareFix, applyVelocity, Message.positionHalf,
      Message.velocityHalf, EpochLatch.markPosition, EpochLatch.markVelocity]

end Assembler

theorem EpochLatch.takeComplete_cases (l : EpochLatch) :
    (l = ⟨true, true⟩ ∧ l.takeComplete = (true, clear)) ∨
    (l ≠ ⟨true, true⟩ ∧ l.takeComplete = (false, l)) := by
  rcases l with ⟨_ | _, _ | _⟩
  · exact .inr ⟨by decide, rfl⟩
  · exact .inr ⟨by decide, rfl⟩
  · exact .inr ⟨by decide, rfl⟩
  · exact .inl ⟨rfl, rfl⟩

namespace Assembler

open Message (positions velocities positions_concat velocities_concat)

/-- A message completes the epoch if with it the latch holds both halves. -/
theorem apply_cases (a : Assembler) (m : Message) :
    ((a.absorb m).latch = ⟨true, true⟩ ∧
      a.apply m = (some (a.absorb m).working, { a.absorb m with latch := .clear })) ∨
    ((a.absorb m).latch ≠ ⟨true, true⟩ ∧ a.apply m = (none, a.absorb m)) := by
  rcases (a.absorb m).latch.takeComplete_cases with ⟨hboth, htake⟩ | ⟨hnot, htake⟩
  · exact .inl ⟨hboth, by simp only [apply, htake, if_true]⟩
  · exact .inr ⟨hnot, by simp only [apply, htake, Bool.false_eq_true, if_false]⟩

/-- Behind every message a half of the epoch is missing. -/
theorem latch_apply (a : Assembler) (m : Message) : (a.apply m).2.latch ≠ ⟨true, true⟩ := by
  rcases a.apply_cases m with ⟨-, happly⟩ | ⟨hnot, happly⟩
  · rw [happly]
    exact fun hclear => nomatch hclear
  · rw [happly]
    exact hnot

/-- Completing the epoch changes neither the working solution nor the prepared fix. -/
theorem apply_keeps (a : Assembler) (m : Message) :
    (a.apply m).2.working = (a.absorb m).working ∧
      (a.apply m).2.nextFix = (a.absorb m).nextFix := by
  rcases a.apply_cases m with ⟨-, happly⟩ | ⟨-, happly⟩ <;>
    rw [happly] <;> exact ⟨rfl, rfl⟩

/-- The solution that is handed out is the working solution. -/
theorem snapshot_eq_working {a : Assembler} {m : Message} {snapshot : Solution}
    (h : (a.apply m).1 = some snapshot) : snapshot = (a.apply m).2.working := by
  rcases a.apply_cases m with ⟨-, happly⟩ | ⟨-, happly⟩
  · rw [happly] at h ⊢
    exact (Option.some.inj h).symm
  · rw [happly] at h
    cases h

/-! ### All messages since a snapshot -/

/-- The assembler after some messages. -/
def applyAll (a : Assembler) (messages : List Message) : Assembler :=
  messages.foldl (fun a m => (a.apply m).2) a

theorem applyAll_cons (a : Assembler) (m : Message) (rest : List Message) :
    a.applyAll (m :: rest) = (a.apply m).2.applyAll rest :=
  rfl

theorem applyAll_append (a : Assembler) (before rest : List Message) :
    a.applyAll (before ++ rest) = (a.applyAll before).applyAll rest :=
  List.foldl_append

theorem applyAll_concat (a : Assembler) (messages : List Message) (m : Message) :
    a.applyAll (messages ++ [m]) = ((a.applyAll messages).apply m).2 :=
  a.applyAll_append messages [m]

/-- What each message keeps, all of them keep. -/
theorem applyAll_keeps {p : Assembler → Prop} (hstep : ∀ a m, p a → p (a.apply m).2)
    {a : Assembler} (h : p a) (messages : List Message) : p (a.applyAll messages) := by
  induction messages generalizing a with
  | nil => exact h
  | cons m rest ih => exact ih (hstep a m h)

/-- The messages since the last snapshot, behind those that were `since` it before. -/
def sinceFrom (a : Assembler) (since : List Message) : List Message → List Message
  | [] => since
  | m :: rest =>
    match a.apply m with
    | (some _, a) => a.sinceFrom [] rest
    | (none, a) => a.sinceFrom (since ++ [m]) rest

/-- The messages since the last snapshot of a fresh assembler. -/
def sinceSnapshot (messages : List Message) : List Message :=
  sinceFrom .initial [] messages

/-- An assembler gathers an epoch: its latch tells which halves are among the messages since the
last snapshot, and its working solution shows the last half of each kind. -/
structure Gathers (a : Assembler) (since : List Message) : Prop where
  latch : a.latch = ⟨(positions since).getLast?.isSome, (velocities since).getLast?.isSome⟩
  position : ∀ p, (positions since).getLast? = some p → a.working.positionAt p.timeOfWeek = p
  velocity : ∀ v, (velocities since).getLast? = some v → a.working.velocityAt v.timeOfWeek = v

theorem gathers_of_clear {a : Assembler} (h : a.latch = .clear) : a.Gathers [] where
  latch := h
  position := fun _ hp => nomatch hp
  velocity := fun _ hv => nomatch hv

/-- If the epoch is not complete, a half is missing. -/
theorem Gathers.missing {a : Assembler} {since : List Message} (h : a.Gathers since)
    (hopen : a.latch ≠ ⟨true, true⟩) : positions since = [] ∨ velocities since = [] := by
  rcases hp : positions since with _ | ⟨p, rest⟩
  · exact .inl rfl
  · rcases hv : velocities since with _ | ⟨v, rest'⟩
    · exact .inr rfl
    · rw [h.latch, hp, hv] at hopen
      exact absurd rfl hopen

/-- Taking over a message goes on gathering. -/
theorem Gathers.absorb {a : Assembler} {since : List Message} (h : a.Gathers since) (m : Message) :
    (a.absorb m).Gathers (since ++ [m]) where
  latch := by
    rw [latch_absorb, h.latch, positions_concat, velocities_concat]
    cases m.positionHalf <;> cases m.velocityHalf <;> simp
  position := by
    intro p hp
    rw [positions_concat] at hp
    rw [positionAt_absorb]
    cases hm : m.positionHalf with
    | none =>
      rw [hm, Option.toList_none, List.append_nil] at hp
      exact h.position p hp
    | some p' =>
      rw [hm, Option.toList_some, List.getLast?_concat] at hp
      cases hp
      rfl
  velocity := by
    intro v hv
    rw [velocities_concat] at hv
    rw [velocityAt_absorb]
    cases hm : m.velocityHalf with
    | none =>
      rw [hm, Option.toList_none, List.append_nil] at hv
      exact h.velocity v hv
    | some v' =>
      rw [hm, Option.toList_some, List.getLast?_concat] at hv
      cases hv
      rfl

/-- Between two messages an assembler gathers an epoch of which a half is missing. -/
theorem Gathers.applyAll {a : Assembler} {since : List Message} (h : a.Gathers since)
    (hopen : a.latch ≠ ⟨true, true⟩) (messages : List Message) :
    (a.applyAll messages).Gathers (a.sinceFrom since messages) ∧
      (a.applyAll messages).latch ≠ ⟨true, true⟩ := by
  induction messages generalizing a since with
  | nil => exact ⟨h, hopen⟩
  | cons m rest ih =>
    rcases a.apply_cases m with ⟨-, happly⟩ | ⟨hnot, happly⟩
    · simp only [Assembler.applyAll, List.foldl_cons, sinceFrom, happly]
      exact ih (gathers_of_clear rfl) (fun hclear => nomatch hclear)
    · simp only [Assembler.applyAll, List.foldl_cons, sinceFrom, happly]
      exact ih (h.absorb m) hnot

/-- A fresh assembler gathers the messages since its last snapshot. -/
theorem gathers_sinceSnapshot (messages : List Message) :
    (initial.applyAll messages).Gathers (sinceSnapshot messages) ∧
      (initial.applyAll messages).latch ≠ ⟨true, true⟩ :=
  Gathers.applyAll (gathers_of_clear rfl) (by decide) messages

/-- **A snapshot shows the last position and the last velocity since the previous snapshot.**  They
are of one epoch, or a half was lost: the velocity of the epoch of the position, or the position of
the epoch of the velocity, is not among the messages since the previous snapshot. -/
theorem snapshot_halves (messages : List Message) (m : Message) {snapshot : Solution}
    (h : ((initial.applyAll messages).apply m).1 = some snapshot) :
    ∃ p v, (positions (sinceSnapshot messages ++ [m])).getLast? = some p ∧
      (velocities (sinceSnapshot messages ++ [m])).getLast? = some v ∧
      snapshot.positionAt p.timeOfWeek = p ∧ snapshot.velocityAt v.timeOfWeek = v ∧
      (p.timeOfWeek = v.timeOfWeek ∨
        (∀ v' ∈ velocities (sinceSnapshot messages ++ [m]), v'.timeOfWeek ≠ p.timeOfWeek) ∨
        (∀ p' ∈ positions (sinceSnapshot messages ++ [m]), p'.timeOfWeek ≠ v.timeOfWeek)) := by
  obtain ⟨hgathers, hopen⟩ := gathers_sinceSnapshot messages
  have hcomplete := hgathers.absorb m
  rcases apply_cases (initial.applyAll messages) m with ⟨hboth, happly⟩ | ⟨-, happly⟩
  · obtain rfl : (absorb _ m).working = snapshot := by
      rw [happly] at h
      exact Option.some.inj h
    rw [hcomplete.latch, EpochLatch.mk.injEq, Option.isSome_iff_exists,
      Option.isSome_iff_exists] at hboth
    obtain ⟨⟨p, hp⟩, ⟨v, hv⟩⟩ := hboth
    refine ⟨p, v, hp, hv, hcomplete.position p hp, hcomplete.velocity v hv, ?_⟩
    by_cases hsame : p.timeOfWeek = v.timeOfWeek
    · exact .inl hsame
    -- Before `m` a half was missing, so `m` bears the only half of that kind.
    · rcases hgathers.missing hopen with hnone | hnone
      · refine .inr (.inr fun p' hp' => ?_)
        rw [positions_concat, hnone, List.nil_append] at hp hp'
        rw [eq_of_mem_toList hp' hp]
        exact hsame
      · refine .inr (.inl fun v' hv' => ?_)
        rw [velocities_concat, hnone, List.nil_append] at hv hv'
        rw [eq_of_mem_toList hv' hv]
        exact Ne.symm hsame
  · rw [happly] at h
    cases h

/-! ### Two epochs in one snapshot -/

/-- The position of an epoch whose velocity is lost. -/
def lonePosition : PositionReport where
  timeOfWeek := 1000
  longitude := 85000000
  latitude := 474000000
  height := 450000
  heightAboveSea := 400000
  horizontalAccuracy := 5000
  verticalAccuracy := 7000

/-- The velocity of the epoch after it, whose position is lost. -/
def loneVelocity : VelocityReport where
  timeOfWeek := 1200
  north := 300
  east := -400
  down := 10
  speed := 501
  groundSpeed := 500
  heading := 30687000
  speedAccuracy := 20
  headingAccuracy := 150000

/-- The position of one epoch and the velocity of the next are handed out as one snapshot. -/
theorem snapshot_of_two_epochs :
    ∃ snapshot, ((initial.applyAll [.position lonePosition]).apply (.velocity loneVelocity)).1 =
        some snapshot ∧
      snapshot.positionAt lonePosition.timeOfWeek = lonePosition.half ∧
      snapshot.velocityAt loneVelocity.timeOfWeek = loneVelocity.half ∧
      lonePosition.timeOfWeek ≠ loneVelocity.timeOfWeek :=
  ⟨_, rfl, rfl, rfl, by decide⟩

/-- In that snapshot the velocity of the first epoch or the position of the second is missing. -/
theorem snapshot_halves_lone :
    ((initial.applyAll [.position lonePosition]).apply (.velocity loneVelocity)).1.isSome ∧
      ((∀ v ∈ velocities [.position lonePosition, .velocity loneVelocity],
          v.timeOfWeek ≠ lonePosition.timeOfWeek) ∨
        (∀ p ∈ positions [.position lonePosition, .velocity loneVelocity],
          p.timeOfWeek ≠ loneVelocity.timeOfWeek)) := by
  obtain ⟨p, v, hp, hv, -, -, hsame | hlost⟩ :=
    snapshot_halves [.position lonePosition] (.velocity loneVelocity) rfl
  · obtain rfl : lonePosition.half = p := Option.some.inj hp
    obtain rfl : loneVelocity.half = v := Option.some.inj hv
    exact absurd hsame (by decide)
  · obtain rfl : lonePosition.half = p := Option.some.inj hp
    obtain rfl : loneVelocity.half = v := Option.some.inj hv
    exact ⟨rfl, hlost⟩

end Assembler

end GnssLink
