import GnssLink.Proofs.Navigation.FixHistory

/-!
# One report in place of four

A report of position, velocity and time says what a summary, a time, a position and a velocity say
together, in other units where speeds are concerned.  The assembler takes it over by a path of its
own.  This path and the other four agree: as long as no velocity has arrived, the one report and the
four come to the same status, and leave the same solution, the same prepared fix and the same latch
(`Assembler.apply_pvt_eq_apply_parts`).

The order of the four matters.  The summary comes in front of the position, which brings in the fix
that the summary vouches for, and the velocity comes last, so that only it completes the epoch.

## Main definitions

* `PvtReport.ConsistsOf` — four reports that say what the one report says.
* `Assembler.absorbParts` — the assembler behind the four.

## Main results

* `Solution.eq_of_shown` — a solution is made up of its groups, its fix and its marks.
* `Assembler.absorbParts_eq` — both paths lead to the same assembler.
* `Assembler.apply_pvt_eq_apply_parts` — and to the same status.
-/

namespace GnssLink

/-! ### The groups of a solution -/

theorem Solution.eq_of_shown {s t : Solution} (hposition : s.positionShown = t.positionShown)
    (hvelocity : s.velocityShown = t.velocityShown) (hsummary : s.summaryShown = t.summaryShown)
    (htime : s.timeShown = t.timeShown) (hfix : s.fixType = t.fixType)
    (hvalidity : s.validity = t.validity) : s = t := by
  obtain ⟨_, _, _, _, _, _, _, _, ⟨_, _, _⟩, _, _, _, _, _, ⟨_, _, _, _, _, _, _⟩, _⟩ := s
  obtain ⟨_, _, _, _, _, _, _, _, ⟨_, _, _⟩, _, _, _, _, _, ⟨_, _, _, _, _, _, _⟩, _⟩ := t
  simp only [positionShown, PositionShown.mk.injEq, Int32.toInt_inj, UInt16.toNat_inj] at hposition
  simp only [velocityShown, VelocityShown.mk.injEq, Int32.toInt_inj, UInt32.toNat_inj,
    UInt16.toNat_inj] at hvelocity
  simp only [summaryShown, SummaryShown.mk.injEq, UInt16.toNat_inj] at hsummary
  simp only [timeShown, TimeShown.mk.injEq, UInt16.toNat_inj] at htime
  simp only at hfix hvalidity
  simp only [hposition, hvelocity, hsummary, htime, hfix, hvalidity]

/-! ### Four reports -/

/-- Four reports say what a report of position, velocity and time says.  Its speeds are in
millimetres per second, and those of the four in centimetres per second, cut toward zero; a negative
speed over ground counts as none.  What else the four say does not matter. -/
structure PvtReport.ConsistsOf (r : PvtReport) (s : SummaryReport) (t : TimeReport)
    (p : PositionReport) (v : VelocityReport) : Prop where
  fix : s.fix = r.fix
  flags : s.flags = r.flags
  dilution : s.dilution = r.dilution
  satellites : s.satellites = r.satellites
  time : t.time = r.time
  longitude : p.longitude = r.longitude
  latitude : p.latitude = r.latitude
  height : p.height = r.height
  heightAboveSea : p.heightAboveSea = r.heightAboveSea
  horizontalAccuracy : p.horizontalAccuracy = r.horizontalAccuracy
  verticalAccuracy : p.verticalAccuracy = r.verticalAccuracy
  north : v.north.toInt = r.north.toInt.tdiv 10
  east : v.east.toInt = r.east.toInt.tdiv 10
  down : v.down.toInt = r.down.toInt.tdiv 10
  groundSpeed : v.groundSpeed.toNat = max (r.groundSpeed.toInt.tdiv 10) 0
  heading : v.heading = r.heading
  speedAccuracy : v.speedAccuracy.toNat = r.speedAccuracy.toNat / 10
  headingAccuracy : v.headingAccuracy = r.headingAccuracy

namespace PvtReport

variable {r : PvtReport} {s : SummaryReport} {t : TimeReport} {p : PositionReport}
  {v : VelocityReport}

/-- There are such reports, whatever the one report says. -/
theorem exists_consistsOf (r : PvtReport) : ∃ s t p v, r.ConsistsOf s t p v := by
  let s : SummaryReport := ⟨r.timeOfWeek, r.fix, r.flags, r.dilution, r.satellites⟩
  let p : PositionReport := ⟨r.timeOfWeek, r.longitude, r.latitude, r.height, r.heightAboveSea,
    r.horizontalAccuracy, r.verticalAccuracy⟩
  let v : VelocityReport := ⟨r.timeOfWeek, r.north / 10, r.east / 10, r.down / 10, 0,
    (max (r.groundSpeed / 10) 0).toUInt32, r.heading, r.speedAccuracy / 10, r.headingAccuracy⟩
  refine ⟨s, ⟨r.timeOfWeek, r.timeAccuracy, r.time⟩, p, v, ?_⟩
  constructor
  case north | east | down => exact toInt_div_ten _
  case groundSpeed => rw [toNat_groundSpeed, Int.toNat_eq_max]
  case speedAccuracy => exact UInt32.toNat_div _ 10
  all_goals rfl

namespace ConsistsOf

theorem positionShown_eq (h : r.ConsistsOf s t p v) :
    (Message.position p).positionShown = (Message.pvt r).positionShown := by
  simp only [Message.positionShown, h.longitude, h.latitude, h.height, h.heightAboveSea,
    h.horizontalAccuracy, h.verticalAccuracy]

theorem velocityShown_eq (h : r.ConsistsOf s t p v) :
    (Message.velocity v).velocityShown = (Message.pvt r).velocityShown := by
  have hground : v.groundSpeed.toNat = (r.groundSpeed.toInt.tdiv 10).toNat := by
    rw [← Int.ofNat_inj, Int.toNat_eq_max]
    exact h.groundSpeed
  simp only [Message.velocityShown, h.north, h.east, h.down, hground, h.heading, h.speedAccuracy,
    h.headingAccuracy]

theorem summaryShown_eq (h : r.ConsistsOf s t p v) :
    (Message.summary s).summaryShown = (Message.pvt r).summaryShown := by
  simp only [Message.summaryShown, h.satellites, h.dilution]

theorem utcTime_eq (h : r.ConsistsOf s t p v) :
    (Message.time t).utcTime = (Message.pvt r).utcTime :=
  congrArg some h.time

theorem vouchedFix_eq (h : r.ConsistsOf s t p v) :
    (Message.summary s).vouchedFix = (Message.pvt r).vouchedFix := by
  simp only [Message.vouchedFix, h.fix, h.flags]

end ConsistsOf

end PvtReport

attribute [ext] Assembler

namespace Assembler

variable {a : Assembler}

/-! ### Without a velocity -/

theorem apply_congr {b : Assembler} {m n : Message} (h : a.absorb m = b.absorb n) :
    a.apply m = b.apply n := by
  unfold apply
  rw [h]

/-- As long as the velocity is missing, messages that bear none complete nothing. -/
theorem applyAll_of_velocity_eq_false (h : a.latch.velocity = false) {messages : List Message}
    (hbears : ∀ m ∈ messages, m.bearsVelocity = false) :
    a.snapshots messages = [] ∧ a.applyAll messages = messages.foldl absorb a := by
  induction messages generalizing a with
  | nil => exact ⟨rfl, rfl⟩
  | cons m rest ih =>
    obtain ⟨hm, hrest⟩ := List.forall_mem_cons.1 hbears
    have hmissing : (a.absorb m).latch.velocity = false := by
      rw [velocity_absorb, h, hm]
      rfl
    rcases a.apply_cases m with ⟨hboth, -⟩ | ⟨-, happly⟩
    · rw [hboth] at hmissing
      cases hmissing
    · obtain ⟨hnone, hall⟩ := ih hmissing hrest
      simp only [snapshots, applyAll, List.foldl_cons, happly, Option.toList_none, List.nil_append]
      exact ⟨hnone, hall⟩

/-! ### The two paths -/

/-- The marks of a solution are set by the parts that a message bears. -/
theorem validity_absorb (a : Assembler) (m : Message) :
    (a.absorb m).working.validity =
      ⟨a.working.validity.positionAccuracy || m.bearsPosition,
        a.working.validity.horizontalVelocity || m.bearsVelocity,
        a.working.validity.verticalVelocity || m.bearsVelocity,
        (m.utcTime.map UtcTime.isValid).getD a.working.validity.time⟩ := by
  rw [← positionValid_absorb, ← (velocityValid_absorb a m).1, ← (velocityValid_absorb a m).2,
    ← timeValid_absorb]

/-- A summary that vouches for no fix leaves none behind. -/
theorem backed_absorb_summary (a : Assembler) (s : SummaryReport) :
    (a.absorb (.summary s)).Backed :=
  fun hnone => if_pos hnone

theorem fixType_absorb_pvt (a : Assembler) (r : PvtReport) :
    (a.absorb (.pvt r)).working.fixType = (a.absorb (.pvt r)).nextFix := by
  rw [nextFix_absorb, absorb, applyPvt, working_applyTime]
  rfl

/-- The assembler behind a summary, a time, a position and a velocity, if none of them completes the
epoch. -/
def absorbParts (a : Assembler) (s : SummaryReport) (t : TimeReport) (p : PositionReport)
    (v : VelocityReport) : Assembler :=
  (((a.absorb (.summary s)).absorb (.time t)).absorb (.position p)).absorb (.velocity v)

variable {r : PvtReport} {s : SummaryReport} {t : TimeReport} {p : PositionReport}
  {v : VelocityReport}

/-- The position brings in the fix that the summary has prepared, and the velocity leaves it. -/
theorem fixType_absorbParts (a : Assembler) :
    (a.absorbParts s t p v).working.fixType = (a.absorbParts s t p v).nextFix := by
  have htimed : ((a.absorb (.summary s)).absorb (.time t)).Backed :=
    (a.backed_absorb_summary s).absorb (.time t)
  have hplaced : (((a.absorb (.summary s)).absorb (.time t)).absorb (.position p)).working.fixType =
      (((a.absorb (.summary s)).absorb (.time t)).absorb (.position p)).nextFix :=
    htimed.fixType_absorb_of_position rfl
  rw [absorbParts, (htimed.absorb (.position p)).fixType_absorb, nextFix_absorb]
  exact hplaced

theorem working_absorbParts (a : Assembler) (h : r.ConsistsOf s t p v) :
    (a.absorbParts s t p v).working = (a.absorb (.pvt r)).working := by
  apply Solution.eq_of_shown
  case hposition =>
    simp only [absorbParts, positionShown_absorb, ← h.positionShown_eq]
    rfl
  case hvelocity =>
    simp only [absorbParts, velocityShown_absorb, ← h.velocityShown_eq]
    rfl
  case hsummary =>
    simp only [absorbParts, summaryShown_absorb, ← h.summaryShown_eq]
    rfl
  case htime =>
    simp only [absorbParts, timeShown_absorb, Message.timeShown, ← h.utcTime_eq]
    rfl
  case hfix =>
    rw [fixType_absorbParts, fixType_absorb_pvt, absorbParts]
    simp only [nextFix_absorb, ← h.vouchedFix_eq]
    rfl
  case hvalidity =>
    simp only [absorbParts, validity_absorb, ← h.utcTime_eq, Message.bearsPosition,
      Message.bearsVelocity, Bool.or_false, Bool.or_true]
    rfl

/-- **The one report and the four lead to the same assembler.** -/
theorem absorbParts_eq (a : Assembler) (h : r.ConsistsOf s t p v) :
    a.absorbParts s t p v = a.absorb (.pvt r) := by
  have hfix : (a.absorbParts s t p v).nextFix = (a.absorb (.pvt r)).nextFix := by
    simp only [absorbParts, nextFix_absorb, ← h.vouchedFix_eq]
    rfl
  have hlatch : (a.absorbParts s t p v).latch = (a.absorb (.pvt r)).latch := by
    simp only [absorbParts, latch_absorb, Message.isSome_positionHalf, Message.isSome_velocityHalf,
      Message.bearsPosition, Message.bearsVelocity, Bool.or_false, Bool.or_true]
  exact Assembler.ext (a.working_absorbParts h) hfix hlatch

theorem isSome_apply_pvt (a : Assembler) (r : PvtReport) : (a.apply (.pvt r)).1.isSome = true := by
  have hboth : (a.absorb (.pvt r)).latch = ⟨true, true⟩ := by
    rw [latch_absorb]
    simp only [Message.isSome_positionHalf, Message.isSome_velocityHalf, Message.bearsPosition,
      Message.bearsVelocity, Bool.or_true]
  rcases a.apply_cases (.pvt r) with ⟨-, happly⟩ | ⟨hnot, -⟩
  · rw [happly]
    rfl
  · exact absurd hboth hnot

/-- **A report of position, velocity and time does what the separate reports do.**  As long as no
velocity has arrived, a summary, a time and a position that say the same complete nothing, and the
velocity behind them leads to the same snapshot and the same assembler. -/
theorem apply_pvt_eq_apply_parts (h : a.latch.velocity = false) (r : PvtReport) :
    (∃ s t p v, r.ConsistsOf s t p v) ∧
      ∀ s t p v, r.ConsistsOf s t p v →
        a.snapshots [.summary s, .time t, .position p] = [] ∧
          (a.applyAll [.summary s, .time t, .position p]).apply (.velocity v) =
            a.apply (.pvt r) ∧
          (a.apply (.pvt r)).1.isSome = true := by
  refine ⟨r.exists_consistsOf, fun s t p v hparts => ?_⟩
  have hbears : ∀ m ∈ [.summary s, .time t, .position p], Message.bearsVelocity m = false := by
    simp [Message.bearsVelocity]
  obtain ⟨hnone, hall⟩ := applyAll_of_velocity_eq_false h hbears
  refine ⟨hnone, apply_congr ?_, a.isSome_apply_pvt r⟩
  rw [hall]
  exact a.absorbParts_eq hparts

/-- A report without a fix, with a negative speed over ground and a time that is not vouched for. -/
def fixlessReport : PvtReport where
  timeOfWeek := 2000
  time := ⟨2026, 9, 24, 12, 0, 59, -500000, 0x01⟩
  timeAccuracy := 30
  fix := 3
  flags := 0
  flags2 := 0
  satellites := 4
  longitude := -85000000
  latitude := -474000000
  height := -450009
  heightAboveSea := -400009
  horizontalAccuracy := 4294967295
  verticalAccuracy := 70
  north := -3005
  east := 4
  down := -9
  groundSpeed := -3005
  heading := 18000000
  speedAccuracy := 99999
  headingAccuracy := 150000
  dilution := 10000

/-- Behind a position that waits for its velocity both paths lead to the same snapshot. -/
theorem apply_fixlessReport :
    (initial.applyAll [.position lonePosition]).latch.velocity = false ∧
      ∃ s t p v, fixlessReport.ConsistsOf s t p v ∧
        ((initial.applyAll [.position lonePosition]).applyAll
            [.summary s, .time t, .position p]).apply (.velocity v) =
          (initial.applyAll [.position lonePosition]).apply (.pvt fixlessReport) := by
  have hmissing : (initial.applyAll [.position lonePosition]).latch.velocity = false := rfl
  obtain ⟨⟨s, t, p, v, hparts⟩, hsame⟩ := apply_pvt_eq_apply_parts hmissing fixlessReport
  exact ⟨hmissing, s, t, p, v, hparts, (hsame s t p v hparts).2.1⟩

end Assembler

end GnssLink
