import GnssLink.Proofs.Navigation.LastReport

/-!
# The course over ground

A report of the velocity bears a heading in 10⁻⁵ degrees with a sign, and a solution shows a course
in tenths of a degree without one.  The course is the heading divided by 10000, of which the lowest
sixteen bits are kept.  So it is the course of the heading, from 0 to 3600, if and only if the
heading is none of less than zero or more than 360 degrees, up to what the division cuts off
(`Assembler.snapshot_course`).

Outside, the course shows a number that has nothing to do with the heading: a heading of 90 degrees
to the west of north becomes 6463.6 degrees (`Assembler.snapshot_of_negative_heading`).

## Main definitions

* `Message.heading` — the heading that a message bears.

## Main results

* `toNat_courseOfHeading` — the course as a number.
* `Assembler.snapshot_course` — which course a snapshot shows, and when it is that of the heading.
-/

namespace GnssLink

/-! ### Units -/

/-- The lowest sixteen bits of a number with a sign. -/
theorem toNat_toUInt16_toUInt32 (value : Int32) :
    (value.toUInt32.toUInt16.toNat : Int) = value.toInt % 65536 := by
  have hsigned : value.toInt = (value.toUInt32.toNat : Int).bmod (2 ^ 32) :=
    BitVec.toInt_eq_toNat_bmod value.toBitVec
  rw [hsigned, UInt32.toNat_toUInt16, Int.bmod_def]
  split <;> omega

theorem toNat_courseOfHeading (heading : Int32) :
    ((courseOfHeading heading).toNat : Int) = heading.toInt.tdiv 10000 % 65536 := by
  have hdiv : (heading / 10000).toInt = heading.toInt.tdiv 10000 :=
    Int32.toInt_div_of_ne_right heading 10000 (by decide)
  rw [courseOfHeading, toNat_toUInt16_toUInt32, hdiv]

/-- Up to what the division cuts off, the heading is from 0 to 360 degrees. -/
theorem tdiv_heading_mem_iff (heading : Int) :
    (0 ≤ heading.tdiv 10000 ∧ heading.tdiv 10000 ≤ 3600) ↔
      (-10000 < heading ∧ heading < 36010000) := by
  have hsign : Int.sign 10000 = 1 := rfl
  rw [Int.tdiv_eq_ediv, hsign]
  split <;> omega

/-- The course is that of the heading if and only if the heading is from 0 to 360 degrees. -/
theorem courseOfHeading_eq_iff (heading : Int32) :
    ((courseOfHeading heading).toNat = heading.toInt.tdiv 10000 ∧
        (courseOfHeading heading).toNat ≤ 3600) ↔
      (-10000 < heading.toInt ∧ heading.toInt < 36010000) := by
  have hcourse := toNat_courseOfHeading heading
  rw [← tdiv_heading_mem_iff]
  omega

/-! ### The last heading -/

namespace Message

/-- The heading that a message bears. -/
def heading : Message → Option Int32
  | velocity r => some r.heading
  | pvt r => some r.heading
  | _ => none

theorem isSome_heading (m : Message) : m.heading.isSome = m.bearsVelocity := by
  cases m <;> rfl

theorem groundCourse_of_velocityShown (m : Message) (before : VelocityShown) :
    (m.velocityShown.getD before).groundCourse =
      (m.heading.map courseOfHeading).getD before.groundCourse := by
  cases m <;> rfl

end Message

namespace Assembler

/-- The course is that of the last heading. -/
theorem groundCourse_applyAll (messages : List Message) :
    (initial.applyAll messages).working.groundCourse =
      (((messages.filterMap Message.heading).getLast?).map courseOfHeading).getD 0 := by
  have hstep : ∀ (a : Assembler) (m : Message), (a.absorb m).working.groundCourse =
      (m.heading.map courseOfHeading).getD a.working.groundCourse := fun a m =>
    (congrArg VelocityShown.groundCourse (a.velocityShown_absorb m)).trans
      (m.groundCourse_of_velocityShown _)
  rw [last_written_working (·.groundCourse) hstep, ← List.map_filterMap, List.getLast?_map]
  rfl

/-- Behind every snapshot there is a heading. -/
theorem exists_last_heading {messages : List Message} {m : Message}
    (h : completes messages m = true) :
    ∃ heading, ((messages ++ [m]).filterMap Message.heading).getLast? = some heading := by
  rw [completes_eq, Bool.and_eq_true, List.any_eq_true, List.any_eq_true] at h
  obtain ⟨-, x, hx, hbears⟩ := h
  have hmem : x ∈ messages ++ [m] := by
    rcases List.mem_append.1 hx with hsince | hnow
    · exact List.mem_append_left _ ((sinceSnapshot_suffix messages).subset hsince)
    · exact List.mem_append_right _ hnow
  rw [← Message.isSome_heading, Option.isSome_iff_exists] at hbears
  obtain ⟨first, hfirst⟩ := hbears
  have hne : (messages ++ [m]).filterMap Message.heading ≠ [] :=
    List.ne_nil_of_mem (List.mem_filterMap.2 ⟨x, hmem, hfirst⟩)
  exact ⟨_, List.getLast?_eq_some_getLast hne⟩

/-- **A snapshot shows the course of the last heading**, of which the lowest sixteen bits are kept.
It is the course of the heading, from 0 to 3600, if and only if the heading is from 0 to 360
degrees, up to what the division cuts off. -/
theorem snapshot_course (messages : List Message) (m : Message) {snapshot : Solution}
    (h : ((initial.applyAll messages).apply m).1 = some snapshot) :
    ∃ heading, ((messages ++ [m]).filterMap Message.heading).getLast? = some heading ∧
      snapshot.groundCourse.toNat = heading.toInt.tdiv 10000 % 65536 ∧
      ((snapshot.groundCourse.toNat = heading.toInt.tdiv 10000 ∧
          snapshot.groundCourse.toNat ≤ 3600) ↔
        (-10000 < heading.toInt ∧ heading.toInt < 36010000)) := by
  have hcomplete : completes messages m = true := by
    rw [completes, h]
    rfl
  obtain ⟨heading, hlast⟩ := exists_last_heading hcomplete
  have hcourse : snapshot.groundCourse = courseOfHeading heading := by
    rw [snapshot_eq_working h, ← applyAll_concat, groundCourse_applyAll, hlast]
    rfl
  rw [hcourse]
  exact ⟨heading, hlast, toNat_courseOfHeading heading, courseOfHeading_eq_iff heading⟩

/-- A movement to the west, with a heading that is counted from north to the left. -/
def westwardReport : PvtReport where
  timeOfWeek := 3000
  time := ⟨2026, 9, 24, 12, 0, 59, 250000000, 0x03⟩
  timeAccuracy := 30
  fix := 3
  flags := 1
  flags2 := 0
  satellites := 9
  longitude := 85000000
  latitude := 474000000
  height := 450000
  heightAboveSea := 400000
  horizontalAccuracy := 5000
  verticalAccuracy := 7000
  north := 0
  east := -5000
  down := 0
  groundSpeed := 5000
  heading := -9000000
  speedAccuracy := 200
  headingAccuracy := 150000
  dilution := 120

/-- The snapshot of this report shows a course of 6463.6 degrees. -/
theorem snapshot_of_negative_heading :
    ∃ snapshot, ((initial.applyAll []).apply (.pvt westwardReport)).1 = some snapshot ∧
      snapshot.groundCourse = 64636 ∧ ¬ snapshot.groundCourse.toNat ≤ 3600 :=
  ⟨_, rfl, rfl, by decide⟩

/-- Its heading is not from 0 to 360 degrees. -/
theorem snapshot_course_westward :
    ∃ snapshot, ((initial.applyAll []).apply (.pvt westwardReport)).1 = some snapshot ∧
      ¬ (snapshot.groundCourse.toNat = westwardReport.heading.toInt.tdiv 10000 ∧
        snapshot.groundCourse.toNat ≤ 3600) := by
  obtain ⟨heading, hlast, -, hiff⟩ := snapshot_course [] (.pvt westwardReport) rfl
  obtain rfl : westwardReport.heading = heading := Option.some.inj hlast
  exact ⟨_, rfl, fun hcourse => absurd (hiff.1 hcourse) (by decide)⟩

end Assembler

end GnssLink
