import GnssLink.Proofs.Navigation.Completion

/-!
# The last report of each kind

A solution consists of groups of fields, and each group shows what the last report that bears it
says: the position, the velocity, the summary and the time.  The units of the wire are brought to
those of a solution; divisions cut toward zero and accuracies end at 9999.  Before its first report
a group shows zeros.

The values are stated here in integers without a width, so nothing that a field can hold on the wire
overflows or loses digits on the way, except that the course of a heading is left as it is computed.

## Main definitions

* `PositionShown`, `VelocityShown`, `SummaryShown`, `TimeShown` — the groups of a solution.
* `Message.positionShown`, `Message.velocityShown`, `Message.summaryShown`, `Message.timeShown` —
  what a report writes in each of them.
* `Assembler.ShowsLastReports` — every group shows its last report.

## Main results

* `Assembler.last_written` — a group that every report writes or leaves alone shows the last one.
* `Assembler.shows_last_reports` — all groups, behind all messages.
-/

namespace GnssLink

/-! ### Units -/

theorem toNat_clampAccuracy (value : UInt32) :
    (clampAccuracy value).toNat = min value.toNat 9999 := by
  have hwide : maxAccuracy.toUInt32.toNat = 9999 := rfl
  have hnarrow : maxAccuracy.toNat = 9999 := rfl
  unfold clampAccuracy
  split
  · next hle =>
    rw [UInt32.le_iff_toNat_le] at hle
    rw [UInt32.toNat_toUInt16]
    omega
  · next hlt =>
    rw [UInt32.le_iff_toNat_le] at hlt
    omega

theorem toInt_div_ten (value : Int32) : (value / 10).toInt = value.toInt.tdiv 10 :=
  Int32.toInt_div_of_ne_right value 10 (by decide)

theorem toNat_toUInt32_of_nonneg {value : Int32} (h : 0 ≤ value) :
    value.toUInt32.toNat = value.toInt.toNat :=
  (Int32.toNat_toUInt32_of_le h).trans (Int32.toNat_toInt value).symm

/-- A negative speed over ground counts as none. -/
theorem toNat_groundSpeed (speed : Int32) :
    (max (speed / 10) 0).toUInt32.toNat = (speed.toInt.tdiv 10).toNat := by
  rw [← toInt_div_ten]
  show (if speed / 10 ≤ 0 then 0 else speed / 10).toUInt32.toNat = _
  have hzero : (0 : Int32).toInt = 0 := rfl
  split
  · next hle =>
    rw [Int32.le_iff_toInt_le, hzero] at hle
    exact (Int.toNat_of_nonpos hle).symm
  · next hlt =>
    exact toNat_toUInt32_of_nonneg (Int32.le_of_lt (Int32.not_le.1 hlt))

theorem toNat_millisOfNanos (nanos : Int32) :
    (millisOfNanos nanos).toNat = min (nanos.toInt.tdiv 1000000).toNat 999 := by
  have hdiv : (nanos / 1000000).toInt = nanos.toInt.tdiv 1000000 :=
    Int32.toInt_div_of_ne_right nanos 1000000 (by decide)
  have hzero : (0 : Int32).toInt = 0 := rfl
  have hlimit : (999 : Int32).toInt = 999 := rfl
  have hmillis : (999 : UInt16).toNat = 999 := rfl
  rw [← hdiv, millisOfNanos]
  split
  · next hneg =>
    rw [Int32.lt_iff_toInt_lt, hzero] at hneg
    rw [Int.toNat_of_nonpos (Int.le_of_lt hneg)]
    rfl
  · next hnonneg =>
    rw [Int32.not_lt] at hnonneg
    split
    · next hlarge =>
      rw [Int32.lt_iff_toInt_lt, hlimit] at hlarge
      omega
    · next hsmall =>
      rw [Int32.lt_iff_toInt_lt, hlimit] at hsmall
      rw [UInt32.toNat_toUInt16, toNat_toUInt32_of_nonneg hnonneg]
      omega

/-! ### Groups -/

/-- A position as a solution shows it.  Altitudes and accuracies are in centimetres. -/
structure PositionShown where
  longitude : Int32
  latitude : Int32
  altitude : Int
  ellipsoidAltitude : Int
  horizontalAccuracy : Nat
  verticalAccuracy : Nat

/-- A velocity as a solution shows it.  Speeds are in centimetres per second. -/
structure VelocityShown where
  north : Int
  east : Int
  down : Int
  groundSpeed : Nat
  groundCourse : UInt16
  speedAccuracy : Nat
  headingAccuracy : Nat

/-- What a solution shows of a summary. -/
structure SummaryShown where
  satellites : UInt8
  dilution : Nat

/-- A time as a solution shows it, with a whole number of milliseconds. -/
structure TimeShown where
  year : UInt16
  month : UInt8
  day : UInt8
  hours : UInt8
  minutes : UInt8
  seconds : UInt8
  millis : Nat

namespace Solution

/-- The group of the position. -/
def positionShown (s : Solution) : PositionShown where
  longitude := s.longitude
  latitude := s.latitude
  altitude := s.altitude.toInt
  ellipsoidAltitude := s.ellipsoidAltitude.toInt
  horizontalAccuracy := s.horizontalAccuracy.toNat
  verticalAccuracy := s.verticalAccuracy.toNat

/-- The group of the velocity. -/
def velocityShown (s : Solution) : VelocityShown where
  north := s.velocity.north.toInt
  east := s.velocity.east.toInt
  down := s.velocity.down.toInt
  groundSpeed := s.groundSpeed.toNat
  groundCourse := s.groundCourse
  speedAccuracy := s.speedAccuracy.toNat
  headingAccuracy := s.headingAccuracy.toNat

/-- The group of the summary. -/
def summaryShown (s : Solution) : SummaryShown where
  satellites := s.satellites
  dilution := s.dilution.toNat

/-- The group of the time. -/
def timeShown (s : Solution) : TimeShown where
  year := s.time.year
  month := s.time.month
  day := s.time.day
  hours := s.time.hours
  minutes := s.time.minutes
  seconds := s.time.seconds
  millis := s.time.millis.toNat

end Solution

/-- The time of day in whole milliseconds.  Nanoseconds that do not lie in the second go to its
nearer end. -/
def UtcTime.shown (t : UtcTime) : TimeShown where
  year := t.year
  month := t.month
  day := t.day
  hours := t.hour
  minutes := t.minute
  seconds := t.second
  millis := min (t.nanosecond.toInt.tdiv 1000000).toNat 999

namespace Message

/-- What a report writes in the group of the position.  Both kinds are in millimetres. -/
def positionShown : Message → Option PositionShown
  | position r => some {
      longitude := r.longitude
      latitude := r.latitude
      altitude := r.heightAboveSea.toInt.tdiv 10
      ellipsoidAltitude := r.height.toInt.tdiv 10
      horizontalAccuracy := min (r.horizontalAccuracy.toNat / 10) 9999
      verticalAccuracy := min (r.verticalAccuracy.toNat / 10) 9999 }
  | pvt r => some {
      longitude := r.longitude
      latitude := r.latitude
      altitude := r.heightAboveSea.toInt.tdiv 10
      ellipsoidAltitude := r.height.toInt.tdiv 10
      horizontalAccuracy := min (r.horizontalAccuracy.toNat / 10) 9999
      verticalAccuracy := min (r.verticalAccuracy.toNat / 10) 9999 }
  | _ => none

/-- What a report writes in the group of the velocity.  A report of the velocity is in centimetres
per second, one of position, velocity and time in millimetres per second. -/
def velocityShown : Message → Option VelocityShown
  | velocity r => some {
      north := r.north.toInt
      east := r.east.toInt
      down := r.down.toInt
      groundSpeed := r.groundSpeed.toNat
      groundCourse := courseOfHeading r.heading
      speedAccuracy := min r.speedAccuracy.toNat 9999
      headingAccuracy := min (r.headingAccuracy.toNat / 10000) 9999 }
  | pvt r => some {
      north := r.north.toInt.tdiv 10
      east := r.east.toInt.tdiv 10
      down := r.down.toInt.tdiv 10
      groundSpeed := (r.groundSpeed.toInt.tdiv 10).toNat
      groundCourse := courseOfHeading r.heading
      speedAccuracy := min (r.speedAccuracy.toNat / 10) 9999
      headingAccuracy := min (r.headingAccuracy.toNat / 10000) 9999 }
  | _ => none

/-- What a report writes in the group of the summary. -/
def summaryShown : Message → Option SummaryShown
  | summary r => some ⟨r.satellites, min r.dilution.toNat 9999⟩
  | pvt r => some ⟨r.satellites, min r.dilution.toNat 9999⟩
  | _ => none

/-- The time that a report bears, whether it is vouched for or not. -/
def utcTime : Message → Option UtcTime
  | time r => some r.time
  | pvt r => some r.time
  | _ => none

/-- What a report writes in the group of the time, which is nothing unless both its date and its
time of day are vouched for. -/
def timeShown (m : Message) : Option TimeShown :=
  (m.utcTime.filter UtcTime.isValid).map UtcTime.shown

/-- The message bears no part of a solution but, maybe, the kind of the fix. -/
def bearsNothing : Message → Bool
  | fix _ | version _ | accepted _ | refused _ | other _ => true
  | _ => false

end Message

namespace Assembler

/-! ### One message -/

/-- A time replaces the last one if it is vouched for, and is marked as valid or not. -/
theorem working_applyTime (a : Assembler) (t : UtcTime) :
    (a.applyTime t).working = { a.working with
      time := if t.isValid then
          ⟨t.year, t.month, t.day, t.hour, t.minute, t.second, millisOfNanos t.nanosecond⟩
        else a.working.time
      validity.time := t.isValid } := by
  unfold applyTime
  split
  · next hvalid => rw [hvalid]
  · next hinvalid => rw [Bool.eq_false_iff.2 hinvalid]

theorem positionShown_absorb (a : Assembler) (m : Message) :
    (a.absorb m).working.positionShown = m.positionShown.getD a.working.positionShown := by
  cases m with
  | position r =>
    simp only [absorb, applyPosition, Solution.positionShown, Message.positionShown,
      Option.getD_some, toInt_div_ten, toNat_clampAccuracy, UInt32.toNat_div, UInt32.reduceToNat]
  | pvt r =>
    simp only [absorb, applyPvt, working_applyTime, Solution.positionShown, Message.positionShown,
      Option.getD_some, toInt_div_ten, toNat_clampAccuracy, UInt32.toNat_div, UInt32.reduceToNat]
  | time r =>
    rw [absorb, Solution.positionShown, working_applyTime]
    rfl
  | fix _ | summary _ | velocity _ | version _ | accepted _ | refused _ | other _ => rfl

theorem velocityShown_absorb (a : Assembler) (m : Message) :
    (a.absorb m).working.velocityShown = m.velocityShown.getD a.working.velocityShown := by
  cases m with
  | velocity r =>
    simp only [absorb, applyVelocity, Solution.velocityShown, Message.velocityShown,
      Option.getD_some, toNat_clampAccuracy, UInt32.toNat_div, UInt32.reduceToNat]
  | pvt r =>
    simp only [absorb, applyPvt, working_applyTime, Solution.velocityShown, Message.velocityShown,
      Option.getD_some, toInt_div_ten, toNat_groundSpeed, toNat_clampAccuracy, UInt32.toNat_div,
      UInt32.reduceToNat]
  | time r =>
    rw [absorb, Solution.velocityShown, working_applyTime]
    rfl
  | position _ | fix _ | summary _ | version _ | accepted _ | refused _ | other _ => rfl

theorem summaryShown_absorb (a : Assembler) (m : Message) :
    (a.absorb m).working.summaryShown = m.summaryShown.getD a.working.summaryShown := by
  cases m with
  | summary r =>
    simp only [absorb, applySummary, Solution.summaryShown, Message.summaryShown,
      Option.getD_some, toNat_clampAccuracy, UInt16.toNat_toUInt32]
  | pvt r =>
    simp only [absorb, applyPvt, working_applyTime, Solution.summaryShown, Message.summaryShown,
      Option.getD_some, toNat_clampAccuracy, UInt16.toNat_toUInt32]
  | time r =>
    rw [absorb, Solution.summaryShown, working_applyTime]
    rfl
  | position _ | fix _ | velocity _ | version _ | accepted _ | refused _ | other _ => rfl

/-- A time that is vouched for shows whole milliseconds. -/
theorem timeShown_applyTime (a : Assembler) (t : UtcTime) :
    (a.applyTime t).working.timeShown =
      if t.isValid then t.shown else a.working.timeShown := by
  rw [working_applyTime]
  cases t.isValid with
  | true => simp only [if_true, Solution.timeShown, UtcTime.shown, toNat_millisOfNanos]
  | false => rfl

theorem timeShown_absorb (a : Assembler) (m : Message) :
    (a.absorb m).working.timeShown = m.timeShown.getD a.working.timeShown := by
  have hwritten : ∀ (t : UtcTime) (before : TimeShown),
      (if t.isValid then t.shown else before) =
        (((some t).filter UtcTime.isValid).map UtcTime.shown).getD before := by
    intro t before
    cases hvalid : t.isValid <;> simp [Option.filter, hvalid]
  cases m with
  | time r => exact (timeShown_applyTime a r.time).trans (hwritten r.time _)
  | pvt r => exact (timeShown_applyTime _ r.time).trans (hwritten r.time _)
  | position _ | fix _ | summary _ | velocity _ => rfl
  | version _ | accepted _ | refused _ | other _ => rfl

/-- Every report that bears a time marks it as valid or not. -/
theorem timeValid_absorb (a : Assembler) (m : Message) :
    (a.absorb m).working.validity.time =
      (m.utcTime.map UtcTime.isValid).getD a.working.validity.time := by
  cases m with
  | time r => rw [absorb, working_applyTime]; rfl
  | pvt r => simp only [absorb, applyPvt, working_applyTime]; rfl
  | position _ | fix _ | summary _ | velocity _ => rfl
  | version _ | accepted _ | refused _ | other _ => rfl

theorem positionValid_absorb (a : Assembler) (m : Message) :
    (a.absorb m).working.validity.positionAccuracy =
      (a.working.validity.positionAccuracy || m.bearsPosition) := by
  cases m with
  | time r =>
    rw [absorb, working_applyTime]
    exact (Bool.or_false _).symm
  | pvt r => simp only [absorb, applyPvt, working_applyTime, Message.bearsPosition, Bool.or_true]
  | position _ => exact (Bool.or_true _).symm
  | fix _ | summary _ | velocity _ | version _ | accepted _ | refused _ | other _ =>
    exact (Bool.or_false _).symm

theorem velocityValid_absorb (a : Assembler) (m : Message) :
    (a.absorb m).working.validity.horizontalVelocity =
        (a.working.validity.horizontalVelocity || m.bearsVelocity) ∧
      (a.absorb m).working.validity.verticalVelocity =
        (a.working.validity.verticalVelocity || m.bearsVelocity) := by
  cases m with
  | time r =>
    rw [absorb, working_applyTime]
    exact ⟨(Bool.or_false _).symm, (Bool.or_false _).symm⟩
  | pvt r =>
    simp only [absorb, applyPvt, working_applyTime, Message.bearsVelocity, Bool.or_true, and_self]
  | velocity _ => exact ⟨(Bool.or_true _).symm, (Bool.or_true _).symm⟩
  | position _ | fix _ | summary _ | version _ | accepted _ | refused _ | other _ =>
    exact ⟨(Bool.or_false _).symm, (Bool.or_false _).symm⟩

/-- A message that bears no part of a solution changes at most the kind of the fix. -/
theorem working_absorb_of_bearsNothing {m : Message} (h : m.bearsNothing = true) (a : Assembler) :
    (a.absorb m).working = { a.working with fixType := (a.absorb m).working.fixType } := by
  cases m with
  | position _ | summary _ | velocity _ | time _ | pvt _ => cases h
  | fix _ | version _ | accepted _ | refused _ | other _ => rfl

/-! ### All messages -/

/-- **A group that every message writes or leaves alone shows what the last one wrote.** -/
theorem last_written {α : Type} (shown : Assembler → α) {written : Message → Option α}
    (h : ∀ a m, shown (a.apply m).2 = (written m).getD (shown a)) (a : Assembler)
    (messages : List Message) :
    shown (a.applyAll messages) = ((messages.filterMap written).getLast?).getD (shown a) := by
  induction messages generalizing a with
  | nil => rfl
  | cons m rest ih =>
    rw [applyAll_cons, ih, h, List.filterMap_cons]
    cases written m with
    | none => rfl
    | some value => rw [List.getLast?_cons]; rfl

/-- A group of the working solution: completing an epoch does not touch it. -/
theorem last_written_working {α : Type} (shown : Solution → α) {written : Message → Option α}
    (h : ∀ (a : Assembler) m, shown (a.absorb m).working = (written m).getD (shown a.working))
    (messages : List Message) :
    shown (initial.applyAll messages).working =
      ((messages.filterMap written).getLast?).getD (shown .blank) :=
  last_written (fun a => shown a.working) (fun a m => by rw [(a.apply_keeps m).1, h]) initial
    messages

/-- A mark that some messages set, and none takes back, is set if one of them was applied. -/
theorem any_sets (mark : Solution → Bool) {sets : Message → Bool}
    (h : ∀ (a : Assembler) m, mark (a.absorb m).working = (mark a.working || sets m))
    (a : Assembler) (messages : List Message) :
    mark (a.applyAll messages).working = (mark a.working || messages.any sets) := by
  induction messages generalizing a with
  | nil => exact (Bool.or_false _).symm
  | cons m rest ih =>
    rw [applyAll_cons, ih, (a.apply_keeps m).1, h, List.any_cons, Bool.or_assoc]

/-- Every group of the working solution shows the last report that bears it. -/
structure ShowsLastReports (messages : List Message) (s : Solution) : Prop where
  /-- The position is that of the last report of it. -/
  position : s.positionShown =
    (messages.filterMap Message.positionShown).getLast?.getD Solution.blank.positionShown
  /-- So is the velocity, with the course of the same report. -/
  velocity : s.velocityShown =
    (messages.filterMap Message.velocityShown).getLast?.getD Solution.blank.velocityShown
  /-- So is the summary. -/
  summary : s.summaryShown =
    (messages.filterMap Message.summaryShown).getLast?.getD Solution.blank.summaryShown
  /-- The time is the last one whose date and time of day were vouched for. -/
  time : s.timeShown =
    (messages.filterMap Message.timeShown).getLast?.getD Solution.blank.timeShown
  /-- It is marked as valid if those of the last report of all were vouched for. -/
  timeValid : s.validity.time = (messages.filterMap Message.utcTime).getLast?.any UtcTime.isValid
  /-- The accuracy of the position is marked as valid behind the first report of it. -/
  positionValid : s.validity.positionAccuracy = messages.any Message.bearsPosition
  /-- So is the velocity over ground. -/
  horizontalValid : s.validity.horizontalVelocity = messages.any Message.bearsVelocity
  /-- So is the vertical velocity. -/
  verticalValid : s.validity.verticalVelocity = messages.any Message.bearsVelocity

/-- **Every group of a solution shows the last report that bears it**, behind any messages.  A
snapshot is the working solution, and a message that bears no part of a solution changes at most the
kind of the fix. -/
theorem shows_last_reports (messages : List Message) :
    ShowsLastReports messages (initial.applyAll messages).working ∧
      (∀ m snapshot, ((initial.applyAll messages).apply m).1 = some snapshot →
        snapshot = (initial.applyAll (messages ++ [m])).working) ∧
      ∀ m, m.bearsNothing = true → (initial.applyAll (messages ++ [m])).working =
        { (initial.applyAll messages).working with
          fixType := (initial.applyAll (messages ++ [m])).working.fixType } := by
  refine ⟨?_, ?_, ?_⟩
  · constructor
    case position => exact last_written_working (·.positionShown) positionShown_absorb messages
    case velocity => exact last_written_working (·.velocityShown) velocityShown_absorb messages
    case summary => exact last_written_working (·.summaryShown) summaryShown_absorb messages
    case time => exact last_written_working (·.timeShown) timeShown_absorb messages
    case timeValid =>
      rw [last_written_working (·.validity.time) timeValid_absorb messages, ← List.map_filterMap,
        List.getLast?_map]
      cases (messages.filterMap Message.utcTime).getLast? <;> rfl
    case positionValid =>
      exact (any_sets (·.validity.positionAccuracy) positionValid_absorb initial messages).trans
        (Bool.false_or _)
    case horizontalValid =>
      exact (any_sets (·.validity.horizontalVelocity)
        (fun a m => (velocityValid_absorb a m).1) initial messages).trans (Bool.false_or _)
    case verticalValid =>
      exact (any_sets (·.validity.verticalVelocity)
        (fun a m => (velocityValid_absorb a m).2) initial messages).trans (Bool.false_or _)
  · intro m snapshot h
    rw [applyAll_concat]
    exact snapshot_eq_working h
  · intro m hm
    rw [applyAll_concat, (apply_keeps _ m).1]
    exact working_absorb_of_bearsNothing hm _

end Assembler

end GnssLink
