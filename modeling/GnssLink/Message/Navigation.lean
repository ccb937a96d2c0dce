import GnssLink.Message.Layout

/-!
# Navigation reports

The navigation results of the receiver, with every field in the unit of the wire.  Conversion and
clamping are the work of the assembler of solutions.  All reports begin with the time of the week in
milliseconds, which names the epoch that they belong to.

## Main definitions

* `PositionReport`, `FixReport`, `SummaryReport`, `VelocityReport`, `TimeReport`, `PvtReport` — the
  fields of the six reports, each with its `layout`.
* `UtcTime`, `UtcTime.isValid` — date and time of day.
* `fixIsOk` — the flag that vouches for a fix.
-/

namespace GnssLink

/-- The flag, common to three reports, that vouches for the kind of fix beside it. -/
def fixIsOk (flags : UInt8) : Bool :=
  flags &&& 0x01 != 0

/-! ### Position -/

/-- Longitude and latitude in 10⁻⁷ degrees, the heights above the ellipsoid and above mean sea level
and the two accuracies in millimetres. -/
structure PositionReport where
  timeOfWeek : UInt32
  longitude : Int32
  latitude : Int32
  height : Int32
  heightAboveSea : Int32
  horizontalAccuracy : UInt32
  verticalAccuracy : UInt32
  deriving DecidableEq, Repr

/-- Seven words. -/
def PositionReport.layout : Layout PositionReport where
  type := .navPosLlh
  minLength := 28
  read := do
    let timeOfWeek ← Read.u32
    let longitude ← Read.i32
    let latitude ← Read.i32
    let height ← Read.i32
    let heightAboveSea ← Read.i32
    let horizontalAccuracy ← Read.u32
    let verticalAccuracy ← Read.u32
    return { timeOfWeek, longitude, latitude, height, heightAboveSea, horizontalAccuracy,
             verticalAccuracy }

/-! ### Fix status -/

/-- The kind of fix and its flags. -/
structure FixReport where
  timeOfWeek : UInt32
  fix : UInt8
  flags : UInt8
  deriving DecidableEq, Repr

/-- The first two bytes behind the time; ten more are not used. -/
def FixReport.layout : Layout FixReport where
  type := .navStatus
  minLength := 16
  read := do
    let timeOfWeek ← Read.u32
    let fix ← Read.u8
    let flags ← Read.u8
    return { timeOfWeek, fix, flags }

/-! ### Summary -/

/-- The kind of fix and its flags, the dilution of precision in hundredths, and the number of
satellites. -/
structure SummaryReport where
  timeOfWeek : UInt32
  fix : UInt8
  flags : UInt8
  dilution : UInt16
  satellites : UInt8
  deriving DecidableEq, Repr

/-- The fix stands at offset 10, the dilution at 44, the number of satellites at 47. -/
def SummaryReport.layout : Layout SummaryReport where
  type := .navSol
  minLength := 52
  read := do
    let timeOfWeek ← Read.u32
    Read.seek 10
    let fix ← Read.u8
    let flags ← Read.u8
    Read.seek 44
    let dilution ← Read.u16
    Read.skip 1
    let satellites ← Read.u8
    return { timeOfWeek, fix, flags, dilution, satellites }

/-! ### Velocity -/

/-- The velocity to the north, to the east and downward, the speed in space and over ground and the
accuracy of the speed in centimetres per second; the heading and its accuracy in 10⁻⁵ degrees. -/
structure VelocityReport where
  timeOfWeek : UInt32
  north : Int32
  east : Int32
  down : Int32
  speed : UInt32
  groundSpeed : UInt32
  heading : Int32
  speedAccuracy : UInt32
  headingAccuracy : UInt32
  deriving DecidableEq, Repr

/-- Nine words. -/
def VelocityReport.layout : Layout VelocityReport where
  type := .navVelNed
  minLength := 36
  read := do
    let timeOfWeek ← Read.u32
    let north ← Read.i32
    let east ← Read.i32
    let down ← Read.i32
    let speed ← Read.u32
    let groundSpeed ← Read.u32
    let heading ← Read.i32
    let speedAccuracy ← Read.u32
    let headingAccuracy ← Read.u32
    return { timeOfWeek, north, east, down, speed, groundSpeed, heading, speedAccuracy,
             headingAccuracy }

/-! ### Time -/

/-- Date and time of day, a fraction of a second in nanoseconds, which may be negative, and flags
that vouch for the parts. -/
structure UtcTime where
  year : UInt16
  month : UInt8
  day : UInt8
  hour : UInt8
  minute : UInt8
  second : UInt8
  nanosecond : Int32
  validity : UInt8
  deriving DecidableEq, Repr

/-- Both the date and the time of day are vouched for. -/
def UtcTime.isValid (t : UtcTime) : Bool :=
  t.validity &&& 0x03 == 0x03

/-- A time and its accuracy in nanoseconds. -/
structure TimeReport where
  timeOfWeek : UInt32
  accuracy : UInt32
  time : UtcTime
  deriving DecidableEq, Repr

/-- The fraction of the second stands before the date. -/
def TimeReport.layout : Layout TimeReport where
  type := .navTimeUtc
  minLength := 20
  read := do
    let timeOfWeek ← Read.u32
    let accuracy ← Read.u32
    let nanosecond ← Read.i32
    let year ← Read.u16
    let month ← Read.u8
    let day ← Read.u8
    let hour ← Read.u8
    let minute ← Read.u8
    let second ← Read.u8
    let validity ← Read.u8
    return {
      timeOfWeek, accuracy
      time := { year, month, day, hour, minute, second, nanosecond, validity } }

/-! ### Position, velocity and time -/

/-- Position, velocity and time in one report.  Unlike in `VelocityReport`, speeds are in
millimetres per second. -/
structure PvtReport where
  timeOfWeek : UInt32
  time : UtcTime
  timeAccuracy : UInt32
  fix : UInt8
  flags : UInt8
  flags2 : UInt8
  satellites : UInt8
  longitude : Int32
  latitude : Int32
  height : Int32
  heightAboveSea : Int32
  horizontalAccuracy : UInt32
  verticalAccuracy : UInt32
  north : Int32
  east : Int32
  down : Int32
  groundSpeed : Int32
  heading : Int32
  speedAccuracy : UInt32
  headingAccuracy : UInt32
  dilution : UInt16
  deriving DecidableEq, Repr

/-- The first 78 bytes hold the fields.  Earlier hardware sends 84 bytes. -/
def PvtReport.layout : Layout PvtReport where
  type := .navPvt
  minLength := 84
  read := do
    let timeOfWeek ← Read.u32
    let year ← Read.u16
    let month ← Read.u8
    let day ← Read.u8
    let hour ← Read.u8
    let minute ← Read.u8
    let second ← Read.u8
    let validity ← Read.u8
    let timeAccuracy ← Read.u32
    let nanosecond ← Read.i32
    let fix ← Read.u8
    let flags ← Read.u8
    let flags2 ← Read.u8
    let satellites ← Read.u8
    let longitude ← Read.i32
    let latitude ← Read.i32
    let height ← Read.i32
    let heightAboveSea ← Read.i32
    let horizontalAccuracy ← Read.u32
    let verticalAccuracy ← Read.u32
    let north ← Read.i32
    let east ← Read.i32
    let down ← Read.i32
    let groundSpeed ← Read.i32
    let heading ← Read.i32
    let speedAccuracy ← Read.u32
    let headingAccuracy ← Read.u32
    let dilution ← Read.u16
    return {
      timeOfWeek
      time := { year, month, day, hour, minute, second, nanosecond, validity }
      timeAccuracy, fix, flags, flags2, satellites, longitude, latitude, height, heightAboveSea
      horizontalAccuracy, verticalAccuracy, north, east, down, groundSpeed, heading, speedAccuracy
      headingAccuracy, dilution }

/-- The length of the payload from the eighth hardware generation on. -/
def PvtReport.modernLength : Nat := 92

end GnssLink
