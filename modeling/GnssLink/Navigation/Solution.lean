/-!
# Navigation solutions

The record that the link publishes: where the receiver is, how it moves, how well both are known,
and when.

## Main definitions

* `FixType`, `FixType.ofReport` — the quality of a fix, and the one that a report vouches for.
* `Solution` — the published record, with its parts `SolutionTime` and `Validity`.
-/

namespace GnssLink

/-- The quality of a fix, in ascending order. -/
inductive FixType where
  | none
  | deadReckoning
  | fix2D
  | fix3D
  | gnssDeadReckoning
  | timeOnly
  deriving DecidableEq, Repr

namespace FixType

/-- The place of a quality in the order. -/
def rank : FixType → Nat
  | none => 0
  | deadReckoning => 1
  | fix2D => 2
  | fix3D => 3
  | gnssDeadReckoning => 4
  | timeOnly => 5

instance : Ord FixType where
  compare a b := compare a.rank b.rank

/-- The quality that a report vouches for.  Only codes 2 and 3, and only with the flag set, count as
a fix. -/
def ofReport (ok : Bool) (code : UInt8) : FixType :=
  if ok && code == 2 then fix2D
  else if ok && code == 3 then fix3D
  else none

end FixType

/-- Date and time of day to the millisecond. -/
structure SolutionTime where
  year : UInt16
  month : UInt8
  day : UInt8
  hours : UInt8
  minutes : UInt8
  seconds : UInt8
  millis : UInt16
  deriving DecidableEq, Repr

/-- Which parts of a solution hold data: the accuracies of the position, the horizontal and the
vertical velocity, and the time. -/
structure Validity where
  positionAccuracy : Bool
  horizontalVelocity : Bool
  verticalVelocity : Bool
  time : Bool
  deriving DecidableEq, Repr

/-- A velocity in the local frame. -/
structure LocalVelocity where
  north : Int32
  east : Int32
  down : Int32
  deriving DecidableEq, Repr

/-- A navigation solution.  Longitude and latitude are in 10⁻⁷ degrees; altitudes above mean sea
level and above the ellipsoid and the accuracies of the position in centimetres; speeds in
centimetres per second; courses in tenths of a degree; the dilution of precision in hundredths. -/
structure Solution where
  fixType : FixType
  satellites : UInt8
  longitude : Int32
  latitude : Int32
  altitude : Int32
  ellipsoidAltitude : Int32
  groundSpeed : UInt32
  groundCourse : UInt16
  velocity : LocalVelocity
  horizontalAccuracy : UInt16
  verticalAccuracy : UInt16
  speedAccuracy : UInt16
  headingAccuracy : UInt16
  dilution : UInt16
  time : SolutionTime
  validity : Validity
  deriving DecidableEq, Repr

/-- The solution before any report. -/
def Solution.blank : Solution where
  fixType := .none
  satellites := 0
  longitude := 0
  latitude := 0
  altitude := 0
  ellipsoidAltitude := 0
  groundSpeed := 0
  groundCourse := 0
  velocity := ⟨0, 0, 0⟩
  horizontalAccuracy := 0
  verticalAccuracy := 0
  speedAccuracy := 0
  headingAccuracy := 0
  dilution := 0
  time := ⟨0, 0, 0, 0, 0, 0, 0⟩
  validity := ⟨false, false, false, false⟩

end GnssLink
