import GnssLink.Message.Version

/-!
# What the receiver can do

The version reports of a receiver tell its hardware generation and, from the eighth generation on,
whether it tracks Galileo.  Several reports only ever raise what is known.

## Main definitions

* `Generation`, `Generation.ofHardware` — the generations, in ascending order, and the one that a
  hardware slot names.
* `VersionReport.marksGalileo` — an extension names Galileo.
* `Capabilities`, `Capabilities.learn` — what is known, and taking up a report.
-/

namespace GnssLink

/-- The hardware generations.  An unknown receiver counts as the lowest. -/
inductive Generation where
  | unknown
  | ublox5
  | ublox6
  | ublox7
  | ublox8
  | ublox9
  | ublox10
  deriving DecidableEq, Repr

namespace Generation

/-- The place of a generation in the order. -/
def rank : Generation → Nat
  | unknown => 0
  | ublox5 => 5
  | ublox6 => 6
  | ublox7 => 7
  | ublox8 => 8
  | ublox9 => 9
  | ublox10 => 10

instance : LE Generation where
  le a b := a.rank ≤ b.rank

instance (a b : Generation) : Decidable (a ≤ b) :=
  inferInstanceAs (Decidable (a.rank ≤ b.rank))

instance : Max Generation where
  max a b := if a ≤ b then b else a

instance : Ord Generation where
  compare a b := compare a.rank b.rank

/-- The texts by which the generations name themselves. -/
def hardwareTexts : List (String × Generation) :=
  [("00040005", ublox5),
   ("00040007", ublox6),
   ("00070000", ublox7),
   ("00080000", ublox8),
   ("00190000", ublox9),
   ("000A0000", ublox10)]

/-- The generation whose text a hardware slot holds.  The whole text must agree. -/
def ofHardware (slot : Bytes) : Generation :=
  match hardwareTexts.find? fun entry => Bytes.ofAscii entry.1 == Bytes.untilNul slot with
  | some entry => entry.2
  | none => unknown

end Generation

namespace VersionReport

/-- The text that names Galileo in an extension. -/
def galileoMarker : Bytes :=
  Bytes.ofAscii "GAL"

/-- Some extension names Galileo. -/
def marksGalileo (v : VersionReport) : Bool :=
  v.extensionTexts.any (Bytes.contains galileoMarker)

/-- The software is of a major version that lists satellite systems: the digit at index 9 is above
two. -/
def listsSystems (v : VersionReport) : Bool :=
  match v.software[9]? with
  | some digit => 0x32 < digit
  | none => false

end VersionReport

/-- What is known of the receiver: its generation, and whether it tracks Galileo. -/
structure Capabilities where
  generation : Generation
  galileo : Bool
  deriving DecidableEq, Repr

namespace Capabilities

/-- Nothing is known. -/
def initial : Capabilities :=
  ⟨.unknown, false⟩

/-- Take up a report.  The generation never falls, and Galileo, once known, stays known. -/
def learn (c : Capabilities) (v : VersionReport) : Capabilities :=
  let generation := max c.generation (.ofHardware v.hardware)
  { generation
    galileo := c.galileo || (Generation.ublox8 ≤ generation && v.listsSystems && v.marksGalileo) }

end Capabilities

end GnssLink
