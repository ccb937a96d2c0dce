import GnssLink.Message.Basic
import GnssLink.Proofs.Message.Reading

/-!
# The fields of the layouts

For each layout, the fields that it reads in a payload as long as its least length, each with its
offset.  That there are such fields says that no step of a layout leaves a payload of that length;
the bytes that no field names, and all bytes behind the least length, are passed over.

## Main definitions

* `PositionReport.ofPayload`, `FixReport.ofPayload`, … — the fields, by their offsets.

## Main results

* `PositionReport.reads`, `FixReport.reads`, … — the layout reads them.
-/

namespace GnssLink

variable {payload : Bytes}

/-! ### Position -/

/-- The fields of a report of the position. -/
def PositionReport.ofPayload (payload : Bytes) : PositionReport where
  timeOfWeek := payload.u32At 0
  longitude := payload.i32At 4
  latitude := payload.i32At 8
  height := payload.i32At 12
  heightAboveSea := payload.i32At 16
  horizontalAccuracy := payload.u32At 20
  verticalAccuracy := payload.u32At 24

theorem PositionReport.reads : layout.Reads ofPayload := by
  intro payload (hlong : 28 ≤ payload.length)
  refine ⟨⟨payload, 28, hlong⟩, ?_⟩
  simp (disch := omega) only [layout, Reader.ofBytes, Read.u32_bind, Read.i32_bind]
  rfl

/-! ### Fix status -/

/-- The fields of a report of the fix. -/
def FixReport.ofPayload (payload : Bytes) : FixReport where
  timeOfWeek := payload.u32At 0
  fix := payload.u8At 4
  flags := payload.u8At 5

theorem FixReport.reads : layout.Reads ofPayload := by
  intro payload (hlong : 16 ≤ payload.length)
  refine ⟨⟨payload, 6, by omega⟩, ?_⟩
  simp (disch := omega) only [layout, Reader.ofBytes, Read.u8_bind, Read.u32_bind]
  rfl

/-! ### Summary -/

/-- The fields of a summary. -/
def SummaryReport.ofPayload (payload : Bytes) : SummaryReport where
  timeOfWeek := payload.u32At 0
  fix := payload.u8At 10
  flags := payload.u8At 11
  dilution := payload.u16At 44
  satellites := payload.u8At 47

theorem SummaryReport.reads : layout.Reads ofPayload := by
  intro payload (hlong : 52 ≤ payload.length)
  refine ⟨⟨payload, 48, by omega⟩, ?_⟩
  simp (disch := omega) only [layout, Reader.ofBytes, Read.u8_bind, Read.u16_bind, Read.u32_bind,
    Read.seek_bind, Read.skip_bind]
  rfl

/-! ### Velocity -/

/-- The fields of a report of the velocity. -/
def VelocityReport.ofPayload (payload : Bytes) : VelocityReport where
  timeOfWeek := payload.u32At 0
  north := payload.i32At 4
  east := payload.i32At 8
  down := payload.i32At 12
  speed := payload.u32At 16
  groundSpeed := payload.u32At 20
  heading := payload.i32At 24
  speedAccuracy := payload.u32At 28
  headingAccuracy := payload.u32At 32

theorem VelocityReport.reads : layout.Reads ofPayload := by
  intro payload (hlong : 36 ≤ payload.length)
  refine ⟨⟨payload, 36, hlong⟩, ?_⟩
  simp (disch := omega) only [layout, Reader.ofBytes, Read.u32_bind, Read.i32_bind]
  rfl

/-! ### Time -/

/-- The fields of a report of the time. -/
def TimeReport.ofPayload (payload : Bytes) : TimeReport where
  timeOfWeek := payload.u32At 0
  accuracy := payload.u32At 4
  time := {
    year := payload.u16At 12
    month := payload.u8At 14
    day := payload.u8At 15
    hour := payload.u8At 16
    minute := payload.u8At 17
    second := payload.u8At 18
    nanosecond := payload.i32At 8
    validity := payload.u8At 19 }

theorem TimeReport.reads : layout.Reads ofPayload := by
  intro payload (hlong : 20 ≤ payload.length)
  refine ⟨⟨payload, 20, hlong⟩, ?_⟩
  simp (disch := omega) only [layout, Reader.ofBytes, Read.u8_bind, Read.u16_bind, Read.u32_bind,
    Read.i32_bind]
  rfl

/-! ### Position, velocity and time -/

/-- The fields of a report of position, velocity and time. -/
def PvtReport.ofPayload (payload : Bytes) : PvtReport where
  timeOfWeek := payload.u32At 0
  time := {
    year := payload.u16At 4
    month := payload.u8At 6
    day := payload.u8At 7
    hour := payload.u8At 8
    minute := payload.u8At 9
    second := payload.u8At 10
    nanosecond := payload.i32At 16
    validity := payload.u8At 11 }
  timeAccuracy := payload.u32At 12
  fix := payload.u8At 20
  flags := payload.u8At 21
  flags2 := payload.u8At 22
  satellites := payload.u8At 23
  longitude := payload.i32At 24
  latitude := payload.i32At 28
  height := payload.i32At 32
  heightAboveSea := payload.i32At 36
  horizontalAccuracy := payload.u32At 40
  verticalAccuracy := payload.u32At 44
  north := payload.i32At 48
  east := payload.i32At 52
  down := payload.i32At 56
  groundSpeed := payload.i32At 60
  heading := payload.i32At 64
  speedAccuracy := payload.u32At 68
  headingAccuracy := payload.u32At 72
  dilution := payload.u16At 76

theorem PvtReport.reads : layout.Reads ofPayload := by
  intro payload (hlong : 84 ≤ payload.length)
  refine ⟨⟨payload, 78, by omega⟩, ?_⟩
  simp (disch := omega) only [layout, Reader.ofBytes, Read.u8_bind, Read.u16_bind, Read.u32_bind,
    Read.i32_bind]
  rfl

/-! ### Version -/

/-- The areas of a version report. -/
def VersionReport.ofPayload (payload : Bytes) : VersionReport where
  software := payload.slice 0 30
  hardware := payload.slice 30 10
  extensions := payload.drop 40

theorem VersionReport.reads : layout.Reads ofPayload := by
  intro payload (hlong : 40 ≤ payload.length)
  refine ⟨⟨payload, payload.length, Nat.le_refl _⟩, ?_⟩
  simp (disch := omega) only [layout, softwareWidth, hardwareWidth, Reader.ofBytes, Read.take_bind,
    Read.rest_bind]
  rfl

/-! ### Replies -/

/-- The command that a reply names. -/
def Reply.ofPayload (payload : Bytes) : Reply where
  command := ⟨payload.u8At 0, payload.u8At 1⟩

theorem Reply.read_eq (hlong : 2 ≤ payload.length) :
    read (Reader.ofBytes payload) = .ok (ofPayload payload, ⟨payload, 2, hlong⟩) := by
  simp (disch := omega) only [read, Reader.ofBytes, Read.u8_bind]
  rfl

theorem Reply.reads_accepted : acceptedLayout.Reads ofPayload :=
  fun hlong => ⟨_, read_eq hlong⟩

theorem Reply.reads_refused : refusedLayout.Reads ofPayload :=
  fun hlong => ⟨_, read_eq hlong⟩

end GnssLink
