import GnssLink.Message.Layout

/-!
# Version reports

The receiver describes itself by texts in slots of fixed width, padded with NUL bytes: the version
of the software, the version of the hardware, and any number of extensions.  The last extension may
be cut short.

## Main definitions

* `VersionReport` — the three areas of the report, with its `layout`.
* `VersionReport.hardwareText`, `VersionReport.extensionTexts` — the texts in them.
-/

namespace GnssLink

/-- The slots of the software and of the hardware version, and the area of the extensions. -/
structure VersionReport where
  software : Bytes
  hardware : Bytes
  extensions : Bytes
  deriving DecidableEq, Repr

namespace VersionReport

/-- The width of the slot of the software version. -/
def softwareWidth : Nat := 30

/-- The width of the slot of the hardware version. -/
def hardwareWidth : Nat := 10

/-- The width of the slot of an extension. -/
def extensionWidth : Nat := 30

/-- The two version slots, and all that follows them. -/
def layout : Layout VersionReport where
  type := .monVer
  minLength := softwareWidth + hardwareWidth
  read := do
    let software ← Read.take softwareWidth
    let hardware ← Read.take hardwareWidth
    let extensions ← Read.rest
    return { software, hardware, extensions }

/-- The version of the hardware without its padding. -/
def hardwareText (v : VersionReport) : Bytes :=
  Bytes.untilNul v.hardware

/-- The texts of the extensions without their padding. -/
def extensionTexts (v : VersionReport) : List Bytes :=
  (Bytes.slots extensionWidth v.extensions).map Bytes.untilNul

end VersionReport

end GnssLink
