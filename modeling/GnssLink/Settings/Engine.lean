/-!
# Settings of the navigation engine

The platform model, the kind of fix and the augmentation service are choices of the user.  Each has
a code of its own in the configuration commands.  An augmentation service is a set of satellites,
named by their pseudorandom noise numbers; the commands carry the set as a mask.

## Main definitions

* `DynamicModel`, `FixMode`, `SbasMode` — the choices.
* `DynamicModel.code`, `FixMode.code` — their codes.
* `SbasMode.satellites`, `SbasMode.scanMask` — the satellites of a service and their mask.
-/

namespace GnssLink

/-- The motion that the engine expects of its platform. -/
inductive DynamicModel where
  | pedestrian
  | airborne1g
  | airborne4g
  deriving DecidableEq, Repr

/-- The code of a platform model. -/
def DynamicModel.code : DynamicModel → UInt8
  | pedestrian => 3
  | airborne1g => 6
  | airborne4g => 8

/-- The kind of fix that the engine may compute. -/
inductive FixMode where
  | only2d
  | only3d
  | auto
  deriving DecidableEq, Repr

/-- The code of a kind of fix. -/
def FixMode.code : FixMode → UInt8
  | only2d => 1
  | only3d => 2
  | auto => 3

/-- The regional augmentation service, any, or none. -/
inductive SbasMode where
  | auto
  | egnos
  | waas
  | msas
  | gagan
  | none
  deriving DecidableEq, Repr

namespace SbasMode

/-- The noise numbers of the satellites of a service.  An empty list restricts nothing: the receiver
looks for every satellite. -/
def satellites : SbasMode → List Nat
  | auto | none => []
  | egnos => [123, 126, 136]
  | waas => [131, 133, 138]
  | msas => [129, 137]
  | gagan => [127, 128]

/-- The noise number that stands at bit 0 of a mask. -/
def firstNumber : Nat := 120

/-- The mask of a service: one bit for each of its satellites. -/
def scanMask (mode : SbasMode) : UInt32 :=
  mode.satellites.foldl (fun mask number => mask ||| 1 <<< UInt32.ofNat (number - firstNumber)) 0

/-- Augmentation is used at all. -/
def isEnabled (mode : SbasMode) : Bool :=
  mode != none

end SbasMode

end GnssLink
