import GnssLink.Settings.BaudRate
import GnssLink.Settings.Engine

/-!
# Settings of the link

What the user decides about the link and the receiver.  The settings are read whenever the link is
established, also after a loss.

## Main definitions

* `Provider` — the flavour of the receiver.
* `Settings`, `Settings.default` — the choices and their usual values.
-/

namespace GnssLink

/-- The flavour of the receiver.  From the seventh generation on the engine may run at ten
solutions a second. -/
inductive Provider where
  | ublox
  | ublox7Plus
  deriving DecidableEq, Repr

/-- What the user decides: the line speed, whether the present speed has to be found out, whether
the receiver is configured at all, and the configuration itself. -/
structure Settings where
  baudRate : BaudRate
  autoBaud : Bool
  autoConfig : Bool
  dynamicModel : DynamicModel
  fixMode : FixMode
  sbasMode : SbasMode
  useGalileo : Bool
  provider : Provider
  deriving DecidableEq, Repr

namespace Settings

/-- The usual settings. -/
def default : Settings where
  baudRate := .b115200
  autoBaud := true
  autoConfig := true
  dynamicModel := .airborne1g
  fixMode := .auto
  sbasMode := .auto
  useGalileo := false
  provider := .ublox

end Settings

instance : Inhabited Settings :=
  ⟨Settings.default⟩

end GnssLink
