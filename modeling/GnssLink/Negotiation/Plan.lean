import GnssLink.Command.Configuration
import GnssLink.Negotiation.Capabilities
import GnssLink.Settings.Basic

/-!
# The configuration plan

What is sent to a receiver to configure it: a list of commands in groups, made from the settings and
from what is known of the receiver.  The groups are the navigation engine, the text sentences that
are switched off, the navigation reports with the period of the measurements, the augmentation
service, and, from the eighth generation on, the satellite systems.

Each step says which reply lets the next one be sent, and whether it opens a group.

## Main definitions

* `WaitPolicy` — the reply that a step needs.
* `Tier` — the receivers that are sent the same report rates.
* `ConfigCommand`, `PlanStep`, `Plan` — a command, a step, the list of steps.
* `Plan.make` — the plan for a receiver.
-/

namespace GnssLink

/-- What a step needs before the next one: a positive reply, any reply, or any reply or the end of
the wait. -/
inductive WaitPolicy where
  | accepted
  | answered
  | answeredOrTimeout
  deriving DecidableEq, Repr

/-! ### Tiers of receivers -/

/-- The receivers that are sent the same report rates: up to the sixth generation and unknown ones,
the seventh and eighth, and later ones. -/
inductive Tier where
  | legacy
  | mid
  | modern
  deriving DecidableEq, Repr

namespace Tier

/-- The tier of a generation. -/
def ofGeneration (g : Generation) : Tier :=
  if Generation.ublox9 ≤ g then modern
  else if Generation.ublox7 ≤ g then mid
  else legacy

/-- The reports of a tier with their rates.  An early receiver may not know the report of position,
velocity and time, so it may refuse to switch that one off. -/
def reportRates : Tier → List (MessageType × UInt8 × WaitPolicy)
  | legacy =>
    [(.navPosLlh, 1, .accepted), (.navStatus, 1, .accepted), (.navSol, 1, .accepted),
     (.navVelNed, 1, .accepted), (.navTimeUtc, 10, .accepted), (.navPvt, 0, .answered),
     (.navSvInfo, 0, .accepted)]
  | mid =>
    [(.navPosLlh, 0, .accepted), (.navStatus, 0, .accepted), (.navSol, 1, .accepted),
     (.navVelNed, 0, .accepted), (.navTimeUtc, 0, .accepted), (.navPvt, 1, .accepted),
     (.navSvInfo, 0, .accepted)]
  | modern =>
    [(.navPosLlh, 0, .accepted), (.navStatus, 0, .accepted), (.navVelNed, 0, .accepted),
     (.navTimeUtc, 0, .accepted), (.navPvt, 1, .accepted), (.navSat, 0, .accepted),
     (.navSig, 0, .accepted)]

/-- The period of the measurements in milliseconds. -/
def measurementPeriod : Tier → Provider → UInt16
  | mid, .ublox7Plus => 100
  | _, _ => 200

end Tier

/-! ### Commands of a plan -/

/-- The satellite systems to select: the augmentation service, and Galileo if the receiver tracks
it. -/
structure SystemChoice where
  sbas : SbasMode
  galileo : Option Bool
  deriving DecidableEq, Repr

/-- The block of the augmentation service, and the block of Galileo if there is one. -/
def SystemChoice.selection (c : SystemChoice) : SystemSelection where
  blocks := .sbas c.sbas :: c.galileo.toList.map .galileo
  length_le := by cases h : c.galileo <;> simp [maxGnssBlocks]

/-- A command of a plan. -/
inductive ConfigCommand where
  | navigationEngine (e : NavigationEngine)
  | messageRate (m : MessageRate)
  | measurementRate (m : MeasurementRate)
  | augmentation (a : Augmentation)
  | systems (c : SystemChoice)
  deriving DecidableEq, Repr

/-- The command as it is framed. -/
def ConfigCommand.toCommand : ConfigCommand → Command
  | .navigationEngine e => e.toCommand
  | .messageRate m => m.toCommand
  | .measurementRate m => m.toCommand
  | .augmentation a => a.toCommand
  | .systems c => c.selection.toCommand

/-- The message type of a command. -/
def ConfigCommand.type (c : ConfigCommand) : MessageType :=
  c.toCommand.type

/-- A command, the reply it needs, and whether it opens a group. -/
structure PlanStep where
  command : ConfigCommand
  policy : WaitPolicy
  opensGroup : Bool
  deriving DecidableEq, Repr

/-! ### Plans -/

/-- The steps of a configuration, in the order of sending. -/
abbrev Plan := List PlanStep

namespace Plan

/-- The steps of a group, of which the first one opens it. -/
def group : List (ConfigCommand × WaitPolicy) → Plan
  | [] => []
  | (command, policy) :: rest =>
    ⟨command, policy, true⟩ :: rest.map fun entry => ⟨entry.1, entry.2, false⟩

/-- The text sentences are switched off. -/
def sentencesOff : List (ConfigCommand × WaitPolicy) :=
  MessageType.nmeaSentences.map fun sentence => (.messageRate ⟨sentence, 0⟩, .accepted)

/-- The reports of a tier, and the period of the measurements. -/
def reports (tier : Tier) (period : UInt16) : List (ConfigCommand × WaitPolicy) :=
  (tier.reportRates.map fun (report, rate, policy) => (.messageRate ⟨report, rate⟩, policy))
    ++ [(.measurementRate (.ofPeriod period), .accepted)]

/-- The satellite systems are selected from the eighth generation on. -/
def systemChoice (settings : Settings) (known : Capabilities) : Option SystemChoice :=
  if Generation.ublox8 ≤ known.generation then
    some ⟨settings.sbasMode, if known.galileo then some settings.useGalileo else none⟩
  else
    none

/-- The groups of a plan. -/
def groups (settings : Settings) (known : Capabilities) :
    List (List (ConfigCommand × WaitPolicy)) :=
  let tier := Tier.ofGeneration known.generation
  [[(.navigationEngine ⟨settings.dynamicModel, settings.fixMode⟩, .accepted)],
   sentencesOff,
   reports tier (tier.measurementPeriod settings.provider),
   [(.augmentation ⟨settings.sbasMode⟩, .answeredOrTimeout)],
   (systemChoice settings known).toList.map fun choice => (.systems choice, .answeredOrTimeout)]

/-- The plan for a receiver. -/
def make (settings : Settings) (known : Capabilities) : Plan :=
  (groups settings known).flatMap group

end Plan

end GnssLink
