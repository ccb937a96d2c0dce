import GnssLink.Negotiation.Ceiling
import GnssLink.Negotiation.Plan
import GnssLink.Negotiation.Send

/-!
# Running a plan

The steps of a plan are sent one after the other, each after the reply that the one before it
needs.  A step that opens a group starts a new ceiling before it is sent.  A step whose command was
refused although it must be accepted stops the run for good.

## Main definitions

* `PlanRun` — the plan, the step that is sent or waited for, and the instant it was sent.
* `Verdict`, `WaitPolicy.judge` — what the reply so far means for a step.
* `PlanRun.poll` — go on as far as possible.
-/

namespace GnssLink

/-- What the reply so far means for a step: wait on, go on, or stop. -/
inductive Verdict where
  | wait
  | complete
  | rejected
  deriving DecidableEq, Repr

/-- What the reply so far, `waited` microseconds after the step was sent, means for it. -/
def WaitPolicy.judge (policy : WaitPolicy) (reply : ReplyState) (waited : Nat) : Verdict :=
  match reply, policy with
  | .accepted, _ => .complete
  | .refused, .accepted => .rejected
  | .refused, _ => .complete
  | _, .answeredOrTimeout =>
    if waited < Timing.commandWait.toMicros then .wait else .complete
  | _, _ => .wait

/-- A plan, the index of the step that is sent or waited for, and the instant it was sent. -/
structure PlanRun where
  plan : Plan
  cursor : Nat
  sentAt : Option Instant
  deriving DecidableEq, Repr

namespace PlanRun

/-- A run that has not begun. -/
def start (plan : Plan) : PlanRun :=
  ⟨plan, 0, none⟩

/-- All steps are done. -/
def isDone (r : PlanRun) : Bool :=
  r.plan.length ≤ r.cursor

variable {σ ε : Type} [SerialLine σ ε]

/-- Send the step at the cursor.  Behind the last step the run is finished. -/
def sendStep (r : PlanRun) (now : Instant) (tracker : ReplyTracker) (ceiling : Ceiling) (line : σ) :
    Except (NegotiationError ε) Progress × PlanRun × ReplyTracker × Ceiling × σ :=
  match r.plan[r.cursor]? with
  | none => (.ok .ready, r, tracker, ceiling, line)
  | some step =>
    let ceiling := if step.opensGroup then ceiling.arm now Timing.groupCeiling else ceiling
    match step.command.toCommand.send tracker line with
    | (.error e, tracker, line) => (.error (.send e), r, tracker, ceiling, line)
    | (.ok _, tracker, line) =>
      (.ok .pending, { r with sentAt := some now }, tracker, ceiling, line)

/-- Go on as far as the reply and the clock allow.  One call leaves at most one step and sends at
most one. -/
def poll (r : PlanRun) (now : Instant) (tracker : ReplyTracker) (ceiling : Ceiling) (line : σ) :
    Except (NegotiationError ε) Progress × PlanRun × ReplyTracker × Ceiling × σ :=
  match r.plan[r.cursor]?, r.sentAt with
  | some step, some sentAt =>
    match step.policy.judge tracker.state (now.since sentAt) with
    | .wait => (.ok .pending, r, tracker, ceiling, line)
    | .rejected => (.error (.rejected step.command.type), r, tracker, ceiling, line)
    | .complete =>
      { r with cursor := r.cursor + 1, sentAt := none }.sendStep now tracker ceiling line
  | _, _ => r.sendStep now tracker ceiling line

end PlanRun

end GnssLink
