import GnssLink.Proofs.Link.Configuration
import GnssLink.Proofs.Link.Cooperation
import GnssLink.Proofs.Link.Expiry
import GnssLink.Proofs.Negotiation.PlanHistory

/-!
# Commands that need not be answered

The commands of the augmentation service and of the satellite systems need not be answered, and they
may be refused.  While one of them is outstanding, no call of the protocol task reports an exceeded
ceiling or a rejected command, whatever was received and whatever the clock shows: the session waits
for a reply for 200 ms, and then, or as soon as there is a reply, it goes on.

There are two timers, the wait for the reply and the ceiling of the group.  Each of these commands
opens its group, so both timers begin with the call that writes the command
(`Watch.Awaits`).  Thus the ceiling of 500 ms is not exceeded while the session waits; and a call
that goes on, however late it comes, starts another ceiling before the ceiling is checked.

## Main definitions

* `ConfigCommand.isOptional`, `Session.Outstanding` — the two commands, and one of them outstanding.
* `Watch`, `Watch.next`, `Watch.after` — a session with what is seen from outside.
* `Watch.Consistent` — the invariant.
* `ProtocolCall.Waits`, `ProtocolCall.Leaves` — what the next call comes to.
* `Watch.Tolerates` — what the next call does.

## Main results

* `Plan.of_isOptional` — such a command opens its group, and which one comes behind it.
* `WaitPolicy.judge_patient` — when such a command is left.
* `Watch.Consistent.after` — the invariant holds after all calls.
* `Watch.after_tolerates` — what the next call does, in every run.
-/

namespace GnssLink

/-! ### The commands in a plan -/

/-- The commands of the augmentation service and of the satellite systems. -/
def ConfigCommand.isOptional : ConfigCommand → Bool
  | .augmentation _ | .systems _ => true
  | .navigationEngine _ | .messageRate _ | .measurementRate _ => false

namespace Plan

variable {settings : Settings} {known : Capabilities} {step : PlanStep} {index : Nat}

/-- These are the steps that need not be answered. -/
theorem map_isOptional (settings : Settings) (known : Capabilities) :
    (make settings known).map (fun step => step.command.isOptional) =
      (make settings known).map fun step => decide (step.policy = .answeredOrTimeout) := by
  unfold make groups
  generalize systemChoice settings known = choice
  cases Tier.ofGeneration known.generation <;> cases choice <;> rfl

/-- Behind the reports come the augmentation service and, if they are selected, the satellite
systems. -/
theorem drop_make (settings : Settings) (known : Capabilities) :
    (make settings known).drop 15 =
      ⟨.augmentation ⟨settings.sbasMode⟩, .answeredOrTimeout, true⟩ ::
        (systemChoice settings known).toList.map fun choice =>
          ⟨.systems choice, .answeredOrTimeout, true⟩ := by
  unfold make groups
  generalize systemChoice settings known = choice
  cases Tier.ofGeneration known.generation <;> cases choice <;> rfl

theorem policy_of_isOptional (h : (make settings known)[index]? = some step)
    (hoptional : step.command.isOptional = true) : step.policy = .answeredOrTimeout := by
  have hsame := List.map_inj_left.1 (map_isOptional settings known) step (List.mem_of_getElem? h)
  rw [hoptional] at hsame
  exact of_decide_eq_true hsame.symm

/-- Such a step opens its group.  Only the satellite systems can come behind it, and then it is that
of the augmentation service. -/
theorem of_isOptional (h : (make settings known)[index]? = some step)
    (hoptional : step.command.isOptional = true) :
    step.opensGroup = true ∧ ∀ later, (make settings known)[index + 1]? = some later →
      (∃ a, step.command = .augmentation a) ∧ (∃ choice, later.command = .systems choice) ∧
        later.opensGroup = true := by
  have hplace := place_of_patient h (policy_of_isOptional h hoptional)
  constructor
  · refine (opensGroup_iff h).2 ?_
    rcases hplace with rfl | rfl <;> decide
  · intro later hlater
    rcases hplace with rfl | rfl
    · rw [← Nat.add_zero 15, ← List.getElem?_drop, drop_make] at h
      rw [← List.getElem?_drop, drop_make, List.getElem?_cons_succ, List.getElem?_map] at hlater
      cases h
      obtain ⟨choice, -, rfl⟩ := Option.map_eq_some_iff.1 hlater
      exact ⟨⟨_, rfl⟩, ⟨choice, rfl⟩, rfl⟩
    · have hlt := Nat.lt_of_lt_of_le (List.getElem?_eq_some_iff.1 hlater).1
        (length_le settings known)
      exact absurd hlt (by decide)

end Plan

/-- **A command that need not be answered** is waited for until a reply names its id, but no longer
than 200 ms; whatever the reply says, it is not rejected. -/
theorem WaitPolicy.judge_patient (id : UInt8) (heard : List Response) (waited : Nat) :
    answeredOrTimeout.judge ((Response.first id heard).getD .waiting) waited =
      if Response.first id heard = none ∧ waited < Milliseconds.toMicros 200 then .wait
      else .complete := by
  rcases Response.first_cases id heard with hfirst | hfirst | hfirst
  · simp only [hfirst, true_and]
    rfl
  · rw [hfirst]
    rfl
  · rw [hfirst]
    rfl

/-! ### Watching a session -/

/-- The replies in a byte string. -/
def Decoder.responses (d : Decoder) (bytes : Bytes) : List Response :=
  (d.replies bytes).map fun heard => ⟨heard.1 = .accepted, heard.2⟩

/-- A reply says one thing or the other. -/
theorem Decoder.verdict_of_mem_replies {d : Decoder} {bytes : Bytes} {heard : ReplyState × Reply}
    (h : heard ∈ d.replies bytes) : heard.1 = .accepted ∨ heard.1 = .refused := by
  obtain ⟨outcome, -, hreply⟩ := List.mem_filterMap.1 h
  cases outcome with
  | frame f =>
    simp only [Outcome.asReply] at hreply
    cases hparse : Message.parse f.type f.payload with
    | ok m =>
      rw [hparse] at hreply
      cases m with
      | accepted reply => exact .inl (congrArg Prod.fst (Option.some.inj hreply)).symm
      | refused reply => exact .inr (congrArg Prod.fst (Option.some.inj hreply)).symm
      | _ => cases hreply
    | error e =>
      rw [hparse] at hreply
      cases hreply
  | pending | skipped | rejected e => cases hreply

/-- To hear the replies is to take them. -/
theorem Decoder.foldl_hear_replies (d : Decoder) (bytes : Bytes) (t : ReplyTracker) :
    (d.replies bytes).foldl ReplyTracker.hear t =
      (d.responses bytes).foldl ReplyTracker.take t := by
  rw [responses, List.foldl_map]
  refine List.foldl_ext _ _ _ fun t heard hmem => ?_
  rw [ReplyTracker.take_eq_settle, ReplyTracker.hear, Response.verdict]
  rcases verdict_of_mem_replies hmem with hverdict | hverdict <;> rw [hverdict] <;> rfl

/-- A session with what is seen from outside: the instant at which an operation was last performed,
and all replies received since. -/
structure Watch (σ ε : Type) where
  moment : Moment σ ε
  performedAt : Option Instant
  heard : List Response

/-- One of the two commands was sent at an instant, and the session has not gone on yet. -/
structure Session.Outstanding (s : Session) (run : PlanRun) (step : PlanStep) (sentAt : Instant) :
    Prop where
  phase : s.phase = .configuration run
  at_cursor : run.plan[run.cursor]? = some step
  sent : run.sentAt = some sentAt
  optional : step.command.isOptional = true

variable {σ ε : Type}

namespace Watch

/-- Before the first call. -/
def start (settings : Settings) (line : σ) : Watch σ ε :=
  ⟨.start settings line, none, []⟩

/-- The first reply to a step since an operation was last performed. -/
def firstReply (w : Watch σ ε) (step : PlanStep) : Option ReplyState :=
  Response.first step.command.type.id w.heard

/-- The reply to a step is waited for.  Its command was performed last, and the tracker has followed
all replies since.  If the step opens a group, the ceiling began when the command was sent. -/
structure Awaits (w : Watch σ ε) (run : PlanRun) (step : PlanStep) (sentAt : Instant) : Prop where
  at_cursor : run.plan[run.cursor]? = some step
  performed : w.moment.line.performed.getLast? = some step.call
  performedAt : w.performedAt = some sentAt
  tracker : w.moment.session.tracker =
    ⟨(w.firstReply step).getD .waiting, step.command.type.id⟩
  ceiling : step.opensGroup = true →
    w.moment.session.ceiling = ⟨some sentAt, Timing.groupCeiling⟩

/-- What a session has to do with what is seen from outside. -/
structure Consistent (settings : Settings) (w : Watch σ ε) : Prop where
  timed : w.moment.session.Timed settings
  awaits : ∀ run sentAt, w.moment.session.phase = .configuration run → run.sentAt = some sentAt →
    ∃ step, w.Awaits run step sentAt

theorem consistent_start (settings : Settings) (line : σ) :
    (start settings line : Watch σ ε).Consistent settings :=
  ⟨Session.timed_start settings, fun _ _ hphase => nomatch hphase⟩

variable [SerialLine σ ε] {settings : Settings} {w : Watch σ ε} {now : Instant} {world : σ → σ}

/-- After another call. -/
def next (settings : Settings) (w : Watch σ ε) : TaskCall σ → Watch σ ε
  | .receive world =>
    { w with
      moment := w.moment.next settings (.receive world)
      heard := w.heard ++
        w.moment.session.decoder.responses (SerialLine.drained (w.moment.line.alter world)) }
  | .protocol now world =>
    let moment := w.moment.next settings (.protocol now world)
    if moment.line.performed = w.moment.line.performed then { w with moment }
    else ⟨moment, some now, []⟩

/-- After several calls.  A failure does not end them. -/
def after (settings : Settings) (w : Watch σ ε) (calls : List (TaskCall σ)) : Watch σ ε :=
  calls.foldl (next settings) w

/-! ### The invariant -/

/-- Receiving lets the tracker take the replies. -/
theorem Consistent.receive (h : w.Consistent settings) (world : σ → σ) :
    (w.next settings (.receive world)).Consistent settings := by
  rcases hreceive : w.moment.session.receive (w.moment.line.alter world) with ⟨result, s', r'⟩
  have hnext : w.moment.next settings (.receive world) = ⟨result.map fun _ => none, s', r'⟩ := by
    simp only [Moment.next, hreceive]
  have hphase := Session.phase_receive hreceive
  have hceiling := Session.ceiling_receive hreceive
  simp only [next, hnext]
  refine ⟨h.timed.congr hphase hceiling, fun run sentAt hrun hsent => ?_⟩
  obtain ⟨step, hawaits⟩ := h.awaits run sentAt (hphase.symm.trans hrun) hsent
  refine ⟨step, hawaits.at_cursor, ?_, hawaits.performedAt, ?_, fun hopens => ?_⟩
  · rw [Recorder.performed_congr (Session.calls_receive hreceive)]
    exact hawaits.performed
  · rw [Session.tracker_receive hreceive, Decoder.foldl_hear_replies, hawaits.tracker]
    exact ReplyTracker.foldl_take_first _ _ _
  · exact hceiling.trans (hawaits.ceiling hopens)

/-- A call that performs nothing leaves alone what is seen from outside. -/
theorem next_of_same
    (h : (w.moment.next settings (.protocol now world)).line.performed =
      w.moment.line.performed) :
    w.next settings (.protocol now world) =
      { w with moment := w.moment.next settings (.protocol now world) } :=
  if_pos h

/-- A call that performs a command last dates it. -/
theorem next_of_last {earlier : List LineCall} {call : LineCall}
    (h : (w.moment.next settings (.protocol now world)).line.performed =
      w.moment.line.performed ++ (earlier ++ [call])) :
    w.next settings (.protocol now world) =
      ⟨w.moment.next settings (.protocol now world), some now, []⟩ := by
  refine if_neg fun hsame => ?_
  rw [hsame, List.self_eq_append_right] at h
  exact List.append_ne_nil_of_right_ne_nil earlier (List.cons_ne_nil call []) h

/-- A call of the protocol task waits on, or it sends a command, which begins the wait and the
ceiling of the group at once. -/
theorem Consistent.protocol (h : w.Consistent settings) (now : Instant) (world : σ → σ) :
    (w.next settings (.protocol now world)).Consistent settings := by
  obtain ⟨advanced, hmoves, -⟩ := Moment.protocolCall_state settings w.moment now world rfl
  have hmoment : (w.next settings (.protocol now world)).moment =
      w.moment.next settings (.protocol now world) := by
    simp only [next]
    split <;> rfl
  constructor
  case timed =>
    rw [hmoment]
    exact hmoves.timed (h.timed.start now)
  case awaits =>
    intro run sentAt hrun hsent
    rw [hmoment] at hrun
    cases hmoves with
    | aligns _ _ _ after | beginsQuery _ _ _ after | asks _ _ _ after | runs _ after
      | idles _ after | takes _ _ after => cases after.symm.trans hrun
    | waits run' before after kept idle waiting unchanged =>
      cases after.symm.trans hrun
      obtain ⟨step, hawaits⟩ := h.awaits run sentAt before hsent
      have hperformed : (w.moment.next settings (.protocol now world)).line.performed =
          w.moment.line.performed :=
        (congrArg Recorder.performed idle).trans rfl
      rw [next_of_same hperformed]
      refine ⟨step, hawaits.at_cursor, ?_, hawaits.performedAt,
        unchanged.trans hawaits.tracker, fun hopens => kept.trans ?_⟩
      · rw [hperformed]
        exact hawaits.performed
      · rw [hawaits.ceiling hopens]
        rfl
    | sends reached run' step tracker line1 sent reaches at_cursor send after plan cursor waiting
        ceiling instant =>
      cases after.symm.trans hrun
      -- Only a command that was written leaves an instant behind, and it is the last thing that the
      -- call performs; so the call dates the wait, the ceiling of the group and the watch alike.
      obtain ⟨rfl, rfl⟩ := instant sentAt hsent
      obtain ⟨earlier, hearlier⟩ := reaches.calls_isPrefix
      obtain ⟨htracker, ⟨-, hcalls⟩ | ⟨e, herror, -⟩⟩ := step.command.fits.send_cases send
      · have hperformed : (w.moment.next settings (.protocol sentAt world)).line.performed =
            w.moment.line.performed ++ (earlier.filter LineCall.ok ++ [step.call]) := by
          rw [← List.append_assoc]
          refine (Recorder.performed_of_ok hcalls rfl).trans (congrArg (· ++ [step.call]) ?_)
          exact Recorder.performed_of_calls hearlier.symm
        rw [next_of_last hperformed]
        refine ⟨step, by rw [plan, cursor]; exact at_cursor, ?_, rfl, htracker,
          fun hopens => ceiling.trans (if_pos hopens)⟩
        rw [hperformed, ← List.append_assoc]
        exact List.getLast?_concat
      · cases herror

theorem Consistent.next (h : w.Consistent settings) (call : TaskCall σ) :
    (w.next settings call).Consistent settings := by
  cases call with
  | receive world => exact h.receive world
  | protocol now world => exact h.protocol now world

/-- **The invariant holds after all calls.** -/
theorem Consistent.after (h : w.Consistent settings) (calls : List (TaskCall σ)) :
    (w.after settings calls).Consistent settings := by
  induction calls generalizing w with
  | nil => exact h
  | cons call calls ih => exact ih (h.next call)

end Watch

/-! ### What the next call does -/

namespace ProtocolCall

/-- The call succeeds, attempts nothing, and leaves the session as it is. -/
structure Waits (c : ProtocolCall σ ε) : Prop where
  result : c.after.result = .ok none
  session : c.after.session = c.before.session
  calls : c.after.line.calls = c.before.line.calls

/-- The call leaves the step at the cursor of a run.  It sends the next command, or it fails to
write it, or behind the last step the session runs. -/
inductive Leaves (run : PlanRun) (c : ProtocolCall σ ε) : Prop
  | sends (later : PlanStep) (behind : run.plan[run.cursor + 1]? = some later)
      (result : c.after.result = .ok none)
      (phase : c.after.session.phase = .configuration ⟨run.plan, run.cursor + 1, some c.now⟩)
      (calls : c.after.line.calls = c.before.line.calls ++ [later.call])
  | fails (later : PlanStep) (behind : run.plan[run.cursor + 1]? = some later) (e : ε)
      (result : c.after.result = .error (.negotiation (.send (.send e))))
      (phase : c.after.session.phase = .configuration ⟨run.plan, run.cursor + 1, none⟩)
      (calls : c.after.line.calls =
        c.before.line.calls ++ [.write later.command.toCommand.transmitted false])
  | runs (behind : run.plan[run.cursor + 1]? = none) (result : c.after.result = .ok none)
      (phase : c.after.session.phase = .running)
      (calls : c.after.line.calls = c.before.line.calls)

/-- Leaving a step fails only at the write of the next command. -/
theorem Leaves.fails_of_error {run : PlanRun} {c : ProtocolCall σ ε} (h : c.Leaves run)
    {e : LinkError ε} (herror : c.after.result = .error e) :
    ∃ later fault, run.plan[run.cursor + 1]? = some later ∧
      e = .negotiation (.send (.send fault)) ∧ c.after.line.calls =
        c.before.line.calls ++ [.write later.command.toCommand.transmitted false] := by
  cases h with
  | sends _ _ result | runs _ result => cases result.symm.trans herror
  | fails later behind fault result _ calls =>
    cases result.symm.trans herror
    exact ⟨later, fault, behind, rfl, calls⟩

end ProtocolCall

namespace Watch

/-- What a call does while one of the two commands is outstanding. -/
structure Tolerates (w : Watch σ ε) (run : PlanRun) (step : PlanStep) (c : ProtocolCall σ ε) :
    Prop where
  /-- The command was performed last.  Without a reply to it the call waits, as long as less than
  200 ms have passed since; otherwise it goes on. -/
  goesOn : w.moment.line.performed.getLast? = some step.call ∧
    ∃ writtenAt, w.performedAt = some writtenAt ∧
      if w.firstReply step = none ∧ c.now.since writtenAt < Milliseconds.toMicros 200 then c.Waits
      else c.Leaves run
  /-- Only the satellite systems come behind, and only behind the augmentation service. -/
  behind : ∀ later, run.plan[run.cursor + 1]? = some later →
    (∃ a, step.command = .augmentation a) ∧ ∃ choice, later.command = .systems choice
  /-- No ceiling is exceeded. -/
  inTime : ∀ limit, c.after.result ≠ .error (.ceilingExceeded limit)
  /-- No command is rejected. -/
  notRejected : ∀ type, c.after.result ≠ .error (.negotiation (.rejected type))
  /-- A call fails only if the command of the satellite systems cannot be written. -/
  fails : ∀ e, c.after.result = .error e → ∃ fault choice,
    e = .negotiation (.send (.send fault)) ∧ c.after.line.calls = c.before.line.calls ++
      [.write (ConfigCommand.systems choice).toCommand.transmitted false]

variable [SerialLine σ ε] {settings : Settings} {w : Watch σ ε} {run : PlanRun} {step : PlanStep}
  {sentAt : Instant}

namespace Awaits

variable {now : Instant} {world : σ → σ} {c : ProtocolCall σ ε}

/-- The ceiling runs, so a call goes on with the configuration, and the ceiling is checked behind
that. -/
theorem configures (hawaits : w.Awaits run step sentAt)
    (hphase : w.moment.session.phase = .configuration run) (hopens : step.opensGroup = true)
    (hc : c = w.moment.protocolCall settings now world) :
    ∃ advanced, w.moment.session.configure run now (w.moment.line.alter world) =
        (advanced, c.after.session, c.after.line) ∧
      Session.Checked now c.after.session.ceiling advanced c.after.result := by
  obtain ⟨advanced, hadvance, hchecked⟩ := Moment.protocolCall_advance hc
  have hrunning : w.moment.session.ceiling.start now = w.moment.session.ceiling := by
    rw [hawaits.ceiling hopens]
    rfl
  simp only [hrunning, Session.advance, hphase] at hadvance
  exact ⟨advanced, hadvance, hchecked⟩

/-- **A call that waits is in time**, for the ceiling began when the command was sent and is longer
than the wait. -/
theorem waits (hawaits : w.Awaits run step sentAt)
    (hphase : w.moment.session.phase = .configuration run) (hopens : step.opensGroup = true)
    (hsent : run.sentAt = some sentAt)
    (hjudge : step.policy.judge w.moment.session.tracker.state (now.since sentAt) = .wait)
    (hwait : now.since sentAt < Milliseconds.toMicros 200)
    (hc : c = w.moment.protocolCall settings now world) : c.Waits := by
  obtain ⟨advanced, hconfigure, hchecked⟩ := hawaits.configures hphase hopens hc
  rw [Session.configure_waiting hawaits.at_cursor hsent hjudge, ← hphase] at hconfigure
  simp only [Prod.mk.injEq] at hconfigure
  obtain ⟨rfl, hsession, hline⟩ := hconfigure
  have hearly : c.after.session.ceiling.expired now = false := by
    rw [← hsession, hawaits.ceiling hopens]
    refine Bool.eq_false_iff.2 fun hexpired => ?_
    have hlate : Timing.groupCeiling.toMicros < now.since sentAt :=
      (Ceiling.expired_iff now rfl).1 hexpired
    exact absurd (Nat.lt_trans hlate hwait) (by decide)
  have hbefore : c.before = w.moment := by
    rw [hc]
    rfl
  refine ⟨hchecked.of_early rfl hearly, ?_, ?_⟩
  · rw [← hsession, hbefore]
  · rw [← hline, hbefore]
    rfl

/-- **A call that goes on is in time, however late it comes**: either the session runs or the next
command opens its group, and both start a ceiling. -/
theorem leaves (hawaits : w.Awaits run step sentAt)
    (hphase : w.moment.session.phase = .configuration run) (hopens : step.opensGroup = true)
    (hsent : run.sentAt = some sentAt)
    (hjudge : step.policy.judge w.moment.session.tracker.state (now.since sentAt) = .complete)
    (hlater : ∀ later, run.plan[run.cursor + 1]? = some later → later.opensGroup = true)
    (hc : c = w.moment.protocolCall settings now world) : c.Leaves run := by
  obtain ⟨advanced, hconfigure, hchecked⟩ := hawaits.configures hphase hopens hc
  obtain ⟨hnow, hcalls⟩ : c.now = now ∧
      c.before.line.calls = (w.moment.line.alter world).calls := by
    rw [hc]
    exact ⟨rfl, rfl⟩
  rcases Session.configure_leaving hawaits.at_cursor hsent hjudge hconfigure with
    ⟨hend, rfl, hrunning, harmed, hsame⟩ |
    ⟨later, hnext, -, harmed, ⟨rfl, hafter, hwritten⟩ | ⟨e, rfl, hafter, hwritten⟩⟩
  · rw [harmed] at hchecked
    exact .runs hend (hchecked.of_early rfl (Ceiling.expired_of_now now _)) hrunning
      (hsame.trans hcalls.symm)
  · rw [harmed (hlater later hnext)] at hchecked
    exact .sends later hnext (hchecked.of_early rfl (Ceiling.expired_of_now now _))
      (hnow ▸ hafter) (hcalls ▸ hwritten)
  · exact .fails later hnext e (hchecked.of_error rfl) hafter (hcalls ▸ hwritten)

end Awaits

/-- A consistent session tolerates whatever comes. -/
theorem Consistent.tolerates (h : w.Consistent settings)
    (hout : w.moment.session.Outstanding run step sentAt) (now : Instant) (world : σ → σ) :
    w.Tolerates run step (w.moment.protocolCall settings now world) := by
  obtain ⟨step', hawaits⟩ := h.awaits run sentAt hout.phase hout.sent
  obtain rfl : step = step' := Option.some.inj (hout.at_cursor.symm.trans hawaits.at_cursor)
  obtain ⟨known, hplan⟩ := h.timed.plan run hout.phase
  have hstep : (Plan.make settings known)[run.cursor]? = some step := hplan ▸ hout.at_cursor
  have hopens := (Plan.of_isOptional hstep hout.optional).1
  have hbehind : ∀ later, run.plan[run.cursor + 1]? = some later →
      (∃ a, step.command = .augmentation a) ∧ (∃ choice, later.command = .systems choice) ∧
        later.opensGroup = true := by
    rw [hplan]
    exact (Plan.of_isOptional hstep hout.optional).2
  have hjudge : step.policy.judge w.moment.session.tracker.state (now.since sentAt) =
      if w.firstReply step = none ∧ now.since sentAt < Milliseconds.toMicros 200 then .wait
      else .complete := by
    rw [hawaits.tracker, Plan.policy_of_isOptional hstep hout.optional]
    exact WaitPolicy.judge_patient _ _ _
  have hgoesOn : if w.firstReply step = none ∧ now.since sentAt < Milliseconds.toMicros 200 then
      (w.moment.protocolCall settings now world).Waits
      else (w.moment.protocolCall settings now world).Leaves run := by
    split
    · next hwait =>
      exact hawaits.waits hout.phase hopens hout.sent (hjudge.trans (if_pos hwait)) hwait.2 rfl
    · next hover =>
      exact hawaits.leaves hout.phase hopens hout.sent (hjudge.trans (if_neg hover))
        (fun later hlater => (hbehind later hlater).2.2) rfl
  have hfails : ∀ e, (w.moment.protocolCall settings now world).after.result = .error e →
      ∃ fault choice, e = .negotiation (.send (.send fault)) ∧
        (w.moment.protocolCall settings now world).after.line.calls = w.moment.line.calls ++
          [.write (ConfigCommand.systems choice).toCommand.transmitted false] := by
    intro e herror
    split at hgoesOn
    · cases hgoesOn.result.symm.trans herror
    · obtain ⟨later, fault, hlater, rfl, hcalls⟩ := hgoesOn.fails_of_error herror
      obtain ⟨-, ⟨choice, hchoice⟩, -⟩ := hbehind later hlater
      rw [hchoice] at hcalls
      exact ⟨fault, choice, rfl, hcalls⟩
  constructor
  case goesOn => exact ⟨hawaits.performed, sentAt, hawaits.performedAt, hgoesOn⟩
  case behind =>
    intro later hlater
    obtain ⟨haugmentation, hsystems, -⟩ := hbehind later hlater
    exact ⟨haugmentation, hsystems⟩
  case inTime =>
    intro limit herror
    obtain ⟨fault, choice, hsend, -⟩ := hfails _ herror
    cases hsend
  case notRejected =>
    intro type herror
    obtain ⟨fault, choice, hsend, -⟩ := hfails _ herror
    cases hsend
  case fails => exact hfails

/-- **While the command of the augmentation service or of the satellite systems is outstanding,**
in every run, whatever was received and whatever the clock shows, the next call of the protocol task
exceeds no ceiling and rejects no command.  It waits for a reply for 200 ms, and then it goes on. -/
theorem after_tolerates (settings : Settings) (line : σ) (calls : List (TaskCall σ))
    (hout : ((start settings line : Watch σ ε).after settings calls).moment.session.Outstanding run
      step sentAt) (now : Instant) (world : σ → σ) :
    ((start settings line : Watch σ ε).after settings calls).Tolerates run step
      (((start settings line : Watch σ ε).after settings calls).moment.protocolCall settings now
        world) :=
  ((consistent_start settings line).after calls).tolerates hout now world

/-! ### A module that is silent about the augmentation service

A module of the eighth generation reports its version and accepts the steps up to the augmentation
service; nothing more is received, and the next call comes ten seconds late. -/

/-- The plan for the module. -/
def silentPlan : Plan :=
  Plan.make Link.knownSpeed ⟨.ublox8, false⟩

/-- A frame is received, and the protocol task is called. -/
def callsUpon (f : Frame) : List (TaskCall ScriptedLine) :=
  [.receive fun line => { line with queue := f.wire }, .protocol ⟨0⟩ id]

/-- The calls up to the one that sends the command of the augmentation service. -/
def augmentationSent : List (TaskCall ScriptedLine) :=
  .protocol ⟨0⟩ id :: (Link.versionReport :: (silentPlan.take 15).map fun step =>
    ⟨.ackAck, [step.command.type.cls, step.command.type.id]⟩).flatMap callsUpon

/-- The session behind these calls. -/
def silentWatch : Watch ScriptedLine LineFault :=
  (start Link.knownSpeed .idle).after Link.knownSpeed augmentationSent

/-- The late call. -/
def lateCall : ProtocolCall ScriptedLine LineFault :=
  silentWatch.moment.protocolCall Link.knownSpeed ⟨10000000⟩ id

/-- It sends the command of the satellite systems. -/
theorem after_tolerates_silence :
    silentWatch.moment.session.Outstanding ⟨silentPlan, 15, some ⟨0⟩⟩
      ⟨.augmentation ⟨.auto⟩, .answeredOrTimeout, true⟩ ⟨0⟩ ∧
    silentWatch.Tolerates ⟨silentPlan, 15, some ⟨0⟩⟩
      ⟨.augmentation ⟨.auto⟩, .answeredOrTimeout, true⟩ lateCall ∧
    lateCall.after.session.phase = .configuration ⟨silentPlan, 16, some ⟨10000000⟩⟩ := by
  have hphase : silentWatch.moment.session.phase =
      .configuration ⟨silentPlan, 15, some ⟨0⟩⟩ := by
    decide +kernel
  have hout : silentWatch.moment.session.Outstanding ⟨silentPlan, 15, some ⟨0⟩⟩
      ⟨.augmentation ⟨.auto⟩, .answeredOrTimeout, true⟩ ⟨0⟩ :=
    ⟨hphase, rfl, rfl, rfl⟩
  have hsends : lateCall.after.session.phase =
      .configuration ⟨silentPlan, 16, some ⟨10000000⟩⟩ := by
    decide +kernel
  refine ⟨hout, ?_, hsends⟩
  rw [silentWatch] at hout
  rw [lateCall, silentWatch]
  exact after_tolerates _ _ _ hout _ _

end Watch

end GnssLink
