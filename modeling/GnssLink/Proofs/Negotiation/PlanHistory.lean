import GnssLink.Proofs.Negotiation.CommandIds
import GnssLink.Proofs.Negotiation.FirstReply

/-!
# The history of a plan

A plan is run over a line that may fail at any operation, with any clock, and replies arrive at any
time between the polls.  After a failure the run is polled again like after a wait.  Still the
commands are written in the order of the plan, each once; and a step is left, and the run given up,
only because of the first reply that names the id of the command that was written for this very
step, or because the wait for one that need not be answered is over.

What the plan has to do with the line and the tracker is one invariant (`PlanMoment.Consistent`):
what was performed and what remains make up the plan, and while a reply is waited for, the tracker
has followed all replies since the command of the step at the cursor was written.

## Main definitions

* `PlanMoment`, `PlanMoment.next`, `PlanMoment.after` — a run with all that takes part in it.
* `PlanMoment.Turn` — what a poll can come to.
* `PlanMoment.Consistent` — the invariant.
* `PlanMoment.Obeys` — what the next poll has to do with the plan.

## Main results

* `PlanMoment.Consistent.turn` — every poll comes to one of these.
* `PlanMoment.Consistent.after` — the invariant holds after all events.
* `PlanMoment.after_obeys` — what every poll does.
-/

namespace GnssLink

/-! ### Replies and policies -/

/-- A step is left because of the first reply, or because the wait for one is over. -/
theorem WaitPolicy.of_judge_complete {policy : WaitPolicy} {id : UInt8} {heard : List Response}
    {waited : Nat}
    (h : policy.judge ((Response.first id heard).getD .waiting) waited = .complete) :
    Response.first id heard = some .accepted ∨
      (Response.first id heard = some .refused ∧ policy ≠ .accepted) ∨
      (policy = .answeredOrTimeout ∧ Timing.commandWait.toMicros ≤ waited) := by
  rcases Response.first_cases id heard with hnone | haccepted | hrefused
  · rw [hnone] at h
    exact .inr (.inr (of_judge_waiting h))
  · exact .inl haccepted
  · refine .inr (.inl ⟨hrefused, ?_⟩)
    rintro rfl
    rw [hrefused] at h
    cases h

/-- The run is given up if and only if the command was refused although it must be accepted. -/
theorem WaitPolicy.judge_rejected_iff {policy : WaitPolicy} {id : UInt8} {heard : List Response}
    {waited : Nat} :
    policy.judge ((Response.first id heard).getD .waiting) waited = .rejected ↔
      policy = .accepted ∧ Response.first id heard = some .refused := by
  constructor
  · intro h
    have hrefused := of_judge_rejected h
    rcases Response.first_cases id heard with hfirst | hfirst | hfirst
    · rw [hfirst] at hrefused
      cases hrefused
    · rw [hfirst] at hrefused
      cases hrefused
    · rw [hfirst] at h
      cases policy with
      | accepted => exact ⟨rfl, hfirst⟩
      | answered | answeredOrTimeout => cases h
  · rintro ⟨rfl, hfirst⟩
    rw [hfirst]
    rfl

/-! ### Moments of a run -/

/-- A run with all that takes part in it, and the result of the last poll.  The last two entries are
seen from outside: the instant at which the last command was written, and all replies since. -/
structure PlanMoment (σ ε : Type) where
  run : PlanRun
  tracker : ReplyTracker
  ceiling : Ceiling
  line : Recorder σ
  result : Option (Except (NegotiationError ε) Progress)
  writtenAt : Option Instant
  heard : List Response

/-- What happens to a run: a reply arrives, or the run is polled, after the world acted on the
line. -/
inductive PlanEvent (σ : Type) where
  | reply (response : Response)
  | poll (now : Instant) (world : σ → σ)

variable {σ ε : Type}

namespace PlanMoment

/-- Before the first event. -/
def start (plan : Plan) (tracker : ReplyTracker) (ceiling : Ceiling) (line : σ) :
    PlanMoment σ ε :=
  ⟨.start plan, tracker, ceiling, .ofLine line, none, none, []⟩

/-- The command of the step at the cursor was written, and it was the last one. -/
def Wrote (plan : Plan) (m : PlanMoment σ ε) (step : PlanStep) : Prop :=
  plan[m.run.cursor]? = some step ∧ m.line.performed.length = m.run.cursor + 1 ∧
    m.line.performed.getLast? = some step.call

/-- The first reply to a step since the last command was written. -/
def firstReply (m : PlanMoment σ ε) (step : PlanStep) : Option ReplyState :=
  Response.first step.command.type.id m.heard

/-! ### What a poll can come to -/

/-- The run from which a poll sends: the step at the cursor was not sent yet, or it was left just
now. -/
def Leaves (m : PlanMoment σ ε) (now : Instant) (run : PlanRun) : Prop :=
  (run = m.run ∧ m.run.sentAt = none) ∨
  ∃ step sentAt, m.run.plan[m.run.cursor]? = some step ∧ m.run.sentAt = some sentAt ∧
    step.policy.judge m.tracker.state (now.since sentAt) = .complete ∧
    run = { m.run with cursor := m.run.cursor + 1, sentAt := none }

/-- What a poll can come to.  It waits for a reply, it gives up, it finds nothing to send, it writes
a command, or it fails to. -/
inductive Turn (m : PlanMoment σ ε) (now : Instant) (m' : PlanMoment σ ε) : Prop
  | waits (step : PlanStep) (sentAt : Instant)
      (at_cursor : m.run.plan[m.run.cursor]? = some step) (sent : m.run.sentAt = some sentAt)
      (verdict : step.policy.judge m.tracker.state (now.since sentAt) = .wait)
      (calls : m'.line.calls = m.line.calls)
      (same : m' = { m with line := m'.line, result := some (.ok .pending) })
  | givesUp (step : PlanStep) (sentAt : Instant)
      (at_cursor : m.run.plan[m.run.cursor]? = some step) (sent : m.run.sentAt = some sentAt)
      (verdict : step.policy.judge m.tracker.state (now.since sentAt) = .rejected)
      (calls : m'.line.calls = m.line.calls)
      (same : m' =
        { m with line := m'.line, result := some (.error (.rejected step.command.type)) })
  | ends (run : PlanRun) (leaves : m.Leaves now run) (behind : run.plan[run.cursor]? = none)
      (calls : m'.line.calls = m.line.calls)
      (same : m' = { m with run, line := m'.line, result := some (.ok .ready) })
  | writes (run : PlanRun) (leaves : m.Leaves now run) (step : PlanStep)
      (at_cursor : run.plan[run.cursor]? = some step)
      (calls : m'.line.calls = m.line.calls ++ [step.call])
      (same : m' = ⟨{ run with sentAt := some now }, m.tracker.begin step.command.type.id,
        m'.ceiling, m'.line, some (.ok .pending), some now, []⟩)
  | fails (run : PlanRun) (leaves : m.Leaves now run) (step : PlanStep)
      (at_cursor : run.plan[run.cursor]? = some step) (e : SendError ε)
      (calls : m'.line.calls =
        m.line.calls ++ [.write step.command.toCommand.transmitted false])
      (same : m' = ⟨run, m.tracker.begin step.command.type.id, m'.ceiling, m'.line,
        some (.error (.send e)), m.writtenAt, m.heard⟩)

variable {plan : Plan} {m m' : PlanMoment σ ε} {now : Instant}

/-! ### The invariant -/

/-- What a run has to do with the line and the tracker.  What was performed and what remains make up
the plan.  While a reply is waited for, the command of the step at the cursor was written last, and
the tracker has followed all replies since. -/
structure Consistent (plan : Plan) (m : PlanMoment σ ε) : Prop where
  plan_eq : m.run.plan = plan
  cursor : m.run.cursor ≤ plan.length
  performed : m.line.performed ++ m.run.remaining = plan.map PlanStep.call
  waiting : ∀ sentAt, m.run.sentAt = some sentAt → ∃ step, m.Wrote plan step ∧
    m.writtenAt = some sentAt ∧
    m.tracker = ⟨(m.firstReply step).getD .waiting, step.command.type.id⟩

theorem consistent_start (plan : Plan) (tracker : ReplyTracker) (ceiling : Ceiling) (line : σ) :
    (start plan tracker ceiling line : PlanMoment σ ε).Consistent plan where
  plan_eq := rfl
  cursor := Nat.zero_le _
  performed := rfl
  waiting := fun _ h => nomatch h

namespace Consistent

/-- As many commands were written as there are steps before the cursor, and one more while a reply
is waited for. -/
theorem length_performed (h : m.Consistent plan) :
    m.line.performed.length = m.run.cursor + if m.run.sentAt.isSome then 1 else 0 := by
  have hlength := congrArg List.length h.performed
  have hcursor := h.cursor
  rw [List.length_append, List.length_map] at hlength
  cases hsent : m.run.sentAt with
  | none =>
    simp only [PlanRun.remaining, hsent, h.plan_eq, List.length_map, List.length_drop] at hlength
    simp only [Option.isSome_none, Bool.false_eq_true, if_false]
    omega
  | some sentAt =>
    obtain ⟨step, ⟨hstep, hwritten, -⟩, -⟩ := h.waiting sentAt hsent
    exact hwritten

/-- The run from which a poll sends: as many commands were written as steps were left. -/
theorem leaves {run : PlanRun} (h : m.Consistent plan) (hleaves : m.Leaves now run) :
    run.plan = plan ∧ run.sentAt = none ∧ run.cursor ≤ plan.length ∧
      m.line.performed.length = run.cursor ∧
      m.line.performed ++ run.remaining = plan.map PlanStep.call := by
  have hlength := h.length_performed
  rcases hleaves with ⟨rfl, hunsent⟩ | ⟨step, sentAt, hstep, hsent, -, rfl⟩
  · rw [hunsent] at hlength
    exact ⟨h.plan_eq, hunsent, h.cursor, hlength, h.performed⟩
  · rw [hsent] at hlength
    rw [h.plan_eq] at hstep
    have hperformed := h.performed
    simp only [PlanRun.remaining, hsent] at hperformed
    exact ⟨h.plan_eq, rfl, (List.getElem?_eq_some_iff.1 hstep).1, hlength, hperformed⟩

/-- The step whose reply is waited for, with what the tracker says. -/
theorem judge_eq (h : m.Consistent plan) {step : PlanStep} {sentAt : Instant}
    (hstep : m.run.plan[m.run.cursor]? = some step) (hsent : m.run.sentAt = some sentAt) :
    m.Wrote plan step ∧ m.writtenAt = some sentAt ∧
      m.tracker.state = (m.firstReply step).getD .waiting := by
  obtain ⟨step', hwrote, hwritten, htracker⟩ := h.waiting sentAt hsent
  rw [h.plan_eq] at hstep
  obtain rfl : step = step' := Option.some.inj (hstep.symm.trans hwrote.1)
  exact ⟨hwrote, hwritten, congrArg ReplyTracker.state htracker⟩

theorem congr (h : m.Consistent plan) (hrun : m'.run = m.run) (htracker : m'.tracker = m.tracker)
    (hcalls : m'.line.calls = m.line.calls) (hwritten : m'.writtenAt = m.writtenAt)
    (hheard : m'.heard = m.heard) : m'.Consistent plan := by
  have hperformed := Recorder.performed_congr hcalls
  constructor
  case plan_eq => rw [hrun, h.plan_eq]
  case cursor => rw [hrun]; exact h.cursor
  case performed => rw [hrun, hperformed]; exact h.performed
  case waiting =>
    simp only [Wrote, firstReply, hrun, hperformed, htracker, hwritten, hheard]
    exact h.waiting

/-- Nothing was performed, and no reply is waited for. -/
theorem of_unsent {run : PlanRun} (h : m.Consistent plan) (hleaves : m.Leaves now run)
    (hrun : m'.run = run) (hperformed : m'.line.performed = m.line.performed) :
    m'.Consistent plan := by
  obtain ⟨hplan, hunsent, hcursor, -, hremaining⟩ := h.leaves hleaves
  constructor
  case plan_eq => rw [hrun, hplan]
  case cursor => rw [hrun]; exact hcursor
  case performed => rw [hrun, hperformed]; exact hremaining
  case waiting =>
    intro sentAt hsent
    rw [hrun, hunsent] at hsent
    cases hsent

/-- The command of the step at the cursor was written just now. -/
theorem of_written {run : PlanRun} {step : PlanStep} (h : m.Consistent plan)
    (hleaves : m.Leaves now run) (hstep : run.plan[run.cursor]? = some step)
    (hcalls : m'.line.calls = m.line.calls ++ [step.call])
    (hrun : m'.run = { run with sentAt := some now })
    (htracker : m'.tracker = ⟨.waiting, step.command.type.id⟩)
    (hwritten : m'.writtenAt = some now) (hheard : m'.heard = []) : m'.Consistent plan := by
  obtain ⟨hplan, hunsent, hcursor, hlength, hremaining⟩ := h.leaves hleaves
  have hperformed : m'.line.performed = m.line.performed ++ [step.call] :=
    Recorder.performed_of_ok hcalls rfl
  constructor
  case plan_eq => rw [hrun, hplan]
  case cursor => rw [hrun]; exact hcursor
  case performed =>
    obtain ⟨hlt, hget⟩ := List.getElem?_eq_some_iff.1 hstep
    rw [hrun, hperformed, ← hremaining, List.append_assoc]
    simp only [PlanRun.remaining, hunsent]
    rw [List.drop_eq_getElem_cons hlt, hget]
    rfl
  case waiting =>
    intro sentAt hsent
    rw [hrun] at hsent
    refine ⟨step, ⟨?_, ?_, ?_⟩, hwritten.trans hsent, ?_⟩
    · rw [hrun, ← hplan]
      exact hstep
    · rw [hrun, hperformed, List.length_append, hlength]
      rfl
    · rw [hperformed, List.getLast?_concat]
    · rw [htracker, firstReply, hheard]
      rfl

/-- The invariant after a poll. -/
theorem of_turn (h : m.Consistent plan) (hturn : m.Turn now m') : m'.Consistent plan := by
  cases hturn with
  | waits _ _ _ _ _ hcalls hsame =>
    exact h.congr (by rw [hsame]) (by rw [hsame]) hcalls (by rw [hsame]) (by rw [hsame])
  | givesUp _ _ _ _ _ hcalls hsame =>
    exact h.congr (by rw [hsame]) (by rw [hsame]) hcalls (by rw [hsame]) (by rw [hsame])
  | ends _ hleaves _ hcalls hsame =>
    exact h.of_unsent hleaves (by rw [hsame]) (Recorder.performed_congr hcalls)
  | writes _ hleaves step hstep hcalls hsame =>
    exact h.of_written hleaves hstep hcalls (by rw [hsame]) (by rw [hsame]; rfl) (by rw [hsame])
      (by rw [hsame])
  | fails _ hleaves step _ _ hcalls hsame =>
    exact h.of_unsent hleaves (by rw [hsame]) (Recorder.performed_of_not_ok hcalls rfl)

end Consistent

/-! ### Leaving a step and giving up -/

/-- The command of a step was refused although it must be accepted. -/
structure Refused (plan : Plan) (m : PlanMoment σ ε) (step : PlanStep) : Prop where
  wrote : m.Wrote plan step
  policy : step.policy = .accepted
  reply : m.firstReply step = some .refused

theorem Refused.judge_eq (h : m.Consistent plan) {step step' : PlanStep} {sentAt : Instant}
    (hrefused : m.Refused plan step) (hstep : m.run.plan[m.run.cursor]? = some step')
    (hsent : m.run.sentAt = some sentAt) (waited : Nat) :
    step' = step ∧ step'.policy.judge m.tracker.state waited = .rejected := by
  obtain ⟨hwrote, -, hstate⟩ := h.judge_eq hstep hsent
  obtain rfl : step = step' := Option.some.inj (hrefused.wrote.1.symm.trans hwrote.1)
  rw [hstate]
  exact ⟨rfl, WaitPolicy.judge_rejected_iff.2 ⟨hrefused.policy, hrefused.reply⟩⟩

/-- A refused step is not left. -/
theorem Refused.not_leaves (h : m.Consistent plan) {step : PlanStep}
    (hrefused : m.Refused plan step) {run : PlanRun} : ¬ m.Leaves now run := by
  rintro (⟨-, hunsent⟩ | ⟨step', sentAt, hstep, hsent, hcomplete, -⟩)
  · have hlength := h.length_performed
    rw [hrefused.wrote.2.1, hunsent] at hlength
    exact absurd hlength (Nat.succ_ne_self _)
  · obtain ⟨-, hrejected⟩ := hrefused.judge_eq h hstep hsent (now.since sentAt)
    cases hcomplete.symm.trans hrejected

/-- Once a command was refused that must be accepted, a poll gives up, and writes nothing. -/
theorem Refused.of_turn (h : m.Consistent plan) {step : PlanStep} (hrefused : m.Refused plan step)
    (hturn : m.Turn now m') :
    m'.result = some (.error (.rejected step.command.type)) ∧ m'.Refused plan step ∧
      m'.line.calls = m.line.calls := by
  cases hturn with
  | waits step' sentAt hstep hsent hverdict =>
    obtain ⟨-, hrejected⟩ := hrefused.judge_eq h hstep hsent (now.since sentAt)
    cases hverdict.symm.trans hrejected
  | givesUp step' sentAt hstep hsent hverdict hcalls hsame =>
    obtain ⟨rfl, -⟩ := hrefused.judge_eq h hstep hsent (now.since sentAt)
    obtain ⟨hat, hlength, hlast⟩ := hrefused.wrote
    have hperformed := Recorder.performed_congr hcalls
    refine ⟨by rw [hsame], ⟨⟨?_, ?_, ?_⟩, hrefused.policy, ?_⟩, hcalls⟩
    · rw [hsame]; exact hat
    · rw [hperformed, hsame]; exact hlength
    · rw [hperformed]; exact hlast
    · rw [hsame]; exact hrefused.reply
  | ends run hleaves => exact absurd hleaves (hrefused.not_leaves h)
  | writes run hleaves => exact absurd hleaves (hrefused.not_leaves h)
  | fails run hleaves => exact absurd hleaves (hrefused.not_leaves h)

/-- A poll stays at the step at the cursor, or it leaves it for the next one. -/
theorem Turn.cursor (hturn : m.Turn now m') :
    m'.run.cursor = m.run.cursor ∨
      (m'.run.cursor = m.run.cursor + 1 ∧ ∃ step sentAt,
        m.run.plan[m.run.cursor]? = some step ∧ m.run.sentAt = some sentAt ∧
          step.policy.judge m.tracker.state (now.since sentAt) = .complete) := by
  have hfrom : ∀ {run : PlanRun}, m.Leaves now run → run.cursor = m.run.cursor ∨
      (run.cursor = m.run.cursor + 1 ∧ ∃ step sentAt,
        m.run.plan[m.run.cursor]? = some step ∧ m.run.sentAt = some sentAt ∧
          step.policy.judge m.tracker.state (now.since sentAt) = .complete) := by
    rintro run (⟨rfl, -⟩ | ⟨step, sentAt, hstep, hsent, hcomplete, rfl⟩)
    · exact .inl rfl
    · exact .inr ⟨rfl, step, sentAt, hstep, hsent, hcomplete⟩
  cases hturn with
  | waits _ _ _ _ _ _ hsame | givesUp _ _ _ _ _ _ hsame => exact .inl (by rw [hsame])
  | ends run hleaves _ _ hsame | writes run hleaves _ _ _ hsame
    | fails run hleaves _ _ _ _ hsame =>
    have hcursor := hfrom hleaves
    rw [hsame]
    exact hcursor

namespace Consistent

/-- The run is given up if and only if the first reply is a refusal that is not tolerated. -/
theorem rejected_iff (h : m.Consistent plan) (hturn : m.Turn now m') {type : MessageType} :
    m'.result = some (.error (.rejected type)) ↔
      ∃ step, m.Refused plan step ∧ type = step.command.type := by
  constructor
  · intro htype
    cases hturn with
    | givesUp step sentAt hstep hsent hverdict hcalls hsame =>
      obtain ⟨hwrote, -, hstate⟩ := h.judge_eq hstep hsent
      rw [hstate, firstReply] at hverdict
      obtain ⟨hpolicy, hreply⟩ := WaitPolicy.judge_rejected_iff.1 hverdict
      rw [hsame] at htype
      cases htype
      exact ⟨step, ⟨hwrote, hpolicy, hreply⟩, rfl⟩
    | waits _ _ _ _ _ _ hsame | ends _ _ _ _ hsame | writes _ _ _ _ _ hsame
      | fails _ _ _ _ _ _ hsame =>
      rw [hsame] at htype
      cases htype
  · rintro ⟨step, hrefused, rfl⟩
    exact (hrefused.of_turn h hturn).1

/-- One poll attempts at most one write, of a command of the plan. -/
theorem calls_of_turn (h : m.Consistent plan) (hturn : m.Turn now m') :
    m'.line.calls = m.line.calls ∨ ∃ step ∈ plan, ∃ ok,
      m'.line.calls = m.line.calls ++ [.write step.command.toCommand.transmitted ok] := by
  cases hturn with
  | waits _ _ _ _ _ hcalls | givesUp _ _ _ _ _ hcalls | ends _ _ _ hcalls => exact .inl hcalls
  | writes run hleaves step hstep hcalls =>
    rw [(h.leaves hleaves).1] at hstep
    exact .inr ⟨step, List.mem_of_getElem? hstep, true, hcalls⟩
  | fails run hleaves step hstep e hcalls =>
    rw [(h.leaves hleaves).1] at hstep
    exact .inr ⟨step, List.mem_of_getElem? hstep, false, hcalls⟩

/-- A step is left because of the first reply to it, or because the wait for one is over. -/
theorem left_of_turn (h : m.Consistent plan) (hturn : m.Turn now m')
    (hleft : m'.run.cursor ≠ m.run.cursor) :
    ∃ step, m.Wrote plan step ∧ (m.firstReply step = some .accepted ∨
      (m.firstReply step = some .refused ∧ step.policy ≠ .accepted) ∨
      (step.policy = .answeredOrTimeout ∧ ∃ writtenAt, m.writtenAt = some writtenAt ∧
        Timing.commandWait.toMicros ≤ now.since writtenAt)) := by
  obtain ⟨-, step, sentAt, hstep, hsent, hcomplete⟩ := hturn.cursor.resolve_left hleft
  obtain ⟨hwrote, hwritten, hstate⟩ := h.judge_eq hstep hsent
  rw [hstate, firstReply] at hcomplete
  refine ⟨step, hwrote, ?_⟩
  rcases WaitPolicy.of_judge_complete hcomplete with haccepted | hrefused | ⟨hpolicy, hover⟩
  · exact .inl haccepted
  · exact .inr (.inl hrefused)
  · exact .inr (.inr ⟨hpolicy, sentAt, hwritten, hover⟩)

/-- The run is finished if and only if all steps were left. -/
theorem ready_iff (h : m.Consistent plan) (hturn : m.Turn now m') :
    m'.result = some (.ok .ready) ↔ m'.run.cursor = plan.length := by
  have hinside : ∀ {run : PlanRun} {step : PlanStep}, run.plan = plan →
      run.plan[run.cursor]? = some step → run.cursor ≠ plan.length := by
    rintro run step rfl hstep
    exact Nat.ne_of_lt (List.getElem?_eq_some_iff.1 hstep).1
  cases hturn with
  | waits _ _ hstep _ _ _ hsame | givesUp _ _ hstep _ _ _ hsame =>
    rw [hsame]
    exact iff_of_false (fun hready => nomatch hready) (hinside h.plan_eq hstep)
  | ends run hleaves hbehind _ hsame =>
    obtain ⟨hplan, -, hcursor, -⟩ := h.leaves hleaves
    rw [hplan, List.getElem?_eq_none_iff] at hbehind
    rw [hsame]
    exact iff_of_true rfl (Nat.le_antisymm hcursor hbehind)
  | writes run hleaves step hstep _ hsame | fails run hleaves step hstep _ _ hsame =>
    rw [hsame]
    exact iff_of_false (fun hready => nomatch hready) (hinside (h.leaves hleaves).1 hstep)

end Consistent

/-! ### Events -/

variable [SerialLine σ ε]

/-- After another event. -/
def next (m : PlanMoment σ ε) : PlanEvent σ → PlanMoment σ ε
  | .reply response =>
    { m with tracker := m.tracker.take response, heard := m.heard ++ [response] }
  | .poll now world =>
    let (result, run, tracker, ceiling, line) :=
      m.run.poll now m.tracker m.ceiling (m.line.alter world)
    if line.performed = m.line.performed then
      { m with run, tracker, ceiling, line, result := some result }
    else
      ⟨run, tracker, ceiling, line, some result, some now, []⟩

/-- After several events. -/
def after (m : PlanMoment σ ε) (events : List (PlanEvent σ)) : PlanMoment σ ε :=
  events.foldl next m

/-- A poll that performs nothing leaves alone what is seen from outside. -/
theorem next_of_performed {world : σ → σ} {result : Except (NegotiationError ε) Progress}
    {run : PlanRun} {tracker : ReplyTracker} {ceiling : Ceiling} {line : Recorder σ}
    (h : m.run.poll now m.tracker m.ceiling (m.line.alter world) =
      (result, run, tracker, ceiling, line)) (hsame : line.performed = m.line.performed) :
    m.next (.poll now world) =
      ⟨run, tracker, ceiling, line, some result, m.writtenAt, m.heard⟩ := by
  simp only [next, h, hsame, if_true]

/-- A poll that sends writes a command, or fails to, or has nothing to send. -/
theorem turn_of_sendStep {world : σ → σ} {result : Except (NegotiationError ε) Progress}
    {run run' : PlanRun} {tracker : ReplyTracker} {ceiling : Ceiling} {line : Recorder σ}
    (h : m.run.poll now m.tracker m.ceiling (m.line.alter world) =
      (result, run', tracker, ceiling, line)) (hleaves : m.Leaves now run)
    (hsend : run.sendStep now m.tracker m.ceiling (m.line.alter world) =
      (result, run', tracker, ceiling, line)) :
    m.Turn now (m.next (.poll now world)) := by
  rcases PlanRun.sendStep_cases hsend with ⟨hbehind, rfl, rfl, rfl, rfl, rfl⟩ |
    ⟨step, hstep, rfl, -, ⟨rfl, rfl, hcalls⟩ | ⟨e, rfl, rfl, hcalls⟩⟩
  · rw [next_of_performed h rfl]
    exact .ends _ hleaves hbehind rfl rfl
  · have hperformed : line.performed = m.line.performed ++ [step.call] :=
      Recorder.performed_of_ok hcalls rfl
    have hchanged : line.performed ≠ m.line.performed := by
      rw [hperformed]
      exact fun hsame => List.cons_ne_nil _ _ (List.append_right_eq_self.1 hsame)
    simp only [next, h, if_neg hchanged]
    exact .writes run hleaves step hstep hcalls rfl
  · rw [next_of_performed h (Recorder.performed_of_not_ok hcalls rfl)]
    exact .fails _ hleaves step hstep e hcalls rfl

namespace Consistent

/-- A poll of the run comes to one of these. -/
theorem turn (h : m.Consistent plan) (now : Instant) (world : σ → σ) :
    m.Turn now (m.next (.poll now world)) := by
  rcases hpoll : m.run.poll now m.tracker m.ceiling (m.line.alter world) with
    ⟨result, run', tracker', ceiling', line'⟩
  rcases PlanRun.poll_cases hpoll with ⟨step, sentAt, hstep, hsent,
    ⟨hverdict, rfl, rfl, rfl, rfl, rfl⟩ | ⟨hverdict, rfl, rfl, rfl, rfl, rfl⟩ |
      ⟨hverdict, hsend⟩⟩ | ⟨hunsent, hsend⟩
  · rw [next_of_performed hpoll rfl]
    exact .waits step sentAt hstep hsent hverdict rfl rfl
  · rw [next_of_performed hpoll rfl]
    exact .givesUp step sentAt hstep hsent hverdict rfl rfl
  · exact turn_of_sendStep hpoll (.inr ⟨step, sentAt, hstep, hsent, hverdict, rfl⟩) hsend
  · refine turn_of_sendStep hpoll (.inl ⟨rfl, ?_⟩) hsend
    rcases hunsent with hbehind | hunsent
    · cases hsent : m.run.sentAt with
      | none => rfl
      | some sentAt =>
        obtain ⟨step, ⟨hstep, -⟩, -⟩ := h.waiting sentAt hsent
        rw [h.plan_eq] at hbehind
        cases hbehind.symm.trans hstep
    · exact hunsent

/-- The invariant after a reply: the tracker follows it. -/
theorem of_reply (h : m.Consistent plan) (response : Response) :
    (m.next (.reply response)).Consistent plan where
  plan_eq := h.plan_eq
  cursor := h.cursor
  performed := h.performed
  waiting := by
    intro sentAt hsent
    obtain ⟨step, hwrote, hwritten, htracker⟩ := h.waiting sentAt hsent
    refine ⟨step, hwrote, hwritten, ?_⟩
    exact (congrArg (ReplyTracker.take · response) htracker).trans
      (ReplyTracker.foldl_take_first _ m.heard [response])

theorem next (h : m.Consistent plan) (event : PlanEvent σ) : (m.next event).Consistent plan := by
  cases event with
  | reply response => exact h.of_reply response
  | poll now world => exact h.of_turn (h.turn now world)

/-- **The invariant holds after all events.** -/
theorem after (h : m.Consistent plan) (events : List (PlanEvent σ)) :
    (m.after events).Consistent plan := by
  induction events generalizing m with
  | nil => exact h
  | cons event events ih => exact ih (h.next event)

end Consistent

/-! ### What every poll does -/

/-- What a poll has to do with the plan. -/
structure Obeys (plan : Plan) (m : PlanMoment σ ε) (now : Instant) (m' : PlanMoment σ ε) :
    Prop where
  /-- The commands are written in the order of the plan, each once. -/
  inOrder : m'.line.performed <+: plan.map PlanStep.call
  /-- At most one write is attempted, of a command of the plan. -/
  atMostOne : m'.line.calls = m.line.calls ∨ ∃ step ∈ plan, ∃ ok,
    m'.line.calls = m.line.calls ++ [.write step.command.toCommand.transmitted ok]
  /-- At most one step is left, and none is gone back to. -/
  cursor : m'.run.cursor = m.run.cursor ∨ m'.run.cursor = m.run.cursor + 1
  /-- A step is left because of the first reply to it, or because the wait for one is over. -/
  leaves : m'.run.cursor ≠ m.run.cursor → ∃ step, m.Wrote plan step ∧
    (m.firstReply step = some .accepted ∨
      (m.firstReply step = some .refused ∧ step.policy ≠ .accepted) ∨
      (step.policy = .answeredOrTimeout ∧ ∃ writtenAt, m.writtenAt = some writtenAt ∧
        Timing.commandWait.toMicros ≤ now.since writtenAt))
  /-- The run is given up if and only if the first reply is a refusal that is not tolerated. -/
  rejected : ∀ type, m'.result = some (.error (.rejected type)) ↔
    ∃ step, m.Refused plan step ∧ type = step.command.type
  /-- The command that is named is the one that was written last. -/
  named : ∀ type, m'.result = some (.error (.rejected type)) →
    ∃ call, m'.line.performed.getLast? = some call ∧ call.Carries type
  /-- A run that is given up stays so, and nothing is written any more. -/
  forGood : ∀ type, m'.result = some (.error (.rejected type)) → ∀ events now world,
    ((m'.after events).next (.poll now world)).result = some (.error (.rejected type)) ∧
      ((m'.after events).next (.poll now world)).line.calls = m'.line.calls
  /-- The run is finished if and only if all steps were left. -/
  ready : m'.result = some (.ok .ready) ↔ m'.run.cursor = plan.length

theorem Refused.next (hm : m.Consistent plan) {step : PlanStep} (h : m.Refused plan step)
    (event : PlanEvent σ) :
    (m.next event).Refused plan step ∧ (m.next event).line.calls = m.line.calls := by
  cases event with
  | reply response =>
    refine ⟨⟨h.wrote, h.policy, ?_⟩, rfl⟩
    have hreply := h.reply
    simp only [firstReply, PlanMoment.next] at hreply ⊢
    exact Response.first_append hreply [response]
  | poll now world => exact (h.of_turn hm (hm.turn now world)).2

theorem Refused.after (hm : m.Consistent plan) {step : PlanStep} (h : m.Refused plan step)
    (events : List (PlanEvent σ)) :
    (m.after events).Refused plan step ∧ (m.after events).line.calls = m.line.calls := by
  induction events generalizing m with
  | nil => exact ⟨h, rfl⟩
  | cons event events ih =>
    obtain ⟨hnext, hcalls⟩ := h.next hm event
    obtain ⟨hafter, hsame⟩ := ih (hm.next event) hnext
    exact ⟨hafter, hsame.trans hcalls⟩

/-- A poll of a consistent run obeys the plan. -/
theorem Consistent.obeys (h : m.Consistent plan) (now : Instant) (world : σ → σ) :
    m.Obeys plan now (m.next (.poll now world)) := by
  have hturn := h.turn now world
  have hnext := h.next (.poll now world)
  constructor
  case inOrder => exact ⟨_, hnext.performed⟩
  case atMostOne => exact h.calls_of_turn hturn
  case cursor => exact hturn.cursor.imp_right And.left
  case leaves => exact h.left_of_turn hturn
  case rejected => exact fun type => h.rejected_iff hturn
  case named =>
    intro type htype
    obtain ⟨step, hrefused, rfl⟩ := (h.rejected_iff hturn).1 htype
    obtain ⟨⟨-, -, hlast⟩, -⟩ := (hrefused.next h (.poll now world)).1
    exact ⟨step.call, hlast, step.carries_call⟩
  case forGood =>
    intro type htype events now' world'
    obtain ⟨step, hrefused, rfl⟩ := (h.rejected_iff hturn).1 htype
    have hstays := (hrefused.next h (.poll now world)).1
    obtain ⟨hafter, hcalls⟩ := hstays.after hnext events
    have hlater := hnext.after events
    have hsame := (hafter.next hlater (.poll now' world')).2
    exact ⟨(hlater.rejected_iff (hlater.turn now' world')).2 ⟨step, hafter, rfl⟩,
      hsame.trans hcalls⟩
  case ready => exact h.ready_iff hturn

/-- **What every poll of a plan does.**  From the start of a run, after any replies and any polls,
at any instants and over a line that may fail at any time, the next poll obeys the plan. -/
theorem after_obeys (plan : Plan) (tracker : ReplyTracker) (ceiling : Ceiling) (line : σ)
    (events : List (PlanEvent σ)) (now : Instant) (world : σ → σ) :
    Obeys plan ((start plan tracker ceiling line).after events) now
      (((start plan tracker ceiling line).after events).next (.poll now world)) :=
  ((consistent_start plan tracker ceiling line).after events).obeys now world

end PlanMoment

end GnssLink
