import GnssLink.Proofs.Link.Answering
import GnssLink.Proofs.Link.Attempts
import GnssLink.Proofs.Link.Duration
import GnssLink.Proofs.Negotiation.CommandIds
import GnssLink.Proofs.Negotiation.WithoutFailure

/-!
# Sessions in time

With ticks at most 50 ms apart, a module that answers, and a reliable line, the ceilings of the
negotiation leave room enough.  A candidate of the alignment takes less than 150 ms, the pause and
one gap, and there are six of them within 900 ms.  A version request takes less than 250 ms, the
wait and one gap, and there are two of them within 1000 ms.  A command that is answered takes one
gap, and there are at most eight of them in a group of 500 ms.  A command that need not be answered
is alone in its group.

A session in time is at such a place no later than this says, and a call of the protocol task keeps
it in time.

## Main definitions

* `Plan.inGroup` — the place of a step in its group.
* `Session.sentStep` — the step whose command a call has sent.
* `OnTime`, `Due` — a session in time, behind a tick and before the next one.
* `GoesOn` — what a call in time comes to.

## Main results

* `OnTime.not_expired` — a session in time does not exceed its ceiling.
* `OnTime.due` — a session in time is in time for the next call.
* `Due.advance`, `Due.runProtocol` — a session in time stays in time.
-/

namespace GnssLink

/-! ### Places in a group -/

namespace Plan

variable {settings : Settings} {known : Capabilities} {step : PlanStep}

/-- The number of steps before a step in its group. -/
def inGroup : Nat → Nat
  | 0 => 0
  | cursor + 1 => if cursor + 1 ∈ groupStarts then 0 else inGroup cursor + 1

/-- A step inside a group comes behind the one before it. -/
theorem inGroup_succ {cursor : Nat} (h : cursor + 1 ∉ groupStarts) :
    inGroup (cursor + 1) = inGroup cursor + 1 :=
  if_neg h

/-- A plan has at most 17 steps. -/
theorem length_le (settings : Settings) (known : Capabilities) :
    (make settings known).length ≤ 17 := by
  rw [← List.length_map PlanStep.opensGroup]
  rcases map_opensGroup settings known with hmap | hmap <;> rw [hmap] <;> decide

/-- At most seven steps stand before a step in its group. -/
theorem inGroup_le {cursor : Nat} (h : (make settings known)[cursor]? = some step) :
    inGroup cursor ≤ 7 := by
  have hlt := (List.getElem?_eq_some_iff.1 h).1
  have hall : ∀ cursor < 17, inGroup cursor ≤ 7 := by decide
  exact hall cursor (Nat.lt_of_lt_of_le hlt (length_le settings known))

/-- Which steps of a plan need not be answered: the augmentation service, and the satellite systems
if there is a command for them. -/
theorem map_patient (settings : Settings) (known : Capabilities) :
    (make settings known).map (fun step => decide (step.policy = .answeredOrTimeout)) =
        List.replicate 15 false ++ [true] ∨
      (make settings known).map (fun step => decide (step.policy = .answeredOrTimeout)) =
        List.replicate 15 false ++ [true, true] := by
  unfold make groups
  generalize systemChoice settings known = choice
  cases Tier.ofGeneration known.generation <;>
  · cases choice with
    | none => exact .inl rfl
    | some c => exact .inr rfl

/-- A step that need not be answered is one of the last two. -/
theorem place_of_patient {cursor : Nat} (h : (make settings known)[cursor]? = some step)
    (hpolicy : step.policy = .answeredOrTimeout) : cursor = 15 ∨ cursor = 16 := by
  have hlt := Nat.lt_of_lt_of_le (List.getElem?_eq_some_iff.1 h).1 (length_le settings known)
  have hget : ((make settings known).map
      fun step => decide (step.policy = .answeredOrTimeout))[cursor]? = some true := by
    rw [List.getElem?_map, h, Option.map_some, decide_eq_true hpolicy]
  have hbehind : 15 ≤ cursor := by
    by_contra hbefore
    have hfalse : (List.replicate 15 false)[cursor]? = some false :=
      List.getElem?_replicate_of_lt (Nat.not_le.1 hbefore)
    rcases map_patient settings known with hmap | hmap <;>
    · rw [hmap, List.getElem?_append_left
        (by rw [List.length_replicate]; exact Nat.not_le.1 hbefore), hfalse] at hget
      cases hget
  omega

/-- A step that need not be answered is the first of its group. -/
theorem inGroup_of_patient {cursor : Nat} (h : (make settings known)[cursor]? = some step)
    (hpolicy : step.policy = .answeredOrTimeout) : inGroup cursor = 0 := by
  rcases place_of_patient h hpolicy with rfl | rfl <;> rfl

/-- The step behind one that need not be answered begins a group. -/
theorem groupStarts_of_patient {cursor : Nat} (h : (make settings known)[cursor]? = some step)
    (hpolicy : step.policy = .answeredOrTimeout) (hlt : cursor + 1 < (make settings known).length) :
    cursor + 1 ∈ groupStarts := by
  rcases place_of_patient h hpolicy with rfl | rfl
  · decide
  · exact absurd (Nat.lt_of_lt_of_le hlt (length_le settings known)) (by decide)

end Plan

/-! ### The parts of the negotiation in time -/

/-- Gap after gap: one gap behind an instant that comes at most some gaps behind the origin, it is
one gap more. -/
theorem Instant.le_gap_succ {origin last now : Instant} {gap n : Nat}
    (hnow : now.micros ≤ last.micros + gap) (hlast : last.micros ≤ origin.micros + gap * n) :
    now.micros ≤ origin.micros + gap * (n + 1) :=
  calc now.micros
    _ ≤ last.micros + gap := hnow
    _ ≤ origin.micros + gap * n + gap := Nat.add_le_add_right hlast gap
    _ = origin.micros + gap * (n + 1) := by rw [Nat.mul_succ, Nat.add_assoc]

section

variable {σ ε : Type} [SerialLine σ ε] {good : σ → Prop} {line : σ} {now origin : Instant}

/-- An alignment that began at `origin` pauses since an instant at a candidate, and came there with
150 ms for each candidate before. -/
def BaudAlignment.PausesInTime (origin since : Instant) (a : BaudAlignment) : Prop :=
  ∃ index, a.step = .settling index since ∧ index < BaudRate.candidates.length ∧
    since.micros ≤ origin.micros + 150000 * index

/-- A poll that goes on with the pause, or leaves it not too late, stays in time. -/
theorem BaudAlignment.PausesInTime.poll (hgood : Reliable good) (hline : good line)
    {since : Instant} {a : BaudAlignment} (h : a.PausesInTime origin since)
    (hlate : now.micros < since.micros + 150000) :
    ∃ p a' line',
      (a.poll now line : Except (NegotiationError ε) Progress × BaudAlignment × σ) =
        (.ok p, a', line') ∧ good line' ∧
      (p = .pending → ∃ since', a'.PausesInTime origin since' ∧
        now.micros < since'.micros + 100000) := by
  obtain ⟨index, hstep, hindex, hbegan⟩ := h
  rcases poll_settling hgood hline hstep with ⟨hpause, hpoll⟩ | ⟨-, line', hpoll, hline'⟩
  · refine ⟨_, _, _, hpoll, hline, fun _ => ⟨since, ⟨index, hstep, hindex, hbegan⟩, ?_⟩⟩
    simp only [Instant.since, Timing.baudSettling, Milliseconds.toMicros] at hpause
    omega
  · by_cases hnext : index + 1 < BaudRate.candidates.length
    · rw [if_pos hnext] at hpoll
      have hnow := Instant.le_gap_succ (Nat.le_of_lt hlate) hbegan
      exact ⟨_, _, _, hpoll, hline', fun _ =>
        ⟨now, ⟨index + 1, rfl, hnext, hnow⟩, Nat.lt_add_of_pos_right (Nat.succ_pos _)⟩⟩
    · rw [if_neg hnext] at hpoll
      refine ⟨_, _, _, hpoll, hline', fun hpending => ?_⟩
      cases hpending

/-- The first poll is in time. -/
theorem BaudAlignment.poll_start_inTime (hgood : Reliable good) (hline : good line)
    (target : BaudRate) (tryAll : Bool) (now : Instant) :
    ∃ p a' line',
      ((start target tryAll).poll now line :
          Except (NegotiationError ε) Progress × BaudAlignment × σ) = (.ok p, a', line') ∧
        good line' ∧
      (p = .pending → tryAll = true ∧ a'.PausesInTime now now) := by
  obtain ⟨line', hpoll, hline'⟩ := poll_begins hgood hline target tryAll now
  cases tryAll with
  | true =>
    exact ⟨_, _, _, hpoll, hline', fun _ =>
      ⟨rfl, 0, rfl, Nat.succ_pos _, Nat.le_add_right _ _⟩⟩
  | false => exact ⟨_, _, _, hpoll, hline', fun hpending => nomatch hpending⟩

/-- A version query that began at `origin` has sent its last request at an instant, and no later
than 250 ms behind the request before. -/
def VersionQuery.SentInTime (origin sentAt : Instant) (q : VersionQuery) : Prop :=
  q.sentAt = some sentAt ∧
    (q.attempts = 1 ∧ sentAt.micros ≤ origin.micros ∨
      q.attempts = 2 ∧ sentAt.micros ≤ origin.micros + 250000)

/-- A poll that waits for the answer, or gives up on it not too late, stays in time. -/
theorem VersionQuery.SentInTime.poll (hgood : Reliable good) (hline : good line)
    {sentAt : Instant} {q : VersionQuery} (h : q.SentInTime origin sentAt)
    (hlate : now.micros < sentAt.micros + 250000) (known : Capabilities) (tracker : ReplyTracker) :
    ∃ p q' tracker' line',
      (q.poll now known tracker line :
          Except (NegotiationError ε) Progress × VersionQuery × ReplyTracker × σ) =
        (.ok p, q', tracker', line') ∧ good line' ∧
      (p = .pending → ∃ sentAt', q'.SentInTime origin sentAt' ∧
        now.micros < sentAt'.micros + 200000) := by
  obtain ⟨hsent, hattempt⟩ := h
  rcases poll_sent hgood hline hsent now known tracker with
    hpoll | ⟨hwait, hpoll⟩ | ⟨hleft, line', hpoll, hline'⟩
  · exact ⟨_, _, _, _, hpoll, hline, fun hpending => nomatch hpending⟩
  · refine ⟨_, _, _, _, hpoll, hline, fun _ => ⟨sentAt, ⟨hsent, hattempt⟩, ?_⟩⟩
    simp only [Instant.since, Timing.commandWait, Milliseconds.toMicros] at hwait
    omega
  · refine ⟨_, _, _, _, hpoll, hline', fun _ =>
      ⟨now, ⟨rfl, .inr ?_⟩, Nat.lt_add_of_pos_right (Nat.succ_pos _)⟩⟩
    rcases hattempt with ⟨hone, hbegan⟩ | ⟨htwo, -⟩
    · exact ⟨by rw [hone]; rfl, by omega⟩
    · rw [htwo] at hleft
      exact absurd hleft (by decide)

/-- The first request is in time. -/
theorem VersionQuery.poll_start_inTime (hgood : Reliable good) (hline : good line)
    (now : Instant) (known : Capabilities) (tracker : ReplyTracker) :
    ∃ p q' tracker' line',
      (start.poll now known tracker line :
          Except (NegotiationError ε) Progress × VersionQuery × ReplyTracker × σ) =
        (.ok p, q', tracker', line') ∧ good line' ∧
      (p = .pending → q'.SentInTime now now) := by
  obtain ⟨line', hrequest, hline'⟩ := request_eq hgood hline start now known tracker
  exact ⟨_, _, _, _, hrequest, hline', fun _ => ⟨rfl, .inl ⟨rfl, Nat.le_refl _⟩⟩⟩

end

/-- A step of a plan that was made from the settings is at the cursor and was sent at an instant. -/
structure PlanRun.SentAt (settings : Settings) (step : PlanStep) (sentAt : Instant)
    (run : PlanRun) : Prop where
  plan : ∃ known, run.plan = .make settings known
  at_cursor : run.plan[run.cursor]? = some step
  sent : run.sentAt = some sentAt

/-! ### Sessions in time -/

/-- The step whose command was sent in a call, which is the last one that the call attempts. -/
def Session.sentStep (s : Session) (attempts : List LineCall) : Option PlanStep :=
  match s.phase with
  | .configuration run =>
    run.plan[run.cursor]?.filter fun step => attempts.getLast? = some step.call
  | _ => none

/-- A session in time behind a tick at an instant, in which the command of a step was sent, or none.
The alignment pauses at a candidate, the version query waits, the first reply to the command is
waited for, or a command waits that need not be answered. -/
inductive OnTime (settings : Settings) (last : Instant) (s : Session) : Option PlanStep → Prop
  | aligns (a : BaudAlignment) (since origin : Instant) (phase : s.phase = .baud a)
      (ceiling : s.ceiling = ⟨some origin, Timing.autoBaudCeiling⟩)
      (began : a.PausesInTime origin since) (pauses : last.micros < since.micros + 100000) :
      OnTime settings last s none
  | asks (query : VersionQuery) (sentAt origin : Instant) (phase : s.phase = .version query)
      (ceiling : s.ceiling = ⟨some origin, Timing.phaseCeiling⟩)
      (began : query.SentInTime origin sentAt) (waits : last.micros < sentAt.micros + 200000) :
      OnTime settings last s none
  | sends (run : PlanRun) (step : PlanStep) (origin : Instant)
      (phase : s.phase = .configuration run) (sent : run.SentAt settings step last)
      (tracker : s.tracker = ⟨.waiting, step.command.type.id⟩)
      (ceiling : s.ceiling = ⟨some origin, Timing.groupCeiling⟩)
      (began : last.micros ≤ origin.micros + 50000 * Plan.inGroup run.cursor) :
      OnTime settings last s (some step)
  | waits (run : PlanRun) (step : PlanStep) (sentAt origin : Instant)
      (phase : s.phase = .configuration run) (sent : run.SentAt settings step sentAt)
      (tracker : s.tracker = ⟨.waiting, step.command.type.id⟩)
      (policy : step.policy = .answeredOrTimeout)
      (ceiling : s.ceiling = ⟨some origin, Timing.groupCeiling⟩)
      (began : sentAt.micros ≤ origin.micros) (waits : last.micros < sentAt.micros + 200000) :
      OnTime settings last s none

/-- A session in time before a call of the protocol task at an instant.  The alignment begins or
goes on, the version query goes on, the command of a step was answered, or a command waits that need
not be answered. -/
inductive Due (settings : Settings) (now : Instant) (s : Session) : Prop
  | begins (target : BaudRate) (tryAll : Bool) (phase : s.phase = .baud (.start target tryAll))
      (ceiling : tryAll = true → s.ceiling = ⟨some now, Timing.autoBaudCeiling⟩)
  | aligns (a : BaudAlignment) (since origin : Instant) (phase : s.phase = .baud a)
      (ceiling : s.ceiling = ⟨some origin, Timing.autoBaudCeiling⟩)
      (began : a.PausesInTime origin since) (late : now.micros < since.micros + 150000)
  | asks (query : VersionQuery) (sentAt origin : Instant) (phase : s.phase = .version query)
      (ceiling : s.ceiling = ⟨some origin, Timing.phaseCeiling⟩)
      (began : query.SentInTime origin sentAt) (late : now.micros < sentAt.micros + 250000)
  | answered (run : PlanRun) (step : PlanStep) (sentAt origin : Instant)
      (phase : s.phase = .configuration run) (sent : run.SentAt settings step sentAt)
      (complete : ∀ waited, step.policy.judge s.tracker.state waited = .complete)
      (ceiling : s.ceiling = ⟨some origin, Timing.groupCeiling⟩)
      (late : now.micros ≤ origin.micros + 50000 * (Plan.inGroup run.cursor + 1))
  | waits (run : PlanRun) (step : PlanStep) (sentAt origin : Instant)
      (phase : s.phase = .configuration run) (sent : run.SentAt settings step sentAt)
      (tracker : s.tracker = ⟨.waiting, step.command.type.id⟩)
      (policy : step.policy = .answeredOrTimeout)
      (ceiling : s.ceiling = ⟨some origin, Timing.groupCeiling⟩)
      (began : sentAt.micros ≤ origin.micros)

variable {settings : Settings} {last now : Instant} {s s' : Session} {sent : Option PlanStep}

/-- A ceiling that began some time ago and has a limit above that is not exceeded. -/
theorem Ceiling.not_expired {ceiling : Ceiling} {origin : Instant} {limit : Milliseconds}
    (h : ceiling = ⟨some origin, limit⟩) (hnow : now.micros ≤ origin.micros + 1000 * limit) :
    ceiling.expired now = false := by
  subst h
  rw [Bool.eq_false_iff, ne_eq, Ceiling.expired_iff now rfl]
  simp only [Milliseconds.toMicros, Instant.since]
  omega

theorem OnTime.negotiating (h : OnTime settings last s sent) : s.phase ≠ .running := by
  intro hrunning
  cases h with
  | aligns a since origin phase => cases phase.symm.trans hrunning
  | asks query sentAt origin phase => cases phase.symm.trans hrunning
  | sends run step origin phase => cases phase.symm.trans hrunning
  | waits run step sentAt origin phase => cases phase.symm.trans hrunning

/-- The ceiling of a session in time runs already. -/
theorem OnTime.start_ceiling (h : OnTime settings last s sent) (now : Instant) :
    s.ceiling.start now = s.ceiling := by
  cases h with
  | aligns a since origin phase ceiling => rw [ceiling]; rfl
  | asks query sentAt origin phase ceiling => rw [ceiling]; rfl
  | sends run step origin phase sent tracker ceiling => rw [ceiling]; rfl
  | waits run step sentAt origin phase sent tracker policy ceiling => rw [ceiling]; rfl

/-- **A session in time does not exceed its ceiling.** -/
theorem OnTime.not_expired (h : OnTime settings last s sent) : s.ceiling.expired last = false := by
  cases h with
  | aligns a since origin phase ceiling began pauses =>
    obtain ⟨index, -, hindex, hbegan⟩ := began
    have hcandidates : BaudRate.candidates.length = 6 := rfl
    refine Ceiling.not_expired ceiling ?_
    simp only [Timing.autoBaudCeiling, Timing.baudSettling]
    omega
  | asks query sentAt origin phase ceiling began waits =>
    refine Ceiling.not_expired ceiling ?_
    obtain ⟨-, ⟨-, hbegan⟩ | ⟨-, hbegan⟩⟩ := began <;>
    · simp only [Timing.phaseCeiling]
      omega
  | sends run step origin phase sent tracker ceiling began =>
    obtain ⟨known, hplan⟩ := sent.plan
    have hplace := Plan.inGroup_le (hplan ▸ sent.at_cursor)
    refine Ceiling.not_expired ceiling ?_
    simp only [Timing.groupCeiling]
    omega
  | waits run step sentAt origin phase sent tracker policy ceiling began waits =>
    refine Ceiling.not_expired ceiling ?_
    simp only [Timing.groupCeiling]
    omega

/-- **A session in time is in time for the next call** if the module answers in between, and if the
next tick comes within 50 ms. -/
theorem OnTime.due (h : OnTime settings last s sent) {frames : List Frame}
    (hanswered : Answered sent frames) (hnow : now.micros ≤ last.micros + 50000)
    (hphase : s'.phase = s.phase) (hceiling : s'.ceiling = s.ceiling)
    (htracker : s'.tracker = (frames.filterMap Frame.asReply).foldl ReplyTracker.hear s.tracker) :
    Due settings now s' := by
  cases h with
  | aligns a since origin phase ceiling began pauses =>
    exact .aligns a since origin (hphase.trans phase) (hceiling.trans ceiling) began (by omega)
  | asks query sentAt origin phase ceiling began waits =>
    exact .asks query sentAt origin (hphase.trans phase) (hceiling.trans ceiling) began (by omega)
  | sends run step origin phase sent tracker ceiling began =>
    rw [tracker] at htracker
    rcases hanswered.hear_own htracker with hcomplete | ⟨hsilent, hpolicy⟩
    · exact .answered run step last origin (hphase.trans phase) sent hcomplete
        (hceiling.trans ceiling) (Instant.le_gap_succ hnow began)
    · obtain ⟨known, hplan⟩ := sent.plan
      rw [Plan.inGroup_of_patient (hplan ▸ sent.at_cursor) hpolicy] at began
      exact .waits run step last origin (hphase.trans phase) sent hsilent hpolicy
        (hceiling.trans ceiling) began
  | waits run step sentAt origin phase sent tracker policy ceiling began waits =>
    rw [hanswered.hear_none, tracker] at htracker
    exact .waits run step sentAt origin (hphase.trans phase) sent htracker policy
      (hceiling.trans ceiling) began

/-! ### Calls of the protocol task -/

section

variable {σ ε : Type} [SerialLine σ ε] {good : σ → Prop} {r0 r r' : Recorder σ}
  {attempts : List LineCall} {result : Except (LinkError ε) (Option Solution)}

/-- What a call comes to that began with some record: the line stays reliable, nothing fails, and
the session runs, or it is in time with the step that the call has sent. -/
structure GoesOn (good : σ → Prop) (settings : Settings) (now : Instant) (r0 r' : Recorder σ)
    (s' : Session) (result : Except (LinkError ε) (Option Solution)) : Prop where
  line : good r'.line
  ok : result = .ok none
  inTime : (s'.phase = .running ∧ s'.ceiling = ⟨some now, Timing.phaseCeiling⟩) ∨
    ∃ attempts, r'.calls = r0.calls ++ attempts ∧
      OnTime settings now s' (s'.sentStep attempts)

/-- Going on with a configuration where a step is to be sent.  Unless the step opens a group, the
group has begun in time. -/
theorem Session.configure_goesOn (hgood : Reliable good) (hline : good r.line)
    {run0 run : PlanRun} (h : s.configure run0 now r = (result, s', r'))
    (hcalls : r.calls = r0.calls ++ attempts)
    (hpoll : (run0.poll now s.tracker s.ceiling r :
        Except (NegotiationError ε) Progress × PlanRun × ReplyTracker × Ceiling × Recorder σ) =
      run.sendStep now s.tracker s.ceiling r)
    {known : Capabilities} (hplan : run.plan = .make settings known)
    (hinside : run.cursor < run.plan.length → run.cursor ∉ Plan.groupStarts → ∃ origin : Instant,
      s.ceiling = ⟨some origin, Timing.groupCeiling⟩ ∧
        now.micros ≤ origin.micros + 50000 * Plan.inGroup run.cursor) :
    GoesOn good settings now r0 r' s' result := by
  obtain ⟨answer, run', tracker', ceiling', hsend, hsession⟩ := configure_state h
  rw [hpoll] at hsend
  cases hstep : run.plan[run.cursor]? with
  | none =>
    simp only [PlanRun.sendStep, hstep, Prod.mk.injEq] at hsend
    obtain ⟨rfl, rfl, rfl, rfl, rfl⟩ := hsend
    obtain ⟨e, herror, -⟩ | ⟨hpending, -⟩ | ⟨-, rfl, rfl⟩ := hsession
    · cases herror
    · cases hpending
    · exact ⟨hline, rfl, .inl ⟨rfl, rfl⟩⟩
  | some step =>
    obtain ⟨r1, hsent, hline1⟩ :=
      PlanRun.sendStep_eq hgood.recorder hline hstep now s.tracker s.ceiling
    have hwritten : r1.calls = r.calls ++ [step.call] := by
      rcases PlanRun.sendStep_cases hsent with ⟨hnone, -⟩ |
        ⟨step', hstep', -, -, ⟨-, -, hcalls'⟩ | ⟨e, herror, -⟩⟩
      · cases hnone.symm.trans hstep
      · cases hstep.symm.trans hstep'
        exact hcalls'
      · cases herror
    rw [hsent] at hsend
    simp only [Prod.mk.injEq] at hsend
    obtain ⟨rfl, rfl, rfl, rfl, rfl⟩ := hsend
    obtain ⟨e, herror, -⟩ | ⟨-, rfl, rfl⟩ | ⟨hready, -⟩ := hsession
    · cases herror
    · obtain ⟨origin, hceiling, hbegan⟩ : ∃ origin : Instant,
          (if step.opensGroup then ⟨some now, Timing.groupCeiling⟩ else s.ceiling) =
            (⟨some origin, Timing.groupCeiling⟩ : Ceiling) ∧
          now.micros ≤ origin.micros + 50000 * Plan.inGroup run.cursor := by
        -- A step that opens a group arms the ceiling now; the others have the one of their group.
        have hopens := Plan.opensGroup_iff (hplan ▸ hstep)
        by_cases hstart : run.cursor ∈ Plan.groupStarts
        · exact ⟨now, if_pos (hopens.2 hstart), Nat.le_add_right _ _⟩
        · obtain ⟨origin, hceiling, hbegan⟩ :=
            hinside (List.getElem?_eq_some_iff.1 hstep).1 hstart
          exact ⟨origin, (if_neg (mt hopens.1 hstart)).trans hceiling, hbegan⟩
      have hcalls' : r1.calls = r0.calls ++ (attempts ++ [step.call]) := by
        rw [hwritten, hcalls, List.append_assoc]
      refine ⟨hline1, rfl, .inr ⟨_, hcalls', ?_⟩⟩
      simp only [sentStep, hstep, List.getLast?_concat, Option.filter_some, decide_true, if_true]
      exact .sends _ step origin rfl ⟨⟨known, hplan⟩, hstep, rfl⟩ rfl hceiling hbegan
    · cases hready

/-- Going on with a version query whose poll is in time. -/
theorem Session.askVersion_goesOn (hgood : Reliable good) {query query' : VersionQuery}
    (h : s.askVersion settings query now r = (result, s', r'))
    (hcalls : r.calls = r0.calls ++ attempts) {p : Progress} {tracker' : ReplyTracker}
    {r1 : Recorder σ} {origin : Instant}
    (hceiling : s.ceiling = ⟨some origin, Timing.phaseCeiling⟩)
    (hpoll : (query.poll now s.known s.tracker r :
        Except (NegotiationError ε) Progress × VersionQuery × ReplyTracker × Recorder σ) =
      (.ok p, query', tracker', r1)) (hline : good r1.line)
    (hpending : p = .pending → ∃ sentAt, query'.SentInTime origin sentAt ∧
      now.micros < sentAt.micros + 200000) : GoesOn good settings now r0 r' s' result := by
  obtain ⟨more, hmore, -⟩ := VersionQuery.poll_attempts hpoll
  rw [hcalls, List.append_assoc] at hmore
  obtain ⟨answer, query1, tracker1, line1, hpoll1, hsession⟩ := askVersion_state h
  obtain ⟨rfl, rfl, rfl, rfl⟩ := by simpa only [Prod.mk.injEq] using hpoll.symm.trans hpoll1
  obtain ⟨e, herror, -⟩ | ⟨hanswer, rfl, rfl, rfl⟩ | ⟨-, hconfigure⟩ := hsession
  · cases herror
  · obtain ⟨sentAt, hsent, hwaits⟩ := hpending (Except.ok.inj hanswer)
    exact ⟨hline, rfl, .inr ⟨_, hmore, .asks query' sentAt origin rfl hceiling hsent hwaits⟩⟩
  · exact configure_goesOn hgood hline hconfigure hmore (PlanRun.poll_unsent rfl) rfl
      fun _ hstart => absurd List.mem_cons_self hstart

/-- Going on with an alignment whose poll is in time. -/
theorem Session.alignBaud_goesOn (hgood : Reliable good) {a a' : BaudAlignment}
    (h : s.alignBaud settings a now r = (result, s', r')) {p : Progress} {r1 : Recorder σ}
    (hpoll : (a.poll now r : Except (NegotiationError ε) Progress × BaudAlignment × Recorder σ) =
      (.ok p, a', r1)) (hline : good r1.line)
    (hpending : p = .pending → ∃ origin since : Instant,
      s.ceiling = ⟨some origin, Timing.autoBaudCeiling⟩ ∧ a'.PausesInTime origin since ∧
        now.micros < since.micros + 100000) : GoesOn good settings now r r' s' result := by
  obtain ⟨attempts, hcalls, -⟩ := BaudAlignment.poll_attempts hpoll
  obtain ⟨answer, a1, line1, hpoll1, hsession⟩ := alignBaud_state h
  obtain ⟨rfl, rfl, rfl⟩ := by simpa only [Prod.mk.injEq] using hpoll.symm.trans hpoll1
  obtain ⟨e, herror, -⟩ | ⟨hanswer, rfl, rfl, rfl⟩ | ⟨-, -, hask⟩ | ⟨-, -, rfl, rfl, rfl⟩ :=
    hsession
  · cases herror
  · obtain ⟨origin, since, hceiling, hpauses, hnow⟩ := hpending (Except.ok.inj hanswer)
    exact ⟨hline, rfl, .inr ⟨attempts, hcalls, .aligns a' since origin rfl hceiling hpauses hnow⟩⟩
  · obtain ⟨p1, query', tracker', r2, hquery, hline2, hfirst⟩ :=
      VersionQuery.poll_start_inTime hgood.recorder hline now s.known s.tracker
    exact askVersion_goesOn hgood hask hcalls rfl hquery hline2 fun hwaits =>
      ⟨now, hfirst hwaits, Nat.lt_add_of_pos_right (Nat.succ_pos _)⟩
  · exact ⟨hline, rfl, .inl ⟨rfl, rfl⟩⟩

/-- Going on with a configuration where a step is left.  Unless the next step opens a group, the
group has begun in time. -/
theorem Session.configure_leaves (hgood : Reliable good) (hline : good r.line) {run : PlanRun}
    {step : PlanStep} {sentAt : Instant} (h : s.configure run now r = (result, s', r'))
    (hsent : run.SentAt settings step sentAt)
    (hcomplete : step.policy.judge s.tracker.state (now.since sentAt) = .complete)
    (hinside : run.cursor + 1 < run.plan.length → run.cursor + 1 ∉ Plan.groupStarts →
      ∃ origin : Instant, s.ceiling = ⟨some origin, Timing.groupCeiling⟩ ∧
        now.micros ≤ origin.micros + 50000 * Plan.inGroup (run.cursor + 1)) :
    GoesOn good settings now r r' s' result := by
  obtain ⟨known, hplan⟩ := hsent.plan
  have hpoll : (run.poll now s.tracker s.ceiling r :
      Except (NegotiationError ε) Progress × PlanRun × ReplyTracker × Ceiling × Recorder σ) =
      PlanRun.sendStep { run with cursor := run.cursor + 1, sentAt := none } now s.tracker
        s.ceiling r :=
    (PlanRun.poll_sent hsent.at_cursor hsent.sent).2 hcomplete
  exact configure_goesOn hgood hline h (List.append_nil _).symm hpoll hplan hinside

/-- Going on with a configuration where the reply to a step is waited for that need not come. -/
theorem Session.configure_waits (hline : good r.line) {run : PlanRun} {step : PlanStep}
    {sentAt origin : Instant} (h : s.configure run now r = (result, s', r'))
    (hsent : run.SentAt settings step sentAt)
    (htracker : s.tracker = ⟨.waiting, step.command.type.id⟩)
    (hpolicy : step.policy = .answeredOrTimeout)
    (hceiling : s.ceiling = ⟨some origin, Timing.groupCeiling⟩)
    (hbegan : sentAt.micros ≤ origin.micros)
    (hwait : now.since sentAt < Timing.commandWait.toMicros) :
    GoesOn good settings now r r' s' result := by
  have hjudge : step.policy.judge s.tracker.state (now.since sentAt) = .wait := by
    rw [htracker, hpolicy]
    exact if_pos hwait
  obtain ⟨answer, run', tracker', ceiling', hpoll, hsession⟩ := configure_state h
  rw [(PlanRun.poll_sent hsent.at_cursor hsent.sent).1 hjudge] at hpoll
  simp only [Prod.mk.injEq] at hpoll
  obtain ⟨rfl, rfl, rfl, rfl, rfl⟩ := hpoll
  obtain ⟨e, herror, -⟩ | ⟨-, rfl, rfl⟩ | ⟨hready, -⟩ := hsession
  · cases herror
  · refine ⟨hline, rfl, .inr ⟨[], (List.append_nil _).symm, ?_⟩⟩
    simp only [sentStep, hsent.at_cursor, List.getLast?_nil, Option.filter_some, reduceCtorEq,
      decide_false, Bool.false_eq_true, if_false]
    refine .waits run step sentAt origin rfl hsent htracker hpolicy hceiling hbegan ?_
    simp only [Instant.since, Timing.commandWait, Milliseconds.toMicros] at hwait
    omega
  · cases hready

/-- **A session in time stays in time**, and nothing fails. -/
theorem Due.advance (hgood : Reliable good) (hline : good r.line) (hdue : Due settings now s)
    (h : s.advance settings now r = (result, s', r')) :
    GoesOn good settings now r r' s' result := by
  cases hdue with
  | begins target tryAll phase ceiling =>
    simp only [Session.advance, phase] at h
    obtain ⟨p, a', r1, hpoll, hline1, hpending⟩ :=
      BaudAlignment.poll_start_inTime hgood.recorder hline target tryAll now
    refine Session.alignBaud_goesOn hgood h hpoll hline1 fun hwaits => ?_
    obtain ⟨htry, hpauses⟩ := hpending hwaits
    exact ⟨now, now, ceiling htry, hpauses, Nat.lt_add_of_pos_right (Nat.succ_pos _)⟩
  | aligns a since origin phase ceiling began late =>
    simp only [Session.advance, phase] at h
    obtain ⟨p, a', r1, hpoll, hline1, hpending⟩ := began.poll hgood.recorder hline late
    refine Session.alignBaud_goesOn hgood h hpoll hline1 fun hwaits => ?_
    obtain ⟨since', hpauses, hnow⟩ := hpending hwaits
    exact ⟨origin, since', ceiling, hpauses, hnow⟩
  | asks query sentAt origin phase ceiling began late =>
    simp only [Session.advance, phase] at h
    obtain ⟨p, query', tracker', r1, hpoll, hline1, hpending⟩ :=
      began.poll hgood.recorder hline late s.known s.tracker
    exact Session.askVersion_goesOn hgood h (List.append_nil _).symm ceiling hpoll hline1 hpending
  | answered run step sentAt origin phase sent complete ceiling late =>
    simp only [Session.advance, phase] at h
    refine Session.configure_leaves hgood hline h sent (complete _)
      fun _ hinside => ⟨origin, ceiling, ?_⟩
    rw [Plan.inGroup_succ hinside]
    exact late
  | waits run step sentAt origin phase sent tracker policy ceiling began =>
    simp only [Session.advance, phase] at h
    by_cases hwait : now.since sentAt < Timing.commandWait.toMicros
    · exact Session.configure_waits hline h sent tracker policy ceiling began hwait
    · have hjudge : step.policy.judge s.tracker.state (now.since sentAt) = .complete := by
        rw [tracker, policy]
        exact if_neg hwait
      obtain ⟨known, hplan⟩ := sent.plan
      refine Session.configure_leaves hgood hline h sent hjudge fun hlt hinside =>
        absurd ?_ hinside
      rw [hplan] at hlt
      exact Plan.groupStarts_of_patient (hplan ▸ sent.at_cursor) policy hlt

omit [SerialLine σ ε] in
/-- A call in time does not exceed its ceiling. -/
theorem GoesOn.not_expired (h : GoesOn good settings now r r' s' result) :
    s'.ceiling.expired now = false := by
  rcases h.inTime with ⟨-, hceiling⟩ | ⟨attempts, -, hontime⟩
  · rw [hceiling]
    exact Ceiling.expired_of_now now _
  · exact hontime.not_expired

/-- The same behind the check of the ceiling. -/
theorem Due.runProtocol (hgood : Reliable good) (hline : good r.line)
    (hdue : Due settings now { s with ceiling := s.ceiling.start now })
    (h : s.runProtocol settings now r = (result, s', r')) :
    GoesOn good settings now r r' s' result := by
  obtain ⟨advanced, hadvance, hchecked⟩ := Session.runProtocol_state h
  have hgoes := hdue.advance hgood hline hadvance
  exact ⟨hgoes.line, hchecked.of_early hgoes.ok hgoes.not_expired, hgoes.inTime⟩

/-- Receiving from a reliable line succeeds. -/
theorem Session.receive_ok (hgood : Reliable good) (hline : good r.line)
    {answer : Except (LinkError ε) Unit} (h : s.receive r = (answer, s', r')) :
    answer = .ok () ∧ good r'.line := by
  have hdrained := hgood.recorder.drain Session.takeByte s hline
  rcases hdrain : SerialLine.drain Session.takeByte s r with ⟨drained, s1, r1⟩
  rw [hdrain] at hdrained
  simp only [receive, hdrain, Prod.mk.injEq] at h
  obtain ⟨rfl, rfl, rfl⟩ := h
  obtain ⟨rfl, hline'⟩ := hdrained
  exact ⟨rfl, hline'⟩

end

end GnssLink
