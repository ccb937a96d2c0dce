import GnssLink.Proofs.Negotiation.Remaining

/-!
# The negotiation pass by pass

A poll goes on as far as the line, the replies and the clock allow.  It can be taken as a loop: each
pass through it does one thing, at the position that the pass before has left, until one pass has
nothing left to do at this instant.  The loop of a poll always ends, whatever the line answers, for
the clock stands still meanwhile: a pause that began just now is not over, and neither is the wait
for a command that was written just now, which cannot be answered either.

The loops end with what the polls come to.  So polling terminates as it stands, without a bound on
the passes that a poll would have to be given.

## Main definitions

* `Pass`, `Ends` — one pass through a loop, and the end of the loop.
* `BaudAlignment.pass`, `VersionQuery.pass`, `PlanRun.pass` — one pass of a poll.

## Main results

* `Ends.lift_leave`, `Ends.lift_again` — the passes of a nested loop.
* `BaudAlignment.poll_ends`, `VersionQuery.poll_ends`, `PlanRun.poll_ends` — a poll is the end of
  its loop.
-/

namespace GnssLink

/-! ### Loops -/

/-- What a pass through a loop comes to: another pass from a new state, or an answer. -/
inductive Pass (α β : Type) where
  | again (state : α)
  | leave (answer : β)

/-- From a state the `n`-th pass leaves the loop with an answer. -/
inductive Ends {α β : Type} (pass : α → Pass α β) : α → Nat → β → Prop
  | leave {state : α} {answer : β} (left : pass state = .leave answer) :
      Ends pass state 1 answer
  | again {state next : α} {n : Nat} {answer : β} (goes_on : pass state = .again next)
      (rest : Ends pass next n answer) : Ends pass state (n + 1) answer

section

variable {α β γ δ : Type}

/-- A pass of a nested loop, as a pass of the loop around it. -/
def Pass.lift (place : α → γ) (leave : β → Pass γ δ) : Pass α β → Pass γ δ
  | .again state => .again (place state)
  | .leave answer => leave answer

variable {inner : α → Pass α β} {outer : γ → Pass γ δ} {state : α} {n : Nat} {answer : β}

/-- With the nested loop the loop around it is left. -/
theorem Ends.lift_leave (h : Ends inner state n answer) (place : α → γ) (leave : β → Pass γ δ)
    (hpass : ∀ state, outer (place state) = (inner state).lift place leave) {result : δ}
    (hleave : leave answer = .leave result) : Ends outer (place state) n result := by
  induction h with
  | leave left => exact .leave (by rw [hpass, left]; exact hleave)
  | again goes_on rest ih => exact .again (by rw [hpass, goes_on]; rfl) (ih hleave)

/-- Behind the nested loop the loop around it goes on. -/
theorem Ends.lift_again (h : Ends inner state n answer) (place : α → γ) (leave : β → Pass γ δ)
    (hpass : ∀ state, outer (place state) = (inner state).lift place leave) {next : γ} {k : Nat}
    {result : δ} (hagain : leave answer = .again next) (hnext : Ends outer next k result) :
    Ends outer (place state) (n + k) result := by
  induction h with
  | leave left =>
    rw [Nat.add_comm]
    exact .again (by rw [hpass, left]; exact hagain) hnext
  | again goes_on rest ih =>
    rw [Nat.add_right_comm]
    exact .again (by rw [hpass, goes_on]; rfl) (ih hagain)

end

/-- A wait that begins now is not over. -/
theorem Instant.since_self_lt (now : Instant) {limit : Nat} (h : 0 < limit) :
    now.since now < limit := by
  rw [since, Nat.sub_self]
  exact h

variable {σ ε : Type} [SerialLine σ ε] {now : Instant} {line line' : σ}
  {result : Except (NegotiationError ε) Progress}

/-! ### Alignment -/

namespace BaudAlignment

/-- The pass that switches the line to the target. -/
def finishPass (a : BaudAlignment) (line : σ) :
    Pass (BaudAlignment × σ) (Except (NegotiationError ε) Progress × BaudAlignment × σ) :=
  match SerialLine.setBaudRate line a.target with
  | (.error e, line) => .leave (.error (.serial e), a, line)
  | (.ok _, line) => .again ({ a with step := .done }, line)

/-- A pass of the alignment moves it from one position to another. -/
def pass (now : Instant) : BaudAlignment × σ →
    Pass (BaudAlignment × σ) (Except (NegotiationError ε) Progress × BaudAlignment × σ)
  | (a, line) =>
    match a.step with
    | .waitTxIdle =>
      match SerialLine.txEmpty line with
      | (false, line) => .leave (.ok .pending, a, line)
      | (true, line) =>
        if a.tryAll then .again ({ a with step := .probe 0 }, line) else a.finishPass line
    | .probe index =>
      match BaudRate.candidates[index]? with
      | some candidate =>
        match SerialLine.setBaudRate line candidate with
        | (.error e, line) => .leave (.error (.serial e), a, line)
        | (.ok _, line) =>
          match SerialLine.write line (Bytes.ofAscii a.target.switchSentence) with
          | (.error e, line) => .leave (.error (.serial e), a, line)
          | (.ok _, line) => .again ({ a with step := .draining index }, line)
      | none => a.finishPass line
    | .draining index =>
      match SerialLine.txEmpty line with
      | (false, line) => .leave (.ok .pending, a, line)
      | (true, line) => .again ({ a with step := .settling index now }, line)
    | .settling index since =>
      if now.since since < Timing.baudSettling.toMicros then .leave (.ok .pending, a, line)
      else .again ({ a with step := .probe (index + 1) }, line)
    | .done => .leave (.ok .ready, a, line)

variable {a a' : BaudAlignment} {index : Nat}

theorem finish_ends {state : BaudAlignment × σ} (hpass : pass now state = a.finishPass line)
    (h : a.finish line = (result, a', line')) :
    ∃ n ≤ 2, Ends (pass now) state n (result, a', line') := by
  rcases finish_state h with ⟨hset, rfl, rfl⟩ | ⟨e, hset, rfl, rfl⟩
  · have hagain : pass now state = .again ({ a with step := .done }, line') := by
      rw [hpass, finishPass, hset]
    exact ⟨2, Nat.le_refl 2, .again hagain (.leave rfl)⟩
  · exact ⟨1, Nat.le_succ 1, .leave (by rw [hpass, finishPass, hset])⟩

/-- A pause that begins now is waited for. -/
theorem settle_ends (h : a.settle index now line = (result, a', line')) :
    ∃ n ≤ 2, Ends (pass now) ({ a with step := .draining index }, line) n
      (result, a', line') := by
  obtain ⟨rfl, empty, hempty, rfl⟩ := settle_state h
  cases empty with
  | true =>
    have hagain : pass now ({ a with step := .draining index }, line) =
        .again ({ a with step := .settling index now }, line') := by
      simp only [pass, hempty]
    exact ⟨2, Nat.le_refl 2, .again hagain (.leave (if_pos (now.since_self_lt (by decide))))⟩
  | false =>
    refine ⟨1, Nat.le_succ 1, .leave ?_⟩
    simp only [pass, hempty]
    rfl

theorem probe_ends (h : a.probe index now line = (result, a', line')) :
    ∃ n ≤ 3, Ends (pass now) ({ a with step := .probe index }, line) n (result, a', line') := by
  rcases probe_state h with ⟨hend, hfinish⟩ | ⟨candidate, hcandidate, ⟨e, hswitch, rfl, rfl⟩ |
    ⟨line1, hswitch, ⟨e, hwrite, rfl, rfl⟩ | ⟨line2, hwrite, hsettle⟩⟩⟩
  · have hpass : pass now ({ a with step := .probe index }, line) =
        finishPass { a with step := .probe index } line := by
      simp only [pass, hend]
    obtain ⟨n, hn, hends⟩ := finish_ends hpass hfinish
    exact ⟨n, Nat.le_succ_of_le hn, hends⟩
  · exact ⟨1, by decide, .leave (by simp only [pass, hcandidate, hswitch])⟩
  · exact ⟨1, by decide, .leave (by simp only [pass, hcandidate, hswitch, hwrite])⟩
  · obtain ⟨n, hn, hends⟩ := settle_ends hsettle
    exact ⟨n + 1, Nat.succ_le_succ hn,
      .again (by simp only [pass, hcandidate, hswitch, hwrite]) hends⟩

/-- **A poll of the alignment is the end of its loop**, after at most four passes. -/
theorem poll_ends (h : a.poll now line = (result, a', line')) :
    ∃ n ≤ 4, Ends (pass now) (a, line) n (result, a', line') := by
  rcases poll_state h with ⟨hstep, ⟨hbusy, rfl, rfl⟩ | ⟨line1, hidle, ⟨hall, hprobe⟩ |
      ⟨hone, hfinish⟩⟩⟩ | ⟨index, hstep, hprobe⟩ | ⟨index, hstep, hsettle⟩ |
    ⟨index, since, hstep, ⟨hwait, rfl, rfl, rfl⟩ | ⟨hover, hprobe⟩⟩ | ⟨hstep, rfl, rfl, rfl⟩
  · exact ⟨1, by decide, .leave (by simp only [pass, hstep, hbusy])⟩
  · obtain ⟨n, hn, hends⟩ := probe_ends hprobe
    exact ⟨n + 1, Nat.succ_le_succ hn,
      .again (by simp only [pass, hstep, hidle, if_pos hall]) hends⟩
  · have hpass : pass now (a, line) = a.finishPass line1 := by
      simp only [pass, hstep, hidle, hone]
      rfl
    obtain ⟨n, hn, hends⟩ := finish_ends hpass hfinish
    exact ⟨n, Nat.le_trans hn (by decide), hends⟩
  · obtain ⟨n, hn, hends⟩ := probe_ends hprobe
    rw [← hstep] at hends
    exact ⟨n, Nat.le_succ_of_le hn, hends⟩
  · obtain ⟨n, hn, hends⟩ := settle_ends hsettle
    rw [← hstep] at hends
    exact ⟨n, Nat.le_trans hn (by decide), hends⟩
  · exact ⟨1, by decide, .leave (by simp only [pass, hstep, if_pos hwait])⟩
  · obtain ⟨n, hn, hends⟩ := probe_ends hprobe
    exact ⟨n + 1, Nat.succ_le_succ hn,
      .again (by simp only [pass, hstep, if_neg (Nat.not_lt.2 hover)]) hends⟩
  · exact ⟨1, by decide, .leave (by simp only [pass, hstep])⟩

end BaudAlignment

/-! ### Version query -/

namespace VersionQuery

/-- A pass of the version query writes a request, or it decides about the one that is waited for. -/
def pass (now : Instant) (known : Capabilities) : VersionQuery × ReplyTracker × σ →
    Pass (VersionQuery × ReplyTracker × σ)
      (Except (NegotiationError ε) Progress × VersionQuery × ReplyTracker × σ)
  | (q, tracker, line) =>
    match q.sentAt with
    | none =>
      match versionRequest.send tracker line with
      | (.error e, tracker, line) => .leave (.error (.send e), q, tracker, line)
      | (.ok _, tracker, line) => .again (⟨q.attempts + 1, some now⟩, tracker, line)
    | some sentAt =>
      if known.generation ≠ .unknown then .leave (.ok .ready, q, tracker, line)
      else if now.since sentAt < Timing.commandWait.toMicros then
        .leave (.ok .pending, q, tracker, line)
      else if Timing.versionAttempts ≤ q.attempts then .leave (.ok .ready, q, tracker, line)
      else .again ({ q with sentAt := none }, tracker, line)

variable {q q' : VersionQuery} {known : Capabilities} {tracker tracker' : ReplyTracker}

/-- A request that is written now is waited for, unless the generation is known. -/
theorem request_ends (h : q.request now known tracker line = (result, q', tracker', line')) :
    ∃ n ≤ 2, Ends (pass now known) ({ q with sentAt := none }, tracker, line) n
      (result, q', tracker', line') := by
  obtain ⟨sent, hsend, ⟨rfl, rfl, rfl⟩ | ⟨e, rfl, rfl, rfl⟩⟩ := request_state h
  · have hagain : pass now known ({ q with sentAt := none }, tracker, line) =
        .again (⟨q.attempts + 1, some now⟩, tracker', line') := by
      simp only [pass, hsend]
    have hwait : now.since now < Timing.commandWait.toMicros := now.since_self_lt (by decide)
    refine ⟨2, by decide, .again hagain (.leave ?_)⟩
    by_cases hunknown : known.generation = .unknown
    · simp only [pass, if_neg (not_not_intro hunknown), if_pos hwait, if_pos hunknown]
    · simp only [pass, if_pos hunknown, if_neg hunknown]
  · exact ⟨1, by decide, .leave (by simp only [pass, hsend])⟩

/-- **A poll of the version query is the end of its loop**, after at most three passes. -/
theorem poll_ends (h : q.poll now known tracker line = (result, q', tracker', line')) :
    ∃ n ≤ 3, Ends (pass now known) (q, tracker, line) n (result, q', tracker', line') := by
  rcases poll_state h with ⟨⟨sentAt, hsent, hresult⟩, rfl, rfl, rfl⟩ |
    ⟨hsent | ⟨⟨sentAt, hsent, hunknown, hover⟩, hleft⟩, hrequest⟩
  · refine ⟨1, by decide, .leave ?_⟩
    rcases hresult with ⟨hknown, rfl⟩ | ⟨hunknown, hwait, rfl⟩ |
      ⟨⟨_, hsame, hunknown, hover⟩, hlast, rfl⟩
    · simp only [pass, hsent, if_pos hknown]
    · simp only [pass, hsent, if_neg (not_not_intro hunknown), if_pos hwait]
    · cases hsent.symm.trans hsame
      simp only [pass, hsent, if_neg (not_not_intro hunknown), if_neg (Nat.not_lt.2 hover),
        if_pos hlast]
  · obtain ⟨n, hn, hends⟩ := request_ends hrequest
    rw [← hsent] at hends
    exact ⟨n, Nat.le_succ_of_le hn, hends⟩
  · obtain ⟨n, hn, hends⟩ := request_ends hrequest
    refine ⟨n + 1, Nat.succ_le_succ hn, .again ?_ hends⟩
    simp only [pass, hsent, if_neg (not_not_intro hunknown), if_neg (Nat.not_lt.2 hover),
      if_neg (UInt8.not_le.2 hleft)]

end VersionQuery

/-! ### Plans -/

namespace PlanRun

/-- A pass of a plan sends the step at the cursor, or it decides about the one that was sent. -/
def pass (now : Instant) : PlanRun × ReplyTracker × Ceiling × σ →
    Pass (PlanRun × ReplyTracker × Ceiling × σ)
      (Except (NegotiationError ε) Progress × PlanRun × ReplyTracker × Ceiling × σ)
  | (run, tracker, ceiling, line) =>
    match run.plan[run.cursor]? with
    | none => .leave (.ok .ready, run, tracker, ceiling, line)
    | some step =>
      match run.sentAt with
      | none =>
        let ceiling := if step.opensGroup then ceiling.arm now Timing.groupCeiling else ceiling
        match step.command.toCommand.send tracker line with
        | (.error e, tracker, line) => .leave (.error (.send e), run, tracker, ceiling, line)
        | (.ok _, tracker, line) =>
          .again ({ run with sentAt := some now }, tracker, ceiling, line)
      | some sentAt =>
        match step.policy.judge tracker.state (now.since sentAt) with
        | .wait => .leave (.ok .pending, run, tracker, ceiling, line)
        | .rejected =>
          .leave (.error (.rejected step.command.type), run, tracker, ceiling, line)
        | .complete =>
          .again ({ run with cursor := run.cursor + 1, sentAt := none }, tracker, ceiling, line)

variable {run run' : PlanRun} {tracker tracker' : ReplyTracker} {ceiling ceiling' : Ceiling}

/-- The reply to a command that was written just now is waited for. -/
theorem judge_begin (policy : WaitPolicy) (tracker : ReplyTracker) (id : UInt8) (now : Instant) :
    policy.judge (tracker.begin id).state (now.since now) = .wait := by
  cases policy with
  | accepted | answered => rfl
  | answeredOrTimeout => exact if_pos (now.since_self_lt (by decide))

/-- A step that is sent now is waited for. -/
theorem sendStep_ends (hsent : run.sentAt = none)
    (h : run.sendStep now tracker ceiling line = (result, run', tracker', ceiling', line')) :
    ∃ n ≤ 2, Ends (pass now) (run, tracker, ceiling, line) n
      (result, run', tracker', ceiling', line') := by
  rcases sendStep_state h with ⟨hend, rfl, rfl, rfl, rfl, rfl⟩ |
    ⟨step, sent, hstep, hsend, rfl, ⟨rfl, rfl, rfl⟩ | ⟨e, rfl, rfl, rfl⟩⟩
  · exact ⟨1, by decide, .leave (by simp only [pass, hend])⟩
  · have hagain : pass now (run, tracker, ceiling, line) = .again ({ run with sentAt := some now },
        tracker', if step.opensGroup then ⟨some now, Timing.groupCeiling⟩ else ceiling, line') := by
      simp only [pass, hstep, hsent, hsend]
      rfl
    refine ⟨2, by decide, .again hagain (.leave ?_)⟩
    have htracker : tracker' = tracker.begin step.command.type.id :=
      (step.command.fits.send_state hsend).1
    simp only [pass, hstep, htracker, judge_begin]
  · refine ⟨1, by decide, .leave ?_⟩
    simp only [pass, hstep, hsent, hsend]
    rfl

/-- **A poll of a plan is the end of its loop**, after at most three passes. -/
theorem poll_ends
    (h : run.poll now tracker ceiling line = (result, run', tracker', ceiling', line')) :
    ∃ n ≤ 3, Ends (pass now) (run, tracker, ceiling, line) n
      (result, run', tracker', ceiling', line') := by
  rcases poll_cases h with ⟨step, sentAt, hstep, hsent,
    ⟨hverdict, rfl, rfl, rfl, rfl, rfl⟩ | ⟨hverdict, rfl, rfl, rfl, rfl, rfl⟩ |
      ⟨hverdict, hsend⟩⟩ | ⟨hend | hsent, hsend⟩
  · exact ⟨1, by decide, .leave (by simp only [pass, hstep, hsent, hverdict])⟩
  · exact ⟨1, by decide, .leave (by simp only [pass, hstep, hsent, hverdict])⟩
  · obtain ⟨n, hn, hends⟩ := sendStep_ends rfl hsend
    exact ⟨n + 1, Nat.succ_le_succ hn,
      .again (by simp only [pass, hstep, hsent, hverdict]) hends⟩
  · rcases sendStep_state hsend with ⟨-, rfl, rfl, rfl, rfl, rfl⟩ | ⟨step, _, hstep, -⟩
    · exact ⟨1, by decide, .leave (by simp only [pass, hend])⟩
    · cases hend.symm.trans hstep
  · obtain ⟨n, hn, hends⟩ := sendStep_ends hsent hsend
    exact ⟨n, Nat.le_succ_of_le hn, hends⟩

end PlanRun

end GnssLink
