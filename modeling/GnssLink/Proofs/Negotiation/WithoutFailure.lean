import GnssLink.Proofs.Negotiation.Remaining
import GnssLink.Proofs.Serial.Reliable

/-!
# The negotiation over a reliable line

Over a reliable line every poll of the negotiation is known exactly: which result it has, which
state it leaves, and that the line stays reliable.  The candidates of an alignment follow each other
with a pause in between, a version request is sent at once, and so is the step of a plan.

## Main results

* `BaudAlignment.poll_begins`, `BaudAlignment.poll_settling` — the alignment.
* `VersionQuery.request_eq`, `VersionQuery.poll_sent` — the version query.
* `PlanRun.poll_unsent`, `PlanRun.poll_sent`, `PlanRun.sendStep_eq` — a plan.
-/

namespace GnssLink

variable {σ ε : Type} [SerialLine σ ε] {good : σ → Prop} {line : σ} {now : Instant}

/-- A command is written, and its reply is waited for. -/
theorem Command.Fits.send_eq {c : Command} (hc : c.Fits) (hgood : Reliable good)
    (hline : good line) (tracker : ReplyTracker) :
    ∃ line', (c.send tracker line : Except (SendError ε) Unit × ReplyTracker × σ) =
      (.ok (), tracker.begin c.type.id, line') ∧ good line' := by
  obtain ⟨n, buffer, hencode, -⟩ := hc
  obtain ⟨line', hwrite, hline'⟩ := hgood.writes hline (buffer.take n)
  refine ⟨line', ?_, hline'⟩
  simp only [send, hencode, hwrite]
  rfl

/-! ### Alignment -/

namespace BaudAlignment

variable {a : BaudAlignment} {index : Nat}

theorem finish_eq (hgood : Reliable good) (hline : good line) (a : BaudAlignment) :
    ∃ line', (a.finish line : Except (NegotiationError ε) Progress × BaudAlignment × σ) =
      (.ok .ready, { a with step := .done }, line') ∧ good line' := by
  obtain ⟨line', hset, hline'⟩ := hgood.switches hline a.target
  exact ⟨line', by simp only [finish, hset], hline'⟩

/-- A candidate is tried, and its pause begins at once.  Behind the last candidate the alignment is
finished. -/
theorem probe_eq (hgood : Reliable good) (hline : good line) (a : BaudAlignment) (index : Nat)
    (now : Instant) :
    ∃ line', (a.probe index now line : Except (NegotiationError ε) Progress × BaudAlignment × σ) =
      (if index < BaudRate.candidates.length then
        (.ok .pending, { a with step := .settling index now }, line')
      else (.ok .ready, { a with step := .done }, line')) ∧ good line' := by
  by_cases hindex : index < BaudRate.candidates.length
  · have hcandidate := List.getElem?_eq_getElem hindex
    obtain ⟨line1, hset, hline1⟩ := hgood.switches hline BaudRate.candidates[index]
    obtain ⟨line2, hwrite, hline2⟩ :=
      hgood.writes hline1 (Bytes.ofAscii a.target.switchSentence)
    obtain ⟨line3, hempty, hline3⟩ := hgood.empties hline2
    refine ⟨line3, ?_, hline3⟩
    simp only [probe, hcandidate, hset, hwrite, settle, hempty, if_pos hindex]
  · have hcandidate := List.getElem?_eq_none (Nat.not_lt.1 hindex)
    obtain ⟨line1, hfinish, hline1⟩ :=
      finish_eq hgood hline { a with step := .probe index }
    refine ⟨line1, ?_, hline1⟩
    simp only [probe, hcandidate, hfinish, if_neg hindex]

/-- The first poll tries the first candidate, or it switches to the known speed. -/
theorem poll_begins (hgood : Reliable good) (hline : good line) (target : BaudRate)
    (tryAll : Bool) (now : Instant) :
    ∃ line', ((start target tryAll).poll now line :
        Except (NegotiationError ε) Progress × BaudAlignment × σ) =
      (if tryAll then (.ok .pending, ⟨target, tryAll, .settling 0 now⟩, line')
      else (.ok .ready, ⟨target, tryAll, .done⟩, line')) ∧ good line' := by
  obtain ⟨line1, hempty, hline1⟩ := hgood.empties hline
  cases tryAll with
  | true =>
    obtain ⟨line2, hprobe, hline2⟩ := probe_eq hgood hline1 (start target true) 0 now
    refine ⟨line2, ?_, hline2⟩
    rw [if_pos (by decide)] at hprobe
    simp only [poll, start, hempty, if_true] at hprobe ⊢
    exact hprobe
  | false =>
    obtain ⟨line2, hfinish, hline2⟩ := finish_eq hgood hline1 (start target false)
    refine ⟨line2, ?_, hline2⟩
    simp only [poll, start, hempty, Bool.false_eq_true, if_false] at hfinish ⊢
    exact hfinish

/-- During the pause of a candidate nothing happens; behind it comes the next one. -/
theorem poll_settling (hgood : Reliable good) (hline : good line) {since : Instant}
    (hstep : a.step = .settling index since) :
    (now.since since < Timing.baudSettling.toMicros ∧
      (a.poll now line : Except (NegotiationError ε) Progress × BaudAlignment × σ) =
        (.ok .pending, a, line)) ∨
    (Timing.baudSettling.toMicros ≤ now.since since ∧ ∃ line',
      (a.poll now line : Except (NegotiationError ε) Progress × BaudAlignment × σ) =
        (if index + 1 < BaudRate.candidates.length then
          (.ok .pending, { a with step := .settling (index + 1) now }, line')
        else (.ok .ready, { a with step := .done }, line')) ∧ good line') := by
  by_cases hpause : now.since since < Timing.baudSettling.toMicros
  · exact .inl ⟨hpause, by simp only [poll, hstep, if_pos hpause]⟩
  · obtain ⟨line', hprobe, hline'⟩ := probe_eq hgood hline a (index + 1) now
    exact .inr ⟨Nat.not_lt.1 hpause, line',
      by simp only [poll, hstep, if_neg hpause, hprobe], hline'⟩

end BaudAlignment

/-! ### Version query -/

/-- A request is written; it is enough if the generation is known. -/
theorem VersionQuery.request_eq (hgood : Reliable good) (hline : good line) (q : VersionQuery)
    (now : Instant) (known : Capabilities) (tracker : ReplyTracker) :
    ∃ line', (q.request now known tracker line :
        Except (NegotiationError ε) Progress × VersionQuery × ReplyTracker × σ) =
      (.ok (if known.generation = .unknown then .pending else .ready),
        ⟨q.attempts + 1, some now⟩, tracker.begin versionRequest.type.id, line') ∧ good line' := by
  obtain ⟨line', hsend, hline'⟩ := versionRequest_fits.send_eq hgood hline tracker
  exact ⟨line', by simp only [request, hsend], hline'⟩

/-- While a request is waited for, nothing happens unless the generation is known by then or the
wait is over; then the query ends, or it sends another request. -/
theorem VersionQuery.poll_sent (hgood : Reliable good) (hline : good line) {q : VersionQuery}
    {sentAt : Instant} (hsent : q.sentAt = some sentAt) (now : Instant) (known : Capabilities)
    (tracker : ReplyTracker) :
    ((q.poll now known tracker line :
        Except (NegotiationError ε) Progress × VersionQuery × ReplyTracker × σ) =
      (.ok .ready, q, tracker, line)) ∨
    (now.since sentAt < Timing.commandWait.toMicros ∧
      (q.poll now known tracker line :
          Except (NegotiationError ε) Progress × VersionQuery × ReplyTracker × σ) =
        (.ok .pending, q, tracker, line)) ∨
    (q.attempts < Timing.versionAttempts ∧ ∃ line',
      (q.poll now known tracker line :
          Except (NegotiationError ε) Progress × VersionQuery × ReplyTracker × σ) =
        (.ok .pending, ⟨q.attempts + 1, some now⟩, tracker.begin versionRequest.type.id, line') ∧
      good line') := by
  by_cases hknown : known.generation = .unknown
  · by_cases hwait : now.since sentAt < Timing.commandWait.toMicros
    · refine .inr (.inl ⟨hwait, ?_⟩)
      simp only [poll, hsent, hknown, ne_eq, not_true_eq_false, if_false, if_pos hwait]
    · by_cases hlast : Timing.versionAttempts ≤ q.attempts
      · refine .inl ?_
        simp only [poll, hsent, hknown, ne_eq, not_true_eq_false, if_false, if_neg hwait,
          if_pos hlast]
      · obtain ⟨line', hrequest, hline'⟩ := request_eq hgood hline q now known tracker
        rw [if_pos hknown] at hrequest
        refine .inr (.inr ⟨UInt8.not_le.1 hlast, line', ?_, hline'⟩)
        simp only [poll, hsent, hknown, ne_eq, not_true_eq_false, if_false, if_neg hwait,
          if_neg hlast, hrequest]
  · refine .inl ?_
    simp only [poll, hsent, ne_eq, if_pos hknown]

/-! ### Plans -/

namespace PlanRun

variable {run : PlanRun} {step : PlanStep} {sentAt : Instant} {tracker : ReplyTracker}
  {ceiling : Ceiling}

/-- A step that was not sent yet is sent. -/
theorem poll_unsent (h : run.sentAt = none) :
    (run.poll now tracker ceiling line :
        Except (NegotiationError ε) Progress × PlanRun × ReplyTracker × Ceiling × σ) =
      run.sendStep now tracker ceiling line := by
  unfold poll
  split
  · next hsent => cases h.symm.trans hsent
  · rfl

/-- A step is waited for, or it is left and the next one is sent. -/
theorem poll_sent (hstep : run.plan[run.cursor]? = some step) (hsent : run.sentAt = some sentAt) :
    (step.policy.judge tracker.state (now.since sentAt) = .wait →
      (run.poll now tracker ceiling line :
          Except (NegotiationError ε) Progress × PlanRun × ReplyTracker × Ceiling × σ) =
        (.ok .pending, run, tracker, ceiling, line)) ∧
    (step.policy.judge tracker.state (now.since sentAt) = .complete →
      (run.poll now tracker ceiling line :
          Except (NegotiationError ε) Progress × PlanRun × ReplyTracker × Ceiling × σ) =
        PlanRun.sendStep { run with cursor := run.cursor + 1, sentAt := none } now tracker ceiling
          line) := by
  constructor
  · intro hwait
    simp only [poll, hstep, hsent, hwait]
  · intro hcomplete
    simp only [poll, hstep, hsent, hcomplete]

/-- The step at the cursor is written, and its reply is waited for. -/
theorem sendStep_eq (hgood : Reliable good) (hline : good line)
    (hstep : run.plan[run.cursor]? = some step) (now : Instant) (tracker : ReplyTracker)
    (ceiling : Ceiling) :
    ∃ line', (run.sendStep now tracker ceiling line :
        Except (NegotiationError ε) Progress × PlanRun × ReplyTracker × Ceiling × σ) =
      (.ok .pending, { run with sentAt := some now }, tracker.begin step.command.type.id,
        if step.opensGroup then ⟨some now, Timing.groupCeiling⟩ else ceiling, line') ∧
      good line' := by
  obtain ⟨line', hsend, hline'⟩ := step.command.fits.send_eq hgood hline tracker
  exact ⟨line', by simp only [sendStep, hstep, hsend]; rfl, hline'⟩

end PlanRun

end GnssLink
