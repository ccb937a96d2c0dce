import GnssLink.Proofs.Link.History
import GnssLink.Proofs.Negotiation.Passes

/-!
# The protocol task pass by pass

A call of the protocol task is a loop around the loops of the three polls.  A pass of it is a pass
of the poll of the present phase; when the poll is through, the next phase begins with the next
pass, at the same instant.  Whatever the session, the line and the clock, the loop ends after at
most eleven passes: no phase is gone through twice, and each poll ends.

## Main definitions

* `Session.pass` — one pass of the protocol task.

## Main results

* `Session.advance_ends` — a call of the protocol task is the end of its loop.
-/

namespace GnssLink

namespace Session

variable {σ ε : Type} [SerialLine σ ε]

/-- A session with a state of the loop of the alignment. -/
def withAlignment (s : Session) : BaudAlignment × σ → Session × σ
  | (a, line) => ({ s with phase := .baud a }, line)

/-- Behind the alignment the version query begins, or the session runs. -/
def behindAlignment (settings : Settings) (now : Instant) (s : Session) :
    Except (NegotiationError ε) Progress × BaudAlignment × σ →
      Pass (Session × σ) (Except (LinkError ε) (Option Solution) × Session × σ)
  | (.error e, a, line) => .leave (.error (.negotiation e), { s with phase := .baud a }, line)
  | (.ok .pending, a, line) => .leave (.ok none, { s with phase := .baud a }, line)
  | (.ok .ready, _, line) =>
    .again (s.enter (if settings.autoConfig then .version .start else .running) now, line)

/-- A session with a state of the loop of the version query. -/
def withQuery (s : Session) : VersionQuery × ReplyTracker × σ → Session × σ
  | (q, tracker, line) => ({ s with phase := .version q, tracker := tracker }, line)

/-- Behind the version query the configuration begins. -/
def behindQuery (settings : Settings) (now : Instant) (s : Session) :
    Except (NegotiationError ε) Progress × VersionQuery × ReplyTracker × σ →
      Pass (Session × σ) (Except (LinkError ε) (Option Solution) × Session × σ)
  | (.error e, q, tracker, line) =>
    .leave (.error (.negotiation e), { s with phase := .version q, tracker := tracker }, line)
  | (.ok .pending, q, tracker, line) =>
    .leave (.ok none, { s with phase := .version q, tracker := tracker }, line)
  | (.ok .ready, _, tracker, line) =>
    .again (enter { s with tracker := tracker }
      (.configuration (.start (.make settings s.known))) now, line)

/-- A session with a state of the loop of a plan. -/
def withRun (s : Session) : PlanRun × ReplyTracker × Ceiling × σ → Session × σ
  | (run, tracker, ceiling, line) =>
    ({ s with phase := .configuration run, tracker := tracker, ceiling := ceiling }, line)

/-- Behind the configuration the session runs. -/
def behindRun (now : Instant) (s : Session) :
    Except (NegotiationError ε) Progress × PlanRun × ReplyTracker × Ceiling × σ →
      Pass (Session × σ) (Except (LinkError ε) (Option Solution) × Session × σ)
  | (.error e, run, tracker, ceiling, line) =>
    .leave (.error (.negotiation e),
      { s with phase := .configuration run, tracker := tracker, ceiling := ceiling }, line)
  | (.ok .pending, run, tracker, ceiling, line) =>
    .leave (.ok none,
      { s with phase := .configuration run, tracker := tracker, ceiling := ceiling }, line)
  | (.ok .ready, _, tracker, _, line) =>
    .again (enter { s with tracker := tracker } .running now, line)

/-- A pass of the protocol task is a pass of the poll of the phase. -/
def pass (settings : Settings) (now : Instant) : Session × σ →
    Pass (Session × σ) (Except (LinkError ε) (Option Solution) × Session × σ)
  | (s, line) =>
    match s.phase with
    | .baud a =>
      (BaudAlignment.pass now (a, line)).lift s.withAlignment (s.behindAlignment settings now)
    | .version q =>
      (VersionQuery.pass now s.known (q, s.tracker, line)).lift s.withQuery
        (s.behindQuery settings now)
    | .configuration run =>
      (PlanRun.pass now (run, s.tracker, s.ceiling, line)).lift s.withRun (s.behindRun now)
    | .running =>
      let (solution, s) := s.consume now
      .leave (.ok solution, s, line)

variable {s s' : Session} {settings : Settings} {now : Instant} {line line' : σ}
  {result : Except (LinkError ε) (Option Solution)}

/-- With an empty slot running takes nothing. -/
theorem running_ends (hphase : s.phase = .running) (hepoch : s.epoch = none) :
    Ends (pass settings now) (s, line) 1 (.ok none, s, line) :=
  .leave (by simp only [pass, hphase, consume, hepoch])

theorem configure_ends {run : PlanRun} (hphase : s.phase = .configuration run)
    (h : s.configure run now line = (result, s', line')) :
    ∃ n ≤ 4, Ends (pass settings now) (s, line) n (result, s', line') := by
  obtain ⟨answer, run', tracker', ceiling', hpoll, hcases⟩ := configure_state h
  obtain ⟨n, hn, hends⟩ := PlanRun.poll_ends hpoll
  have hplace : (s, line) = s.withRun (run, s.tracker, s.ceiling, line) := by
    rw [withRun, ← hphase]
  rw [hplace]
  rcases hcases with ⟨e, rfl, rfl, rfl⟩ | ⟨rfl, rfl, rfl⟩ | ⟨rfl, rfl, rfl⟩
  · exact ⟨n, Nat.le_succ_of_le hn,
      hends.lift_leave s.withRun (s.behindRun now) (fun _ => rfl) rfl⟩
  · exact ⟨n, Nat.le_succ_of_le hn,
      hends.lift_leave s.withRun (s.behindRun now) (fun _ => rfl) rfl⟩
  · exact ⟨n + 1, Nat.succ_le_succ hn,
      hends.lift_again s.withRun (s.behindRun now) (fun _ => rfl) rfl (running_ends rfl rfl)⟩

theorem askVersion_ends {query : VersionQuery} (hphase : s.phase = .version query)
    (h : s.askVersion settings query now line = (result, s', line')) :
    ∃ n ≤ 7, Ends (pass settings now) (s, line) n (result, s', line') := by
  obtain ⟨answer, query', tracker', line1, hpoll, hcases⟩ := askVersion_state h
  obtain ⟨n, hn, hends⟩ := VersionQuery.poll_ends hpoll
  have hplace : (s, line) = s.withQuery (query, s.tracker, line) := by
    rw [withQuery, ← hphase]
  rw [hplace]
  rcases hcases with ⟨e, rfl, rfl, rfl, rfl⟩ | ⟨rfl, rfl, rfl, rfl⟩ | ⟨rfl, hconfigure⟩
  · exact ⟨n, Nat.le_trans hn (by decide),
      hends.lift_leave s.withQuery (s.behindQuery settings now) (fun _ => rfl) rfl⟩
  · exact ⟨n, Nat.le_trans hn (by decide),
      hends.lift_leave s.withQuery (s.behindQuery settings now) (fun _ => rfl) rfl⟩
  · obtain ⟨k, hk, hrest⟩ := configure_ends rfl hconfigure
    exact ⟨n + k, Nat.add_le_add hn hk,
      hends.lift_again s.withQuery (s.behindQuery settings now) (fun _ => rfl) rfl hrest⟩

theorem alignBaud_ends {a : BaudAlignment} (hphase : s.phase = .baud a)
    (h : s.alignBaud settings a now line = (result, s', line')) :
    ∃ n ≤ 11, Ends (pass settings now) (s, line) n (result, s', line') := by
  obtain ⟨answer, a', line1, hpoll, hcases⟩ := alignBaud_state h
  obtain ⟨n, hn, hends⟩ := BaudAlignment.poll_ends hpoll
  have hplace : (s, line) = s.withAlignment (a, line) := by
    rw [withAlignment, ← hphase]
  rw [hplace]
  rcases hcases with ⟨e, rfl, rfl, rfl, rfl⟩ | ⟨rfl, rfl, rfl, rfl⟩ | ⟨rfl, hauto, hask⟩ |
    ⟨rfl, hauto, rfl, rfl, rfl⟩
  · exact ⟨n, Nat.le_trans hn (by decide),
      hends.lift_leave s.withAlignment (s.behindAlignment settings now) (fun _ => rfl) rfl⟩
  · exact ⟨n, Nat.le_trans hn (by decide),
      hends.lift_leave s.withAlignment (s.behindAlignment settings now) (fun _ => rfl) rfl⟩
  · obtain ⟨k, hk, hrest⟩ := askVersion_ends rfl hask
    refine ⟨n + k, Nat.add_le_add hn hk, hends.lift_again s.withAlignment
      (s.behindAlignment settings now) (fun _ => rfl) ?_ hrest⟩
    simp only [behindAlignment, hauto, if_true]
    rfl
  · refine ⟨n + 1, Nat.le_trans (Nat.succ_le_succ hn) (by decide), hends.lift_again s.withAlignment
      (s.behindAlignment settings now) (fun _ => rfl) ?_ (running_ends rfl rfl)⟩
    simp only [behindAlignment, hauto, Bool.false_eq_true, if_false]
    rfl

/-- **A call of the protocol task is the end of its loop**, after at most eleven passes. -/
theorem advance_ends (h : s.advance settings now line = (result, s', line')) :
    ∃ n ≤ 11, Ends (pass settings now) (s, line) n (result, s', line') := by
  cases advance_cases h with
  | baud a hphase hcall => exact alignBaud_ends hphase hcall
  | version query hphase hcall =>
    obtain ⟨n, hn, hends⟩ := askVersion_ends hphase hcall
    exact ⟨n, Nat.le_trans hn (by decide), hends⟩
  | configuration run hphase hcall =>
    obtain ⟨n, hn, hends⟩ := configure_ends hphase hcall
    exact ⟨n, Nat.le_trans hn (by decide), hends⟩
  | running hphase =>
    exact ⟨1, by decide, .leave (by simp only [pass, hphase])⟩

end Session

end GnssLink
