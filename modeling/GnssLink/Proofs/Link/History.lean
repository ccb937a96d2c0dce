import GnssLink.Link.Session
import GnssLink.Proofs.Serial.Calls

/-!
# The history of a session

The two tasks of a session are called in any order.  Before each call the world acts on the line:
bytes arrive, the transmitter runs empty, the next operations will fail.  The moments between the
calls, up to and including the first failure, are the history of the session.  The line is
recorded, so a moment also shows what was performed so far.

## Main definitions

* `TaskCall` — a call of one of the tasks.
* `Moment`, `Moment.start`, `Moment.next` — what a call leaves behind.
* `Moment.after` — what several calls leave behind.
* `Moment.history` — all moments up to the first failure.
* `Phase.rank` — the place of a phase in the order of the phases.
* `Outcome.asMessage` — the message in the frame that a byte completed.
* `Session.Advances` — what going on comes to, with one case for each phase.

## Main results

* `Session.takeByte_cases` — a byte completes a message, which is acted on, or only the decoder
  takes it.
* `Session.receive_state`, `Session.phase_receive`, `Session.ceiling_receive`,
  `Session.calls_receive` — receiving takes the bytes that the line delivers; it changes neither the
  phase nor its ceiling nor the recorded calls.
* `Session.configure_state`, `Session.askVersion_state`, `Session.alignBaud_state`,
  `Session.runProtocol_state` — what a call of the protocol task does.  The `_cases` of each keep
  only a part of that.
* `Session.runProtocol_keeps` — the protocol task leaves the decoder and the assembler alone.
-/

namespace GnssLink

/-- The place of a phase in the order in which the phases are gone through. -/
def Phase.rank : Phase → Nat
  | .baud _ => 0
  | .version _ => 1
  | .configuration _ => 2
  | .running => 3

/-- A call of one of the two tasks, after the world acted on the line. -/
inductive TaskCall (σ : Type) where
  | receive (world : σ → σ)
  | protocol (now : Instant) (world : σ → σ)

/-- What a call leaves behind: its result, the session and the line. -/
structure Moment (σ ε : Type) where
  result : Except (LinkError ε) (Option Solution)
  session : Session
  line : Recorder σ

namespace Moment

variable {σ ε : Type}

/-- Before the first call. -/
def start (settings : Settings) (line : σ) : Moment σ ε :=
  ⟨.ok none, .start settings, .ofLine line⟩

variable [SerialLine σ ε]

/-- Make a call. -/
def next (settings : Settings) (m : Moment σ ε) : TaskCall σ → Moment σ ε
  | .receive world =>
    let (result, session, line) := m.session.receive (m.line.alter world)
    ⟨result.map fun _ => none, session, line⟩
  | .protocol now world =>
    let (result, session, line) := m.session.runProtocol settings now (m.line.alter world)
    ⟨result, session, line⟩

/-- After several calls.  A failure does not end them. -/
def after (settings : Settings) (m : Moment σ ε) (calls : List (TaskCall σ)) : Moment σ ε :=
  calls.foldl (next settings) m

/-- This moment and those after each of the calls.  A failure ends the session, so no call follows
it. -/
def history (settings : Settings) (m : Moment σ ε) : List (TaskCall σ) → List (Moment σ ε)
  | [] => [m]
  | call :: calls =>
    match m.result with
    | .ok _ => m :: (m.next settings call).history settings calls
    | .error _ => [m]

end Moment

/-! ### The receiving task -/

/-- The message in the frame that a byte completed. -/
def Outcome.asMessage : Outcome → Option Message
  | .frame f => (Message.parse f.type f.payload).toOption
  | .pending | .skipped | .rejected _ => none

namespace Session

/-- **A received byte** completes a message, which is acted on, or only the decoder takes it. -/
theorem takeByte_cases (s : Session) (byte : UInt8) :
    (∃ m, (s.decoder.feed byte).1.asMessage = some m ∧
      s.takeByte byte = dispatch { s with decoder := (s.decoder.feed byte).2 } m) ∨
    ((s.decoder.feed byte).1.asMessage = none ∧
      s.takeByte byte = { s with decoder := (s.decoder.feed byte).2 }) := by
  unfold takeByte
  rcases s.decoder.feed byte with ⟨outcome, decoder⟩
  cases outcome with
  | frame f =>
    simp only [takeFrame, Outcome.asMessage]
    cases Message.parse f.type f.payload with
    | ok m => exact .inl ⟨m, rfl, rfl⟩
    | error e => exact .inr ⟨rfl, rfl⟩
  | pending | skipped | rejected e => exact .inr ⟨rfl, rfl⟩

/-- Neither the phase nor its ceiling is changed by a message. -/
theorem dispatch_keeps (s : Session) (m : Message) :
    (s.dispatch m).phase = s.phase ∧ (s.dispatch m).ceiling = s.ceiling := by
  cases m <;> exact ⟨rfl, rfl⟩

theorem takeByte_keeps (s : Session) (byte : UInt8) :
    (s.takeByte byte).phase = s.phase ∧ (s.takeByte byte).ceiling = s.ceiling := by
  rcases s.takeByte_cases byte with ⟨m, -, htaken⟩ | ⟨-, htaken⟩
  · rw [htaken]
    exact dispatch_keeps _ m
  · rw [htaken]
    exact ⟨rfl, rfl⟩

theorem foldl_takeByte_keeps (s : Session) (bytes : Bytes) :
    (bytes.foldl takeByte s).phase = s.phase ∧ (bytes.foldl takeByte s).ceiling = s.ceiling := by
  induction bytes generalizing s with
  | nil => exact ⟨rfl, rfl⟩
  | cons byte rest ih =>
    obtain ⟨hphase, hceiling⟩ := s.takeByte_keeps byte
    rw [List.foldl_cons, (ih _).1, (ih _).2]
    exact ⟨hphase, hceiling⟩

variable {σ ε : Type} [SerialLine σ ε]

/-- Receiving takes the drained bytes one after the other. -/
theorem receive_state {s s' : Session} {line line' : σ} {result : Except (LinkError ε) Unit}
    (h : s.receive line = (result, s', line')) :
    s' = (SerialLine.drained line).foldl takeByte s := by
  obtain ⟨-, rfl, -⟩ := h
  exact SerialLine.drain_state takeByte s line

theorem phase_receive {s s' : Session} {line line' : σ} {result : Except (LinkError ε) Unit}
    (h : s.receive line = (result, s', line')) : s'.phase = s.phase := by
  rw [receive_state h]
  exact (s.foldl_takeByte_keeps _).1

theorem ceiling_receive {s s' : Session} {line line' : σ} {result : Except (LinkError ε) Unit}
    (h : s.receive line = (result, s', line')) : s'.ceiling = s.ceiling := by
  rw [receive_state h]
  exact (s.foldl_takeByte_keeps _).2

/-- Receiving is not recorded. -/
theorem calls_receive {s s' : Session} {r r' : Recorder σ} {result : Except (LinkError ε) Unit}
    (h : s.receive r = (result, s', r')) : r'.calls = r.calls := by
  obtain ⟨-, -, rfl⟩ := h
  exact Recorder.calls_drain takeByte s r

/-! ### The protocol task -/

/-- Taking the solution out of the slot does not change the phase. -/
theorem phase_consume (s : Session) (now : Instant) : (s.consume now).2.phase = s.phase := by
  unfold consume
  split <;> rfl

section

variable {s s' : Session} {settings : Settings} {now : Instant} {line line' : σ}
  {result : Except (LinkError ε) (Option Solution)}

/-- **Going on with a configuration** is a poll of the plan.  It fails, or it has to be gone on
with, or the session runs: then the phase ceiling starts and the slot is empty. -/
theorem configure_state {run : PlanRun} (h : s.configure run now line = (result, s', line')) :
    ∃ answer run' tracker' ceiling',
      run.poll now s.tracker s.ceiling line = (answer, run', tracker', ceiling', line') ∧
      ((∃ e, answer = .error e ∧ result = .error (.negotiation e) ∧
          s' = { s with phase := .configuration run', tracker := tracker', ceiling := ceiling' }) ∨
       (answer = .ok .pending ∧ result = .ok none ∧
          s' = { s with phase := .configuration run', tracker := tracker', ceiling := ceiling' }) ∨
       (answer = .ok .ready ∧ result = .ok none ∧
          s' = { s with
            phase := .running, tracker := tracker', epoch := none
            ceiling := ⟨some now, Timing.phaseCeiling⟩ })) := by
  rcases hpoll : run.poll now s.tracker s.ceiling line with
    ⟨e | p, run', tracker', ceiling', line1⟩
  · simp only [configure, hpoll, Prod.mk.injEq] at h
    obtain ⟨rfl, rfl, rfl⟩ := h
    exact ⟨_, run', tracker', ceiling', rfl, .inl ⟨e, rfl, rfl, rfl⟩⟩
  · cases p with
    | pending =>
      simp only [configure, hpoll, Prod.mk.injEq] at h
      obtain ⟨rfl, rfl, rfl⟩ := h
      exact ⟨_, run', tracker', ceiling', rfl, .inr (.inl ⟨rfl, rfl, rfl⟩)⟩
    | ready =>
      simp only [configure, hpoll, Prod.mk.injEq] at h
      obtain ⟨rfl, rfl, rfl⟩ := h
      exact ⟨_, run', tracker', ceiling', rfl, .inr (.inr ⟨rfl, rfl, rfl⟩)⟩

theorem configure_cases {run : PlanRun} (h : s.configure run now line = (result, s', line')) :
    ∃ answer run' ceiling',
      run.poll now s.tracker s.ceiling line = (answer, run', s'.tracker, ceiling', line') ∧
      ((∃ e, answer = .error e ∧ result = .error (.negotiation e) ∧
          s'.phase = .configuration run') ∨
       (answer = .ok .pending ∧ result = .ok none ∧ s'.phase = .configuration run') ∨
       (answer = .ok .ready ∧ (∃ solution, result = .ok solution) ∧ s'.phase = .running)) := by
  obtain ⟨answer, run', tracker', ceiling', hpoll,
    ⟨e, hanswer, hresult, rfl⟩ | ⟨hanswer, hresult, rfl⟩ | ⟨hanswer, hresult, rfl⟩⟩ :=
    configure_state h
  · exact ⟨answer, run', ceiling', hpoll, .inl ⟨e, hanswer, hresult, rfl⟩⟩
  · exact ⟨answer, run', ceiling', hpoll, .inr (.inl ⟨hanswer, hresult, rfl⟩)⟩
  · exact ⟨answer, run', ceiling', hpoll, .inr (.inr ⟨hanswer, ⟨none, hresult⟩, rfl⟩)⟩

/-- **Going on with the version query** is a poll of the query, and behind it a configuration begins
for what is known by then, with the ceiling of the query and an empty slot. -/
theorem askVersion_state {query : VersionQuery}
    (h : s.askVersion settings query now line = (result, s', line')) :
    ∃ answer query' tracker' line1,
      query.poll now s.known s.tracker line = (answer, query', tracker', line1) ∧
      ((∃ e, answer = .error e ∧ result = .error (.negotiation e) ∧ line' = line1 ∧
          s' = { s with phase := .version query', tracker := tracker' }) ∨
       (answer = .ok .pending ∧ result = .ok none ∧ line' = line1 ∧
          s' = { s with phase := .version query', tracker := tracker' }) ∨
       (answer = .ok .ready ∧
          configure
            { s with
              phase := .configuration (.start (Plan.make settings s.known))
              tracker := tracker', epoch := none }
            (.start (Plan.make settings s.known)) now line1 = (result, s', line'))) := by
  rcases hpoll : query.poll now s.known s.tracker line with ⟨e | p, query', tracker', line1⟩
  · simp only [askVersion, hpoll, Prod.mk.injEq] at h
    obtain ⟨rfl, rfl, rfl⟩ := h
    exact ⟨_, query', tracker', line1, rfl, .inl ⟨e, rfl, rfl, rfl, rfl⟩⟩
  · cases p with
    | pending =>
      simp only [askVersion, hpoll, Prod.mk.injEq] at h
      obtain ⟨rfl, rfl, rfl⟩ := h
      exact ⟨_, query', tracker', line1, rfl, .inr (.inl ⟨rfl, rfl, rfl, rfl⟩)⟩
    | ready =>
      simp only [askVersion, hpoll] at h
      exact ⟨_, query', tracker', line1, rfl, .inr (.inr ⟨rfl, h⟩)⟩

theorem askVersion_cases {query : VersionQuery}
    (h : s.askVersion settings query now line = (result, s', line')) :
    ∃ answer query' tracker' line1,
      query.poll now s.known s.tracker line = (answer, query', tracker', line1) ∧
      ((∃ e, answer = .error e ∧ result = .error (.negotiation e) ∧
          s'.phase = .version query' ∧ line' = line1) ∨
       (answer = .ok .pending ∧ result = .ok none ∧ s'.phase = .version query' ∧ line' = line1) ∨
       (answer = .ok .ready ∧ ∃ s1,
          configure s1 (.start (Plan.make settings s.known)) now line1 = (result, s', line'))) := by
  obtain ⟨answer, query', tracker', line1, hpoll,
    ⟨e, hanswer, hresult, hline, rfl⟩ | ⟨hanswer, hresult, hline, rfl⟩ | ⟨hanswer, hconfigure⟩⟩ :=
    askVersion_state h
  · exact ⟨answer, query', tracker', line1, hpoll, .inl ⟨e, hanswer, hresult, rfl, hline⟩⟩
  · exact ⟨answer, query', tracker', line1, hpoll, .inr (.inl ⟨hanswer, hresult, rfl, hline⟩)⟩
  · exact ⟨answer, query', tracker', line1, hpoll, .inr (.inr ⟨hanswer, _, hconfigure⟩)⟩

/-- **Going on with the alignment** is a poll of the alignment, and behind it a version query
begins, or the session runs.  Either starts the phase ceiling and empties the slot. -/
theorem alignBaud_state {a : BaudAlignment}
    (h : s.alignBaud settings a now line = (result, s', line')) :
    ∃ answer a' line1, a.poll now line = (answer, a', line1) ∧
      ((∃ e, answer = .error e ∧ result = .error (.negotiation e) ∧ line' = line1 ∧
          s' = { s with phase := .baud a' }) ∨
       (answer = .ok .pending ∧ result = .ok none ∧ line' = line1 ∧
          s' = { s with phase := .baud a' }) ∨
       (answer = .ok .ready ∧ settings.autoConfig = true ∧
          askVersion
            { s with
              phase := .version .start, epoch := none
              ceiling := ⟨some now, Timing.phaseCeiling⟩ }
            settings .start now line1 = (result, s', line')) ∨
       (answer = .ok .ready ∧ settings.autoConfig = false ∧ result = .ok none ∧ line' = line1 ∧
          s' = { s with
            phase := .running, epoch := none, ceiling := ⟨some now, Timing.phaseCeiling⟩ })) := by
  rcases hpoll : a.poll now line with ⟨e | p, a', line1⟩
  · simp only [alignBaud, hpoll, Prod.mk.injEq] at h
    obtain ⟨rfl, rfl, rfl⟩ := h
    exact ⟨_, a', line1, rfl, .inl ⟨e, rfl, rfl, rfl, rfl⟩⟩
  · cases p with
    | pending =>
      simp only [alignBaud, hpoll, Prod.mk.injEq] at h
      obtain ⟨rfl, rfl, rfl⟩ := h
      exact ⟨_, a', line1, rfl, .inr (.inl ⟨rfl, rfl, rfl, rfl⟩)⟩
    | ready =>
      simp only [alignBaud, hpoll] at h
      split at h
      · next hauto => exact ⟨_, a', line1, rfl, .inr (.inr (.inl ⟨rfl, hauto, h⟩))⟩
      · next hauto =>
        simp only [Prod.mk.injEq] at h
        obtain ⟨rfl, rfl, rfl⟩ := h
        exact ⟨_, a', line1, rfl,
          .inr (.inr (.inr ⟨rfl, Bool.eq_false_iff.2 hauto, rfl, rfl, rfl⟩))⟩

theorem alignBaud_cases {a : BaudAlignment}
    (h : s.alignBaud settings a now line = (result, s', line')) :
    ∃ answer a' line1, a.poll now line = (answer, a', line1) ∧
      ((∃ e, answer = .error e ∧ result = .error (.negotiation e) ∧
          s'.phase = .baud a' ∧ line' = line1) ∨
       (answer = .ok .pending ∧ result = .ok none ∧ s'.phase = .baud a' ∧ line' = line1) ∨
       (answer = .ok .ready ∧ settings.autoConfig = true ∧ ∃ s1,
          askVersion s1 settings .start now line1 = (result, s', line') ∧ s1.known = s.known) ∨
       (answer = .ok .ready ∧ settings.autoConfig = false ∧
          (∃ solution, result = .ok solution) ∧ s'.phase = .running ∧ line' = line1)) := by
  obtain ⟨answer, a', line1, hpoll,
    ⟨e, hanswer, hresult, hline, rfl⟩ | ⟨hanswer, hresult, hline, rfl⟩ | ⟨hanswer, hauto, hask⟩ |
    ⟨hanswer, hauto, hresult, hline, rfl⟩⟩ := alignBaud_state h
  · exact ⟨answer, a', line1, hpoll, .inl ⟨e, hanswer, hresult, rfl, hline⟩⟩
  · exact ⟨answer, a', line1, hpoll, .inr (.inl ⟨hanswer, hresult, rfl, hline⟩)⟩
  · exact ⟨answer, a', line1, hpoll, .inr (.inr (.inl ⟨hanswer, hauto, _, hask, rfl⟩))⟩
  · exact ⟨answer, a', line1, hpoll,
      .inr (.inr (.inr ⟨hanswer, hauto, ⟨none, hresult⟩, rfl, hline⟩))⟩

end

/-- Going on from the present phase, with what it comes to: the call that belongs to the phase, or
while running the solution out of the slot. -/
inductive Advances (s : Session) (settings : Settings) (now : Instant) (line : σ) :
    Except (LinkError ε) (Option Solution) → Session → σ → Prop
  | baud {result : Except (LinkError ε) (Option Solution)} {s' : Session} {line' : σ}
      (a : BaudAlignment) (phase : s.phase = .baud a)
      (call : s.alignBaud settings a now line = (result, s', line')) :
      Advances s settings now line result s' line'
  | version {result : Except (LinkError ε) (Option Solution)} {s' : Session} {line' : σ}
      (query : VersionQuery) (phase : s.phase = .version query)
      (call : s.askVersion settings query now line = (result, s', line')) :
      Advances s settings now line result s' line'
  | configuration {result : Except (LinkError ε) (Option Solution)} {s' : Session} {line' : σ}
      (run : PlanRun) (phase : s.phase = .configuration run)
      (call : s.configure run now line = (result, s', line')) :
      Advances s settings now line result s' line'
  | running (phase : s.phase = .running) :
      Advances s settings now line (.ok (s.consume now).1) (s.consume now).2 line

/-- **Going on** is one of four calls, by the phase. -/
theorem advance_cases {s s' : Session} {settings : Settings} {now : Instant} {line line' : σ}
    {result : Except (LinkError ε) (Option Solution)}
    (h : s.advance settings now line = (result, s', line')) :
    s.Advances settings now line result s' line' := by
  unfold advance at h
  split at h
  · next a hphase => exact .baud a hphase h
  · next query hphase => exact .version query hphase h
  · next run hphase => exact .configuration run hphase h
  · next hphase =>
    cases h
    exact .running hphase

/-- What a call comes to behind the check of the ceiling: a failure stays one, and a success is one
as long as the ceiling is not exceeded. -/
inductive Checked (now : Instant) (ceiling : Ceiling)
    (advanced result : Except (LinkError ε) (Option Solution)) : Prop
  | failed (e : LinkError ε) (failed : advanced = .error e) (handed_on : result = .error e)
  | exceeded (solution : Option Solution) (advanced_ok : advanced = .ok solution)
      (late : ceiling.expired now = true)
      (lost : result = .error (.ceilingExceeded ceiling.limit))
  | inTime (solution : Option Solution) (advanced_ok : advanced = .ok solution)
      (early : ceiling.expired now = false) (handed_on : result = .ok solution)

/-- A success in time stays one. -/
theorem Checked.of_early {now : Instant} {ceiling : Ceiling} {solution : Option Solution}
    {advanced result : Except (LinkError ε) (Option Solution)}
    (h : Checked now ceiling advanced result) (hok : advanced = .ok solution)
    (hearly : ceiling.expired now = false) : result = .ok solution := by
  rcases h with ⟨e, herror, -⟩ | ⟨_, -, hlate, -⟩ | ⟨taken, htaken, -, hresult⟩
  · cases hok.symm.trans herror
  · cases hearly.symm.trans hlate
  · cases hok.symm.trans htaken
    exact hresult

/-- A failure stays one. -/
theorem Checked.of_error {now : Instant} {ceiling : Ceiling} {e : LinkError ε}
    {advanced result : Except (LinkError ε) (Option Solution)}
    (h : Checked now ceiling advanced result) (herror : advanced = .error e) :
    result = .error e := by
  rcases h with ⟨_, hfailed, hresult⟩ | ⟨_, hok, -⟩ | ⟨_, hok, -⟩
  · cases herror.symm.trans hfailed
    exact hresult
  · cases herror.symm.trans hok
  · cases herror.symm.trans hok

/-- A success behind the check was one before. -/
theorem Checked.of_ok {now : Instant} {ceiling : Ceiling} {solution : Option Solution}
    {advanced result : Except (LinkError ε) (Option Solution)}
    (h : Checked now ceiling advanced result) (hok : result = .ok solution) :
    advanced = .ok solution ∧ ceiling.expired now = false := by
  rcases h with ⟨e, -, herror⟩ | ⟨_, -, -, herror⟩ | ⟨taken, htaken, hearly, hresult⟩
  · cases hok.symm.trans herror
  · cases hok.symm.trans herror
  · cases hok.symm.trans hresult
    exact ⟨htaken, hearly⟩

/-- **A call of the protocol task** goes on from the present phase, with a ceiling that runs, and
the ceiling is checked behind that. -/
theorem runProtocol_state {s s' : Session} {settings : Settings} {now : Instant} {line line' : σ}
    {result : Except (LinkError ε) (Option Solution)}
    (h : s.runProtocol settings now line = (result, s', line')) :
    ∃ advanced, Session.advance { s with ceiling := s.ceiling.start now } settings now line =
        (advanced, s', line') ∧
      Checked now s'.ceiling advanced result := by
  rcases hadvance : Session.advance { s with ceiling := s.ceiling.start now } settings now line with
    ⟨e | solution, s1, line1⟩
  · simp only [runProtocol, hadvance, Prod.mk.injEq] at h
    obtain ⟨rfl, rfl, rfl⟩ := h
    exact ⟨_, rfl, .failed e rfl rfl⟩
  · simp only [runProtocol, hadvance] at h
    split at h
    · next hexpired =>
      simp only [Prod.mk.injEq] at h
      obtain ⟨rfl, rfl, rfl⟩ := h
      exact ⟨_, rfl, .exceeded solution rfl hexpired rfl⟩
    · next hexpired =>
      simp only [Prod.mk.injEq] at h
      obtain ⟨rfl, rfl, rfl⟩ := h
      exact ⟨_, rfl, .inTime solution rfl (Bool.eq_false_iff.2 hexpired) rfl⟩

/-- The ceiling can turn a success into a failure, and leaves the session and the line as they
are. -/
theorem runProtocol_cases {s s' : Session} {settings : Settings} {now : Instant} {line line' : σ}
    {result : Except (LinkError ε) (Option Solution)}
    (h : s.runProtocol settings now line = (result, s', line')) :
    ∃ advanced, Session.advance { s with ceiling := s.ceiling.start now } settings now line =
        (advanced, s', line') ∧
      (result = advanced ∨
        (∃ solution, advanced = .ok solution) ∧
          result = .error (.ceilingExceeded s'.ceiling.limit)) := by
  obtain ⟨advanced, hadvance, ⟨e, rfl, rfl⟩ | ⟨solution, rfl, -, rfl⟩ | ⟨solution, rfl, -, rfl⟩⟩ :=
    runProtocol_state h
  · exact ⟨_, hadvance, .inl rfl⟩
  · exact ⟨_, hadvance, .inr ⟨⟨solution, rfl⟩, rfl⟩⟩
  · exact ⟨_, hadvance, .inl rfl⟩

/-! ### The decoder and the assembler -/

/-- The decoder and the assembler are the same. -/
structure SameReception (s s' : Session) : Prop where
  decoder : s'.decoder = s.decoder
  assembler : s'.assembler = s.assembler

section

variable {s s' : Session} {settings : Settings} {now : Instant} {line line' : σ}
  {result : Except (LinkError ε) (Option Solution)}

theorem configure_keeps {run : PlanRun} (h : s.configure run now line = (result, s', line')) :
    s.SameReception s' := by
  obtain ⟨_, _, _, _, -, ⟨_, -, -, rfl⟩ | ⟨-, -, rfl⟩ | ⟨-, -, rfl⟩⟩ := configure_state h <;>
    exact ⟨rfl, rfl⟩

theorem askVersion_keeps {query : VersionQuery}
    (h : s.askVersion settings query now line = (result, s', line')) : s.SameReception s' := by
  obtain ⟨_, _, _, _, -, ⟨_, -, -, -, rfl⟩ | ⟨-, -, -, rfl⟩ | ⟨-, hconfigure⟩⟩ :=
    askVersion_state h
  · exact ⟨rfl, rfl⟩
  · exact ⟨rfl, rfl⟩
  · obtain ⟨hdecoder, hassembler⟩ := configure_keeps hconfigure
    exact ⟨hdecoder, hassembler⟩

/-- **The protocol task leaves the decoder and the assembler alone.** -/
theorem runProtocol_keeps (h : s.runProtocol settings now line = (result, s', line')) :
    s.SameReception s' := by
  obtain ⟨advanced, hadvance, -⟩ := runProtocol_state h
  cases advance_cases hadvance with
  | baud a _ hcall =>
    obtain ⟨_, _, _, -, ⟨_, -, -, -, rfl⟩ | ⟨-, -, -, rfl⟩ | ⟨-, -, hask⟩ | ⟨-, -, -, -, rfl⟩⟩ :=
      alignBaud_state hcall
    · exact ⟨rfl, rfl⟩
    · exact ⟨rfl, rfl⟩
    · obtain ⟨hdecoder, hassembler⟩ := askVersion_keeps hask
      exact ⟨hdecoder, hassembler⟩
    · exact ⟨rfl, rfl⟩
  | version query _ hcall =>
    obtain ⟨hdecoder, hassembler⟩ := askVersion_keeps hcall
    exact ⟨hdecoder, hassembler⟩
  | configuration run _ hcall =>
    obtain ⟨hdecoder, hassembler⟩ := configure_keeps hcall
    exact ⟨hdecoder, hassembler⟩
  | running =>
    unfold consume
    split <;> exact ⟨rfl, rfl⟩

end

end Session

end GnssLink
