import GnssLink.Proofs.Link.Attempts
import GnssLink.Proofs.Link.Ceilings

/-!
# When a ceiling is exceeded

The two tasks of a session are called in any order and at any readings of the clock, also after a
failure and also if the clock goes back.  A call of the protocol task in which no operation of the
line fails and no command is refused ends with an exceeded ceiling if and only if more time than the
limit of the phase has passed since the ceiling began.

When a ceiling began can be told from the calls: for the alignment with the first call, for the
version query with the call that began it, for a configuration with the last call that attempted to
send the first step of a group, and while running with the last call that began to run or took a
solution.

## Main definitions

* `ProtocolCall`, `Moment.protocolCalls` — a call of the protocol task, and those of a run.
* `ProtocolCall.Sends`, `ProtocolCall.Begins` — the calls that begin a ceiling.
* `CeilingBegan` — the instant at which the ceiling of a phase began.
* `ProtocolCall.BeginsOrKeeps` — what a call does to the ceiling.
* `Dated` — the session knows that instant.

## Main results

* `ProtocolCall.beginsOrKeeps_of_sends`, `Moment.begins_or_keeps` — a call that sends a step, and
  any call.
* `Dated.protocolCall` — a call keeps the date of the ceiling.
* `ProtocolCall.ceilingExceeded_iff` — which calls exceed the ceiling, in every run.
-/

namespace GnssLink

/-- A call of the protocol task: its instant, and the moments before and behind it. -/
structure ProtocolCall (σ ε : Type) where
  now : Instant
  before : Moment σ ε
  after : Moment σ ε

namespace Moment

variable {σ ε : Type} [SerialLine σ ε]

/-- Call the protocol task. -/
def protocolCall (settings : Settings) (m : Moment σ ε) (now : Instant) (world : σ → σ) :
    ProtocolCall σ ε :=
  ⟨now, m, m.next settings (.protocol now world)⟩

/-- The calls of the protocol task in a run, in order.  A failure does not end the run. -/
def protocolCalls (settings : Settings) (m : Moment σ ε) :
    List (TaskCall σ) → List (ProtocolCall σ ε)
  | [] => []
  | .receive world :: calls => (m.next settings (.receive world)).protocolCalls settings calls
  | .protocol now world :: calls =>
    m.protocolCall settings now world ::
      (m.next settings (.protocol now world)).protocolCalls settings calls

end Moment

variable {σ ε : Type}

/-! ### When a ceiling began -/

namespace ProtocolCall

/-- The operations on the line that the call attempted. -/
def attempts (c : ProtocolCall σ ε) : List LineCall :=
  c.after.line.calls.drop c.before.line.calls.length

/-- The call comes to a step of the configuration and attempts to send its command. -/
def Sends (c : ProtocolCall σ ε) (index : Nat) : Prop :=
  ∃ run step ok, c.after.session.phase = .configuration run ∧ run.cursor = index ∧
    run.plan[index]? = some step ∧
    c.attempts.getLast? = some (.write step.command.toCommand.transmitted ok)

/-- The call begins the ceiling of a phase.  That of the alignment begins with the first call. -/
def Begins (c : ProtocolCall σ ε) : Phase → Prop
  | .baud _ => False
  | .version _ =>
    (∀ query, c.before.session.phase ≠ .version query) ∧
      ∃ query, c.after.session.phase = .version query
  | .configuration _ => ∃ index ∈ Plan.groupStarts, c.Sends index
  | .running =>
    (c.before.session.phase ≠ .running ∧ c.after.session.phase = .running) ∨
      ∃ solution, c.after.result = .ok (some solution)

end ProtocolCall

variable {run : List (ProtocolCall σ ε)} {c : ProtocolCall σ ε} {t : Instant}

/-- The last call with a property was made at an instant. -/
def LastAt (property : ProtocolCall σ ε → Prop) (run : List (ProtocolCall σ ε)) (t : Instant) :
    Prop :=
  ∃ earlier c later, run = earlier ++ c :: later ∧ property c ∧ c.now = t ∧
    ∀ c' ∈ later, ¬ property c'

/-- The instant at which the ceiling of a phase began. -/
def CeilingBegan (run : List (ProtocolCall σ ε)) : Phase → Instant → Prop
  | .baud _, t => run.head?.map ProtocolCall.now = some t
  | .version query, t => LastAt (fun c => c.Begins (.version query)) run t
  | .configuration r, t => LastAt (fun c => c.Begins (.configuration r)) run t
  | .running, t => LastAt (fun c => c.Begins .running) run t

theorem LastAt.append_of {property : ProtocolCall σ ε → Prop} (h : property c) :
    LastAt property (run ++ [c]) c.now :=
  ⟨run, c, [], rfl, h, rfl, fun _ hmem => nomatch hmem⟩

theorem LastAt.append_of_not {property : ProtocolCall σ ε → Prop} (ht : LastAt property run t)
    (h : ¬ property c) : LastAt property (run ++ [c]) t := by
  obtain ⟨earlier, c0, later, rfl, hc0, hnow, hlater⟩ := ht
  refine ⟨earlier, c0, later ++ [c], by rw [List.append_assoc]; rfl, hc0, hnow, ?_⟩
  intro c' hmem
  rcases List.mem_append.1 hmem with hmem | hmem
  · exact hlater c' hmem
  · rw [List.mem_singleton.1 hmem]
    exact h

/-- The date does not depend on how far the phase has got. -/
theorem CeilingBegan.congr {p p' : Phase} (hrank : p'.rank = p.rank) (ht : CeilingBegan run p t) :
    CeilingBegan run p' t := by
  cases p <;> cases p' <;> first | exact ht | cases hrank

/-- A call that begins the ceiling of a phase dates it. -/
theorem CeilingBegan.append_of {phase : Phase} (h : c.Begins phase) :
    CeilingBegan (run ++ [c]) phase c.now := by
  cases phase with
  | baud a => exact h.elim
  | version query => exact LastAt.append_of h
  | configuration r => exact LastAt.append_of h
  | running => exact LastAt.append_of h

/-- Any other call behind the first one does not. -/
theorem CeilingBegan.append_of_not {phase : Phase} (hrun : run ≠ [])
    (ht : CeilingBegan run phase t) (h : ¬ c.Begins phase) :
    CeilingBegan (run ++ [c]) phase t := by
  cases phase with
  | baud a =>
    obtain ⟨first, rest, rfl⟩ := List.exists_cons_of_ne_nil hrun
    exact ht
  | version query => exact LastAt.append_of_not ht h
  | configuration r => exact LastAt.append_of_not ht h
  | running => exact LastAt.append_of_not ht h

/-! ### One call -/

variable [SerialLine σ ε] {settings : Settings} {m : Moment σ ε}

/-- On a recorded line something is attempted before a step is reached. -/
theorem Session.Reaches.calls_isPrefix {s : Session} {now : Instant} {r r' : Recorder σ}
    {planRun : PlanRun} {tracker : ReplyTracker}
    (h : s.Reaches settings now r planRun tracker r') : r.calls <+: r'.calls := by
  cases h with
  | again | next => exact List.prefix_refl _
  | first query query' tracker r' before answered =>
    obtain ⟨attempts, hcalls, -⟩ := VersionQuery.poll_attempts answered
    exact ⟨attempts, hcalls.symm⟩
  | firstAtOnce a a' query' tracker r1 r' before aligned answered =>
    obtain ⟨attempts, hcalls, -⟩ :=
      (BaudAlignment.poll_attempts aligned).trans (VersionQuery.poll_attempts answered)
    exact ⟨attempts, hcalls.symm⟩

/-- A call goes on from the present phase, and checks the ceiling behind that. -/
theorem Moment.protocolCall_advance {now : Instant} {world : σ → σ}
    (hc : c = m.protocolCall settings now world) :
    ∃ advanced,
      Session.advance { m.session with ceiling := m.session.ceiling.start now } settings now
          (m.line.alter world) = (advanced, c.after.session, c.after.line) ∧
        Session.Checked now c.after.session.ceiling advanced c.after.result := by
  rcases hprotocol : m.session.runProtocol settings now (m.line.alter world) with ⟨result, s', r'⟩
  have hafter : c.after = ⟨result, s', r'⟩ := by
    simp only [hc, protocolCall, next, hprotocol]
  rw [hafter]
  exact Session.runProtocol_state hprotocol

/-- What a call does to the phase and to the ceiling, and what it attempts. -/
theorem Moment.protocolCall_state (settings : Settings) (m : Moment σ ε) (now : Instant)
    (world : σ → σ) (hc : c = m.protocolCall settings now world) :
    ∃ advanced,
      Session.Moves settings now { m.session with ceiling := m.session.ceiling.start now }
        c.after.session (m.line.alter world) c.after.line advanced ∧
      Attempts LinkError.IsRefusal advanced (m.line.alter world) c.after.line ∧
      Session.Checked now c.after.session.ceiling advanced c.after.result := by
  obtain ⟨advanced, hadvance, hchecked⟩ := protocolCall_advance hc
  exact ⟨advanced, Session.advance_moves hadvance, Session.advance_attempts hadvance, hchecked⟩

omit [SerialLine σ ε] in
/-- The record of a call is what it attempted. -/
theorem ProtocolCall.attempts_eq {world : σ → σ} {attempts : List LineCall}
    (hbefore : c.before = m) (h : c.after.line.calls = (m.line.alter world).calls ++ attempts) :
    c.attempts = attempts := by
  rw [ProtocolCall.attempts, h, hbefore]
  exact List.drop_left

omit [SerialLine σ ε] in
/-- A call that attempts nothing sends no step. -/
theorem ProtocolCall.not_sends {index : Nat} (h : c.attempts = []) : ¬ c.Sends index := by
  rintro ⟨planRun, step, ok, -, -, -, hlast⟩
  rw [h] at hlast
  cases hlast

/-- A call that reaches a step and sends its command shows that as its last attempt. -/
theorem ProtocolCall.sends_of_reaches {now : Instant} {s : Session} {r r1 : Recorder σ}
    {planRun planRun' : PlanRun} {step : PlanStep} {tracker tracker' : ReplyTracker}
    {sent : Except (SendError ε) Unit} (hcalls : c.after.line.calls = r.calls ++ c.attempts)
    (hreaches : s.Reaches settings now r planRun tracker r1)
    (hstep : planRun.plan[planRun.cursor]? = some step)
    (hsend : step.command.toCommand.send tracker r1 = (sent, tracker', c.after.line))
    (hafter : c.after.session.phase = .configuration planRun')
    (hplan : planRun'.plan = planRun.plan) (hcursor : planRun'.cursor = planRun.cursor) :
    c.Sends planRun.cursor := by
  obtain ⟨earlier, hearlier⟩ := hreaches.calls_isPrefix
  obtain ⟨ok, hwrite⟩ := step.command.fits.calls_send hsend
  rw [hwrite, ← hearlier, List.append_assoc] at hcalls
  refine ⟨planRun', step, ok, hafter, hcursor, by rw [hplan]; exact hstep, ?_⟩
  rw [← List.append_cancel_left hcalls]
  exact List.getLast?_concat

omit [SerialLine σ ε] in
/-- A call that sends a step begins a ceiling if and only if the step is the first of a group. -/
theorem ProtocolCall.begins_configuration_iff {index : Nat} (h : c.Sends index)
    (planRun : PlanRun) : c.Begins (.configuration planRun) ↔ index ∈ Plan.groupStarts := by
  refine ⟨?_, fun hstart => ⟨index, hstart, h⟩⟩
  -- the call comes to one step only
  rintro ⟨start, hstart, startRun, _, _, hstartAfter, rfl, -⟩
  obtain ⟨indexRun, _, _, hindexAfter, rfl, -⟩ := h
  cases hindexAfter.symm.trans hstartAfter
  exact hstart

/-- What a call does to the ceiling: it begins the one of the phase that it comes to, or it leaves
the ceiling alone and stays in the phase. -/
inductive ProtocolCall.BeginsOrKeeps (c : ProtocolCall σ ε) (now : Instant) : Prop
  | begins (phase : Phase) (after : c.after.session.phase = phase) (begun : c.Begins phase)
      (armed : c.after.session.ceiling.startedAt = some now)
  | keeps (phase : Phase) (after : c.after.session.phase = phase) (other : ¬ c.Begins phase)
      (kept : c.after.session.ceiling = c.before.session.ceiling.start now)
      (same : phase.rank = c.before.session.phase.rank)

/-- **A call that sends a step** begins the ceiling of a group with its first step, and keeps it
with the others, which are reached from inside of the group. -/
theorem ProtocolCall.beginsOrKeeps_of_sends {now : Instant} {r r1 : Recorder σ}
    {planRun planRun' : PlanRun} {step : PlanStep} {tracker : ReplyTracker}
    (htimed : c.before.session.Timed settings)
    (hreaches : Session.Reaches settings now
      { c.before.session with ceiling := c.before.session.ceiling.start now } r planRun tracker r1)
    (hstep : planRun.plan[planRun.cursor]? = some step) (hsends : c.Sends planRun.cursor)
    (hafter : c.after.session.phase = .configuration planRun')
    (hceiling : c.after.session.ceiling =
      if step.opensGroup then ⟨some now, Timing.groupCeiling⟩
      else c.before.session.ceiling.start now) :
    c.BeginsOrKeeps now := by
  obtain ⟨known, hplan⟩ := hreaches.plan (htimed.start now)
  have hopens := Plan.opensGroup_iff (hplan ▸ hstep)
  have hbegins := ProtocolCall.begins_configuration_iff hsends planRun'
  by_cases hstart : planRun.cursor ∈ Plan.groupStarts
  · rw [if_pos (hopens.2 hstart)] at hceiling
    exact .begins _ hafter (hbegins.2 hstart) (by rw [hceiling])
  · rw [if_neg (mt hopens.1 hstart)] at hceiling
    obtain ⟨inside, hinside, -⟩ := hreaches.inside hstart
    exact .keeps _ hafter (mt hbegins.1 hstart) hceiling (congrArg Phase.rank hinside).symm

/-- **A call begins the ceiling of the phase that it comes to, or it leaves the ceiling alone** and
stays in the phase. -/
theorem Moment.begins_or_keeps (hm : m.session.Timed settings) {now : Instant} {world : σ → σ}
    (hc : c = m.protocolCall settings now world) : c.BeginsOrKeeps now := by
  obtain ⟨advanced, hmoves, ⟨attempts, hcalls, -⟩, hchecked⟩ :=
    protocolCall_state settings m now world hc
  obtain rfl : m = c.before := by
    rw [hc]
    rfl
  obtain rfl := ProtocolCall.attempts_eq rfl hcalls
  cases hmoves with
  | aligns a a' before after kept =>
    exact .keeps _ after id kept (congrArg Phase.rank before).symm
  | beginsQuery a query before after armed =>
    refine .begins _ after ⟨fun query' hquery => ?_, query, after⟩ (by rw [armed])
    cases hquery.symm.trans before
  | asks query query' before after kept =>
    exact .keeps _ after (fun hbegins => hbegins.1 query before) kept
      (congrArg Phase.rank before).symm
  | waits planRun before after kept idle =>
    refine .keeps _ after ?_ kept (congrArg Phase.rank before).symm
    -- nothing was attempted, so no step was sent
    rw [idle, List.self_eq_append_right] at hcalls
    rintro ⟨index, -, hsends⟩
    exact ProtocolCall.not_sends hcalls hsends
  | sends planRun planRun' step tracker line1 sent reaches at_cursor send after plan cursor waiting
      ceiling =>
    have hsends := ProtocolCall.sends_of_reaches hcalls reaches at_cursor send after plan cursor
    exact ProtocolCall.beginsOrKeeps_of_sends hm reaches at_cursor hsends after ceiling
  | runs before after armed =>
    exact .begins _ after (.inl ⟨before, after⟩) (by rw [armed])
  | idles before after kept untaken =>
    refine .keeps _ after ?_ kept (congrArg Phase.rank before).symm
    rintro (⟨hother, -⟩ | ⟨solution, htaken⟩)
    · exact hother before
    · cases untaken.symm.trans (hchecked.of_ok htaken).1
  | takes solution before after armed taken =>
    refine .begins _ after (.inr ⟨solution, hchecked.of_early taken ?_⟩) (by rw [armed])
    rw [armed]
    exact Ceiling.expired_of_now _ _

/-- The session knows its limit, and the instant at which its ceiling began; before the first call
it aligns the speed, and no ceiling runs. -/
structure Dated (settings : Settings) (run : List (ProtocolCall σ ε)) (m : Moment σ ε) : Prop where
  timed : m.session.Timed settings
  fresh : run = [] → m.session.ceiling.startedAt = none ∧ ∃ a, m.session.phase = .baud a
  began : run ≠ [] →
    ∃ t, m.session.ceiling.startedAt = some t ∧ CeilingBegan run m.session.phase t

omit [SerialLine σ ε] in
theorem Dated.start (settings : Settings) (line : σ) :
    Dated settings [] (Moment.start settings line : Moment σ ε) :=
  ⟨Session.timed_start settings, fun _ => ⟨rfl, _, rfl⟩, fun hrun => absurd rfl hrun⟩

/-- Receiving keeps the date of the ceiling. -/
theorem Dated.receive (hm : Dated settings run m) (world : σ → σ) :
    Dated settings run (m.next settings (.receive world)) := by
  rcases hreceive : m.session.receive (m.line.alter world) with ⟨result, s', r'⟩
  have hnext : (m.next settings (.receive world)).session = s' := by
    simp only [Moment.next, hreceive]
  have hphase := Session.phase_receive hreceive
  have hceiling := Session.ceiling_receive hreceive
  constructor
  case timed =>
    rw [hnext]
    exact hm.timed.congr hphase hceiling
  case fresh =>
    rw [hnext, hphase, hceiling]
    exact hm.fresh
  case began =>
    rw [hnext, hphase, hceiling]
    exact hm.began

/-- **A call keeps the date of the ceiling.**  A call that begins a ceiling, and the first call of
all, make it their own instant. -/
theorem Dated.protocolCall (hm : Dated settings run m) {now : Instant} {world : σ → σ}
    (hc : c = m.protocolCall settings now world) :
    ∃ t, c.after.session.ceiling = ⟨some t, c.after.session.phase.ceilingLimit settings⟩ ∧
      CeilingBegan (run ++ [c]) c.after.session.phase t ∧
      (run = [] ∨ c.Begins c.after.session.phase → t = now) ∧ c.after.session.Timed settings := by
  obtain ⟨advanced, hmoves, -⟩ := Moment.protocolCall_state settings m now world hc
  have htimed : c.after.session.Timed settings := hmoves.timed (hm.timed.start now)
  have hnow : c.now = now := by
    rw [hc]
    rfl
  have hceiling : ∀ t, c.after.session.ceiling.startedAt = some t →
      c.after.session.ceiling = ⟨some t, c.after.session.phase.ceilingLimit settings⟩ := by
    intro t ht
    rw [← ht, ← htimed.limit]
  have hbefore : c.before = m := by
    rw [hc]
    rfl
  rcases Moment.begins_or_keeps hm.timed hc with
    ⟨_, rfl, hbegins, harmed⟩ | ⟨_, rfl, hnot, hkept, hrank⟩
  · exact ⟨now, hceiling now harmed, hnow ▸ CeilingBegan.append_of hbegins, fun _ => rfl, htimed⟩
  · rw [hbefore] at hkept hrank
    by_cases hrun : run = []
    · obtain ⟨hoff, a, hbaud⟩ := hm.fresh hrun
      refine ⟨now, hceiling now ?_, ?_, fun _ => rfl, htimed⟩
      · simp only [hkept, Ceiling.start, hoff]
      · have hfirst : CeilingBegan [c] (.baud a) now := congrArg some hnow
        rw [hrun]
        rw [hbaud] at hrank
        exact hfirst.congr hrank
    · obtain ⟨t, hstarted, hbegan⟩ := hm.began hrun
      refine ⟨t, hceiling t ?_, (hbegan.congr hrank).append_of_not hrun hnot, ?_, htimed⟩
      · simp only [hkept, Ceiling.start, hstarted]
      · rintro (hnil | hbegins)
        · exact absurd hnil hrun
        · exact absurd hbegins hnot

/-- A call keeps what the session knows. -/
theorem Dated.protocol (hm : Dated settings run m) (now : Instant) (world : σ → σ) :
    Dated settings (run ++ [m.protocolCall settings now world])
      (m.next settings (.protocol now world)) := by
  obtain ⟨t, hceiling, hbegan, -, htimed⟩ := hm.protocolCall rfl
  refine ⟨htimed, fun hnil => ?_, fun _ => ⟨t, ?_, hbegan⟩⟩
  · exact absurd hnil (List.append_ne_nil_of_right_ne_nil run (List.cons_ne_nil _ []))
  · exact congrArg Ceiling.startedAt hceiling

/-- A call that neither the line nor the receiver makes fail exceeds the ceiling, or it succeeds in
time. -/
theorem Dated.exceeded_or_ok (hm : Dated settings run m) {world : σ → σ}
    (hc : c = m.protocolCall settings c.now world) (hline : ∀ call ∈ c.attempts, call.ok = true)
    (haccepted : ∀ e, c.after.result = .error e → ¬ e.IsRefusal) :
    ∃ began limit, CeilingBegan (run ++ [c]) c.after.session.phase began ∧
      limit = c.after.session.phase.ceilingLimit settings ∧
      (run = [] ∨ c.Begins c.after.session.phase → began = c.now) ∧
      ((limit.toMicros < c.now.since began ∧
          c.after.result = .error (.ceilingExceeded limit)) ∨
        (c.now.since began ≤ limit.toMicros ∧ ∃ solution, c.after.result = .ok solution)) := by
  obtain ⟨began, hceiling, hbegan, hfirst, -⟩ := hm.protocolCall hc
  obtain ⟨advanced, -, ⟨attempts, hcalls, hfault⟩, hchecked⟩ :=
    Moment.protocolCall_state settings m c.now world hc
  have hattempts : c.attempts = attempts := ProtocolCall.attempts_eq (by rw [hc]; rfl) hcalls
  have hexpired := Ceiling.expired_iff c.now (congrArg Ceiling.startedAt hceiling)
  rw [hceiling] at hexpired hchecked
  refine ⟨began, _, hbegan, rfl, hfirst, ?_⟩
  rcases hchecked with ⟨e, rfl, herror⟩ | ⟨solution, -, hlate, herror⟩ | ⟨solution, -, hearly, hok⟩
  · rcases hfault e rfl with hrefusal | ⟨call, hmem, hfailed⟩
    · exact absurd hrefusal (haccepted e herror)
    · rw [← hattempts] at hmem
      cases (hline call hmem).symm.trans hfailed
  · exact .inl ⟨hexpired.1 hlate, herror⟩
  · exact .inr ⟨Nat.not_lt.1 (mt hexpired.2 (Bool.eq_false_iff.1 hearly)), solution, hok⟩

/-! ### All calls of a run -/

/-- Before each call of a run the session knows when its ceiling began. -/
theorem Dated.of_protocolCalls (hm : Dated settings run m) {calls : List (TaskCall σ)}
    {earlier later : List (ProtocolCall σ ε)}
    (h : m.protocolCalls settings calls = earlier ++ c :: later) :
    ∃ m' world, Dated settings (run ++ earlier) m' ∧
      c = m'.protocolCall settings c.now world := by
  induction calls generalizing m run earlier with
  | nil => cases earlier <;> cases h
  | cons call calls ih =>
    cases call with
    | receive world => exact ih (hm.receive world) h
    | protocol now world =>
      cases earlier with
      | nil =>
        obtain ⟨rfl, -⟩ := List.cons.inj h
        exact ⟨m, world, by rw [List.append_nil]; exact hm, rfl⟩
      | cons first earlier =>
        obtain ⟨rfl, hrest⟩ := List.cons.inj h
        obtain ⟨m', world', hdated, hc⟩ := ih (hm.protocol now world) hrest
        exact ⟨m', world', by rw [List.append_cons]; exact hdated, hc⟩

/-- **Which calls exceed the ceiling.**  In every run, a call of the protocol task in which no
operation fails and no command is refused exceeds the ceiling if and only if, since the ceiling of
the phase it comes to began, more time has passed than the limit of that phase.  Otherwise it
succeeds; in particular if it begins a ceiling itself. -/
theorem ProtocolCall.ceilingExceeded_iff {settings : Settings} {line : σ}
    {calls : List (TaskCall σ)} {earlier later : List (ProtocolCall σ ε)} {c : ProtocolCall σ ε}
    (hrun : (Moment.start settings line).protocolCalls settings calls = earlier ++ c :: later)
    (hline : ∀ call ∈ c.attempts, call.ok = true)
    (haccepted : ∀ e, c.after.result = .error e → ¬ e.IsRefusal) :
    ∃ began limit, CeilingBegan (earlier ++ [c]) c.after.session.phase began ∧
      limit = c.after.session.phase.ceilingLimit settings ∧
      (c.after.result = .error (.ceilingExceeded limit) ↔
        limit.toMicros < c.now.since began) ∧
      ((∃ solution, c.after.result = .ok solution) ↔ c.now.since began ≤ limit.toMicros) ∧
      (earlier = [] ∨ c.Begins c.after.session.phase →
        began = c.now ∧ ∃ solution, c.after.result = .ok solution) := by
  obtain ⟨m, world, hdated, hc⟩ := (Dated.start settings line).of_protocolCalls hrun
  rw [List.nil_append] at hdated
  obtain ⟨began, limit, hbegan, hlimit, hfirst, hend⟩ := hdated.exceeded_or_ok hc hline haccepted
  refine ⟨began, limit, hbegan, hlimit, ?_⟩
  rcases hend with ⟨hlate, herror⟩ | ⟨hearly, solution, hok⟩
  · refine ⟨⟨fun _ => hlate, fun _ => herror⟩, ⟨?_, fun hle => ?_⟩, fun hstart => ?_⟩
    · rintro ⟨solution, hok⟩
      cases herror.symm.trans hok
    · exact absurd hle (Nat.not_le.2 hlate)
    · rw [hfirst hstart, Instant.since, Nat.sub_self] at hlate
      exact absurd hlate (Nat.not_lt_zero _)
  · refine ⟨⟨fun herror => ?_, fun hlt => absurd hearly (Nat.not_le.2 hlt)⟩,
      ⟨fun _ => hearly, fun _ => ⟨solution, hok⟩⟩, fun hstart => ⟨hfirst hstart, solution, hok⟩⟩
    cases herror.symm.trans hok

/-- The alignment to an unknown speed begins. -/
def beginAlignment : ProtocolCall ScriptedLine LineFault :=
  (Moment.start .default .idle).protocolCall .default ⟨0⟩ id

/-- The next call tries the second candidate, one microsecond too late. -/
def lateAlignment : ProtocolCall ScriptedLine LineFault :=
  beginAlignment.after.protocolCall .default ⟨900001⟩ id

theorem ProtocolCall.ceilingExceeded_lateAlignment :
    lateAlignment.attempts ≠ [] ∧
      lateAlignment.after.result = .error (.ceilingExceeded 900) ∧
      ∃ began,
        CeilingBegan [beginAlignment, lateAlignment] lateAlignment.after.session.phase began ∧
        Milliseconds.toMicros 900 < lateAlignment.now.since began := by
  have hresult : lateAlignment.after.result = .error (.ceilingExceeded 900) := rfl
  have hrun : (Moment.start .default .idle).protocolCalls .default
      [.protocol ⟨0⟩ id, .protocol ⟨900001⟩ id] = [beginAlignment] ++ lateAlignment :: [] := rfl
  have hline : ∀ call ∈ lateAlignment.attempts, call.ok = true := by
    decide
  have haccepted : ∀ e, lateAlignment.after.result = .error e → ¬ e.IsRefusal := by
    rintro e herror ⟨command, rfl⟩
    cases hresult.symm.trans herror
  obtain ⟨began, limit, hbegan, hlimit, hexceeded, -⟩ :=
    ceilingExceeded_iff hrun hline haccepted
  obtain rfl : limit = 900 := hlimit
  exact ⟨by decide, hresult, began, hbegan, hexceeded.1 hresult⟩

end GnssLink
