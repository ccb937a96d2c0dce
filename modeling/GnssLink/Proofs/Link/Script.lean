import Mathlib.Data.List.Chain
import GnssLink.Proofs.Link.History
import GnssLink.Proofs.Negotiation.Remaining

/-!
# The script of a session

What a session performs on the line is a prefix of a script: the alignment of the speed, one or two
version requests, and the steps of the plan for the capabilities that are known when the requests
end.  Neither the received bytes nor the answers of the transmitter nor the clock can skip, repeat
or exchange a part of it.  The session runs only when the whole script was performed, and then it
is silent.

The induction over the history is carried by `Emitted`, which says for each phase how much of the
script was performed; a poll works off the rest (`BaudAlignment.poll_executes`,
`PlanRun.poll_executes`).

## Main definitions

* `Settings.script` — the script.
* `Emitted`, `Follows`, `Stopped` — how much of it was performed, between two calls, at any moment,
  and after a failure.
* `Moment.Precedes` — what holds of two neighbouring moments of a history.

## Main results

* `Moment.next_holds` — a call of a task goes on with the script.
* `Moment.history_start_script` — every history follows a script.
-/

namespace GnssLink

/-! ### The script -/

namespace Settings

/-- The operations of the alignment. -/
def alignmentCalls (settings : Settings) : List LineCall :=
  (if settings.autoBaud then BaudAlignment.trials settings.baudRate BaudRate.candidates else []) ++
    [.setBaudRate settings.baudRate true]

/-- The operations of a configuration: the version requests, and the steps of the plan for what is
known of the receiver. -/
def configurationCalls (settings : Settings) (requests : Nat) (known : Capabilities) :
    List LineCall :=
  List.replicate requests VersionQuery.requestCall ++
    (Plan.make settings known).map PlanStep.call

/-- All operations of a session. -/
def script (settings : Settings) (requests : Nat) (known : Capabilities) : List LineCall :=
  settings.alignmentCalls ++
    if settings.autoConfig then settings.configurationCalls requests known else []

theorem script_of_autoConfig {settings : Settings} (auto : settings.autoConfig = true)
    (requests : Nat) (known : Capabilities) :
    settings.script requests known = settings.alignmentCalls ++
      (List.replicate requests VersionQuery.requestCall ++
        (Plan.make settings known).map PlanStep.call) := by
  rw [script, if_pos auto, configurationCalls]

theorem script_of_not_autoConfig {settings : Settings} (auto : settings.autoConfig = false)
    (requests : Nat) (known : Capabilities) :
    settings.script requests known = settings.alignmentCalls := by
  rw [script, if_neg (Bool.eq_false_iff.1 auto), List.append_nil]

end Settings

/-- How much of the script a session has performed, in each phase.  Before the configuration it is
open how many version requests there will be and for which capabilities the plan is made; from then
on both are `fixed`. -/
inductive Emitted (settings : Settings) :
    Option (Nat × Capabilities) → Phase → List LineCall → Prop
  | baud {a : BaudAlignment} {log : List LineCall}
      (hlog : log ++ a.remaining = settings.alignmentCalls) : Emitted settings none (.baud a) log
  | version {q : VersionQuery} {log : List LineCall} (auto : settings.autoConfig = true)
      (hsent : q.sentAt.isSome) (hattempts : q.attempts = 1 ∨ q.attempts = 2)
      (hlog : log = settings.alignmentCalls ++
        List.replicate q.attempts.toNat VersionQuery.requestCall) :
      Emitted settings none (.version q) log
  | configuration {run : PlanRun} {requests : Nat} {known : Capabilities} {log : List LineCall}
      (auto : settings.autoConfig = true) (hsent : run.sentAt.isSome)
      (hrequests : requests = 1 ∨ requests = 2) (hplan : run.plan = Plan.make settings known)
      (hlog : log ++ run.remaining = settings.script requests known) :
      Emitted settings (some (requests, known)) (.configuration run) log
  | running {requests : Nat} {known : Capabilities} {log : List LineCall}
      (hrequests : requests = 1 ∨ requests = 2) (hlog : log = settings.script requests known) :
      Emitted settings (some (requests, known)) .running log

/-- A number of requests and capabilities that do not contradict what is fixed. -/
def Agrees (fixed : Option (Nat × Capabilities)) (requests : Nat) (known : Capabilities) : Prop :=
  ∀ choice, fixed = some choice → choice = (requests, known)

/-- What was performed is a prefix of a script, and the whole script if the session runs. -/
structure Follows (settings : Settings) (requests : Nat) (known : Capabilities) (phase : Phase)
    (log : List LineCall) : Prop where
  performed : log <+: settings.script requests known
  complete : phase = .running → log = settings.script requests known

/-- What was performed after a failure follows some script. -/
def Stopped (settings : Settings) (fixed : Option (Nat × Capabilities)) (phase : Phase)
    (log : List LineCall) : Prop :=
  ∃ requests known, (requests = 1 ∨ requests = 2) ∧ Agrees fixed requests known ∧
    Follows settings requests known phase log

theorem agrees_none (requests : Nat) (known : Capabilities) : Agrees none requests known :=
  fun _ h => nomatch h

theorem agrees_some (requests : Nat) (known : Capabilities) :
    Agrees (some (requests, known)) requests known :=
  fun _ h => (Option.some.inj h).symm

/-- A prefix of the alignment follows a script. -/
theorem stopped_of_alignment {settings : Settings} {phase : Phase} {log : List LineCall}
    (hphase : phase ≠ .running) (hlog : log <+: settings.alignmentCalls) :
    Stopped settings none phase log :=
  ⟨1, .initial, .inl rfl, agrees_none _ _, hlog.trans (List.prefix_append _ _),
    fun h => absurd h hphase⟩

/-- At most two version requests behind the alignment follow a script. -/
theorem stopped_of_requests {settings : Settings} {phase : Phase} {log : List LineCall}
    (auto : settings.autoConfig = true) {requests : Nat} (hle : requests ≤ 2)
    (hphase : phase ≠ .running)
    (hlog : log = settings.alignmentCalls ++
      List.replicate requests VersionQuery.requestCall) :
    Stopped settings none phase log := by
  refine ⟨2, .initial, .inr rfl, agrees_none _ _, ?_, fun h => absurd h hphase⟩
  have hsplit : 2 = requests + (2 - requests) := by omega
  rw [Settings.script_of_autoConfig auto, hlog, hsplit, ← List.replicate_append_replicate,
    List.append_assoc, ← List.append_assoc]
  exact List.prefix_append _ _

/-- What holds between two calls also holds after a failure. -/
theorem Emitted.stopped {settings : Settings} {fixed : Option (Nat × Capabilities)} {phase : Phase}
    {log : List LineCall} (h : Emitted settings fixed phase log) :
    Stopped settings fixed phase log := by
  cases h with
  | @baud a log hlog =>
    exact stopped_of_alignment (fun hphase => nomatch hphase) ⟨_, hlog⟩
  | @version q log auto hsent hattempts hlog =>
    have hprogress : q.InProgress := .inr ⟨hsent, hattempts⟩
    exact stopped_of_requests auto hprogress.attempts_le (fun hphase => nomatch hphase) hlog
  | @configuration run requests known log auto hsent hrequests hplan hlog =>
    refine ⟨requests, known, hrequests, agrees_some _ _, ?_, fun hphase => nomatch hphase⟩
    rw [← hlog]
    exact List.prefix_append _ _
  | @running requests known log hrequests hlog =>
    exact ⟨requests, known, hrequests, agrees_some _ _, hlog ▸ List.prefix_refl _, fun _ => hlog⟩

variable {σ ε : Type} {settings : Settings} {fixed : Option (Nat × Capabilities)}

namespace Moment

/-- How much of the script was performed at a moment of a history. -/
def Holds (settings : Settings) (fixed : Option (Nat × Capabilities)) (m : Moment σ ε) : Prop :=
  match m.result with
  | .ok _ => Emitted settings fixed m.session.phase m.line.performed
  | .error _ => Stopped settings fixed m.session.phase m.line.performed

/-- What holds of two neighbouring moments of a history, for the capabilities that the plan is made
from. -/
structure Precedes (settings : Settings) (known : Capabilities) (m m' : Moment σ ε) : Prop where
  /-- Nothing that was performed is undone. -/
  performed : m.line.performed <+: m'.line.performed
  /-- The phases are gone through in their order. -/
  forward : m.session.phase.rank ≤ m'.session.phase.rank
  /-- A session that configures the receiver runs only behind the configuration. -/
  configured : settings.autoConfig = true → m.session.phase.rank < 2 → m'.session.phase ≠ .running
  /-- A session that does not configure the receiver goes from the alignment to running. -/
  unconfigured : settings.autoConfig = false → m'.session.phase.rank = m.session.phase.rank ∨
    m'.session.phase = .running
  /-- The plan is made from what is known when the version requests end. -/
  held : m.session.phase.rank < 2 → 2 ≤ m'.session.phase.rank → m.session.known = known
  /-- A session that runs is silent. -/
  silent : m.session.phase = .running → m'.line.calls = m.line.calls

theorem Holds.stopped {m : Moment σ ε} (h : m.Holds settings fixed) :
    Stopped settings fixed m.session.phase m.line.performed := by
  unfold Holds at h
  split at h
  · exact h.stopped
  · exact h

end Moment

/-! ### One call of the protocol task -/

namespace Session

variable [SerialLine σ ε] {s s' : Session} {now : Instant} {r r' : Recorder σ}
  {result : Except (LinkError ε) (Option Solution)}

/-- Going on with a configuration goes on with the script. -/
theorem configure_holds {run : PlanRun} {requests : Nat} {known : Capabilities}
    (auto : settings.autoConfig = true) (hrequests : requests = 1 ∨ requests = 2)
    (hplan : run.plan = Plan.make settings known)
    (hlog : r.performed ++ run.remaining = settings.script requests known)
    (h : s.configure run now r = (result, s', r')) :
    Moment.Holds settings (some (requests, known)) ⟨result, s', r'⟩ ∧
      r.performed <+: r'.performed ∧ 2 ≤ s'.phase.rank := by
  obtain ⟨answer, run', ceiling', hpoll, hcases⟩ := configure_cases h
  obtain ⟨hexecutes, hplan'⟩ := PlanRun.poll_executes hpoll
  have hprefix := hexecutes.performed_isPrefix
  rcases hcases with ⟨e, rfl, rfl, hphase⟩ | ⟨rfl, rfl, hphase⟩ |
    ⟨rfl, ⟨solution, rfl⟩, hphase⟩
  · refine ⟨⟨requests, known, hrequests, agrees_some _ _, hexecutes.isPrefix hlog, ?_⟩, hprefix,
      hphase ▸ Nat.le_refl 2⟩
    exact fun hrunning => nomatch hphase.symm.trans hrunning
  · refine ⟨?_, hprefix, hphase ▸ Nat.le_refl 2⟩
    simp only [Moment.Holds, hphase]
    exact .configuration auto (PlanRun.poll_pending hpoll) hrequests (hplan'.trans hplan)
      (hexecutes.append_eq hlog)
  · refine ⟨?_, hprefix, hphase ▸ Nat.le_succ 2⟩
    simp only [Moment.Holds, hphase]
    exact .running hrequests (hexecutes.performed_eq hlog)

/-- A configuration that begins sends its first step, and is not finished in the same call. -/
theorem configure_start {known : Capabilities}
    (h : s.configure (.start (Plan.make settings known)) now r = (result, s', r')) :
    ∃ run step, s'.phase = .configuration run ∧ run.cursor = 0 ∧ run.plan[0]? = some step ∧
      s'.tracker = ⟨.waiting, step.command.type.id⟩ := by
  obtain ⟨answer, run, ceiling', hpoll, hcases⟩ := configure_cases h
  rcases PlanRun.poll_cases hpoll with ⟨step, sentAt, -, hsent, -⟩ | ⟨-, hsend⟩
  · cases hsent
  · rcases PlanRun.sendStep_cases hsend with ⟨hnone, -⟩ |
      ⟨step, hstep, htracker, -, ⟨rfl, rfl, -⟩ | ⟨e, rfl, rfl, -⟩⟩
    · cases hnone
    · rcases hcases with ⟨e, herror, -⟩ | ⟨-, -, hphase⟩ | ⟨hready, -⟩
      · cases herror
      · exact ⟨_, step, hphase, rfl, hstep, htracker⟩
      · cases hready
    · rcases hcases with ⟨e', -, -, hphase⟩ | ⟨hpending, -⟩ | ⟨hready, -⟩
      · exact ⟨_, step, hphase, rfl, hstep, htracker⟩
      · cases hpending
      · cases hready

/-- Going on with the version query goes on with the script.  When the query ends, the number of
requests and the capabilities are fixed. -/
theorem askVersion_holds {query : VersionQuery} (auto : settings.autoConfig = true)
    (hquery : query.InProgress)
    (hlog : r.performed = settings.alignmentCalls ++
      List.replicate query.attempts.toNat VersionQuery.requestCall)
    (h : s.askVersion settings query now r = (result, s', r')) :
    ∃ fixed, Moment.Holds settings fixed ⟨result, s', r'⟩ ∧ r.performed <+: r'.performed ∧
      1 ≤ s'.phase.rank ∧ s'.phase.rank ≤ 2 ∧
      (2 ≤ s'.phase.rank → ∃ requests, fixed = some (requests, s.known)) := by
  obtain ⟨answer, query', tracker', r1, hpoll, hcases⟩ := askVersion_cases h
  rcases hquery.poll hlog hpoll with ⟨p, rfl, hsent, hattempts, hprefix, hlog'⟩ | ⟨e, rfl, hsame⟩
  · rcases hcases with ⟨e, herror, -⟩ | ⟨-, rfl, hphase, rfl⟩ | ⟨-, s1, hconfigure⟩
    · cases herror
    · refine ⟨none, ?_, hprefix, ?_⟩
      · simp only [Moment.Holds, hphase]
        exact .version auto hsent hattempts hlog'
      · rw [hphase]
        exact ⟨Nat.le_refl 1, Nat.le_succ 1, fun hlater => absurd hlater (Nat.lt_irrefl 1)⟩
    · have hrequests : query'.attempts.toNat = 1 ∨ query'.attempts.toNat = 2 := by
        rcases hattempts with hone | htwo
        · exact .inl (by rw [hone]; rfl)
        · exact .inr (by rw [htwo]; rfl)
      have hscript : r1.performed ++ (PlanRun.start (Plan.make settings s.known)).remaining =
          settings.script query'.attempts.toNat s.known := by
        rw [Settings.script_of_autoConfig auto, hlog', List.append_assoc]
        rfl
      obtain ⟨hholds, hperformed, -⟩ := configure_holds auto hrequests rfl hscript hconfigure
      obtain ⟨run, -, hphase, -⟩ := configure_start hconfigure
      refine ⟨_, hholds, hprefix.trans hperformed, ?_⟩
      rw [hphase]
      exact ⟨Nat.le_succ 1, Nat.le_refl 2, fun _ => ⟨_, rfl⟩⟩
  · rcases hcases with ⟨e', -, rfl, hphase, rfl⟩ | ⟨hpending, -⟩ | ⟨hready, -⟩
    · rw [← hsame] at hlog
      refine ⟨none, stopped_of_requests auto hquery.attempts_le ?_ hlog,
        hsame ▸ List.prefix_refl _, ?_⟩
      · exact fun hrunning => nomatch hphase.symm.trans hrunning
      · rw [hphase]
        exact ⟨Nat.le_refl 1, Nat.le_succ 1, fun hlater => absurd hlater (Nat.lt_irrefl 1)⟩
    · cases hpending
    · cases hready

/-- Going on with the alignment goes on with the script. -/
theorem alignBaud_holds {a : BaudAlignment}
    (hlog : r.performed ++ a.remaining = settings.alignmentCalls)
    (h : s.alignBaud settings a now r = (result, s', r')) :
    ∃ fixed, Moment.Holds settings fixed ⟨result, s', r'⟩ ∧ r.performed <+: r'.performed ∧
      (settings.autoConfig = true → s'.phase ≠ .running) ∧
      (settings.autoConfig = false → s'.phase.rank = 0 ∨ s'.phase = .running) ∧
      (2 ≤ s'.phase.rank → ∃ requests, fixed = some (requests, s.known)) := by
  obtain ⟨answer, a', r1, hpoll, hcases⟩ := alignBaud_cases h
  have hexecutes := BaudAlignment.poll_executes hpoll
  have hprefix := hexecutes.performed_isPrefix
  rcases hcases with ⟨e, rfl, rfl, hphase, rfl⟩ | ⟨rfl, rfl, hphase, rfl⟩ |
    ⟨rfl, auto, s1, hask, hknown⟩ | ⟨rfl, auto, ⟨solution, rfl⟩, hphase, rfl⟩
  · refine ⟨none, stopped_of_alignment ?_ (hexecutes.isPrefix hlog), hprefix, ?_⟩
    · exact fun hrunning => nomatch hphase.symm.trans hrunning
    · rw [hphase]
      exact ⟨fun _ hrunning => (nomatch hrunning), fun _ => .inl rfl,
        fun hlater => absurd hlater (Nat.not_succ_le_zero 1)⟩
  · refine ⟨none, ?_, hprefix, ?_⟩
    · simp only [Moment.Holds, hphase]
      exact .baud (hexecutes.append_eq hlog)
    · rw [hphase]
      exact ⟨fun _ hrunning => (nomatch hrunning), fun _ => .inl rfl,
        fun hlater => absurd hlater (Nat.not_succ_le_zero 1)⟩
  · have hstart : r1.performed = settings.alignmentCalls ++
        List.replicate VersionQuery.start.attempts.toNat VersionQuery.requestCall :=
      (hexecutes.performed_eq hlog).trans (List.append_nil _).symm
    obtain ⟨fixed, hholds, hperformed, -, hrank, hfixed⟩ :=
      askVersion_holds auto (.inl rfl) hstart hask
    refine ⟨fixed, hholds, hprefix.trans hperformed, fun _ hrunning => ?_,
      fun hno => absurd auto (Bool.eq_false_iff.1 hno), hknown ▸ hfixed⟩
    rw [hrunning] at hrank
    exact Nat.lt_irrefl 2 hrank
  · have hscript : r'.performed = settings.script 1 s.known :=
      (hexecutes.performed_eq hlog).trans
        (Settings.script_of_not_autoConfig auto 1 s.known).symm
    refine ⟨some (1, s.known), ?_, hprefix, fun hyes => absurd hyes (Bool.eq_false_iff.1 auto),
      fun _ => .inr hphase, fun _ => ⟨1, rfl⟩⟩
    simp only [Moment.Holds, hphase]
    exact .running (.inl rfl) hscript

end Session

namespace Moment

/-- A moment precedes one that is in the same phase and shows the same calls. -/
theorem Precedes.of_eq {known : Capabilities} {m m' : Moment σ ε}
    (hphase : m'.session.phase = m.session.phase) (hcalls : m'.line.calls = m.line.calls) :
    Precedes settings known m m' where
  performed := Recorder.performed_congr hcalls ▸ List.prefix_refl _
  forward := Nat.le_of_eq (by rw [hphase])
  configured := fun _ hearly hrunning => by
    rw [← hphase, hrunning] at hearly
    exact absurd hearly (Nat.not_lt.2 (Nat.le_succ 2))
  unconfigured := fun _ => .inl (by rw [hphase])
  held := fun hearly hlater => by
    rw [hphase] at hlater
    exact absurd hearly (Nat.not_lt.2 hlater)
  silent := fun _ => hcalls

variable [SerialLine σ ε]

/-- Going on from any phase goes on with the script. -/
theorem advance_holds {s s' : Session} {now : Instant} {r r' : Recorder σ}
    {result : Except (LinkError ε) (Option Solution)}
    (hemitted : Emitted settings fixed s.phase r.performed)
    (h : s.advance settings now r = (result, s', r')) :
    ∃ fixed', Holds settings fixed' ⟨result, s', r'⟩ ∧
      ∀ requests known, Agrees fixed' requests known →
        Agrees fixed requests known ∧
          Precedes settings known (⟨.ok none, s, r⟩ : Moment σ ε) ⟨result, s', r'⟩ := by
  cases Session.advance_cases h with
  | baud a hphase hcall =>
    rw [hphase] at hemitted
    obtain ⟨hlog⟩ := hemitted
    obtain ⟨fixed', hholds, hperformed, hconfigured, hunconfigured, hfixed⟩ :=
      Session.alignBaud_holds hlog hcall
    refine ⟨fixed', hholds, fun requests known hagrees => ⟨agrees_none _ _, ?_⟩⟩
    exact {
      performed := hperformed
      forward := by rw [hphase]; exact Nat.zero_le _
      configured := fun auto _ => hconfigured auto
      unconfigured := fun auto => by rw [hphase]; exact hunconfigured auto
      held := fun _ hlater => by
        obtain ⟨requests', hsome⟩ := hfixed hlater
        exact (Prod.mk.inj (hagrees _ hsome)).2
      silent := fun hrunning => by rw [hphase] at hrunning; cases hrunning }
  | version query hphase hcall =>
    rw [hphase] at hemitted
    obtain _ | ⟨auto, hsent, hattempts, hlog⟩ := hemitted
    obtain ⟨fixed', hholds, hperformed, hrank, hrank', hfixed⟩ :=
      Session.askVersion_holds auto (.inr ⟨hsent, hattempts⟩) hlog hcall
    refine ⟨fixed', hholds, fun requests known hagrees => ⟨agrees_none _ _, ?_⟩⟩
    exact {
      performed := hperformed
      forward := by rw [hphase]; exact hrank
      configured := fun _ _ hrunning => by rw [hrunning] at hrank'; exact Nat.lt_irrefl 2 hrank'
      unconfigured := fun hno => by rw [auto] at hno; cases hno
      held := fun _ hlater => by
        obtain ⟨requests', hsome⟩ := hfixed hlater
        exact (Prod.mk.inj (hagrees _ hsome)).2
      silent := fun hrunning => by rw [hphase] at hrunning; cases hrunning }
  | configuration run hphase hcall =>
    rw [hphase] at hemitted
    obtain _ | _ | ⟨auto, hsent, hrequests, hplan, hlog⟩ := hemitted
    obtain ⟨hholds, hperformed, hrank⟩ := Session.configure_holds auto hrequests hplan hlog hcall
    refine ⟨_, hholds, fun requests known hagrees => ⟨hagrees, ?_⟩⟩
    exact {
      performed := hperformed
      forward := by rw [hphase]; exact hrank
      configured := fun _ hearly => by rw [hphase] at hearly; exact absurd hearly (Nat.lt_irrefl 2)
      unconfigured := fun hno => by rw [auto] at hno; cases hno
      held := fun hearly => by rw [hphase] at hearly; exact absurd hearly (Nat.lt_irrefl 2)
      silent := fun hrunning => by rw [hphase] at hrunning; cases hrunning }
  | running =>
    have hsame := s.phase_consume now
    refine ⟨fixed, ?_, fun requests known hagrees => ⟨hagrees, .of_eq hsame rfl⟩⟩
    rw [← hsame] at hemitted
    exact hemitted

/-- A call of a task goes on with the script. -/
theorem next_holds {m : Moment σ ε} {solution : Option Solution} (hok : m.result = .ok solution)
    (hholds : m.Holds settings fixed) (call : TaskCall σ) :
    ∃ fixed', (m.next settings call).Holds settings fixed' ∧
      ∀ requests known, Agrees fixed' requests known →
        Agrees fixed requests known ∧ m.Precedes settings known (m.next settings call) := by
  have hemitted : Emitted settings fixed m.session.phase m.line.performed := by
    simpa only [Holds, hok] using hholds
  cases call with
  | receive world =>
    cases hreceive : m.session.receive (m.line.alter world) with
    | mk result rest =>
      obtain ⟨s', r'⟩ := rest
      have hphase : s'.phase = m.session.phase := Session.phase_receive hreceive
      have hcalls : r'.calls = m.line.calls := (Session.calls_receive hreceive).trans rfl
      have hperformed := Recorder.performed_congr hcalls
      have hemitted' : Emitted settings fixed s'.phase r'.performed := by
        rw [hphase, hperformed]
        exact hemitted
      simp only [next, hreceive]
      refine ⟨fixed, ?_, fun requests known hagrees => ⟨hagrees, .of_eq hphase hcalls⟩⟩
      cases result with
      | ok => exact hemitted'
      | error e => exact hemitted'.stopped
  | protocol now world =>
    cases hrun : m.session.runProtocol settings now (m.line.alter world) with
    | mk result rest =>
      obtain ⟨s', r'⟩ := rest
      obtain ⟨advanced, hadvance, hresult⟩ := Session.runProtocol_cases hrun
      have hbegun : Emitted settings fixed
          (Session.phase { m.session with ceiling := m.session.ceiling.start now })
          (m.line.alter world).performed := hemitted
      obtain ⟨fixed', hholds', hstep⟩ := advance_holds hbegun hadvance
      simp only [next, hrun]
      refine ⟨fixed', ?_, fun requests known hagrees => ?_⟩
      · rcases hresult with rfl | ⟨-, rfl⟩
        · exact hholds'
        · exact hholds'.stopped
      · obtain ⟨hagrees', h⟩ := hstep requests known hagrees
        exact ⟨hagrees', h.performed, h.forward, h.configured, h.unconfigured, h.held, h.silent⟩

/-- The head of a history is the moment that it begins with. -/
theorem head_history (settings : Settings) (m : Moment σ ε) (calls : List (TaskCall σ)) :
    (m.history settings calls).head? = some m := by
  cases calls with
  | nil => rfl
  | cons call calls =>
    unfold history
    split <;> rfl

/-- A history from a moment at which some of the script was performed follows one script that agrees
with what is fixed. -/
theorem Holds.history {m : Moment σ ε} (hholds : m.Holds settings fixed)
    (calls : List (TaskCall σ)) :
    ∃ requests known, (requests = 1 ∨ requests = 2) ∧ Agrees fixed requests known ∧
      (∀ m' ∈ m.history settings calls,
        Follows settings requests known m'.session.phase m'.line.performed) ∧
      (m.history settings calls).IsChain (Precedes settings known) := by
  induction calls generalizing m fixed with
  | nil =>
    obtain ⟨requests, known, hrequests, hagrees, hfollows⟩ := hholds.stopped
    refine ⟨requests, known, hrequests, hagrees, fun m' hm' => ?_, .singleton m⟩
    rw [List.mem_singleton.1 hm']
    exact hfollows
  | cons call calls ih =>
    cases hresult : m.result with
    | error e =>
      obtain ⟨requests, known, hrequests, hagrees, hfollows⟩ := hholds.stopped
      simp only [Moment.history, hresult]
      refine ⟨requests, known, hrequests, hagrees, fun m' hm' => ?_, .singleton m⟩
      rw [List.mem_singleton.1 hm']
      exact hfollows
    | ok solution =>
      obtain ⟨fixed', hnext, hstep⟩ := next_holds hresult hholds call
      obtain ⟨requests, known, hrequests, hagrees', hfollows, hchain⟩ := ih hnext
      obtain ⟨hagrees, hprecedes⟩ := hstep requests known hagrees'
      simp only [Moment.history, hresult]
      have hhead := head_history settings (m.next settings call) calls
      refine ⟨requests, known, hrequests, hagrees, fun m' hm' => ?_, ?_⟩
      · rcases List.mem_cons.1 hm' with rfl | hlater
        · have hlater := hfollows _ (List.mem_of_mem_head? hhead)
          refine ⟨hprecedes.performed.trans hlater.performed, fun hrunning => ?_⟩
          simp only [Holds, hresult, hrunning] at hholds
          obtain _ | _ | _ | ⟨-, hlog⟩ := hholds
          cases hagrees _ rfl
          exact hlog
        · exact hfollows m' hlater
      · refine List.isChain_cons.2 ⟨fun m' hm' => ?_, hchain⟩
        rw [hhead] at hm'
        cases hm'
        exact hprecedes

/-- **Every history of a session follows a script.**  There are one or two version requests and
capabilities such that, at every moment up to and including the first failure, what was performed is
a prefix of the script, and the whole script if the session runs.  From one moment to the next the
phases are gone through in their order, and a session that runs is silent; the capabilities are
those that were known at the end of the version requests. -/
theorem history_start_script (settings : Settings) (line : σ) (calls : List (TaskCall σ)) :
    ∃ requests known, (requests = 1 ∨ requests = 2) ∧
      (∀ m ∈ (start settings line : Moment σ ε).history settings calls,
        Follows settings requests known m.session.phase m.line.performed) ∧
      ((start settings line : Moment σ ε).history settings calls).IsChain
        (Precedes settings known) := by
  have hholds : (start settings line : Moment σ ε).Holds settings none := by
    refine Emitted.baud ?_
    rfl
  obtain ⟨requests, known, hrequests, -, hfollows, hchain⟩ := hholds.history calls
  exact ⟨requests, known, hrequests, hfollows, hchain⟩

end Moment

end GnssLink
