import GnssLink.Proofs.Link.Completions
import GnssLink.Proofs.Link.Run

/-!
# Which solutions are published

The receiving task puts a completed solution in the slot, and the protocol task takes it out, once
the session runs.  A tick publishes a solution if and only if the session ran before the tick, the
receiving task did not fail, and the drained bytes completed an epoch; it publishes the solution of
the last such epoch.  Every other tick leaves the published solution and its counter alone.

The invariant is that the slot of a running session is empty between two ticks
(`Link.Settled`): the phase is entered with an empty slot, and every tick empties it.

## Main definitions

* `Link.Receives`, `Link.completed` — the receiving task of a tick, and the epochs it completes.
* `Link.Publishes`, `Link.Keeps` — a solution is replaced and counted, or everything stays.
* `Link.taken` — the solution that a tick takes out of the slot.
* `Link.published`, `Link.completedRunning` — the solutions that a run publishes, and those that are
  completed in ticks that begin in the running phase.

## Main results

* `Link.poll_publishes` — the solution that is taken is published.
* `Link.Settled.next_solution` — what a tick does to the published solution.
* `Link.publishes_iff` — which ticks publish which solution, in every run.
-/

namespace GnssLink

variable {σ ε : Type} [SerialLine σ ε]

/-! ### The protocol task and the slot -/

namespace Session

variable {s s' : Session} {settings : Settings} {now : Instant} {line line' : σ}
  {solution : Option Solution}

/-- While running, the protocol task takes the solution out of the slot.  The ceiling starts anew
and cannot be exceeded in the same call. -/
theorem runProtocol_of_epoch {taken : Solution} (hphase : s.phase = .running)
    (hepoch : s.epoch = some taken) :
    s.runProtocol settings now line =
      (.ok (some taken),
        { s with epoch := none, ceiling := ⟨some now, Timing.phaseCeiling⟩ }, line) := by
  simp [runProtocol, advance, hphase, consume, hepoch, Ceiling.arm, Ceiling.expired, Instant.since]

/-- While running, an empty slot stays empty, and no solution is taken. -/
theorem runProtocol_of_empty (hphase : s.phase = .running) (hepoch : s.epoch = none)
    (h : s.runProtocol settings now line = (.ok solution, s', line')) :
    solution = none ∧ s'.phase = .running ∧ s'.epoch = none := by
  obtain ⟨advanced, hadvance, rfl | ⟨-, herror⟩⟩ := runProtocol_cases h
  · simp only [advance, hphase, consume, hepoch, Prod.mk.injEq, Except.ok.injEq] at hadvance
    obtain ⟨rfl, rfl, -⟩ := hadvance
    exact ⟨rfl, rfl, rfl⟩
  · cases herror

theorem configure_slot {run : PlanRun}
    (h : s.configure run now line = (.ok solution, s', line')) :
    solution = none ∧ (s'.phase = .running → s'.epoch = none) := by
  obtain ⟨answer, run', tracker', ceiling', -,
    ⟨e, -, herror, -⟩ | ⟨-, hresult, rfl⟩ | ⟨-, hresult, rfl⟩⟩ := configure_state h
  · cases herror
  · exact ⟨Except.ok.inj hresult, fun hrunning => nomatch hrunning⟩
  · exact ⟨Except.ok.inj hresult, fun _ => rfl⟩

theorem askVersion_slot {query : VersionQuery}
    (h : s.askVersion settings query now line = (.ok solution, s', line')) :
    solution = none ∧ (s'.phase = .running → s'.epoch = none) := by
  obtain ⟨answer, query', tracker', line1, -,
    ⟨e, -, herror, -⟩ | ⟨-, hresult, -, rfl⟩ | ⟨-, hconfigure⟩⟩ := askVersion_state h
  · cases herror
  · exact ⟨Except.ok.inj hresult, fun hrunning => nomatch hrunning⟩
  · exact configure_slot hconfigure

/-- During the negotiation no solution is taken, and the session begins to run with an empty
slot. -/
theorem runProtocol_of_negotiating (hphase : s.phase ≠ .running)
    (h : s.runProtocol settings now line = (.ok solution, s', line')) :
    solution = none ∧ (s'.phase = .running → s'.epoch = none) := by
  obtain ⟨advanced, hadvance, rfl | ⟨-, herror⟩⟩ := runProtocol_cases h
  · cases advance_cases hadvance with
    | baud a _ hcall =>
      obtain ⟨answer, a', line1, -,
        ⟨e, -, herror, -⟩ | ⟨-, hresult, -, rfl⟩ | ⟨-, -, hask⟩ | ⟨-, -, hresult, -, rfl⟩⟩ :=
        alignBaud_state hcall
      · cases herror
      · exact ⟨Except.ok.inj hresult, Phase.noConfusion⟩
      · exact askVersion_slot hask
      · exact ⟨Except.ok.inj hresult, fun _ => rfl⟩
    | version query _ hcall => exact askVersion_slot hcall
    | configuration run _ hcall => exact configure_slot hcall
    | running hrunning => exact absurd hrunning hphase
  · cases herror

end Session

/-! ### One tick -/

namespace Link

/-- The receiving task of a tick does not fail. -/
def Receives (l : Link σ) (tick : LinkTick σ) : Prop :=
  (l.session.receive (tick.world l.line)).1 = .ok ()

/-- The solutions of the epochs that the bytes of a tick complete, in order. -/
def completed (l : Link σ) (tick : LinkTick σ) : List Solution :=
  l.session.completed (l.received tick)

/-- The published solution is replaced, and this is counted. -/
structure Publishes (l l' : Link σ) (solution : Solution) : Prop where
  solution : l'.solution = some solution
  epochs : l'.stats.epochs = l.stats.epochs + 1

/-- The published solution and its counter stay as they are. -/
structure Keeps (l l' : Link σ) : Prop where
  solution : l'.solution = l.solution
  epochs : l'.stats.epochs = l.stats.epochs

/-- The solution that a tick takes out of the slot. -/
def taken (l : Link σ) (now : Instant) : Option Solution :=
  match (l.tick now).1 with
  | .ok solution => solution
  | .error _ => none

/-- The slot of a session that runs is empty. -/
def Settled (l : Link σ) : Prop :=
  l.session.phase = .running → l.session.epoch = none

variable {l : Link σ}

omit [SerialLine σ ε] in
theorem Publishes.epochs_ne {l' : Link σ} {solution : Solution} (h : l.Publishes l' solution) :
    l'.stats.epochs ≠ l.stats.epochs := by
  intro hsame
  have hcount := congrArg UInt32.toNat (h.epochs.symm.trans hsame)
  have hlt := l.stats.epochs.toNat_lt
  rw [UInt32.toNat_add, UInt32.toNat_one] at hcount
  omega

/-- Both tasks change the session and the line only. -/
theorem tick_state (l : Link σ) (now : Instant) :
    ∃ result s line, l.tick now = (result, { l with session := s, line := line }) := by
  rcases hreceive : l.session.receive l.line with ⟨e | ⟨⟩, s1, line1⟩
  · exact ⟨.error e, s1, line1, by simp only [tick, hreceive]⟩
  · rcases hrun : s1.runProtocol l.settings now line1 with ⟨result, s, line⟩
    exact ⟨result, s, line, by simp only [tick, hreceive, hrun]⟩

/-- **The solution that is taken is published**, and if none is taken, nothing changes. -/
theorem poll_publishes (l : Link σ) (now : Instant) :
    (∃ solution, l.taken now = some solution ∧ l.Publishes (l.poll now).2 solution) ∨
    (l.taken now = none ∧ l.Keeps (l.poll now).2) := by
  obtain ⟨result, s, line, htick⟩ := l.tick_state now
  cases result with
  | error e =>
    refine .inr ⟨by simp only [taken, htick], ?_⟩
    simp only [poll, htick]
    exact ⟨rfl, rfl⟩
  | ok published =>
    cases published with
    | none =>
      refine .inr ⟨by simp only [taken, htick], ?_⟩
      simp only [poll, htick]
      exact ⟨rfl, rfl⟩
    | some solution =>
      refine .inl ⟨solution, by simp only [taken, htick], ?_⟩
      simp only [poll, htick]
      exact ⟨rfl, rfl⟩

/-- **What a tick does to the published solution.**  It publishes the solution of the last epoch
that it completes, if the session ran before, and it keeps the published one in all other cases. -/
theorem Settled.next_solution (h : l.Settled) (tick : LinkTick σ) :
    (l.next tick).Settled ∧
    ((∃ solution, l.session.phase = .running ∧ l.Receives tick ∧
        (l.completed tick).getLast? = some solution ∧ l.tickStatus tick = .running ∧
        l.Publishes (l.next tick) solution) ∨
     (¬ (l.session.phase = .running ∧ l.Receives tick ∧ l.completed tick ≠ []) ∧
        l.Keeps (l.next tick))) := by
  rcases l.next_cases tick with ⟨e, s, line, hreceive, -, hnext⟩ | ⟨s1, line1, hreceive, htask⟩
  · rw [hnext]
    refine ⟨(fun hrunning => nomatch hrunning), .inr ⟨?_, ⟨rfl, rfl⟩⟩⟩
    rintro ⟨-, hok, -⟩
    rw [Receives, hreceive] at hok
    cases hok
  have hphase : s1.phase = l.session.phase := Session.phase_receive hreceive
  have hslot : s1.epoch = (l.completed tick).getLast?.or l.session.epoch :=
    Session.epoch_receive hreceive
  -- If the session ran and an epoch was completed, the protocol task takes its solution.
  have htaken : ∀ {taken : Solution}, l.session.phase = .running →
      (l.completed tick).getLast? = some taken →
      s1.runProtocol l.settings tick.now line1 = (.ok (some taken),
        { s1 with epoch := none, ceiling := ⟨some tick.now, Timing.phaseCeiling⟩ }, line1) := by
    intro taken hrunning hlast
    rw [hlast, Option.some_or] at hslot
    exact Session.runProtocol_of_epoch (hphase.trans hrunning) hslot
  rcases htask with ⟨e, s, line, hrun, -, hnext⟩ | ⟨solution, s, line, hrun, hstatus, hnext⟩
  · rw [hnext]
    refine ⟨(fun hrunning => nomatch hrunning), .inr ⟨?_, ⟨rfl, rfl⟩⟩⟩
    rintro ⟨hrunning, -, hsome⟩
    rw [htaken hrunning (List.getLast?_eq_some_getLast hsome)] at hrun
    cases hrun
  · by_cases hrunning : l.session.phase = .running
    · cases hlast : (l.completed tick).getLast? with
      | some taken =>
        rw [htaken hrunning hlast] at hrun
        cases hrun
        have hstill : s1.phase = .running := hphase.trans hrunning
        refine ⟨?_, .inl ⟨taken, hrunning, ?_, rfl, ?_, ?_⟩⟩
        · rw [hnext]
          exact fun _ => rfl
        · rw [Receives, hreceive]
        · simp only [hstatus, status, hstill]
        · rw [hnext]
          exact ⟨rfl, rfl⟩
      | none =>
        rw [hlast, h hrunning] at hslot
        obtain ⟨rfl, -, hempty⟩ :=
          Session.runProtocol_of_empty (hphase.trans hrunning) hslot hrun
        rw [hnext]
        refine ⟨fun _ => hempty, .inr ⟨?_, ⟨rfl, rfl⟩⟩⟩
        rintro ⟨-, -, hsome⟩
        exact hsome (List.getLast?_eq_none_iff.1 hlast)
    · obtain ⟨rfl, hempty⟩ :=
        Session.runProtocol_of_negotiating (fun hsame => hrunning (hphase.symm.trans hsame)) hrun
      rw [hnext]
      exact ⟨hempty, .inr ⟨(fun hpublishes => hrunning hpublishes.1), ⟨rfl, rfl⟩⟩⟩

/-- What is known of a tick. -/
structure PublishesLast (l : Link σ) (tick : LinkTick σ) : Prop where
  /-- A session that ran before publishes the solution of the last epoch that it completes. -/
  publishes : ∀ solution, l.Publishes (l.next tick) solution ↔
    l.session.phase = .running ∧ l.Receives tick ∧ (l.completed tick).getLast? = some solution
  /-- It goes on running. -/
  running : ∀ solution, l.Publishes (l.next tick) solution → l.tickStatus tick = .running
  /-- A tick that publishes nothing changes nothing. -/
  keeps : (¬ ∃ solution, l.Publishes (l.next tick) solution) → l.Keeps (l.next tick)
  /-- In particular one that loses the communication. -/
  lost : l.tickStatus tick = .communicationLost → l.Keeps (l.next tick)
  /-- And one before which the session did not run, also if it runs behind it. -/
  negotiating : l.session.phase ≠ .running → l.Keeps (l.next tick)

theorem Settled.publishesLast (h : l.Settled) (tick : LinkTick σ) : l.PublishesLast tick := by
  obtain ⟨-, ⟨taken, hrunning, hreceives, hlast, hstatus, hpublishes⟩ | ⟨hnot, hkeeps⟩⟩ :=
    h.next_solution tick
  · constructor
    case publishes =>
      intro solution
      refine ⟨fun hsolution => ?_, fun hsolution => ?_⟩
      · cases hpublishes.solution.symm.trans hsolution.solution
        exact ⟨hrunning, hreceives, hlast⟩
      · cases hlast.symm.trans hsolution.2.2
        exact hpublishes
    case running => exact fun _ _ => hstatus
    case keeps => exact fun hnone => absurd ⟨taken, hpublishes⟩ hnone
    case lost => exact fun hlost => nomatch hstatus.symm.trans hlost
    case negotiating => exact fun hbefore => absurd hrunning hbefore
  · constructor
    case publishes =>
      intro solution
      refine ⟨fun hsolution => absurd hkeeps.epochs hsolution.epochs_ne, ?_⟩
      rintro ⟨hrunning, hreceives, hlast⟩
      refine absurd ⟨hrunning, hreceives, fun hnil => ?_⟩ hnot
      rw [hnil] at hlast
      cases hlast
    case running => exact fun _ hsolution => absurd hkeeps.epochs hsolution.epochs_ne
    case keeps => exact fun _ => hkeeps
    case lost => exact fun _ => hkeeps
    case negotiating => exact fun _ => hkeeps

/-! ### All ticks of a run -/

/-- The slot is empty between two ticks of every run, as far as the session runs. -/
theorem Settled.run (h : l.Settled) (ticks : List (LinkTick σ)) : (l.run ticks).Settled := by
  induction ticks generalizing l with
  | nil => exact h
  | cons tick ticks ih => exact ih (h.next_solution tick).1

/-- The solutions that a run publishes, as the counter tells them. -/
def published (l : Link σ) : List (LinkTick σ) → List Solution
  | [] => []
  | tick :: ticks =>
    (if (l.next tick).stats.epochs = l.stats.epochs then [] else (l.next tick).solution.toList) ++
      (l.next tick).published ticks

/-- The solutions of all epochs that are completed in ticks before which the session ran. -/
def completedRunning (l : Link σ) : List (LinkTick σ) → List Solution
  | [] => []
  | tick :: ticks =>
    (if l.session.phase = .running then l.completed tick else []) ++
      (l.next tick).completedRunning ticks

/-- Each solution that is published was completed in a running session, and each completed one is
published at most once, in the order of completion. -/
theorem Settled.published_sublist (h : l.Settled) (ticks : List (LinkTick σ)) :
    (l.published ticks).Sublist (l.completedRunning ticks) := by
  induction ticks generalizing l with
  | nil => exact List.Sublist.slnil
  | cons tick ticks ih =>
    obtain ⟨hsettled, htick⟩ := h.next_solution tick
    refine List.Sublist.append ?_ (ih hsettled)
    rcases htick with ⟨taken, hrunning, -, hlast, -, hpublishes⟩ | ⟨-, hkeeps⟩
    · rw [if_neg hpublishes.epochs_ne, hpublishes.solution, if_pos hrunning]
      exact List.singleton_sublist.2 (List.mem_of_getLast? hlast)
    · rw [if_pos hkeeps.epochs]
      exact List.nil_sublist _

/-- **Which solutions are published.**  In every run a tick publishes if and only if the session ran
before it, its receiving task did not fail, and it completed an epoch; it publishes the solution of
the last one.  All other ticks change nothing.  So no solution is published twice, and none that was
completed during the negotiation. -/
theorem publishes_iff (settings : Settings) (line : σ) (ticks : List (LinkTick σ)) :
    (∀ tick, ((start line settings).run ticks).PublishesLast tick) ∧
      ((start line settings).published ticks).Sublist
        ((start line settings).completedRunning ticks) := by
  have hstart : (start line settings).Settled := fun hrunning => nomatch hrunning
  exact ⟨(hstart.run ticks).publishesLast, hstart.published_sublist ticks⟩

end Link

end GnssLink
