import GnssLink.Proofs.Link.Script
import GnssLink.Proofs.Negotiation.CommandIds
import GnssLink.Proofs.Negotiation.WithoutFailure

/-!
# The steps of the plan within a session

Each step of the plan has its place in the script, and a frame that was performed tells by its place
which step it belongs to.  During a configuration the last frame is that of the step at the cursor.

A call of the protocol task begins the configuration with the first step, or it goes on with the
step at the cursor: it waits, or it leaves the step and sends the next one, or the command was
rejected.

## Main definitions

* `Settings.stepPlace` — the place of a step in the script.

## Main results

* `Settings.carries_script` — a frame in a script is a version request, or its place tells the step.
* `Session.configure_waiting`, `Session.configure_leaving` — a step is waited for, or it is left.
* `Session.configure_verdict` — what becomes of the step at the cursor.
* `Session.advance_configuration` — how a call comes to a configuration.
-/

namespace GnssLink

variable {σ ε : Type} {settings : Settings}

/-! ### Places in a script -/

namespace Settings

/-- The place in a script of a step of the plan. -/
def stepPlace (settings : Settings) (requests cursor : Nat) : Nat :=
  settings.alignmentCalls.length + requests + cursor

theorem not_carries_of_mem_alignmentCalls {call : LineCall} (h : call ∈ settings.alignmentCalls)
    (type : MessageType) : ¬ call.Carries type := by
  rcases List.mem_append.1 h with htrial | hlast
  · split at htrial
    · exact BaudAlignment.not_carries_of_mem_trials htrial type
    · cases htrial
  · rw [List.mem_singleton.1 hlast]
    exact LineCall.not_carries_setBaudRate _ type

theorem script_stepPlace (auto : settings.autoConfig = true) (requests i : Nat)
    (known : Capabilities) :
    (settings.script requests known)[settings.stepPlace requests i]? =
      (Plan.make settings known)[i]?.map PlanStep.call := by
  have hlength : (settings.alignmentCalls ++
      List.replicate requests VersionQuery.requestCall).length =
        settings.alignmentCalls.length + requests := by
    rw [List.length_append, List.length_replicate]
  rw [script_of_autoConfig auto, ← List.append_assoc, stepPlace, ← hlength,
    List.getElem?_append_right (Nat.le_add_right _ _), Nat.add_sub_cancel_left, List.getElem?_map]

/-- **A frame in a script is a version request, or its place tells the step of the plan.** -/
theorem carries_script (auto : settings.autoConfig = true) {requests : Nat} {known : Capabilities}
    {place : Nat} {call : LineCall} {type : MessageType}
    (hcall : (settings.script requests known)[place]? = some call) (h : call.Carries type) :
    type = versionRequest.type ∨
      ∃ i step, place = settings.stepPlace requests i ∧
        (Plan.make settings known)[i]? = some step ∧ type = step.command.type := by
  rcases Nat.lt_or_ge place (settings.alignmentCalls.length + requests) with hlt | hge
  · left
    have hmem : call ∈ settings.alignmentCalls ++
        List.replicate requests VersionQuery.requestCall := by
      rw [script_of_autoConfig auto, ← List.append_assoc, List.getElem?_append_left] at hcall
      · exact List.mem_of_getElem? hcall
      · rw [List.length_append, List.length_replicate]
        exact hlt
    rcases List.mem_append.1 hmem with halign | hrequest
    · exact absurd h (not_carries_of_mem_alignmentCalls halign type)
    · rw [List.eq_of_mem_replicate hrequest] at h
      exact h.type_eq VersionQuery.carries_requestCall
  · right
    obtain ⟨i, rfl⟩ := Nat.exists_eq_add_of_le hge
    have hstep := script_stepPlace auto requests i known
    rw [stepPlace, hcall] at hstep
    obtain ⟨step, hplan, rfl⟩ := Option.map_eq_some_iff.1 hstep.symm
    exact ⟨i, step, rfl, hplan, h.type_eq step.carries_call⟩

end Settings

/-- During a configuration the step at the cursor was the last one that was performed. -/
theorem Emitted.length_log {requests : Nat} {known : Capabilities} {run : PlanRun}
    {log : List LineCall} (h : Emitted settings (some (requests, known)) (.configuration run) log)
    (hlt : run.cursor < run.plan.length) :
    log.length = settings.stepPlace requests run.cursor + 1 := by
  obtain _ | _ | ⟨auto, hsent, -, hplan, hlog⟩ := h
  obtain ⟨sentAt, hsent⟩ := Option.isSome_iff_exists.1 hsent
  have hlength := congrArg List.length hlog
  rw [hplan] at hlt
  simp only [PlanRun.remaining, hsent, hplan, Settings.script_of_autoConfig auto,
    List.length_append, List.length_map, List.length_drop, List.length_replicate] at hlength
  rw [Settings.stepPlace]
  omega

/-! ### A call of the protocol task -/

namespace Session

variable [SerialLine σ ε] {s s' : Session} {now : Instant} {r r' : Recorder σ}
  {result : Except (LinkError ε) (Option Solution)} {solution : Option Solution}
  {run run' : PlanRun}

section

variable {step : PlanStep} {sentAt : Instant} (hstep : run.plan[run.cursor]? = some step)
  (hsent : run.sentAt = some sentAt)

include hstep hsent

/-- Where a step is waited for, nothing happens. -/
theorem configure_waiting
    (hwait : step.policy.judge s.tracker.state (now.since sentAt) = .wait) :
    (s.configure run now r : Except (LinkError ε) (Option Solution) × Session × Recorder σ) =
      (.ok none, { s with phase := .configuration run }, r) := by
  simp only [configure, (PlanRun.poll_sent hstep hsent).1 hwait]

/-- Where a step is left, the next one is sent, or its write fails, or there is none and the session
runs.  A ceiling starts, unless the next step is inside a group. -/
theorem configure_leaving
    (hcomplete : step.policy.judge s.tracker.state (now.since sentAt) = .complete)
    (h : s.configure run now r = (result, s', r')) :
    (run.plan[run.cursor + 1]? = none ∧ result = .ok none ∧ s'.phase = .running ∧
      s'.ceiling = ⟨some now, Timing.phaseCeiling⟩ ∧ r'.calls = r.calls) ∨
    (∃ later, run.plan[run.cursor + 1]? = some later ∧
      s'.tracker = ⟨.waiting, later.command.type.id⟩ ∧
      (later.opensGroup = true → s'.ceiling = ⟨some now, Timing.groupCeiling⟩) ∧
      ((result = .ok none ∧
          s'.phase = .configuration ⟨run.plan, run.cursor + 1, some now⟩ ∧
          r'.calls = r.calls ++ [later.call]) ∨
       (∃ e, result = .error (.negotiation (.send (.send e))) ∧
          s'.phase = .configuration ⟨run.plan, run.cursor + 1, none⟩ ∧
          r'.calls = r.calls ++ [.write later.command.toCommand.transmitted false]))) := by
  obtain ⟨answer, run', tracker', ceiling', hpoll, hsession⟩ := configure_state h
  rw [(PlanRun.poll_sent hstep hsent).2 hcomplete] at hpoll
  rcases PlanRun.sendStep_state hpoll with ⟨hend, rfl, rfl, -, -, rfl⟩ |
    ⟨later, sent, hlater, hsend, hceiling, hanswer⟩
  · obtain ⟨e, herror, -⟩ | ⟨hpending, -⟩ | ⟨-, hresult, rfl⟩ := hsession
    · cases herror
    · cases hpending
    · exact .inl ⟨hend, hresult, rfl, rfl, rfl⟩
  · obtain ⟨htracker, hwritten⟩ := later.command.fits.send_cases hsend
    have harmed : later.opensGroup = true → ceiling' = ⟨some now, Timing.groupCeiling⟩ :=
      fun hopens => hceiling.trans (if_pos hopens)
    rcases hanswer with ⟨rfl, rfl, rfl⟩ | ⟨e, rfl, rfl, rfl⟩
    · obtain ⟨-, hcalls⟩ | ⟨e, herror, -⟩ := hwritten
      · obtain ⟨e, herror, -⟩ | ⟨-, hresult, rfl⟩ | ⟨hready, -⟩ := hsession
        · cases herror
        · exact .inr ⟨later, hlater, htracker, harmed, .inl ⟨hresult, rfl, hcalls⟩⟩
        · cases hready
      · cases herror
    · obtain ⟨hok, -⟩ | ⟨e', herror, hcalls⟩ := hwritten
      · cases hok
      · cases herror
        obtain ⟨e, herror, hresult, rfl⟩ | ⟨hpending, -⟩ | ⟨hready, -⟩ := hsession
        · cases herror
          exact .inr ⟨later, hlater, htracker, harmed, .inr ⟨e', hresult, rfl, hcalls⟩⟩
        · cases hpending
        · cases hready

/-- **What becomes of the step at the cursor** is what the tracker and the clock say about it: the
session waits, or the command was rejected, or the step is left.  Behind the last step the session
runs; otherwise the next step is sent. -/
theorem configure_verdict (h : s.configure run now r = (result, s', r')) :
    (step.policy.judge s.tracker.state (now.since sentAt) = .wait ∧ result = .ok none ∧
      s'.phase = .configuration run ∧ s'.tracker = s.tracker) ∨
    (step.policy.judge s.tracker.state (now.since sentAt) = .rejected ∧
      result = .error (.negotiation (.rejected step.command.type)) ∧
      s'.phase = .configuration run) ∨
    (step.policy.judge s.tracker.state (now.since sentAt) = .complete ∧
      (∀ type, result ≠ .error (.negotiation (.rejected type))) ∧
      (s'.phase = .running ∨
        ∃ run', s'.phase = .configuration run' ∧ run'.plan = run.plan ∧
          run'.cursor = run.cursor + 1 ∧ ∃ later, run.plan[run.cursor + 1]? = some later ∧
          s'.tracker = ⟨.waiting, later.command.type.id⟩)) := by
  cases hjudge : step.policy.judge s.tracker.state (now.since sentAt) with
  | wait =>
    rw [configure_waiting hstep hsent hjudge, Prod.mk.injEq, Prod.mk.injEq] at h
    obtain ⟨rfl, rfl, -⟩ := h
    exact .inl ⟨rfl, rfl, rfl, rfl⟩
  | rejected =>
    simp only [configure, PlanRun.poll, hstep, hsent, hjudge, Prod.mk.injEq] at h
    obtain ⟨rfl, rfl, -⟩ := h
    exact .inr (.inl ⟨rfl, rfl, rfl⟩)
  | complete =>
    refine .inr (.inr ⟨rfl, ?_⟩)
    rcases configure_leaving hstep hsent hjudge h with ⟨-, rfl, hrunning, -⟩ |
      ⟨later, hlater, htracker, -, ⟨rfl, hphase, -⟩ | ⟨e, rfl, hphase, -⟩⟩
    · refine ⟨fun type hresult => ?_, .inl hrunning⟩
      cases hresult
    · refine ⟨fun type hresult => ?_, .inr ⟨_, hphase, rfl, rfl, later, hlater, htracker⟩⟩
      cases hresult
    · refine ⟨fun type hresult => ?_, .inr ⟨_, hphase, rfl, rfl, later, hlater, htracker⟩⟩
      cases hresult

end

/-- **How a call comes to a configuration.**  It begins the configuration, or the configuration was
going on. -/
theorem advance_configuration (h : s.advance settings now r = (.ok solution, s', r'))
    (hphase : s'.phase = .configuration run') :
    (run'.cursor = 0 ∧ ∃ step, run'.plan[0]? = some step ∧
      s'.tracker = ⟨.waiting, step.command.type.id⟩) ∨
    ∃ run, s.phase = .configuration run ∧ s.configure run now r = (.ok solution, s', r') := by
  have hask : ∀ {s1 : Session} {query : VersionQuery} {r1 : Recorder σ},
      s1.askVersion settings query now r1 = (.ok solution, s', r') →
      run'.cursor = 0 ∧ ∃ step, run'.plan[0]? = some step ∧
        s'.tracker = ⟨.waiting, step.command.type.id⟩ := by
    intro s1 query r1 h
    obtain ⟨answer, query', tracker', r2, -, hcases⟩ := askVersion_cases h
    rcases hcases with ⟨e, -, herror, -⟩ | ⟨-, -, hversion, -⟩ | ⟨-, s2, hconfigure⟩
    · cases herror
    · cases hversion.symm.trans hphase
    · obtain ⟨run, step, hphase1, hstart⟩ := configure_start hconfigure
      obtain rfl : run = run' := Phase.configuration.inj (hphase1.symm.trans hphase)
      exact ⟨hstart.1, step, hstart.2⟩
  cases advance_cases h with
  | baud a _ hcall =>
    obtain ⟨answer, a', r1, -, hcases⟩ := alignBaud_cases hcall
    rcases hcases with ⟨e, -, herror, -⟩ | ⟨-, -, hbaud, -⟩ | ⟨-, -, s1, hversion, -⟩ |
      ⟨-, -, -, hrunning, -⟩
    · cases herror
    · cases hbaud.symm.trans hphase
    · exact .inl (hask hversion)
    · cases hrunning.symm.trans hphase
  | version query _ hcall => exact .inl (hask hcall)
  | configuration run hfrom hcall => exact .inr ⟨run, hfrom, hcall⟩
  | running hfrom =>
    rw [phase_consume, hfrom] at hphase
    cases hphase

end Session

end GnssLink
