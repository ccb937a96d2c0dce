import GnssLink.Proofs.Link.History
import GnssLink.Proofs.Negotiation.Remaining

/-!
# What the protocol task attempts

A recorder shows the operations that failed together with those that were performed.  Whatever the
protocol task attempts is appended to the record.  It fails for two reasons only: one of the
operations that it attempted has failed, or the receiver has refused a command.  In particular no
command is too long for the transmit buffer.

The ceiling is not looked at here; it is checked behind all this.

## Main definitions

* `Attempts` — operations were attempted, and a failure is one of theirs, or a refusal.
* `NegotiationError.IsRefusal`, `LinkError.IsRefusal` — the receiver has refused a command.

## Main results

* `BaudAlignment.poll_attempts`, `VersionQuery.poll_attempts`, `PlanRun.poll_attempts` — the three
  parts of the negotiation.
* `Session.advance_attempts` — the protocol task up to the check of the ceiling.
-/

namespace GnssLink

/-- The receiver has refused a command that it must accept. -/
def NegotiationError.IsRefusal {ε : Type} (e : NegotiationError ε) : Prop :=
  ∃ command, e = .rejected command

/-- The session ends because the receiver has refused a command. -/
def LinkError.IsRefusal {ε : Type} (e : LinkError ε) : Prop :=
  ∃ command, e = .negotiation (.rejected command)

/-- Between two states of a recorder operations were attempted.  A failure is a refusal, or one of
them has failed. -/
def Attempts {σ φ α : Type} (Refusal : φ → Prop) (result : Except φ α) (r r' : Recorder σ) : Prop :=
  ∃ attempts, r'.calls = r.calls ++ attempts ∧
    ∀ e, result = .error e → Refusal e ∨ ∃ call ∈ attempts, call.ok = false

namespace Attempts

variable {σ φ ψ α β : Type} {Refusal : φ → Prop} {Refusal' : ψ → Prop} {result : Except φ α}
  {result' : Except ψ β} {r r' r'' : Recorder σ} {call : LineCall}

/-- Something is attempted, and nothing fails. -/
theorem of_ok {value : α} {attempts : List LineCall} (h : r'.calls = r.calls ++ attempts) :
    Attempts Refusal (.ok value) r r' :=
  ⟨attempts, h, fun _ herror => nomatch herror⟩

/-- One of the operations that are attempted fails. -/
theorem of_failed {attempts : List LineCall} (h : r'.calls = r.calls ++ attempts)
    (hmem : call ∈ attempts) (hfailed : call.ok = false) : Attempts Refusal result r r' :=
  ⟨attempts, h, fun _ _ => .inr ⟨call, hmem, hfailed⟩⟩

/-- A command is refused. -/
theorem of_refusal {e : φ} (hrefusal : Refusal e) :
    Attempts Refusal (.error e : Except φ α) r r := by
  refine ⟨[], (List.append_nil _).symm, fun e' herror => .inl ?_⟩
  cases herror
  exact hrefusal

/-- Only the record matters. -/
theorem congr (h : Attempts Refusal result r' r'') (hcalls : r'.calls = r.calls) :
    Attempts Refusal result r r'' := by
  rw [Attempts, hcalls] at h
  exact h

/-- Something is attempted, and then something else.  What the first came to does not matter any
more. -/
theorem trans (hfirst : Attempts Refusal result r r') (hsecond : Attempts Refusal' result' r' r'') :
    Attempts Refusal' result' r r'' := by
  obtain ⟨first, hcalls, -⟩ := hfirst
  obtain ⟨second, hcalls', hfault⟩ := hsecond
  refine ⟨first ++ second, by rw [hcalls', hcalls, List.append_assoc], fun e herror => ?_⟩
  rcases hfault e herror with hrefusal | ⟨call, hmem, hcall⟩
  · exact .inl hrefusal
  · exact .inr ⟨call, List.mem_append_right first hmem, hcall⟩

/-- A success, whatever it returns. -/
theorem ok (h : Attempts Refusal result r r') (value : β) :
    Attempts Refusal' (.ok value) r r' := by
  obtain ⟨attempts, hcalls, -⟩ := h
  exact ⟨attempts, hcalls, fun _ herror => nomatch herror⟩

/-- A failure is handed on. -/
theorem error {e : φ} {e' : ψ} (h : Attempts Refusal (.error e : Except φ α) r r')
    (hrefusal : Refusal e → Refusal' e') : Attempts Refusal' (.error e' : Except ψ β) r r' := by
  obtain ⟨attempts, hcalls, hfault⟩ := h
  refine ⟨attempts, hcalls, fun e1 herror => ?_⟩
  cases herror
  exact (hfault e rfl).imp_left hrefusal

end Attempts

variable {σ ε : Type} [SerialLine σ ε] {now : Instant} {r r' : Recorder σ}

/-! ### The parts of the negotiation -/

namespace BaudAlignment

variable {a a' : BaudAlignment} {index : Nat} {result : Except (NegotiationError ε) Progress}

theorem finish_attempts (h : a.finish r = (result, a', r')) :
    Attempts NegotiationError.IsRefusal result r r' := by
  rcases finish_cases h with ⟨rfl, -, hcalls⟩ | ⟨e, rfl, hcalls⟩
  · exact .of_ok hcalls
  · exact .of_failed hcalls List.mem_cons_self rfl

theorem probe_attempts (h : a.probe index now r = (result, a', r')) :
    Attempts NegotiationError.IsRefusal result r r' := by
  rcases probe_cases h with ⟨-, hfinish⟩ |
    ⟨candidate, -, ⟨e, rfl, hcalls⟩ | ⟨e, rfl, hcalls⟩ | ⟨rfl, hcalls, -⟩⟩
  · exact finish_attempts hfinish
  · exact .of_failed hcalls List.mem_cons_self rfl
  · exact .of_failed hcalls (List.mem_cons_of_mem _ List.mem_cons_self) rfl
  · exact .of_ok hcalls

/-- **The alignment fails only with the line.** -/
theorem poll_attempts (h : a.poll now r = (result, a', r')) :
    Attempts NegotiationError.IsRefusal result r r' := by
  rcases poll_cases h with ⟨p, rfl, hcalls, -⟩ | ⟨index, r1, hcalls, hprobe, -⟩ |
    ⟨r1, hcalls, hfinish, -⟩
  · exact .of_ok (hcalls.trans (List.append_nil _).symm)
  · exact (probe_attempts hprobe).congr hcalls
  · exact (finish_attempts hfinish).congr hcalls

end BaudAlignment

/-- **The version query fails only with the line.** -/
theorem VersionQuery.poll_attempts {q q' : VersionQuery} {known : Capabilities}
    {tracker tracker' : ReplyTracker} {result : Except (NegotiationError ε) Progress}
    (h : q.poll now known tracker r = (result, q', tracker', r')) :
    Attempts NegotiationError.IsRefusal result r r' := by
  rcases poll_cases h with ⟨-, ⟨p, rfl⟩, -, -, rfl⟩ |
    ⟨-, -, ⟨p, rfl, -, hcalls⟩ | ⟨e, rfl, hcalls⟩⟩
  · exact .of_ok (List.append_nil _).symm
  · exact .of_ok hcalls
  · exact .of_failed hcalls List.mem_cons_self rfl

namespace PlanRun

variable {run run' : PlanRun} {tracker tracker' : ReplyTracker} {ceiling ceiling' : Ceiling}
  {result : Except (NegotiationError ε) Progress}

theorem sendStep_attempts
    (h : run.sendStep now tracker ceiling r = (result, run', tracker', ceiling', r')) :
    Attempts NegotiationError.IsRefusal result r r' := by
  rcases sendStep_cases h with ⟨-, rfl, -, -, -, rfl⟩ |
    ⟨step, -, -, -, ⟨rfl, -, hcalls⟩ | ⟨e, rfl, -, hcalls⟩⟩
  · exact .of_ok (List.append_nil _).symm
  · exact .of_ok hcalls
  · exact .of_failed hcalls List.mem_cons_self rfl

/-- **A plan fails with the line, or because a command was refused.** -/
theorem poll_attempts
    (h : run.poll now tracker ceiling r = (result, run', tracker', ceiling', r')) :
    Attempts NegotiationError.IsRefusal result r r' := by
  rcases poll_cases h with
    ⟨step, sentAt, -, -, ⟨-, rfl, -, -, -, rfl⟩ | ⟨-, rfl, -, -, -, rfl⟩ | ⟨-, hsend⟩⟩ | ⟨-, hsend⟩
  · exact .of_ok (List.append_nil _).symm
  · exact .of_refusal ⟨_, rfl⟩
  · exact sendStep_attempts hsend
  · exact sendStep_attempts hsend

end PlanRun

/-! ### The protocol task -/

namespace Session

variable {s s' : Session} {settings : Settings}
  {result : Except (LinkError ε) (Option Solution)}

/-- A refusal ends the session as one. -/
private theorem isRefusal_negotiation {e : NegotiationError ε} (h : e.IsRefusal) :
    (LinkError.negotiation e).IsRefusal := by
  obtain ⟨command, rfl⟩ := h
  exact ⟨command, rfl⟩

theorem configure_attempts {run : PlanRun} (h : s.configure run now r = (result, s', r')) :
    Attempts LinkError.IsRefusal result r r' := by
  obtain ⟨answer, run', tracker', ceiling', hpoll,
    ⟨e, rfl, rfl, -⟩ | ⟨-, rfl, -⟩ | ⟨-, rfl, -⟩⟩ := configure_state h
  · exact (PlanRun.poll_attempts hpoll).error isRefusal_negotiation
  · exact (PlanRun.poll_attempts hpoll).ok _
  · exact (PlanRun.poll_attempts hpoll).ok _

theorem askVersion_attempts {query : VersionQuery}
    (h : s.askVersion settings query now r = (result, s', r')) :
    Attempts LinkError.IsRefusal result r r' := by
  obtain ⟨answer, query', tracker', r1, hpoll,
    ⟨e, rfl, rfl, rfl, -⟩ | ⟨-, rfl, rfl, -⟩ | ⟨-, hconfigure⟩⟩ := askVersion_state h
  · exact (VersionQuery.poll_attempts hpoll).error isRefusal_negotiation
  · exact (VersionQuery.poll_attempts hpoll).ok _
  · exact (VersionQuery.poll_attempts hpoll).trans (configure_attempts hconfigure)

theorem alignBaud_attempts {a : BaudAlignment}
    (h : s.alignBaud settings a now r = (result, s', r')) :
    Attempts LinkError.IsRefusal result r r' := by
  obtain ⟨answer, a', r1, hpoll, ⟨e, rfl, rfl, rfl, -⟩ | ⟨-, rfl, rfl, -⟩ | ⟨-, -, hask⟩ |
    ⟨-, -, rfl, rfl, -⟩⟩ := alignBaud_state h
  · exact (BaudAlignment.poll_attempts hpoll).error isRefusal_negotiation
  · exact (BaudAlignment.poll_attempts hpoll).ok _
  · exact (BaudAlignment.poll_attempts hpoll).trans (askVersion_attempts hask)
  · exact (BaudAlignment.poll_attempts hpoll).ok _

/-- **The protocol task fails with the line, or because a command was refused**, as long as the
ceiling is not looked at. -/
theorem advance_attempts (h : s.advance settings now r = (result, s', r')) :
    Attempts LinkError.IsRefusal result r r' := by
  cases advance_cases h with
  | baud a _ hcall => exact alignBaud_attempts hcall
  | version query _ hcall => exact askVersion_attempts hcall
  | configuration run _ hcall => exact configure_attempts hcall
  | running => exact .of_ok (List.append_nil _).symm

end Session

end GnssLink
