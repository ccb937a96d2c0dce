import GnssLink.Proofs.Link.Cooperation
import GnssLink.Proofs.Link.Expiry
import GnssLink.Proofs.Link.Passes

/-!
# What one call spends

A call of the protocol task goes through several phases if it can, but it does little in all of them
together.  As long as no earlier call of it has failed, a call switches the speed at most once and
writes at most once.  Only a call that begins the version query with the generation known already
writes twice: the version request and the first command of the plan.  This holds whatever the line
answers and which of the operations fail; operations are counted when they are attempted.

After a failure a call can write twice as well, for a request that could not be written is tried
again also when the generation is known by then.

## Main definitions

* `Spends` — at most so many switches and writes were attempted.
* `Session.AsksAtOnce` — a call begins both the version query and the configuration.
* `ProtocolCall.Bounded` — what a call does and spends at most.

## Main results

* `Session.advance_spends` — one switch and one write, or two writes at once.
* `Moment.protocolCall_bounded` — every call ends, within these bounds.
-/

namespace GnssLink

/-! ### Counting attempts -/

/-- The call is a change of speed. -/
def LineCall.isSwitch : LineCall → Bool
  | .setBaudRate _ _ => true
  | .write _ _ => false

/-- The call is a write. -/
def LineCall.isWrite : LineCall → Bool
  | .setBaudRate _ _ => false
  | .write _ _ => true

/-- Between two states of a recorder at most so many changes of speed and writes were attempted. -/
def Spends {σ : Type} (switches writes : Nat) (r r' : Recorder σ) : Prop :=
  ∃ attempts, r'.calls = r.calls ++ attempts ∧
    attempts.countP LineCall.isSwitch ≤ switches ∧ attempts.countP LineCall.isWrite ≤ writes

namespace Spends

variable {σ : Type} {r r' r'' : Recorder σ} {switches writes : Nat}

theorem of_calls {attempts : List LineCall} (h : r'.calls = r.calls ++ attempts) :
    Spends (attempts.countP LineCall.isSwitch) (attempts.countP LineCall.isWrite) r r' :=
  ⟨attempts, h, Nat.le_refl _, Nat.le_refl _⟩

/-- Nothing is attempted. -/
theorem of_eq (h : r'.calls = r.calls) : Spends 0 0 r r' :=
  of_calls (h.trans (List.append_nil _).symm)

theorem mono {switches' writes' : Nat} (h : Spends switches writes r r')
    (hswitches : switches ≤ switches') (hwrites : writes ≤ writes') :
    Spends switches' writes' r r' := by
  obtain ⟨attempts, hcalls, hfirst, hsecond⟩ := h
  exact ⟨attempts, hcalls, Nat.le_trans hfirst hswitches, Nat.le_trans hsecond hwrites⟩

/-- Only the record matters. -/
theorem congr (h : Spends switches writes r' r'') (hcalls : r'.calls = r.calls) :
    Spends switches writes r r'' := by
  rw [Spends, hcalls] at h
  exact h

/-- What is spent adds up. -/
theorem trans {switches' writes' : Nat} (hfirst : Spends switches writes r r')
    (hsecond : Spends switches' writes' r' r'') :
    Spends (switches + switches') (writes + writes') r r'' := by
  obtain ⟨first, hcalls, hswitches, hwrites⟩ := hfirst
  obtain ⟨second, hcalls', hswitches', hwrites'⟩ := hsecond
  refine ⟨first ++ second, by rw [hcalls', hcalls, List.append_assoc], ?_, ?_⟩
  · rw [List.countP_append]
    exact Nat.add_le_add hswitches hswitches'
  · rw [List.countP_append]
    exact Nat.add_le_add hwrites hwrites'

end Spends

variable {σ ε : Type} [SerialLine σ ε] {now : Instant} {r r' : Recorder σ}

/-! ### The parts of the negotiation -/

namespace BaudAlignment

variable {a a' : BaudAlignment} {index : Nat} {result : Except (NegotiationError ε) Progress}

theorem finish_spends (h : a.finish r = (result, a', r')) : Spends 1 0 r r' := by
  rcases finish_cases h with ⟨-, -, hcalls⟩ | ⟨e, -, hcalls⟩
  · exact .of_calls hcalls
  · exact .of_calls hcalls

/-- A candidate is switched to and sent the sentence; behind the last one there is no sentence. -/
theorem probe_spends (h : a.probe index now r = (result, a', r')) :
    Spends 1 1 r r' ∧ (result = .ok .ready → Spends 1 0 r r') := by
  rcases probe_cases h with ⟨-, hfinish⟩ |
    ⟨candidate, -, ⟨e, rfl, hcalls⟩ | ⟨e, rfl, hcalls⟩ | ⟨rfl, hcalls, -⟩⟩
  · have hspends := finish_spends hfinish
    exact ⟨hspends.mono (Nat.le_refl 1) (Nat.zero_le 1), fun _ => hspends⟩
  · exact ⟨(Spends.of_calls hcalls).mono (Nat.le_refl 1) (Nat.zero_le 1),
      fun hready => nomatch hready⟩
  · exact ⟨.of_calls hcalls, fun hready => nomatch hready⟩
  · exact ⟨.of_calls hcalls, fun hready => nomatch hready⟩

/-- **A poll of the alignment** switches once and writes once at most; the last one does not
write. -/
theorem poll_spends (h : a.poll now r = (result, a', r')) :
    Spends 1 1 r r' ∧ (result = .ok .ready → Spends 1 0 r r') := by
  rcases poll_cases h with ⟨p, -, hcalls, -⟩ | ⟨index, r1, hcalls, hprobe, -⟩ |
    ⟨r1, hcalls, hfinish, -⟩
  · have hspends := Spends.of_eq hcalls
    exact ⟨hspends.mono (Nat.zero_le 1) (Nat.zero_le 1),
      fun _ => hspends.mono (Nat.zero_le 1) (Nat.le_refl 0)⟩
  · obtain ⟨hspends, hready⟩ := probe_spends hprobe
    exact ⟨hspends.congr hcalls, fun h => (hready h).congr hcalls⟩
  · have hspends := (finish_spends hfinish).congr hcalls
    exact ⟨hspends.mono (Nat.le_refl 1) (Nat.zero_le 1), fun _ => hspends⟩

end BaudAlignment

namespace VersionQuery

variable {q q' : VersionQuery} {known : Capabilities} {tracker tracker' : ReplyTracker}
  {result : Except (NegotiationError ε) Progress}

/-- **A poll of the version query** writes at most once. -/
theorem poll_spends (h : q.poll now known tracker r = (result, q', tracker', r')) :
    Spends 0 1 r r' := by
  rcases poll_cases h with ⟨-, -, -, -, rfl⟩ | ⟨-, -, ⟨p, -, -, hcalls⟩ | ⟨e, -, hcalls⟩⟩
  · exact (Spends.of_eq rfl).mono (Nat.le_refl 0) (Nat.zero_le 1)
  · exact .of_calls hcalls
  · exact .of_calls hcalls

/-- A query that ends with its first poll has written a request, and the generation is known. -/
theorem poll_start_ready (h : start.poll now known tracker r = (.ok .ready, q', tracker', r')) :
    known.generation ≠ .unknown ∧ r'.calls = r.calls ++ [requestCall] := by
  rcases poll_state h with ⟨⟨_, hsent, -⟩, -⟩ | ⟨-, hrequest⟩
  · cases hsent
  · obtain ⟨-, ⟨hready, -, hcalls⟩ | ⟨e, herror, -⟩⟩ := request_cases hrequest
    · refine ⟨fun hunknown => ?_, hcalls⟩
      rw [if_pos hunknown] at hready
      cases hready
    · cases herror

end VersionQuery

namespace PlanRun

variable {run run' : PlanRun} {tracker tracker' : ReplyTracker} {ceiling ceiling' : Ceiling}
  {result : Except (NegotiationError ε) Progress}

theorem sendStep_spends
    (h : run.sendStep now tracker ceiling r = (result, run', tracker', ceiling', r')) :
    Spends 0 1 r r' := by
  rcases sendStep_cases h with ⟨-, -, -, -, -, rfl⟩ |
    ⟨step, -, -, -, ⟨-, -, hcalls⟩ | ⟨e, -, -, hcalls⟩⟩
  · exact (Spends.of_eq rfl).mono (Nat.le_refl 0) (Nat.zero_le 1)
  · exact .of_calls hcalls
  · exact .of_calls hcalls

/-- **A poll of a plan** writes at most once. -/
theorem poll_spends
    (h : run.poll now tracker ceiling r = (result, run', tracker', ceiling', r')) :
    Spends 0 1 r r' := by
  rcases poll_cases h with
    ⟨step, sentAt, -, -, ⟨-, -, -, -, -, rfl⟩ | ⟨-, -, -, -, -, rfl⟩ | ⟨-, hsend⟩⟩ | ⟨-, hsend⟩
  · exact (Spends.of_eq rfl).mono (Nat.le_refl 0) (Nat.zero_le 1)
  · exact (Spends.of_eq rfl).mono (Nat.le_refl 0) (Nat.zero_le 1)
  · exact sendStep_spends hsend
  · exact sendStep_spends hsend

end PlanRun

/-! ### The protocol task -/

namespace Session

variable {s s' : Session} {settings : Settings}
  {result : Except (LinkError ε) (Option Solution)}

/-- A version query that was begun waits for the answer to a request. -/
def Asked (s : Session) : Prop :=
  ∀ query, s.phase = .version query → query.sentAt.isSome

/-- The command of the first step of every plan: the navigation engine. -/
def firstCommand (settings : Settings) : ConfigCommand :=
  .navigationEngine ⟨settings.dynamicModel, settings.fixMode⟩

/-- A call that begins the version query with the generation known already, and so the configuration
as well.  Behind the last switch of the alignment it writes the version request and the first
command of the plan. -/
structure AsksAtOnce (settings : Settings) (now : Instant) (s s' : Session) (r r' : Recorder σ) :
    Prop where
  aligned : ∃ a a' r1, s.phase = .baud a ∧ a.poll now r = (.ok .ready, a', r1) ∧
    ∃ query tracker r2, VersionQuery.start.poll now s.known s.tracker r1 =
      (.ok .ready, query, tracker, r2)
  autoConfig : settings.autoConfig = true
  known : s.known.generation ≠ .unknown
  configures : ∃ run, s'.phase = .configuration run ∧ run.cursor = 0
  calls : ∃ switches ok, switches.countP LineCall.isSwitch ≤ 1 ∧
    switches.countP LineCall.isWrite = 0 ∧
    r'.calls = r.calls ++ (switches ++ [VersionQuery.requestCall,
      .write (firstCommand settings).toCommand.transmitted ok])

theorem configure_spends {run : PlanRun} (h : s.configure run now r = (result, s', r')) :
    Spends 0 1 r r' := by
  obtain ⟨_, _, _, _, hpoll, -⟩ := configure_state h
  exact PlanRun.poll_spends hpoll

/-- A configuration begins with the first command. -/
theorem configure_first {known : Capabilities}
    (h : s.configure (.start (.make settings known)) now r = (result, s', r')) :
    (∃ run, s'.phase = .configuration run ∧ run.cursor = 0) ∧ ∃ ok, r'.calls = r.calls ++
      [.write (firstCommand settings).toCommand.transmitted ok] := by
  have hfirst : (Plan.make settings known)[0]? = some ⟨firstCommand settings, .accepted, true⟩ :=
    rfl
  obtain ⟨answer, run', _, _, hpoll, hcases⟩ := configure_state h
  rcases PlanRun.poll_cases hpoll with ⟨_, _, -, hsent, -⟩ | ⟨-, hsend⟩
  · cases hsent
  rcases PlanRun.sendStep_cases hsend with ⟨hend, -⟩ |
    ⟨step, hstep, -, -, ⟨rfl, rfl, hcalls⟩ | ⟨e, rfl, rfl, hcalls⟩⟩
  · cases hfirst.symm.trans hend
  · cases hfirst.symm.trans hstep
    obtain ⟨e, herror, -⟩ | ⟨-, -, rfl⟩ | ⟨hready, -⟩ := hcases
    · cases herror
    · exact ⟨⟨_, rfl, rfl⟩, true, hcalls⟩
    · cases hready
  · cases hfirst.symm.trans hstep
    obtain ⟨_, -, -, rfl⟩ | ⟨hpending, -⟩ | ⟨hready, -⟩ := hcases
    · exact ⟨⟨_, rfl, rfl⟩, false, hcalls⟩
    · cases hpending
    · cases hready

/-- The query that waits for an answer writes no more than the configuration behind it. -/
theorem askVersion_spends {query : VersionQuery} (hsent : query.sentAt.isSome)
    (h : s.askVersion settings query now r = (result, s', r')) : Spends 0 1 r r' := by
  obtain ⟨answer, query', tracker', r1, hpoll,
    ⟨e, -, -, rfl, -⟩ | ⟨-, -, rfl, -⟩ | ⟨rfl, hconfigure⟩⟩ := askVersion_state h
  · exact VersionQuery.poll_spends hpoll
  · exact VersionQuery.poll_spends hpoll
  · rw [VersionQuery.poll_ready_of_sent hsent hpoll] at hconfigure
    exact configure_spends hconfigure

/-- The alignment, and what follows it at once. -/
theorem alignBaud_spends {a : BaudAlignment} (hphase : s.phase = .baud a)
    (h : s.alignBaud settings a now r = (result, s', r')) :
    Spends 1 1 r r' ∨ AsksAtOnce settings now s s' r r' := by
  obtain ⟨answer, a', r1, hpoll, ⟨e, -, -, rfl, -⟩ | ⟨-, -, rfl, -⟩ | ⟨rfl, hauto, hask⟩ |
    ⟨-, -, -, rfl, -⟩⟩ := alignBaud_state h
  · exact .inl (BaudAlignment.poll_spends hpoll).1
  · exact .inl (BaudAlignment.poll_spends hpoll).1
  · have hswitch := (BaudAlignment.poll_spends hpoll).2 rfl
    obtain ⟨answer, query', tracker', r2, hquery,
      ⟨e, -, -, rfl, -⟩ | ⟨-, -, rfl, -⟩ | ⟨rfl, hconfigure⟩⟩ := askVersion_state hask
    · exact .inl (hswitch.trans (VersionQuery.poll_spends hquery))
    · exact .inl (hswitch.trans (VersionQuery.poll_spends hquery))
    · obtain ⟨hknown, hrequest⟩ := VersionQuery.poll_start_ready hquery
      obtain ⟨hconfigures, ok, hwrite⟩ := configure_first hconfigure
      obtain ⟨switches, hcalls, hswitches, hwrites⟩ := hswitch
      refine .inr ⟨⟨a, a', r1, hphase, hpoll, query', tracker', r2, hquery⟩, hauto, hknown,
        hconfigures, switches, ok, hswitches, Nat.le_zero.1 hwrites, ?_⟩
      rw [hwrite, hrequest, hcalls, List.append_assoc, List.append_assoc]
      rfl
  · exact .inl (BaudAlignment.poll_spends hpoll).1

/-- **One switch and one write**, or two writes at once. -/
theorem advance_spends (hs : s.Asked) (h : s.advance settings now r = (result, s', r')) :
    Spends 1 1 r r' ∨ AsksAtOnce settings now s s' r r' := by
  cases advance_cases h with
  | baud a hphase hcall => exact alignBaud_spends hphase hcall
  | version query hphase hcall =>
    exact .inl ((askVersion_spends (hs query hphase) hcall).mono (Nat.zero_le 1) (Nat.le_refl 1))
  | configuration run _ hcall =>
    exact .inl ((configure_spends hcall).mono (Nat.zero_le 1) (Nat.le_refl 1))
  | running => exact .inl ((Spends.of_eq rfl).mono (Nat.zero_le 1) (Nat.zero_le 1))

omit [SerialLine σ ε] in
theorem asked_start (settings : Settings) : (start settings).Asked :=
  fun _ hquery => nomatch hquery

theorem asked_of_configure {run : PlanRun} (h : s.configure run now r = (result, s', r')) :
    s'.Asked := by
  intro query hquery
  obtain ⟨_, _, _, -, ⟨_, -, -, hphase⟩ | ⟨-, -, hphase⟩ | ⟨-, -, hphase⟩⟩ := configure_cases h <;>
    cases hphase.symm.trans hquery

theorem asked_of_askVersion {query : VersionQuery} {solution : Option Solution}
    (h : s.askVersion settings query now r = (.ok solution, s', r')) : s'.Asked := by
  obtain ⟨_, _, _, _, hpoll, ⟨e, -, herror, -⟩ | ⟨rfl, -, hphase, -⟩ | ⟨-, _, hconfigure⟩⟩ :=
    askVersion_cases h
  · cases herror
  · intro query' hquery
    cases hphase.symm.trans hquery
    exact VersionQuery.poll_sentAt hpoll
  · exact asked_of_configure hconfigure

/-- **A call that does not fail** leaves a version query behind only with a request that is waited
for. -/
theorem asked_of_advance {solution : Option Solution}
    (h : s.advance settings now r = (.ok solution, s', r')) : s'.Asked := by
  cases advance_cases h with
  | baud a _ hcall =>
    obtain ⟨_, _, _, -, ⟨e, -, herror, -⟩ | ⟨-, -, hbaud, -⟩ | ⟨-, -, _, hask, -⟩ |
      ⟨-, -, -, hrunning, -⟩⟩ := alignBaud_cases hcall
    · cases herror
    · intro query hquery
      cases hbaud.symm.trans hquery
    · exact asked_of_askVersion hask
    · intro query hquery
      cases hrunning.symm.trans hquery
  | version query _ hcall => exact asked_of_askVersion hcall
  | configuration run _ hcall => exact asked_of_configure hcall
  | running hphase =>
    intro query hquery
    cases hphase.symm.trans ((s.phase_consume now).symm.trans hquery)

end Session

/-! ### Calls of a run -/

/-- What a call of the protocol task does and spends.  Operations count as soon as they are
attempted. -/
structure ProtocolCall.Bounded (settings : Settings) (world : σ → σ) (c : ProtocolCall σ ε) :
    Prop where
  /-- The loop of the call ends, and behind it the ceiling is checked. -/
  ends : ∃ n ≤ 11, ∃ advanced,
    Ends (Session.pass settings c.now)
      ({ c.before.session with ceiling := c.before.session.ceiling.start c.now },
        c.before.line.alter world) n
      (advanced, c.after.session, c.after.line) ∧
    Session.Checked c.now c.after.session.ceiling advanced c.after.result
  /-- The speed is switched at most once. -/
  switches : c.attempts.countP LineCall.isSwitch ≤ 1
  /-- There are at most two writes. -/
  writes : c.attempts.countP LineCall.isWrite ≤ 2
  /-- With two writes the call begins the version query with the generation known already. -/
  twoWrites : 1 < c.attempts.countP LineCall.isWrite →
    Session.AsksAtOnce settings c.now c.before.session c.after.session
      (c.before.line.alter world) c.after.line

namespace Moment

variable {settings : Settings} {m : Moment σ ε}

/-- A call of a session whose version query was asked is bounded. -/
theorem bounded_of_asked (hm : m.session.Asked) (now : Instant) (world : σ → σ) :
    (m.protocolCall settings now world).Bounded settings world := by
  obtain ⟨c, hc⟩ : ∃ c, c = m.protocolCall settings now world := ⟨_, rfl⟩
  rw [← hc]
  obtain ⟨advanced, hadvance, hchecked⟩ := protocolCall_advance hc
  obtain ⟨rfl, rfl⟩ : c.now = now ∧ c.before = m := by
    rw [hc]
    exact ⟨rfl, rfl⟩
  obtain ⟨n, hn, hends⟩ := Session.advance_ends hadvance
  have hasked : Session.Asked
      { c.before.session with ceiling := c.before.session.ceiling.start c.now } := hm
  rcases Session.advance_spends hasked hadvance with
    ⟨attempts, hcalls, hswitches, hwrites⟩ | hasks
  · have hsame := ProtocolCall.attempts_eq rfl hcalls
    refine ⟨⟨n, hn, advanced, hends, hchecked⟩, ?_, ?_, ?_⟩
    · rw [hsame]
      exact hswitches
    · rw [hsame]
      exact Nat.le_succ_of_le hwrites
    · rw [hsame]
      exact fun htwo => absurd hwrites (Nat.not_le.2 htwo)
  · obtain ⟨switches, ok, hswitches, hwrites, hcalls⟩ := hasks.calls
    have hsame := ProtocolCall.attempts_eq rfl hcalls
    refine ⟨⟨n, hn, advanced, hends, hchecked⟩, ?_, ?_, fun _ => ?_⟩
    · rw [hsame, List.countP_append]
      exact hswitches
    · rw [hsame, List.countP_append, hwrites]
      exact Nat.le_refl 2
    · exact ⟨hasks.aligned, hasks.autoConfig, hasks.known, hasks.configures, hasks.calls⟩

/-- A version query waits for an answer as long as no call of the protocol task has failed. -/
theorem asked_after (hm : m.session.Asked) {calls : List (TaskCall σ)}
    (hok : ∀ c ∈ m.protocolCalls settings calls, ∃ solution, c.after.result = .ok solution) :
    (m.after settings calls).session.Asked := by
  induction calls generalizing m with
  | nil => exact hm
  | cons call calls ih =>
    cases call with
    | receive world =>
      refine ih (fun query hquery => hm query ?_) hok
      rcases hreceive : m.session.receive (m.line.alter world) with ⟨result, s', r'⟩
      simp only [next, hreceive] at hquery
      rw [← Session.phase_receive hreceive]
      exact hquery
    | protocol now world =>
      obtain ⟨⟨solution, hfirst⟩, hrest⟩ := List.forall_mem_cons.1 hok
      refine ih ?_ hrest
      obtain ⟨advanced, hadvance, hchecked⟩ :=
        protocolCall_advance (rfl : m.protocolCall settings now world = _)
      obtain ⟨rfl, -⟩ := hchecked.of_ok hfirst
      exact Session.asked_of_advance hadvance

/-- **What every call of the protocol task does and spends.**  After any calls of both tasks, at any
readings of the clock and over any line, of which no call of the protocol task has failed, the next
one ends, with at most one change of speed and at most two writes. -/
theorem protocolCall_bounded (settings : Settings) (line : σ) (calls : List (TaskCall σ))
    (hok : ∀ c ∈ (start settings line : Moment σ ε).protocolCalls settings calls,
      ∃ solution, c.after.result = .ok solution) (now : Instant) (world : σ → σ) :
    (((start settings line : Moment σ ε).after settings calls).protocolCall settings now
      world).Bounded settings world :=
  bounded_of_asked (asked_after (Session.asked_start settings) hok) now world

/-- The transmitter is busy, and then a report of the version arrives. -/
def reportedEarly : List (TaskCall ScriptedLine) :=
  [.protocol ⟨0⟩ fun line => { line with txAnswers := [false, true] },
   .receive fun line => { line with queue := Link.versionReport.wire }]

/-- The next call aligns the speed, asks for the version and begins the configuration. -/
theorem protocolCall_bounded_reportedEarly :
    (∀ c ∈ (start Link.knownSpeed .idle).protocolCalls Link.knownSpeed reportedEarly,
        ∃ solution, c.after.result = .ok solution) ∧
      (((start Link.knownSpeed .idle).after Link.knownSpeed reportedEarly).protocolCall
        Link.knownSpeed ⟨1000⟩ id).attempts.countP LineCall.isWrite = 2 ∧
      (((start Link.knownSpeed .idle).after Link.knownSpeed reportedEarly).protocolCall
        Link.knownSpeed ⟨1000⟩ id).Bounded Link.knownSpeed id := by
  have hok : ∀ c ∈ (start Link.knownSpeed .idle).protocolCalls Link.knownSpeed reportedEarly,
      ∃ solution, c.after.result = .ok solution :=
    List.forall_mem_singleton.2 ⟨none, rfl⟩
  have hcount : (((start Link.knownSpeed .idle).after Link.knownSpeed reportedEarly).protocolCall
      Link.knownSpeed ⟨1000⟩ id).attempts.countP LineCall.isWrite = 2 := by
    decide +kernel
  have hbounded := protocolCall_bounded Link.knownSpeed .idle reportedEarly hok ⟨1000⟩ id
  exact ⟨hok, hcount, hbounded⟩

end Moment

end GnssLink
