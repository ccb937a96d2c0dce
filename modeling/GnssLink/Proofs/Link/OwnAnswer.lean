import GnssLink.Proofs.Link.Configuration
import GnssLink.Proofs.Link.Exchange

/-!
# Every step is left by its own answer

Replies are matched by the id of the command alone, thirteen steps in a row share one id, and late
answers to version requests and to steps that were given up may arrive at any time.  Still the
session never takes an answer for that to another command.

While the answer to a step is waited for, no other command with its id or with that of a later step
is open, that is: each of them was answered, and the answer has arrived (`Matched`).  A step that is
left without an answer does no harm, since its id does not occur again (`Plan.pairwise_make`), and
no step has the id of the version request.

## Main definitions

* `Closed` — a command that was answered, with nothing on its way.
* `Awaits` — the tracker waits for the answer to one command, or that answer decided.
* `Matched`, `Exchange.Sound` — the invariant during a configuration, and of all exchanges.

## Main results

* `Awaits.deliver` — only the answer to the awaited command decides.
* `Matched.configure` — going on with a configuration keeps the invariant.
* `Exchange.Reachable.sound` — every exchange that can come about is sound.
* `Exchange.leaves_step_by_own_answer` — a step is left, or given up, because of its own answer.
-/

namespace GnssLink

variable {σ ε : Type} {settings : Settings}

/-! ### Waiting for the answer to one command -/

/-- The module answered the command at a place, and the answer is no longer on its way. -/
def Closed (answered : List Nat) (inFlight : List Answer) (place : Nat) : Prop :=
  place ∈ answered ∧ ∀ a ∈ inFlight, a.place ≠ place

/-- The tracker waits for the answer to the command of an id at a place, or that answer decided. -/
structure Awaits (answered : List Nat) (inFlight : List Answer) (place : Nat) (id : UInt8)
    (tracker : ReplyTracker) (decider : Option Answer) : Prop where
  awaited : tracker.awaited = id
  begun : tracker.state ≠ .idle
  decided : tracker.state ≠ .waiting → ∃ a, decider = some a ∧ a.place = place ∧
    a.verdict = tracker.state ∧ Closed answered inFlight place

theorem Closed.mono {answered answered' : List Nat} {inFlight inFlight' : List Answer} {place : Nat}
    (h : Closed answered inFlight place) (hanswered : answered ⊆ answered')
    (hflight : ∀ a ∈ inFlight', a ∈ inFlight ∨ a.place ∉ answered) :
    Closed answered' inFlight' place := by
  refine ⟨hanswered h.1, fun a ha hplace => ?_⟩
  rcases hflight a ha with hold | hnew
  · exact h.2 a hold hplace
  · exact hnew (hplace ▸ h.1)

theorem Awaits.mono {answered answered' : List Nat} {inFlight inFlight' : List Answer} {place : Nat}
    {id : UInt8} {tracker : ReplyTracker} {decider : Option Answer}
    (h : Awaits answered inFlight place id tracker decider) (hanswered : answered ⊆ answered')
    (hflight : ∀ a ∈ inFlight', a ∈ inFlight ∨ a.place ∉ answered) :
    Awaits answered' inFlight' place id tracker decider := by
  refine ⟨h.awaited, h.begun, fun hdecided => ?_⟩
  obtain ⟨a, hdecider, hplace, hverdict, hclosed⟩ := h.decided hdecided
  exact ⟨a, hdecider, hplace, hverdict, hclosed.mono hanswered hflight⟩

/-- A command was sent just now. -/
theorem Awaits.begin (answered : List Nat) (inFlight : List Answer) (place : Nat) (id : UInt8)
    (tracker : ReplyTracker) (decider : Option Answer) :
    Awaits answered inFlight place id (tracker.begin id) decider :=
  ⟨rfl, (fun h => nomatch h), fun h => absurd rfl h⟩

/-- One answer arrives.  If only the command at the place can be answered with the awaited id, then
only its answer decides. -/
theorem Awaits.deliver {answered : List Nat} {inFlight : List Answer} {place : Nat} {id : UInt8}
    {tracker : ReplyTracker} {decider : Option Answer} {a : Answer}
    (h : Awaits answered (a :: inFlight) place id tracker decider)
    (hanswered : a.place ∈ answered) (hfirst : ∀ b ∈ inFlight, b.place ≠ a.place)
    (hplace : a.reply.command.id = id → a.place = place) :
    Awaits answered inFlight place id (Answer.deliver (tracker, decider) a).1
      (Answer.deliver (tracker, decider) a).2 := by
  have hweaker : Awaits answered inFlight place id tracker decider :=
    h.mono (List.Subset.refl _) fun b hb => .inl (List.mem_cons_of_mem a hb)
  by_cases hmatch : tracker.state = .waiting ∧ a.reply.command.id = tracker.awaited
  · have hchanged : ({ tracker with state := a.verdict } : ReplyTracker) ≠ tracker := by
      intro hsame
      have hstate := congrArg ReplyTracker.state hsame
      rw [hmatch.1] at hstate
      unfold Answer.verdict at hstate
      split at hstate <;> cases hstate
    have hown : a.place = place := hplace (hmatch.2.trans h.awaited)
    have hheard : tracker.hear a.heard = { tracker with state := a.verdict } := if_pos hmatch
    simp only [Answer.deliver, hheard]
    rw [if_neg hchanged]
    refine ⟨h.awaited, a.verdict_ne_idle, fun _ => ⟨a, rfl, hown, rfl, ?_⟩⟩
    rw [← hown]
    exact ⟨hanswered, hfirst⟩
  · have hheard : tracker.hear a.heard = tracker := if_neg hmatch
    simp only [Answer.deliver, hheard, if_true]
    exact hweaker

/-- Several answers arrive. -/
theorem Awaits.foldl_deliver {answered : List Nat} {rest answers : List Answer} {place : Nat}
    {id : UInt8} {heardSoFar : ReplyTracker × Option Answer}
    (h : Awaits answered (answers ++ rest) place id heardSoFar.1 heardSoFar.2)
    (hanswered : ∀ a ∈ answers, a.place ∈ answered)
    (hnodup : ((answers ++ rest).map Answer.place).Nodup)
    (hplace : ∀ a ∈ answers, a.reply.command.id = id → a.place = place) :
    Awaits answered rest place id (answers.foldl Answer.deliver heardSoFar).1
      (answers.foldl Answer.deliver heardSoFar).2 := by
  induction answers generalizing heardSoFar with
  | nil => exact h
  | cons a answers ih =>
    simp only [List.forall_mem_cons] at hanswered hplace
    rw [List.cons_append, List.map_cons, List.nodup_cons] at hnodup
    refine ih (h.deliver hanswered.1 (fun b hb hsame => ?_) hplace.1) hanswered.2 hnodup.2 hplace.2
    exact hnodup.1 (hsame ▸ List.mem_map_of_mem hb)

/-- During a configuration with a number of version requests before it: the answer to the step at
the cursor is waited for, and no other answer on its way can be taken for it or for the answer to a
later step. -/
structure Matched (settings : Settings) (requests : Nat) (run : PlanRun) (answered : List Nat)
    (inFlight : List Answer) (tracker : ReplyTracker) (decider : Option Answer) : Prop where
  awaits : ∃ step, run.plan[run.cursor]? = some step ∧
    Awaits answered inFlight (settings.stepPlace requests run.cursor) step.command.type.id
      tracker decider
  closed : ∀ i j step later, i < run.cursor → run.cursor ≤ j → run.plan[i]? = some step →
    run.plan[j]? = some later → step.command.type.id = later.command.type.id →
    Closed answered inFlight (settings.stepPlace requests i)

theorem Matched.mono {requests : Nat} {run : PlanRun} {answered answered' : List Nat}
    {inFlight inFlight' : List Answer} {tracker : ReplyTracker} {decider : Option Answer}
    (h : Matched settings requests run answered inFlight tracker decider)
    (hanswered : answered ⊆ answered')
    (hflight : ∀ a ∈ inFlight', a ∈ inFlight ∨ a.place ∉ answered) :
    Matched settings requests run answered' inFlight' tracker decider := by
  obtain ⟨step, hstep, hawaits⟩ := h.awaits
  refine ⟨⟨step, hstep, hawaits.mono hanswered hflight⟩, ?_⟩
  intro i j earlier later hi hj hearlier hlater hid
  exact (h.closed i j earlier later hi hj hearlier hlater hid).mono hanswered hflight

/-- After a call of the protocol task within a configuration. -/
theorem Matched.configure [SerialLine σ ε] {requests : Nat} {known : Capabilities}
    {run run' : PlanRun} {answered : List Nat} {inFlight : List Answer} {decider : Option Answer}
    {sentAt : Instant} {s s' : Session} {now : Instant} {r r' : Recorder σ}
    {solution : Option Solution}
    (hmatched : Matched settings requests run answered inFlight s.tracker decider)
    (hplan : run.plan = Plan.make settings known) (hsent : run.sentAt = some sentAt)
    (h : s.configure run now r = (.ok solution, s', r'))
    (hphase : s'.phase = .configuration run') :
    Matched settings requests run' answered inFlight s'.tracker decider := by
  obtain ⟨step, hstep, hawaits⟩ := hmatched.awaits
  rcases Session.configure_verdict hstep hsent h with ⟨-, -, hsame, htracker'⟩ | ⟨-, herror, -⟩ |
    ⟨hcomplete, -, hrunning | ⟨run1, hphase1, hplan1, hcursor, later, hlater, htracker'⟩⟩
  · obtain rfl : run = run' := Phase.configuration.inj (hsame.symm.trans hphase)
    refine ⟨⟨step, hstep, ?_⟩, hmatched.closed⟩
    rw [htracker']
    exact hawaits
  · cases herror
  · cases hrunning.symm.trans hphase
  · obtain rfl : run1 = run' := Phase.configuration.inj (hphase1.symm.trans hphase)
    refine ⟨⟨later, by rw [hplan1, hcursor]; exact hlater, ?_⟩, ?_⟩
    · rw [htracker', hcursor]
      exact Awaits.begin _ _ _ _ s.tracker _
    · intro i j earlier later' hi hj hearlier hlater' hid
      rw [hplan1] at hearlier hlater'
      rw [hcursor] at hi hj
      rcases Nat.lt_or_eq_of_le (Nat.le_of_lt_succ hi) with hbefore | rfl
      · exact hmatched.closed i j earlier later' hbefore (Nat.le_of_succ_le hj) hearlier hlater' hid
      · obtain rfl : step = earlier := Option.some.inj (hstep.symm.trans hearlier)
        have hdecided : s.tracker.state ≠ .waiting := by
          intro hwaiting
          rw [hwaiting] at hcomplete
          rw [hplan] at hearlier hlater'
          have hpolicy := (WaitPolicy.of_judge_waiting hcomplete).1
          exact Plan.id_ne_of_lt hearlier hlater' hj hpolicy hid
        obtain ⟨a, -, -, -, hclosed⟩ := hawaits.decided hdecided
        exact hclosed

namespace Exchange

/-- What holds of every exchange that can come about. -/
structure Sound (settings : Settings) (fixed : Option (Nat × Capabilities)) (x : Exchange σ ε) :
    Prop where
  nodup : (x.inFlight.map Answer.place).Nodup
  answered : ∀ a ∈ x.inFlight, a.place ∈ x.answered
  sent : ∀ a ∈ x.inFlight, ∃ call, x.moment.line.performed[a.place]? = some call ∧
    call.Carries a.reply.command
  emitted : x.moment.Alive →
    Emitted settings fixed x.moment.session.phase x.moment.line.performed
  matched : x.moment.Alive → ∀ run requests known, x.moment.session.phase = .configuration run →
    fixed = some (requests, known) →
    Matched settings requests run x.answered x.inFlight x.moment.session.tracker x.decider

/-- An answer on its way that names the awaited id is the answer to the step at the cursor. -/
theorem Sound.place_eq {x : Exchange σ ε} {requests : Nat} {known : Capabilities} {run : PlanRun}
    {step : PlanStep} {a : Answer} (h : x.Sound settings (some (requests, known)))
    (halive : x.moment.Alive) (hphase : x.moment.session.phase = .configuration run)
    (hstep : run.plan[run.cursor]? = some step) (ha : a ∈ x.inFlight)
    (hid : a.reply.command.id = step.command.type.id) :
    a.place = settings.stepPlace requests run.cursor := by
  have hemitted := h.emitted halive
  rw [hphase] at hemitted
  have hlength := hemitted.length_log (List.getElem?_eq_some_iff.1 hstep).1
  obtain _ | _ | ⟨auto, -, -, hplan, hlog⟩ := hemitted
  obtain ⟨call, hcall, hcarries⟩ := h.sent a ha
  have hlt : a.place < x.moment.line.performed.length := (List.getElem?_eq_some_iff.1 hcall).1
  have hscript : (settings.script requests known)[a.place]? = some call := by
    rw [← hlog, List.getElem?_append_left hlt]
    exact hcall
  rcases Settings.carries_script auto hscript hcarries with
    hrequest | ⟨i, earlier, hplace, hearlier, htype⟩
  · rw [hrequest] at hid
    exact absurd hid.symm step.command.id_ne_versionRequest
  · rw [← hplan] at hearlier
    rw [htype] at hid
    have hle : i ≤ run.cursor := by
      rw [hplace, hlength, Settings.stepPlace, Settings.stepPlace] at hlt
      omega
    rcases Nat.lt_or_eq_of_le hle with hbefore | rfl
    · have hmatched := h.matched halive run requests known hphase rfl
      have hclosed := hmatched.closed i run.cursor earlier step hbefore (Nat.le_refl _) hearlier
        hstep hid
      exact absurd hplace (hclosed.2 a ha)
    · exact hplace

/-! ### What every step preserves -/

theorem sound_start (settings : Settings) (line : σ) :
    (start settings line : Exchange σ ε).Sound settings none where
  nodup := .nil
  answered := fun _ ha => nomatch ha
  sent := fun _ ha => nomatch ha
  emitted := fun _ => .baud rfl
  matched := fun _ _ _ _ hphase => nomatch hphase

theorem Sound.answer {x : Exchange σ ε} {fixed : Option (Nat × Capabilities)}
    (h : x.Sound settings fixed) {a : Answer} (fresh : a.place ∉ x.answered)
    (sent : ∃ call, x.moment.line.performed[a.place]? = some call ∧
      call.Carries a.reply.command) :
    Sound settings fixed
      { x with answered := a.place :: x.answered, inFlight := a :: x.inFlight } where
  nodup := by
    rw [List.map_cons, List.nodup_cons]
    refine ⟨fun hmem => ?_, h.nodup⟩
    obtain ⟨b, hb, hplace⟩ := List.mem_map.1 hmem
    exact fresh (hplace ▸ h.answered b hb)
  answered := List.forall_mem_cons.2
    ⟨List.mem_cons_self, fun b hb => List.mem_cons_of_mem _ (h.answered b hb)⟩
  sent := List.forall_mem_cons.2 ⟨sent, h.sent⟩
  emitted := h.emitted
  matched := by
    intro halive run requests known hphase hfixed
    refine (h.matched halive run requests known hphase hfixed).mono
      (List.subset_cons_self _ _) fun b hb => ?_
    rcases List.mem_cons.1 hb with rfl | hold
    · exact .inr fresh
    · exact .inl hold

theorem Sound.lose {x : Exchange σ ε} {fixed : Option (Nat × Capabilities)}
    (h : x.Sound settings fixed) (a : Answer) :
    Sound settings fixed { x with inFlight := x.inFlight.erase a } where
  nodup := h.nodup.sublist (List.erase_sublist.map _)
  answered := fun b hb => h.answered b (List.mem_of_mem_erase hb)
  sent := fun b hb => h.sent b (List.mem_of_mem_erase hb)
  emitted := h.emitted
  matched := by
    intro halive run requests known hphase hfixed
    exact (h.matched halive run requests known hphase hfixed).mono
      (List.Subset.refl _) fun b hb => .inl (List.mem_of_mem_erase hb)

variable [SerialLine σ ε]

theorem Sound.receive {x : Exchange σ ε} {fixed : Option (Nat × Capabilities)}
    (h : x.Sound settings fixed) {world : σ → σ} {answers rest : List Answer}
    (alive : x.moment.Alive) (arrived : x.inFlight.Perm (answers ++ rest))
    (heard : x.moment.session.decoder.replies
      (SerialLine.drained (x.moment.line.alter world)) = answers.map Answer.heard) :
    Sound settings fixed
      { moment := x.moment.next settings (.receive world)
        answered := x.answered
        inFlight := rest
        decider := (answers.foldl Answer.deliver (x.moment.session.tracker, x.decider)).2 } := by
  rcases hreceive : x.moment.session.receive (x.moment.line.alter world) with ⟨result, s', r'⟩
  have hphase : s'.phase = x.moment.session.phase := Session.phase_receive hreceive
  have hcalls : r'.calls = x.moment.line.calls := (Session.calls_receive hreceive).trans rfl
  have hperformed := Recorder.performed_congr hcalls
  have htracker : s'.tracker =
      (answers.foldl Answer.deliver (x.moment.session.tracker, x.decider)).1 := by
    rw [Session.tracker_receive hreceive, heard, Answer.deliver_tracker]
  have hnodup : ((answers ++ rest).map Answer.place).Nodup := (arrived.map _).nodup_iff.1 h.nodup
  have hleft : ∀ a ∈ rest, a ∈ x.inFlight := fun a ha =>
    arrived.mem_iff.2 (List.mem_append_right answers ha)
  have htaken : ∀ a ∈ answers, a ∈ x.inFlight := fun a ha =>
    arrived.mem_iff.2 (List.mem_append_left rest ha)
  simp only [Moment.next, hreceive]
  constructor
  case nodup => exact hnodup.sublist ((List.sublist_append_right answers rest).map _)
  case answered => exact fun a ha => h.answered a (hleft a ha)
  case sent =>
    intro a ha
    rw [hperformed]
    exact h.sent a (hleft a ha)
  case emitted =>
    intro _
    rw [hphase, hperformed]
    exact h.emitted alive
  case matched =>
    rintro - run requests known hphase' rfl
    have hphase'' := hphase.symm.trans hphase'
    have hmatched := h.matched alive run requests known hphase'' rfl
    obtain ⟨step, hstep, hawaits⟩ := hmatched.awaits
    have hawaits' : Awaits x.answered (answers ++ rest) _ _ _ _ :=
      hawaits.mono (List.Subset.refl _) fun a ha => .inl (arrived.mem_iff.2 ha)
    have hmatched' := hmatched.mono (List.Subset.refl _) fun a ha => .inl (hleft a ha)
    refine ⟨⟨step, hstep, ?_⟩, hmatched'.closed⟩
    rw [htracker]
    exact hawaits'.foldl_deliver (fun a ha => h.answered a (htaken a ha)) hnodup
      fun a ha hid => h.place_eq alive hphase'' hstep (htaken a ha) hid

theorem Sound.protocol {x : Exchange σ ε} {fixed : Option (Nat × Capabilities)}
    (h : x.Sound settings fixed) (alive : x.moment.Alive) (now : Instant) (world : σ → σ) :
    ∃ fixed', Sound settings fixed'
      { x with moment := x.moment.next settings (.protocol now world) } := by
  have hemitted := h.emitted alive
  have hholds : x.moment.Holds settings fixed := by
    obtain ⟨solution, hok⟩ := alive
    simp only [Moment.Holds, hok]
    exact hemitted
  obtain ⟨fixed', hnext, hstep⟩ := Moment.next_holds alive.choose_spec hholds (.protocol now world)
  rcases hrun : x.moment.session.runProtocol settings now (x.moment.line.alter world) with
    ⟨result, s', r'⟩
  obtain ⟨advanced, hadvance, hresult⟩ := Session.runProtocol_cases hrun
  simp only [Moment.next, hrun] at hnext hstep ⊢
  refine ⟨fixed', h.nodup, h.answered, ?sent, ?emitted, ?matched⟩
  case sent =>
    obtain ⟨requests, known, -, hagrees, -⟩ := hnext.stopped
    obtain ⟨later, hlater⟩ := (hstep requests known hagrees).2.performed
    intro a ha
    obtain ⟨call, hcall, hcarries⟩ := h.sent a ha
    refine ⟨call, ?_, hcarries⟩
    rw [← hlater, List.getElem?_append_left (List.getElem?_eq_some_iff.1 hcall).1]
    exact hcall
  case emitted =>
    rintro ⟨solution, rfl⟩
    exact hnext
  case matched =>
    rintro ⟨solution, rfl⟩ run' requests known hphase' rfl
    obtain rfl : Except.ok solution = advanced := by
      rcases hresult with hsame | ⟨-, hexpired⟩
      · exact hsame
      · cases hexpired
    rcases Session.advance_configuration hadvance hphase' with
      ⟨hcursor, step, hfirst, htracker⟩ | ⟨run, hphase, hconfigure⟩
    · refine ⟨⟨step, hcursor ▸ hfirst, ?_⟩, fun i j _ _ hi => ?_⟩
      · rw [htracker]
        exact Awaits.begin _ _ _ _ x.moment.session.tracker _
      · rw [hcursor] at hi
        exact absurd hi (Nat.not_lt_zero i)
    · have hfrom : x.moment.session.phase = .configuration run := hphase
      rw [hfrom] at hemitted
      obtain _ | _ | ⟨auto, hsent, -, hplan, -⟩ := hemitted
      obtain ⟨sentAt, hsent⟩ := Option.isSome_iff_exists.1 hsent
      cases (hstep requests known (agrees_some _ _)).1 _ rfl
      -- Starting the ceiling leaves the tracker as it is.
      have hmatched : Matched settings requests run x.answered x.inFlight
          (Session.tracker { x.moment.session with ceiling := x.moment.session.ceiling.start now })
          x.decider :=
        h.matched alive run requests known hfrom rfl
      exact hmatched.configure hplan hsent hconfigure hphase'

/-- Every exchange that can come about is sound. -/
theorem Reachable.sound {line : σ} {x : Exchange σ ε} (h : Reachable settings line x) :
    ∃ fixed, x.Sound settings fixed := by
  induction h with
  | refl => exact ⟨none, sound_start settings line⟩
  | tail _ step ih =>
    obtain ⟨fixed, hsound⟩ := ih
    cases step with
    | protocol now world alive => exact hsound.protocol alive now world
    | answer a fresh sent => exact ⟨fixed, hsound.answer fresh sent⟩
    | lose a => exact ⟨fixed, hsound.lose a⟩
    | receive world answers rest alive arrived heard =>
      exact ⟨fixed, hsound.receive alive arrived heard⟩

/-- **A step is left by its own answer.**  Whatever the order in which the tasks are called, answers
are sent, arrive and are lost: if the protocol task reports that the command of a step was rejected,
the module refused the command that was sent for this very step; and if it leaves the step, either
the module answered this very command, or no reply was heard and the wait for one that need not come
is over. -/
theorem leaves_step_by_own_answer {line : σ} {x : Exchange σ ε} {run : PlanRun}
    (reach : Reachable settings line x) (alive : x.moment.Alive)
    (hphase : x.moment.session.phase = .configuration run) (now : Instant) (world : σ → σ) :
    ∃ requests known step sentAt, (requests = 1 ∨ requests = 2) ∧
      run.plan = Plan.make settings known ∧
      x.moment.line.performed ++ run.remaining = settings.script requests known ∧
      run.plan[run.cursor]? = some step ∧ run.sentAt = some sentAt ∧
      x.moment.line.performed[settings.stepPlace requests run.cursor]? = some step.call ∧
      (∀ type, (x.moment.next settings (.protocol now world)).result =
          .error (.negotiation (.rejected type)) →
        type = step.command.type ∧
          x.DecidedBy (settings.stepPlace requests run.cursor) .refused) ∧
      ((x.moment.next settings (.protocol now world)).HasLeft run →
        x.DecidedBy (settings.stepPlace requests run.cursor) x.moment.session.tracker.state ∨
        step.policy = .answeredOrTimeout ∧ x.moment.session.tracker.state = .waiting ∧
          Timing.commandWait.toMicros ≤ now.since sentAt) := by
  obtain ⟨fixed, hsound⟩ := reach.sound
  have hemitted := hsound.emitted alive
  rw [hphase] at hemitted
  obtain ⟨requests, known, rfl⟩ : ∃ requests known, fixed = some (requests, known) := by
    obtain _ | _ | _ := hemitted
    exact ⟨_, _, rfl⟩
  have hmatched := hsound.matched alive run requests known hphase rfl
  obtain ⟨step, hstep, hawaits⟩ := hmatched.awaits
  have hlength := hemitted.length_log (List.getElem?_eq_some_iff.1 hstep).1
  obtain _ | _ | ⟨auto, hsent, hrequests, hplan, hlog⟩ := hemitted
  obtain ⟨sentAt, hsent⟩ := Option.isSome_iff_exists.1 hsent
  have hcall : x.moment.line.performed[settings.stepPlace requests run.cursor]? =
      some step.call := by
    have hscript := Settings.script_stepPlace auto requests run.cursor known
    rw [← hlog, List.getElem?_append_left (by omega), ← hplan, hstep] at hscript
    exact hscript
  have hdecided : x.moment.session.tracker.state ≠ .waiting →
      x.DecidedBy (settings.stepPlace requests run.cursor) x.moment.session.tracker.state := by
    intro hreply
    obtain ⟨a, hdecider, hplace, hverdict, hanswered, -⟩ := hawaits.decided hreply
    exact ⟨a, hdecider, hplace, hverdict, hplace ▸ hanswered⟩
  refine ⟨requests, known, step, sentAt, hrequests, hplan, hlog, hstep, hsent, hcall, ?_⟩
  rcases hrun : x.moment.session.runProtocol settings now (x.moment.line.alter world) with
    ⟨result, s', r'⟩
  obtain ⟨advanced, hadvance, hresult⟩ := Session.runProtocol_cases hrun
  simp only [Session.advance, hphase] at hadvance
  simp only [Moment.next, hrun]
  rcases Session.configure_verdict hstep hsent hadvance with ⟨-, rfl, hsame, -⟩ |
    ⟨hrejected, rfl, hsame⟩ | ⟨hcomplete, hno, -⟩
  · refine ⟨fun type htype => ?_, fun hleft => absurd rfl (hleft run hsame)⟩
    rcases hresult with rfl | ⟨-, rfl⟩
    · cases htype
    · cases htype
  · refine ⟨fun type htype => ?_, fun hleft => absurd rfl (hleft run hsame)⟩
    have hrefused := WaitPolicy.of_judge_rejected hrejected
    rcases hresult with rfl | ⟨⟨solution, hok⟩, -⟩
    · cases htype
      refine ⟨rfl, ?_⟩
      rw [← hrefused]
      exact hdecided fun hwaiting => by cases hwaiting.symm.trans hrefused
    · cases hok
  · refine ⟨fun type htype => ?_, fun _ => ?_⟩
    · rcases hresult with rfl | ⟨-, rfl⟩
      · exact absurd htype (hno type)
      · cases htype
    · by_cases hwaiting : x.moment.session.tracker.state = .waiting
      · have hjudge : step.policy.judge .waiting (now.since sentAt) = .complete :=
          hwaiting ▸ hcomplete
        obtain ⟨hpolicy, hover⟩ := WaitPolicy.of_judge_waiting hjudge
        exact .inr ⟨hpolicy, hwaiting, hover⟩
      · exact .inl (hdecided hwaiting)

/-! ### A module that accepts the first step

Two version requests go unanswered, the first step of the plan is sent, and the module accepts it:
the next call of the protocol task leaves the step. -/

/-- The usual settings, for a module whose speed is known. -/
def knownSpeed : Settings :=
  { Settings.default with autoBaud := false }

/-- Three calls of the protocol task, at 0, 200 and 400 milliseconds. -/
def firstStepSent : Moment ScriptedLine LineFault :=
  (((Moment.start knownSpeed .idle).next knownSpeed (.protocol ⟨0⟩ id)).next
    knownSpeed (.protocol ⟨200000⟩ id)).next knownSpeed (.protocol ⟨400000⟩ id)

/-- The answer to the command at place 3: behind the change of speed and two version requests. -/
def acceptance : Answer :=
  ⟨3, true, ⟨.cfgNav5⟩⟩

/-- The bytes of the answer are received. -/
def receiveAcceptance (p : ScriptedLine) : ScriptedLine :=
  { p with queue := (Frame.mk .ackAck [0x06, 0x24]).wire }

/-- The answer arrived. -/
def firstStepAccepted : Exchange ScriptedLine LineFault where
  moment := firstStepSent.next knownSpeed (.receive receiveAcceptance)
  answered := [3]
  inFlight := []
  decider := some acceptance

theorem reachable_firstStepAccepted : Reachable knownSpeed .idle firstStepAccepted := by
  have hsent : Reachable knownSpeed .idle ⟨firstStepSent, [], [], none⟩ :=
    ((Relation.ReflTransGen.refl.tail (.protocol _ ⟨0⟩ id ⟨_, rfl⟩)).tail
      (.protocol _ ⟨200000⟩ id ⟨_, rfl⟩)).tail (.protocol _ ⟨400000⟩ id ⟨_, rfl⟩)
  have hanswered : Reachable knownSpeed .idle ⟨firstStepSent, [3], [acceptance], none⟩ :=
    hsent.tail (.answer _ acceptance List.not_mem_nil ⟨_, rfl, _, rfl⟩)
  refine hanswered.tail (.receive _ receiveAcceptance [acceptance] [] ⟨_, rfl⟩ (.refl _) ?_)
  rw [SerialLine.drained, ScriptedLine.drain_recorder _ _ _ rfl]
  rfl

set_option maxRecDepth 8000 in
theorem leaves_first_step_by_own_answer :
    ∃ run requests, firstStepAccepted.moment.session.phase = .configuration run ∧
      run.cursor = 0 ∧
      (firstStepAccepted.moment.next knownSpeed (.protocol ⟨401000⟩ id)).HasLeft run ∧
      firstStepAccepted.DecidedBy (knownSpeed.stepPlace requests 0) .accepted := by
  have hmoment : firstStepAccepted.moment =
      ⟨.ok none, (receiveAcceptance .idle).queue.foldl Session.takeByte firstStepSent.session,
        ⟨.idle, firstStepSent.line.calls⟩⟩ := by
    simp only [firstStepAccepted, Moment.next, Session.receive]
    rw [ScriptedLine.drain_recorder _ _ _ rfl]
    rfl
  have hphase : firstStepAccepted.moment.session.phase =
      .configuration ⟨Plan.make knownSpeed .initial, 0, some ⟨400000⟩⟩ := by
    rw [hmoment]
    rfl
  have htracker : firstStepAccepted.moment.session.tracker.state = .accepted := by
    rw [hmoment]
    rfl
  have hnext : (firstStepAccepted.moment.next knownSpeed (.protocol ⟨401000⟩ id)).session.phase =
      .configuration ⟨Plan.make knownSpeed .initial, 1, some ⟨401000⟩⟩ := by
    rw [hmoment]
    rfl
  have hleft : (firstStepAccepted.moment.next knownSpeed (.protocol ⟨401000⟩ id)).HasLeft
      ⟨Plan.make knownSpeed .initial, 0, some ⟨400000⟩⟩ := by
    intro run hrun
    obtain rfl := Phase.configuration.inj (hnext.symm.trans hrun)
    intro hsame
    cases hsame
  obtain ⟨requests, known, step, sentAt, -, -, -, -, -, -, -, hown⟩ :=
    leaves_step_by_own_answer reachable_firstStepAccepted ⟨_, by rw [hmoment]⟩ hphase ⟨401000⟩ id
  rcases hown hleft with hdecided | ⟨-, hwaiting, -⟩
  · rw [htracker] at hdecided
    exact ⟨_, requests, hphase, rfl, hleft, hdecided⟩
  · cases hwaiting.symm.trans htracker

end Exchange

end GnssLink
