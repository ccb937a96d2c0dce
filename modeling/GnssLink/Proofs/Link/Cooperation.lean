import GnssLink.Proofs.Link.InTime

/-!
# The negotiation with a module that cooperates

Over a reliable line, with a module that answers every command of the configuration before the next
tick, the negotiation never loses the communication, provided the ticks are at most 50 ms apart.
There are no other conditions on the ticks.

The invariant is that the session is in time (`OnTime`).  The first tick begins it, and every tick
keeps it until the link is running.

## Main definitions

* `LinkTick.recorded` — a tick over a line that is recorded.
* `Link.sentStep` — the step whose command a tick has sent.
* `Link.Cooperates` — the line is reliable, and the module answers.

## Main results

* `Link.next_inTime` — a tick keeps a link in time.
* `Link.negotiates_with_cooperation` — the communication is not lost before the link is running.
-/

namespace GnssLink

/-! ### Ticks -/

/-- A tick over a line that is recorded. -/
def LinkTick.recorded {σ : Type} (tick : LinkTick σ) : LinkTick (Recorder σ) :=
  ⟨tick.now, fun r => r.alter tick.world⟩

namespace Link

variable {σ ε : Type} [SerialLine σ ε] {good : σ → Prop} {l : Link (Recorder σ)}
  {tick : LinkTick σ} {ticks : List (LinkTick σ)}

/-- The step whose command a tick has sent. -/
def sentStep (l : Link (Recorder σ)) (tick : LinkTick σ) : Option PlanStep :=
  (l.next tick.recorded).session.sentStep
    ((l.next tick.recorded).line.calls.drop l.line.calls.length)

/-- The line is in a good state before each tick, and the module cooperates: what is received before
a tick are whole frames that are not too long, and of the replies exactly those to the step whose
command was sent in the tick before. -/
inductive Cooperates (good : σ → Prop) :
    Option PlanStep → Link (Recorder σ) → List (LinkTick σ) → Prop
  | nil (sent : Option PlanStep) (l : Link (Recorder σ)) : Cooperates good sent l []
  | cons (sent : Option PlanStep) (l : Link (Recorder σ)) (tick : LinkTick σ)
      (ticks : List (LinkTick σ)) (frames : List Frame) (line : good (tick.world l.line.line))
      (received : l.received tick.recorded = (frames.map Frame.wire).flatten)
      (short : ∀ f ∈ frames, f.payload.length ≤ Frame.maxPayload)
      (answered : Answered sent frames)
      (later : Cooperates good (l.sentStep tick) (l.next tick.recorded) ticks) :
      Cooperates good sent l (tick :: ticks)

/-- A tick in time leaves a link in time behind, or a link that runs. -/
theorem next_inTime (hgood : Reliable good) (hline : good (tick.world l.line.line))
    (hdecoder : l.session.decoder.step = .sync1) {frames : List Frame}
    (hreceived : l.received tick.recorded = (frames.map Frame.wire).flatten)
    (hshort : ∀ f ∈ frames, f.payload.length ≤ Frame.maxPayload)
    (hdue : ∀ s1 : Session, s1.phase = l.session.phase → s1.ceiling = l.session.ceiling →
      s1.tracker =
        (frames.filterMap Frame.asReply).foldl ReplyTracker.hear l.session.tracker →
      Due l.settings tick.now { s1 with ceiling := s1.ceiling.start tick.now }) :
    l.tickStatus tick.recorded = .running ∨
      (l.tickStatus tick.recorded = .negotiating ∧
        (l.next tick.recorded).session.decoder.step = .sync1 ∧
        OnTime (l.next tick.recorded).settings tick.now (l.next tick.recorded).session
          (l.sentStep tick)) := by
  have hrecorded : good (tick.recorded.world l.line).line := hline
  rcases l.next_cases tick.recorded with ⟨e, s, line, hreceive, -⟩ |
    ⟨s1, line1, hreceive, htask⟩
  · obtain ⟨herror, -⟩ := Session.receive_ok hgood hrecorded hreceive
    cases herror
  · obtain ⟨-, hline1⟩ := Session.receive_ok hgood hrecorded hreceive
    have hbytes : SerialLine.drained (tick.recorded.world l.line) =
        (frames.map Frame.wire).flatten := hreceived
    obtain ⟨hreplies, hstep⟩ := Decoder.feedAll_wire hdecoder hshort
    have htracker := Session.tracker_receive hreceive
    have hdecoder1 := Session.decoder_receive hreceive
    rw [hbytes, hreplies] at htracker
    rw [hbytes] at hdecoder1
    have hdue1 := hdue s1 (Session.phase_receive hreceive) (Session.ceiling_receive hreceive)
      htracker
    rcases htask with ⟨e, s, line, hrun, -⟩ | ⟨solution, s, line, hrun, hstatus, hnext⟩
    · cases (hdue1.runProtocol hgood hline1 hrun).ok
    · have hgoes := hdue1.runProtocol hgood hline1 hrun
      cases hgoes.ok
      rcases hgoes.inTime with ⟨hrunning, -⟩ | ⟨attempts, hcalls, hontime⟩
      · refine .inl (hstatus.trans ?_)
        simp only [status, hrunning]
      · have hattempts : line.calls = l.line.calls ++ attempts := by
          rw [hcalls, Session.calls_receive hreceive]
          rfl
        have hsent : l.sentStep tick = s.sentStep attempts := by
          simp only [sentStep, hnext, publish, hattempts, List.drop_left]
        refine .inr ⟨hstatus.trans ?_, ?_, ?_⟩
        · simp only [status]
          split
          · next hrunning => exact absurd hrunning hontime.negotiating
          · rfl
        · rw [hnext]
          exact (congrArg Decoder.step
            ((Session.runProtocol_keeps hrun).decoder.trans hdecoder1)).trans hstep
        · rw [hsent, hnext]
          exact hontime

/-- A tick that negotiates stands before the others, and behind a tick that runs nothing is looked
at. -/
theorem takeWhile_reports
    (h : l.tickStatus tick.recorded = .running ∨
      (l.tickStatus tick.recorded = .negotiating ∧
        ∀ report ∈ ((l.next tick.recorded).reports (ticks.map LinkTick.recorded)).takeWhile
          (·.2 ≠ .running), report.2 ≠ .communicationLost)) :
    ∀ report ∈ (l.reports ((tick :: ticks).map LinkTick.recorded)).takeWhile (·.2 ≠ .running),
      report.2 ≠ .communicationLost := by
  rw [List.map_cons, reports]
  rcases h with hrunning | ⟨hnegotiating, hlater⟩
  · rw [List.takeWhile_cons_of_neg (by simp [hrunning])]
    exact fun report hmem => absurd hmem List.not_mem_nil
  · rw [List.takeWhile_cons_of_pos (by simp [hnegotiating]), List.forall_mem_cons]
    refine ⟨?_, hlater⟩
    simp only [hnegotiating]
    exact fun hlost => nomatch hlost

/-- A run that goes on from a link in time does not lose the communication before it is running. -/
theorem reports_inTime (hgood : Reliable good) {sent : Option PlanStep} {last : Instant}
    (hontime : OnTime l.settings last l.session sent)
    (hdecoder : l.session.decoder.step = .sync1)
    (hnext : ∀ tick ∈ ticks.head?, tick.now.micros ≤ last.micros + 50000)
    (hclock : List.IsChain (LinkTick.Follows 50000) ticks)
    (hmodule : Cooperates good sent l ticks) :
    ∀ report ∈ (l.reports (ticks.map LinkTick.recorded)).takeWhile (·.2 ≠ .running),
      report.2 ≠ .communicationLost := by
  -- Along the cooperation, which says at each tick what was sent in the tick before; the instant of
  -- that tick is the one from which the gap is measured.
  induction hmodule generalizing last with
  | nil sent l => exact fun report hmem => absurd hmem List.not_mem_nil
  | cons sent l tick ticks frames line received short answered later ih =>
    obtain ⟨hfollows, hrest⟩ := List.isChain_cons.1 hclock
    have hdue : ∀ s1 : Session, s1.phase = l.session.phase → s1.ceiling = l.session.ceiling →
        s1.tracker =
          (frames.filterMap Frame.asReply).foldl ReplyTracker.hear l.session.tracker →
        Due l.settings tick.now { s1 with ceiling := s1.ceiling.start tick.now } := by
      intro s1 hphase hceiling htracker
      refine hontime.due answered (hnext tick rfl) hphase ?_ htracker
      rw [hceiling]
      exact hontime.start_ceiling tick.now
    refine takeWhile_reports ?_
    rcases l.next_inTime hgood line hdecoder received short hdue with
      hrunning | ⟨hnegotiating, hdecoder', hontime'⟩
    · exact .inl hrunning
    · exact .inr ⟨hnegotiating, ih hontime' hdecoder' hfollows hrest⟩

/-- **With a module that cooperates the communication is not lost** before the link is running, for
all settings.  The line is reliable, and each tick comes at most 50 ms after the one before it; the
ticks may come at any instants apart from that. -/
theorem negotiates_with_cooperation (hgood : Reliable good) (settings : Settings) (line : σ)
    (hclock : List.IsChain (LinkTick.Follows 50000) ticks)
    (hmodule : Cooperates good none (start (.ofLine line) settings) ticks) :
    ∀ report ∈ ((start (Recorder.ofLine line) settings).reports
        (ticks.map LinkTick.recorded)).takeWhile (·.2 ≠ .running),
      report.2 ≠ .communicationLost := by
  cases hmodule with
  | nil => exact fun report hmem => absurd hmem List.not_mem_nil
  | cons _ _ tick ticks frames line' received short answered later =>
    obtain ⟨hfollows, hrest⟩ := List.isChain_cons.1 hclock
    have hdue : ∀ s1 : Session, s1.phase = (Session.start settings).phase →
        s1.ceiling = (Session.start settings).ceiling →
        s1.tracker = (frames.filterMap Frame.asReply).foldl ReplyTracker.hear
          (Session.start settings).tracker →
        Due settings tick.now { s1 with ceiling := s1.ceiling.start tick.now } := by
      intro s1 hphase hceiling _
      refine .begins settings.baudRate settings.autoBaud hphase fun htry => ?_
      simp only [hceiling, Session.start, htry, if_true]
      rfl
    refine takeWhile_reports ?_
    rcases next_inTime hgood line' rfl received short hdue with
      hrunning | ⟨hnegotiating, hdecoder', hontime'⟩
    · exact .inl hrunning
    · exact .inr ⟨hnegotiating, reports_inTime hgood hontime' hdecoder' hfollows hrest later⟩

/-! ### A module that accepts the first step

The module reports its version after the first tick, so the first step is sent at the second one; it
accepts the step, and the next one is sent. -/

/-- The report of a module of the eighth generation. -/
def versionReport : Frame :=
  ⟨.monVer, List.replicate 30 0 ++ Bytes.ofAscii "00080000" ++ [0, 0]⟩

/-- The first step of the usual plan: the navigation engine. -/
def firstStep : PlanStep :=
  ⟨.navigationEngine ⟨Settings.default.dynamicModel, Settings.default.fixMode⟩, .accepted, true⟩

/-- The positive reply to the first step. -/
def firstReply : Frame :=
  ⟨.ackAck, [firstStep.command.type.cls, firstStep.command.type.id]⟩

/-- Ticks every 50 ms.  The version report comes before the second one, and the reply to the first
step before the third one. -/
def cooperatingTicks : List (LinkTick ScriptedLine) :=
  [⟨⟨0⟩, id⟩, ⟨⟨50000⟩, fun p => { p with queue := versionReport.wire }⟩,
    ⟨⟨100000⟩, fun p => { p with queue := firstReply.wire }⟩]

/-- The usual settings, for a module whose speed is known. -/
def knownSpeed : Settings :=
  { Settings.default with autoBaud := false }

/-- In this run the line is untroubled, and the module cooperates. -/
theorem cooperates_cooperatingTicks :
    Cooperates ScriptedLine.Untroubled none (start (.ofLine ScriptedLine.idle) knownSpeed)
      cooperatingTicks := by
  refine .cons _ _ _ _ [] (by decide +kernel) (by decide +kernel) (by decide +kernel)
    (.of_silence (by decide))
    (.cons _ _ _ _ [versionReport] (by decide +kernel) (by decide +kernel) (by decide +kernel)
      ?version
      (.cons _ _ _ _ [firstReply] (by decide +kernel) (by decide +kernel) (by decide +kernel)
        ?accepts (.nil _ _)))
  case version =>
    have hsent : (start (.ofLine ScriptedLine.idle) knownSpeed).sentStep ⟨⟨0⟩, id⟩ = none := by
      decide +kernel
    rw [hsent]
    exact .of_silence (by decide)
  case accepts =>
    have hsent : ((start (.ofLine ScriptedLine.idle) knownSpeed).next
        (LinkTick.recorded ⟨⟨0⟩, id⟩)).sentStep
          ⟨⟨50000⟩, fun p => { p with queue := versionReport.wire }⟩ = some firstStep := by
      decide +kernel
    rw [hsent]
    constructor
    case own =>
      rintro f hf -
      exact ⟨firstStep, rfl, .inl (List.mem_singleton.1 hf)⟩
    case answers =>
      rintro step hstep -
      cases hstep
      exact ⟨firstReply, List.mem_singleton_self _, .inl rfl⟩

/-- At the third tick the link still negotiates, and the communication is not lost. -/
theorem negotiates_with_cooperatingTicks :
    (⟨100000⟩, LinkStatus.negotiating) ∈
        ((start (.ofLine ScriptedLine.idle) knownSpeed).reports
          (cooperatingTicks.map LinkTick.recorded)).takeWhile (·.2 ≠ .running) ∧
      ∀ report ∈ ((start (.ofLine ScriptedLine.idle) knownSpeed).reports
          (cooperatingTicks.map LinkTick.recorded)).takeWhile (·.2 ≠ .running),
        report.2 ≠ .communicationLost := by
  have hclock : List.IsChain (LinkTick.Follows 50000) cooperatingTicks := by
    simp only [cooperatingTicks, LinkTick.Follows, List.isChain_cons_cons, List.isChain_singleton]
    decide
  exact ⟨by decide +kernel, negotiates_with_cooperation ScriptedLine.reliable knownSpeed .idle
    hclock cooperates_cooperatingTicks⟩

end Link

end GnssLink
