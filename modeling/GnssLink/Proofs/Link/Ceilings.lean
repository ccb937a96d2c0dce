import GnssLink.Proofs.Link.History
import GnssLink.Proofs.Negotiation.Remaining

/-!
# Ceilings of the phases

Every phase has a limit of its own.  A call of the protocol task either leaves the ceiling alone,
and then the phase and the group of the configuration are the same behind it; or it starts the
ceiling of the place that it comes to: of the next phase, of the next group of commands, or of the
wait for the next solution.

## Main definitions

* `Plan.groupStarts`, `Phase.stage`, `Phase.ceilingLimit` — where the groups of a plan begin, the
  places on the way to running, and the limits.
* `Session.Timed` — the ceiling has the limit of the phase, and a configuration runs a plan that was
  made for it.
* `Session.Reaches` — the step that a call comes to, before it is sent.
* `Session.Moves` — what a call does to the phase and to the ceiling.

## Main results

* `Plan.opensGroup_iff` — a step opens a group where one begins.
* `Session.advance_moves` — every call does one of the things in `Session.Moves`.
* `Session.Moves.kept_or_armed` — the ceiling is left alone, or it starts at a new place.
* `Session.Moves.timed` — the limit stays that of the phase.
-/

namespace GnssLink

/-! ### Groups of a plan -/

namespace Plan

/-- The indices of the steps with which the groups begin: the navigation engine, the text sentences,
the reports, the augmentation service, and the satellite systems. -/
def groupStarts : List Nat :=
  [0, 1, 7, 15, 16]

variable {settings : Settings} {known : Capabilities}

/-- Which steps of a plan open a group, up to the augmentation service. -/
def openings : List Bool :=
  [true, true, false, false, false, false, false, true, false, false, false, false, false, false,
    false, true]

/-- The lengths of the groups are the same for all receivers; the last group may be missing. -/
theorem map_opensGroup (settings : Settings) (known : Capabilities) :
    (make settings known).map PlanStep.opensGroup = openings ∨
    (make settings known).map PlanStep.opensGroup = openings ++ [true] := by
  unfold make groups
  generalize systemChoice settings known = choice
  cases Tier.ofGeneration known.generation <;>
  · cases choice with
    | none => exact .inl rfl
    | some c => exact .inr rfl

/-- **A step opens a group where one begins**, in every plan. -/
theorem opensGroup_iff {index : Nat} {step : PlanStep}
    (h : (make settings known)[index]? = some step) :
    step.opensGroup = true ↔ index ∈ groupStarts := by
  have hget : ((make settings known).map PlanStep.opensGroup)[index]? = some step.opensGroup := by
    rw [List.getElem?_map, h]
    rfl
  have hlast : ∀ index < 17, ∀ opens, (openings ++ [true])[index]? = some opens →
      (opens = true ↔ index ∈ groupStarts) := by
    decide
  have hopening : (openings ++ [true])[index]? = some step.opensGroup := by
    rcases map_opensGroup settings known with hmap | hmap
    · rw [hmap] at hget
      obtain ⟨hlt, -⟩ := List.getElem?_eq_some_iff.1 hget
      rw [List.getElem?_append_left hlt]
      exact hget
    · rw [hmap] at hget
      exact hget
  obtain ⟨hlt, -⟩ := List.getElem?_eq_some_iff.1 hopening
  exact hlast index hlt _ hopening

/-- The number of groups that have begun when a step is sent. -/
def groupsBegun (cursor : Nat) : Nat :=
  groupStarts.countP (· ≤ cursor)

theorem groupsBegun_pos (cursor : Nat) : 0 < groupsBegun cursor :=
  List.countP_pos_iff.2 ⟨0, List.mem_cons_self, decide_eq_true (Nat.zero_le cursor)⟩

theorem groupsBegun_le (cursor : Nat) : groupsBegun cursor ≤ 5 :=
  List.countP_le_length

/-- A step inside a group begins none. -/
theorem groupsBegun_succ {cursor : Nat} (h : cursor + 1 ∉ groupStarts) :
    groupsBegun (cursor + 1) = groupsBegun cursor := by
  refine List.countP_congr fun start hstart => ?_
  have hne : start ≠ cursor + 1 := fun heq => h (heq ▸ hstart)
  simp only [decide_eq_true_eq]
  omega

/-- The first step of a group begins one. -/
theorem groupsBegun_lt_succ {cursor : Nat} (h : cursor + 1 ∈ groupStarts) :
    groupsBegun cursor < groupsBegun (cursor + 1) := by
  have hcursor : cursor = 0 ∨ cursor = 6 ∨ cursor = 14 ∨ cursor = 15 := by
    simp only [groupStarts, List.mem_cons, List.not_mem_nil, or_false] at h
    omega
  rcases hcursor with rfl | rfl | rfl | rfl <;> decide

end Plan

/-! ### Limits -/

namespace Ceiling

/-- Starting a ceiling keeps its limit. -/
theorem limit_start (ceiling : Ceiling) (now : Instant) :
    (ceiling.start now).limit = ceiling.limit := by
  unfold start
  split <;> rfl

theorem expired_iff {ceiling : Ceiling} {start : Instant} (now : Instant)
    (h : ceiling.startedAt = some start) :
    ceiling.expired now = true ↔ ceiling.limit.toMicros < now.since start := by
  simp only [expired, h, decide_eq_true_eq]

/-- A ceiling that starts now is not exceeded. -/
theorem expired_of_now (now : Instant) (limit : Milliseconds) :
    (⟨some now, limit⟩ : Ceiling).expired now = false := by
  simp only [expired, Instant.since, Nat.sub_self, Nat.not_lt_zero, decide_false]

end Ceiling

/-- The place of a phase on the way to running, where each group of a configuration is a place. -/
def Phase.stage : Phase → Nat
  | .baud _ => 0
  | .version _ => 1
  | .configuration run => 1 + Plan.groupsBegun run.cursor
  | .running => 7

/-- The milliseconds that a phase may take; in a configuration, those of one group. -/
def Phase.ceilingLimit (settings : Settings) : Phase → Milliseconds
  | .baud _ => if settings.autoBaud then 900 else 1000
  | .version _ => 1000
  | .configuration _ => 500
  | .running => 1000

/-- The limit of a place. -/
def Settings.stageLimit (settings : Settings) : Nat → Milliseconds
  | 0 => if settings.autoBaud then 900 else 1000
  | 1 | 7 => 1000
  | _ => 500

theorem Phase.ceilingLimit_eq (settings : Settings) (p : Phase) :
    p.ceilingLimit settings = settings.stageLimit p.stage := by
  cases p with
  | baud a => rfl
  | version query => rfl
  | configuration run =>
    have hpos := Plan.groupsBegun_pos run.cursor
    have hle := Plan.groupsBegun_le run.cursor
    have hstage : 1 + Plan.groupsBegun run.cursor ≠ 7 := by omega
    simp only [stage, ceilingLimit, Settings.stageLimit]
    grind
  | running => rfl

namespace Session

variable {settings : Settings} {s s' : Session} {now : Instant}

/-- The ceiling has the limit of the phase, and a configuration runs a plan that was made from the
settings. -/
structure Timed (settings : Settings) (s : Session) : Prop where
  limit : s.ceiling.limit = s.phase.ceilingLimit settings
  plan : ∀ run, s.phase = .configuration run → ∃ known, run.plan = .make settings known

theorem timed_start (settings : Settings) : (start settings).Timed settings := by
  refine ⟨?_, fun run hrun => nomatch hrun⟩
  simp only [start, Ceiling.defer, Phase.ceilingLimit]
  split <;> rfl

theorem Timed.start (h : s.Timed settings) (now : Instant) :
    Timed settings { s with ceiling := s.ceiling.start now } :=
  ⟨(s.ceiling.limit_start now).trans h.limit, h.plan⟩

/-- Only the phase and the ceiling matter. -/
theorem Timed.congr (h : s.Timed settings) (hphase : s'.phase = s.phase)
    (hceiling : s'.ceiling = s.ceiling) : s'.Timed settings := by
  constructor
  · rw [hceiling, hphase]
    exact h.limit
  · rw [hphase]
    exact h.plan

variable {σ ε : Type} [SerialLine σ ε]

/-! ### Calls of the protocol task -/

/-- The step that a call comes to and has to send: the step at the cursor of a configuration that
could not be sent before, the step behind the cursor, or the first step of a new plan. -/
inductive Reaches (settings : Settings) (now : Instant) (s : Session) (line : σ) :
    PlanRun → ReplyTracker → σ → Prop
  | again (run : PlanRun) (before : s.phase = .configuration run)
      (unsent : run.plan[run.cursor]? = none ∨ run.sentAt = none) :
      Reaches settings now s line run s.tracker line
  | next (run : PlanRun) (before : s.phase = .configuration run) :
      Reaches settings now s line { run with cursor := run.cursor + 1, sentAt := none } s.tracker
        line
  | first (query query' : VersionQuery) (tracker : ReplyTracker) (line1 : σ)
      (before : s.phase = .version query)
      (answered : query.poll now s.known s.tracker line = (.ok .ready, query', tracker, line1)) :
      Reaches settings now s line (.start (.make settings s.known)) tracker line1
  | firstAtOnce (a a' : BaudAlignment) (query' : VersionQuery) (tracker : ReplyTracker)
      (line1 line2 : σ) (before : s.phase = .baud a)
      (aligned : a.poll now line = (.ok .ready, a', line1))
      (answered : VersionQuery.start.poll now s.known s.tracker line1 =
        (.ok .ready, query', tracker, line2)) :
      Reaches settings now s line (.start (.make settings s.known)) tracker line2

/-- What a call of the protocol task does to the phase and to the ceiling. -/
inductive Moves (settings : Settings) (now : Instant) (s s' : Session) (line line' : σ)
    (result : Except (LinkError ε) (Option Solution)) : Prop
  /-- The alignment goes on. -/
  | aligns (a a' : BaudAlignment) (before : s.phase = .baud a) (after : s'.phase = .baud a')
      (kept : s'.ceiling = s.ceiling)
  /-- The version query begins. -/
  | beginsQuery (a : BaudAlignment) (query : VersionQuery) (before : s.phase = .baud a)
      (after : s'.phase = .version query) (armed : s'.ceiling = ⟨some now, Timing.phaseCeiling⟩)
  /-- The version query goes on. -/
  | asks (query query' : VersionQuery) (before : s.phase = .version query)
      (after : s'.phase = .version query') (kept : s'.ceiling = s.ceiling)
  /-- The configuration waits for a reply, or was given up. -/
  | waits (run : PlanRun) (before : s.phase = .configuration run)
      (after : s'.phase = .configuration run) (kept : s'.ceiling = s.ceiling) (idle : line' = line)
      (waiting : run.sentAt.isSome) (unchanged : s'.tracker = s.tracker)
  /-- A step is sent. -/
  | sends (run run' : PlanRun) (step : PlanStep) (tracker : ReplyTracker) (line1 : σ)
      (sent : Except (SendError ε) Unit) (reaches : s.Reaches settings now line run tracker line1)
      (at_cursor : run.plan[run.cursor]? = some step)
      (send : step.command.toCommand.send tracker line1 = (sent, s'.tracker, line'))
      (after : s'.phase = .configuration run') (plan : run'.plan = run.plan)
      (cursor : run'.cursor = run.cursor)
      (waiting : ∀ solution, result = .ok solution → run'.sentAt.isSome)
      (ceiling : s'.ceiling =
        if step.opensGroup then ⟨some now, Timing.groupCeiling⟩ else s.ceiling)
      (instant : ∀ sentAt, run'.sentAt = some sentAt → sentAt = now ∧ sent = .ok ())
  /-- The session begins to run. -/
  | runs (before : s.phase ≠ .running) (after : s'.phase = .running)
      (armed : s'.ceiling = ⟨some now, Timing.phaseCeiling⟩)
  /-- No solution is there to be taken. -/
  | idles (before : s.phase = .running) (after : s'.phase = .running)
      (kept : s'.ceiling = s.ceiling) (untaken : result = .ok none)
  /-- A solution is taken. -/
  | takes (solution : Solution) (before : s.phase = .running) (after : s'.phase = .running)
      (armed : s'.ceiling = ⟨some now, Timing.phaseCeiling⟩) (taken : result = .ok (some solution))

variable {line line' line1 : σ} {result : Except (LinkError ε) (Option Solution)}

/-- No step is reached while running. -/
theorem Reaches.negotiating {run : PlanRun} {tracker : ReplyTracker}
    (h : s.Reaches settings now line run tracker line1) : s.phase ≠ .running := by
  intro hrunning
  cases h with
  | again run before => cases before.symm.trans hrunning
  | next run before => cases before.symm.trans hrunning
  | first query query' tracker line1 before => cases before.symm.trans hrunning
  | firstAtOnce a a' query' tracker line1 line2 before => cases before.symm.trans hrunning

/-- A step that is reached was not sent. -/
theorem Reaches.unsent {run : PlanRun} {tracker : ReplyTracker} {step : PlanStep}
    (h : s.Reaches settings now line run tracker line1)
    (hstep : run.plan[run.cursor]? = some step) : run.sentAt = none := by
  cases h with
  | again run before unsent =>
    rcases unsent with hend | hunsent
    · cases hend.symm.trans hstep
    · exact hunsent
  | next | first | firstAtOnce => rfl

/-- Going on with a configuration where a step is to be sent. -/
private theorem moves_of_sendStep {s1 : Session} {run0 run : PlanRun}
    (hreaches : s.Reaches settings now line run s1.tracker line1)
    (hceiling : s1.ceiling = s.ceiling ∨
      ∀ step, run.plan[run.cursor]? = some step → step.opensGroup = true)
    (hpoll : (run0.poll now s1.tracker s1.ceiling line1 :
        Except (NegotiationError ε) Progress × PlanRun × ReplyTracker × Ceiling × σ) =
      run.sendStep now s1.tracker s1.ceiling line1)
    (h : s1.configure run0 now line1 = (result, s', line')) :
    s.Moves settings now s' line line' result := by
  obtain ⟨answer, run', tracker', ceiling', hsend, hsession⟩ := configure_state h
  rw [hpoll] at hsend
  rcases PlanRun.sendStep_state hsend with ⟨-, rfl, -⟩ |
    ⟨step, sent, hstep, hwrite, hlimit, hanswer⟩
  · obtain ⟨e, herror, -⟩ | ⟨hpending, -⟩ | ⟨-, -, rfl⟩ := hsession
    · cases herror
    · cases hpending
    · exact .runs hreaches.negotiating rfl rfl
  · have hlimit' : ceiling' =
        if step.opensGroup then ⟨some now, Timing.groupCeiling⟩ else s.ceiling := by
      rcases hceiling with hsame | hopens
      · rw [hlimit, hsame]
      · rw [hlimit, if_pos (hopens step hstep), if_pos (hopens step hstep)]
    rcases hanswer with ⟨rfl, rfl, rfl⟩ | ⟨e, -, rfl, rfl⟩
    · obtain ⟨e, herror, -⟩ | ⟨-, -, rfl⟩ | ⟨hready, -⟩ := hsession
      · cases herror
      · exact .sends run _ step _ line1 _ hreaches hstep hwrite rfl rfl rfl (fun _ _ => rfl)
          hlimit' fun _ hsent => ⟨(Option.some.inj hsent).symm, rfl⟩
      · cases hready
    · obtain ⟨e, -, rfl, rfl⟩ | ⟨hpending, -⟩ | ⟨hready, -⟩ := hsession
      · exact .sends run' _ step _ line1 sent hreaches hstep hwrite rfl rfl rfl
          (fun _ hok => nomatch hok) hlimit'
          fun _ hsent => nomatch (hreaches.unsent hstep).symm.trans hsent
      · cases hpending
      · cases hready

/-- A configuration begins with a step that opens a group. -/
private theorem moves_of_first {s1 : Session}
    (hreaches : s.Reaches settings now line (.start (.make settings s.known)) s1.tracker line1)
    (h : s1.configure (.start (.make settings s.known)) now line1 = (result, s', line')) :
    s.Moves settings now s' line line' result := by
  refine moves_of_sendStep hreaches (.inr fun step hstep => ?_) ?_ h
  · exact (Plan.opensGroup_iff hstep).2 List.mem_cons_self
  · unfold PlanRun.poll
    split
    · next hsent => cases hsent
    · rfl

private theorem configure_moves {run : PlanRun} (hphase : s.phase = .configuration run)
    (h : s.configure run now line = (result, s', line')) :
    s.Moves settings now s' line line' result := by
  obtain ⟨answer, run', tracker', ceiling', hpoll, hsession⟩ := configure_state h
  rcases PlanRun.poll_cases hpoll with
    ⟨step, sentAt, -, hsent, ⟨-, rfl, rfl, rfl, rfl, rfl⟩ | ⟨-, rfl, rfl, rfl, rfl, rfl⟩ |
      ⟨-, hsend⟩⟩ | ⟨hunsent, hsend⟩
  · obtain ⟨e, herror, -⟩ | ⟨-, -, rfl⟩ | ⟨hready, -⟩ := hsession
    · cases herror
    · exact .waits run' hphase rfl rfl rfl (by rw [hsent]; rfl) rfl
    · cases hready
  · obtain ⟨e, -, -, rfl⟩ | ⟨hpending, -⟩ | ⟨hready, -⟩ := hsession
    · exact .waits run' hphase rfl rfl rfl (by rw [hsent]; rfl) rfl
    · cases hpending
    · cases hready
  · exact moves_of_sendStep (.next run hphase) (.inl rfl) (hpoll.trans hsend.symm) h
  · exact moves_of_sendStep (.again run hphase hunsent) (.inl rfl) (hpoll.trans hsend.symm) h

private theorem askVersion_moves {query : VersionQuery} (hphase : s.phase = .version query)
    (h : s.askVersion settings query now line = (result, s', line')) :
    s.Moves settings now s' line line' result := by
  obtain ⟨answer, query', tracker', line1, hpoll,
    ⟨e, -, -, -, rfl⟩ | ⟨-, -, -, rfl⟩ | ⟨rfl, hconfigure⟩⟩ := askVersion_state h
  · exact .asks query query' hphase rfl rfl
  · exact .asks query query' hphase rfl rfl
  · exact moves_of_first (.first query query' tracker' line1 hphase hpoll) hconfigure

private theorem alignBaud_moves {a : BaudAlignment} (hphase : s.phase = .baud a)
    (h : s.alignBaud settings a now line = (result, s', line')) :
    s.Moves settings now s' line line' result := by
  obtain ⟨answer, a', line1, haligned, ⟨e, -, -, -, rfl⟩ | ⟨-, -, -, rfl⟩ | ⟨rfl, -, hask⟩ |
    ⟨-, -, -, -, rfl⟩⟩ := alignBaud_state h
  · exact .aligns a a' hphase rfl rfl
  · exact .aligns a a' hphase rfl rfl
  · obtain ⟨answer, query', tracker', line2, hpoll,
      ⟨e, -, -, -, rfl⟩ | ⟨-, -, -, rfl⟩ | ⟨rfl, hconfigure⟩⟩ := askVersion_state hask
    · exact .beginsQuery a query' hphase rfl rfl
    · exact .beginsQuery a query' hphase rfl rfl
    · exact moves_of_first (.firstAtOnce a a' query' tracker' line1 line2 hphase haligned hpoll)
        hconfigure
  · exact .runs (fun hrunning => nomatch hphase.symm.trans hrunning) rfl rfl

/-- **What a call of the protocol task does** to the phase and to the ceiling. -/
theorem advance_moves (h : s.advance settings now line = (result, s', line')) :
    s.Moves settings now s' line line' result := by
  cases advance_cases h with
  | baud a hphase hcall => exact alignBaud_moves hphase hcall
  | version query hphase hcall => exact askVersion_moves hphase hcall
  | configuration run hphase hcall => exact configure_moves hphase hcall
  | running hphase =>
    cases hepoch : s.epoch with
    | none =>
      simp only [consume, hepoch]
      exact .idles hphase hphase rfl rfl
    | some solution =>
      simp only [consume, hepoch]
      exact .takes solution hphase hphase rfl rfl

/-! ### What follows for the limit -/

/-- The step that is reached belongs to a plan that was made from the settings. -/
theorem Reaches.plan {run : PlanRun} {tracker : ReplyTracker} (hs : s.Timed settings)
    (h : s.Reaches settings now line run tracker line1) :
    ∃ known, run.plan = .make settings known := by
  cases h with
  | again run before => exact hs.plan _ before
  | next run before => exact hs.plan run before
  | first | firstAtOnce => exact ⟨_, rfl⟩

/-- A step inside a group is reached from inside that group. -/
theorem Reaches.inside {run : PlanRun} {tracker : ReplyTracker}
    (h : s.Reaches settings now line run tracker line1) (hinside : run.cursor ∉ Plan.groupStarts) :
    ∃ before, s.phase = .configuration before ∧
      Plan.groupsBegun run.cursor = Plan.groupsBegun before.cursor := by
  cases h with
  | again run before => exact ⟨_, before, rfl⟩
  | next run before => exact ⟨run, before, Plan.groupsBegun_succ hinside⟩
  | first | firstAtOnce => exact absurd List.mem_cons_self hinside

/-- A configuration that could be gone on with waits for the reply to a step. -/
def Waiting (s : Session) : Prop :=
  ∀ run, s.phase = .configuration run → run.sentAt.isSome

/-- The first step of a group is reached from a place before it, unless it could not be sent. -/
theorem Reaches.stage_lt {run : PlanRun} {tracker : ReplyTracker} {step : PlanStep}
    (h : s.Reaches settings now line run tracker line1)
    (hstep : run.plan[run.cursor]? = some step) (hstart : run.cursor ∈ Plan.groupStarts)
    (hwaiting : s.Waiting) : s.phase.stage < 1 + Plan.groupsBegun run.cursor := by
  have hunsent := h.unsent hstep
  cases h with
  | again run before =>
    have hsent := hwaiting run before
    rw [hunsent] at hsent
    cases hsent
  | next run before =>
    rw [before]
    exact Nat.add_lt_add_left (Plan.groupsBegun_lt_succ hstart) 1
  | first query query' tracker line1 before =>
    rw [before]
    exact Nat.lt_add_of_pos_right (Plan.groupsBegun_pos 0)
  | firstAtOnce a a' query' tracker line1 line2 before =>
    rw [before]
    exact Nat.add_pos_left Nat.zero_lt_one _

/-- A call leaves a configuration behind that waited before, or a step of its plan was reached. -/
theorem Moves.configuration {run : PlanRun} (h : s.Moves settings now s' line line' result)
    (hrun : s'.phase = .configuration run) :
    (s.phase = .configuration run ∧ run.sentAt.isSome) ∨
    (∃ reached tracker line1, s.Reaches settings now line reached tracker line1 ∧
      run.plan = reached.plan ∧ ∀ solution, result = .ok solution → run.sentAt.isSome) := by
  cases h with
  | aligns _ _ _ after => cases after.symm.trans hrun
  | beginsQuery _ _ _ after => cases after.symm.trans hrun
  | asks _ _ _ after => cases after.symm.trans hrun
  | runs _ after => cases after.symm.trans hrun
  | idles _ after => cases after.symm.trans hrun
  | takes _ _ after => cases after.symm.trans hrun
  | waits _ before after _ _ waiting =>
    cases after.symm.trans hrun
    exact .inl ⟨before, waiting⟩
  | sends _ _ _ _ _ _ reaches _ _ after plan _ waiting =>
    cases after.symm.trans hrun
    exact .inr ⟨_, _, _, reaches, plan, waiting⟩

/-- A call that does not fail leaves a configuration behind that waits. -/
theorem Moves.waiting {solution : Option Solution}
    (h : s.Moves settings now s' line line' result) (hok : result = .ok solution) :
    s'.Waiting := by
  intro run hrun
  rcases h.configuration hrun with ⟨-, hwaiting⟩ | ⟨_, _, _, -, -, hwaiting⟩
  · exact hwaiting
  · exact hwaiting solution hok

/-- **A call leaves the ceiling alone and stays at its place, or it starts the ceiling** of the
place that it comes to.  A call that comes to a place during the negotiation was not there before,
unless it tries again what failed. -/
theorem Moves.kept_or_armed (hs : s.Timed settings)
    (h : s.Moves settings now s' line line' result) :
    (s'.ceiling = s.ceiling ∧ s'.phase.stage = s.phase.stage) ∨
    (s'.ceiling = ⟨some now, s'.phase.ceilingLimit settings⟩ ∧
      (s.Waiting → s'.phase ≠ .running → s.phase.stage < s'.phase.stage)) := by
  cases h with
  | aligns a a' before after kept => exact .inl ⟨kept, by rw [before, after]; rfl⟩
  | asks query query' before after kept => exact .inl ⟨kept, by rw [before, after]; rfl⟩
  | waits run before after kept => exact .inl ⟨kept, by rw [before, after]⟩
  | idles before after kept => exact .inl ⟨kept, by rw [before, after]⟩
  | beginsQuery a query before after armed =>
    refine .inr ⟨by rw [armed, after]; rfl, fun _ _ => ?_⟩
    rw [before, after]
    exact Nat.zero_lt_one
  | sends run run' step tracker line1 sent reaches at_cursor send after plan cursor waiting
      ceiling =>
    obtain ⟨known, hplan⟩ := reaches.plan hs
    have hopens := Plan.opensGroup_iff (hplan ▸ at_cursor)
    have hstage : s'.phase.stage = 1 + Plan.groupsBegun run.cursor := by
      rw [after, ← cursor]
      rfl
    by_cases hstart : run.cursor ∈ Plan.groupStarts
    · rw [if_pos (hopens.2 hstart)] at ceiling
      refine .inr ⟨by rw [ceiling, after]; rfl, fun hwaiting _ => ?_⟩
      rw [hstage]
      exact reaches.stage_lt at_cursor hstart hwaiting
    · rw [if_neg (mt hopens.1 hstart)] at ceiling
      obtain ⟨run0, before, hsame⟩ := reaches.inside hstart
      refine .inl ⟨ceiling, ?_⟩
      rw [hstage, hsame, before]
      rfl
  | runs before after armed =>
    exact .inr ⟨by rw [armed, after]; rfl, fun _ hnegotiating => absurd after hnegotiating⟩
  | takes solution before after armed =>
    exact .inr ⟨by rw [armed, after]; rfl, fun _ hnegotiating => absurd after hnegotiating⟩

/-- **The limit stays that of the phase.** -/
theorem Moves.timed (hs : s.Timed settings) (h : s.Moves settings now s' line line' result) :
    s'.Timed settings := by
  constructor
  case limit =>
    rcases h.kept_or_armed hs with ⟨hkept, hstage⟩ | ⟨harmed, -⟩
    · rw [hkept, hs.limit, Phase.ceilingLimit_eq, Phase.ceilingLimit_eq, hstage]
    · rw [harmed]
  case plan =>
    intro run hrun
    rcases h.configuration hrun with ⟨hbefore, -⟩ | ⟨_, _, _, hreaches, hplan, -⟩
    · exact hs.plan run hbefore
    · obtain ⟨known, hmade⟩ := hreaches.plan hs
      exact ⟨known, hplan.trans hmade⟩

end Session

end GnssLink
