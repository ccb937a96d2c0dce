import Mathlib.Data.List.Chain
import GnssLink.Proofs.Link.Ceilings
import GnssLink.Proofs.Link.Run
import GnssLink.Serial.Script

/-!
# How long the negotiation takes

The ceilings bound the negotiation as a whole, whatever the receiver sends or withholds.  A session
goes through eight places: the alignment, the version query, five groups of commands, and running.
It never comes back to a place, and each place but the last has a ceiling, which starts with the
tick that comes to it.  So between the first tick and a tick that still negotiates there pass at
most the ceilings of seven places, and for each of the six changes of the place the gap between two
ticks.

Only the gaps between the ticks have to be bounded.  The clock may also go back.

## Main definitions

* `Settings.timeTo` — the sum of the ceilings in front of a place.
* `OnSchedule` — a session came to its place in time.
* `LinkTick.Follows` — the gap between two ticks is bounded.

## Main results

* `OnSchedule.runProtocol` — the protocol task keeps the schedule.
* `Link.negotiating_le` — no tick of a session negotiates beyond the sum of the ceilings.
-/

namespace GnssLink

/-! ### The sum of the ceilings -/

/-- The sum of the limits of the places in front of a place, in milliseconds. -/
def Settings.timeTo (settings : Settings) : Nat → Nat
  | 0 => 0
  | stage + 1 => settings.timeTo stage + settings.stageLimit stage

/-- The sum of all limits up to running. -/
theorem Settings.timeTo_running (settings : Settings) :
    settings.timeTo 7 = (if settings.autoBaud then 900 else 1000) + 3500 := by
  simp only [timeTo, stageLimit]
  split <;> rfl

theorem Settings.timeTo_mono (settings : Settings) {stage stage' : Nat} (h : stage ≤ stage') :
    settings.timeTo stage ≤ settings.timeTo stage' := by
  induction h with
  | refl => exact Nat.le_refl _
  | step _ ih => exact Nat.le_trans ih (Nat.le_add_right _ _)

/-- There are six places in front of running. -/
theorem Phase.stage_le {p : Phase} (h : p ≠ .running) : p.stage ≤ 6 := by
  cases p with
  | baud a => exact Nat.zero_le 6
  | version query => exact Nat.le_add_left 1 5
  | configuration run => exact Nat.add_le_add_left (Plan.groupsBegun_le run.cursor) 1
  | running => exact absurd rfl h

/-! ### The schedule -/

/-- A session whose first tick was at `begun` came to its place in time, and its ceiling was not
exceeded at the last tick.  Microseconds that pass between two ticks are at most `gap`. -/
structure OnSchedule (settings : Settings) (begun : Instant) (gap : Nat) (last : Instant)
    (s : Session) : Prop where
  timed : s.Timed settings
  waiting : s.Waiting
  dated : s.phase ≠ .running → ∃ origin, s.ceiling.startedAt = some origin ∧
    origin.micros ≤
      begun.micros + 1000 * settings.timeTo s.phase.stage + s.phase.stage * gap ∧
    last.micros ≤ origin.micros + 1000 * s.phase.ceilingLimit settings

namespace OnSchedule

variable {settings : Settings} {begun last now : Instant} {gap : Nat} {s s' : Session}

/-- With the first tick the ceiling of the alignment starts. -/
theorem first (settings : Settings) (begun : Instant) (gap : Nat) :
    OnSchedule settings begun gap begun
      { Session.start settings with ceiling := (Session.start settings).ceiling.start begun } := by
  constructor
  case timed => exact (Session.timed_start settings).start begun
  case waiting => exact fun run hrun => nomatch hrun
  case dated => exact fun _ => ⟨begun, rfl, Nat.le_add_right _ _, Nat.le_add_right _ _⟩

/-- Only the phase and the ceiling matter. -/
theorem congr (h : OnSchedule settings begun gap last s) (hphase : s'.phase = s.phase)
    (hceiling : s'.ceiling = s.ceiling) : OnSchedule settings begun gap last s' := by
  constructor
  case timed => exact h.timed.congr hphase hceiling
  case waiting =>
    rw [Session.Waiting, hphase]
    exact h.waiting
  case dated =>
    rw [hphase, hceiling]
    exact h.dated

/-- A ceiling that runs is not started again. -/
theorem start (h : OnSchedule settings begun gap last s) (now : Instant) :
    OnSchedule settings begun gap last { s with ceiling := s.ceiling.start now } := by
  refine ⟨h.timed.start now, h.waiting, fun hnegotiating => ?_⟩
  obtain ⟨origin, hstarted, horigin, hlast⟩ := h.dated hnegotiating
  exact ⟨origin, by simp only [Ceiling.start, hstarted], horigin, hlast⟩

/-- No tick that negotiates comes after the sum of the ceilings and six gaps. -/
theorem last_le (h : OnSchedule settings begun gap last s) (hnegotiating : s.phase ≠ .running) :
    last.micros ≤ begun.micros + 1000 * settings.timeTo 7 + 6 * gap := by
  obtain ⟨origin, -, horigin, hlast⟩ := h.dated hnegotiating
  have hstage := Phase.stage_le hnegotiating
  have hsum : settings.timeTo s.phase.stage + s.phase.ceilingLimit settings ≤
      settings.timeTo 7 := by
    rw [Phase.ceilingLimit_eq]
    exact settings.timeTo_mono (Nat.succ_le_succ hstage)
  have hgaps := Nat.mul_le_mul_right gap hstage
  omega

variable {σ ε : Type} [SerialLine σ ε] {line line' : σ}

/-- What the protocol task does keeps the schedule if the ceiling is not exceeded behind it. -/
theorem moves {result : Except (LinkError ε) (Option Solution)} {solution : Option Solution}
    (h : OnSchedule settings begun gap last s) (hgap : now.micros ≤ last.micros + gap)
    (hmoves : s.Moves settings now s' line line' result) (hok : result = .ok solution)
    (hexpired : s'.ceiling.expired now = false) : OnSchedule settings begun gap now s' := by
  have htimed := hmoves.timed h.timed
  refine ⟨htimed, hmoves.waiting hok, fun hnegotiating => ?_⟩
  have hstage' := Phase.stage_le hnegotiating
  rcases hmoves.kept_or_armed h.timed with ⟨hkept, hstage⟩ | ⟨harmed, hcomes⟩
  · -- The place is the same, and so is its ceiling, which was not exceeded.
    have hbefore : s.phase ≠ .running := by
      intro hrunning
      rw [hstage, hrunning] at hstage'
      exact absurd hstage' (by decide)
    obtain ⟨origin, hstarted, horigin, -⟩ := h.dated hbefore
    have hstarted' : s'.ceiling.startedAt = some origin := by
      rw [hkept]
      exact hstarted
    refine ⟨origin, hstarted', ?_, ?_⟩
    · rw [hstage]
      exact horigin
    · have hearly := mt (Ceiling.expired_iff now hstarted').2 (Bool.eq_false_iff.1 hexpired)
      rw [htimed.limit, Milliseconds.toMicros, Instant.since] at hearly
      omega
  · -- A new place was reached, one gap after the last tick at the latest.
    have hlt := hcomes h.waiting hnegotiating
    have hbefore : s.phase ≠ .running := by
      intro hrunning
      rw [hrunning] at hlt
      exact absurd (Nat.lt_of_lt_of_le hlt hstage') (by decide)
    obtain ⟨origin, -, horigin, hlast⟩ := h.dated hbefore
    refine ⟨now, by rw [harmed], ?_, Nat.le_add_right _ _⟩
    have hsum := settings.timeTo_mono (Nat.succ_le_of_lt hlt)
    have hgaps := Nat.mul_le_mul_right gap (Nat.succ_le_of_lt hlt)
    rw [Settings.timeTo, ← Phase.ceilingLimit_eq] at hsum
    rw [Nat.succ_mul] at hgaps
    omega

/-- **The protocol task keeps the schedule** if it does not fail. -/
theorem runProtocol {solution : Option Solution}
    (h : OnSchedule settings begun gap last { s with ceiling := s.ceiling.start now })
    (hgap : now.micros ≤ last.micros + gap)
    (hrun : s.runProtocol settings now line =
      ((.ok solution : Except (LinkError ε) (Option Solution)), s', line')) :
    OnSchedule settings begun gap now s' := by
  obtain ⟨advanced, hadvance, hchecked⟩ := Session.runProtocol_state hrun
  obtain ⟨hok, hearly⟩ := hchecked.of_ok rfl
  exact h.moves hgap (Session.advance_moves hadvance) hok hearly

end OnSchedule

/-! ### Ticks -/

/-- A tick comes at most some microseconds after another one. -/
def LinkTick.Follows {σ : Type} (gap : Nat) (earlier later : LinkTick σ) : Prop :=
  later.now.micros ≤ earlier.now.micros + gap

namespace Link

variable {σ ε : Type} [SerialLine σ ε] {l : Link σ} {begun last : Instant} {gap : Nat}

/-- A tick keeps the schedule if it does not lose the communication. -/
theorem next_onSchedule {tick : LinkTick σ}
    (h : OnSchedule l.settings begun gap last
      { l.session with ceiling := l.session.ceiling.start tick.now })
    (hgap : tick.now.micros ≤ last.micros + gap)
    (hkept : l.tickStatus tick ≠ .communicationLost) :
    (l.next tick).settings = l.settings ∧
      OnSchedule l.settings begun gap tick.now (l.next tick).session ∧
      (l.tickStatus tick = .negotiating → (l.next tick).session.phase ≠ .running) := by
  rcases l.next_cases tick with ⟨e, s, line, -, hlost, -⟩ | ⟨s1, line1, hreceive, htask⟩
  · exact absurd hlost hkept
  · rcases htask with ⟨e, s, line, -, hlost, -⟩ | ⟨solution, s, line, hrun, hstatus, hnext⟩
    · exact absurd hlost hkept
    · have hstarted : OnSchedule l.settings begun gap last
          { s1 with ceiling := s1.ceiling.start tick.now } := by
        have hphase := Session.phase_receive hreceive
        have hceiling := Session.ceiling_receive hreceive
        exact h.congr hphase (congrArg (Ceiling.start · tick.now) hceiling)
      have hschedule := hstarted.runProtocol hgap hrun
      have hsession : (l.next tick).session = s ∧ (l.next tick).settings = l.settings := by
        rw [hnext]
        cases solution <;> exact ⟨rfl, rfl⟩
      rw [hsession.1]
      refine ⟨hsession.2, hschedule, fun hnegotiating hrunning => ?_⟩
      rw [hstatus, status, hrunning] at hnegotiating
      cases hnegotiating

/-- All ticks behind a tick on schedule are on schedule. -/
theorem reports_le {tick : LinkTick σ} {ticks : List (LinkTick σ)}
    (h : OnSchedule l.settings begun gap last
      { l.session with ceiling := l.session.ceiling.start tick.now })
    (hgap : tick.now.micros ≤ last.micros + gap)
    (hclock : List.IsChain (LinkTick.Follows gap) (tick :: ticks))
    (hkept : ∀ report ∈ l.reports (tick :: ticks), report.2 ≠ .communicationLost) :
    ∀ report ∈ l.reports (tick :: ticks), report.2 = .negotiating →
      report.1.micros ≤ begun.micros + 1000 * l.settings.timeTo 7 + 6 * gap := by
  induction ticks generalizing l tick last with
  | nil =>
    obtain ⟨-, hnext, hphase⟩ := l.next_onSchedule h hgap (hkept _ List.mem_cons_self)
    intro report hmem hnegotiating
    obtain rfl := List.mem_singleton.1 hmem
    exact hnext.last_le (hphase hnegotiating)
  | cons next ticks ih =>
    obtain ⟨hsettings, hnext, hphase⟩ := l.next_onSchedule h hgap (hkept _ List.mem_cons_self)
    obtain ⟨hfollows, hrest⟩ := List.isChain_cons_cons.1 hclock
    intro report hmem hnegotiating
    rcases List.mem_cons.1 hmem with rfl | hmem
    · exact hnext.last_le (hphase hnegotiating)
    · rw [← hsettings] at hnext ⊢
      exact ih (hnext.start next.now) hfollows hrest
        (fun report hmem => hkept report (List.mem_cons_of_mem _ hmem)) report hmem hnegotiating

/-- **No tick of a session negotiates beyond the sum of the ceilings** and six gaps between ticks,
whatever is received.  No tick may come more than the gap after the one before it; the clock may
also go back. -/
theorem negotiating_le {first : LinkTick σ} {ticks : List (LinkTick σ)}
    (hfresh : l.session = .start l.settings)
    (hclock : List.IsChain (LinkTick.Follows gap) (first :: ticks))
    (hkept : ∀ report ∈ l.reports (first :: ticks), report.2 ≠ .communicationLost) :
    ∀ report ∈ l.reports (first :: ticks), report.2 = .negotiating →
      report.1.micros ≤
        first.now.micros + 1000 * ((if l.settings.autoBaud then 900 else 1000) + 3500) +
          6 * gap := by
  have hfirst : OnSchedule l.settings first.now gap first.now
      { l.session with ceiling := l.session.ceiling.start first.now } := by
    rw [hfresh]
    exact .first l.settings first.now gap
  rw [← l.settings.timeTo_running]
  exact l.reports_le hfirst (Nat.le_add_right _ _) hclock hkept

/-- Ticks every 150 ms, behind the first one. -/
def evenTicks : List (LinkTick ScriptedLine) :=
  (List.range 13).map fun i => ⟨⟨150000 * (i + 1)⟩, id⟩

/-- With a receiver that never answers the alignment and the version query take their time, and the
first command is still waited for at the end. -/
theorem negotiating_le_silent :
    (⟨1950000⟩, LinkStatus.negotiating) ∈
        (start ScriptedLine.idle .default).reports (⟨⟨0⟩, id⟩ :: evenTicks) ∧
      1950000 ≤ 0 + 1000 * (900 + 3500) + 6 * 150000 := by
  have hreports : (start ScriptedLine.idle .default).reports (⟨⟨0⟩, id⟩ :: evenTicks) =
      (List.range 14).map fun i => (⟨150000 * i⟩, .negotiating) := by
    decide +kernel
  have hkept : ∀ report ∈ (start ScriptedLine.idle .default).reports (⟨⟨0⟩, id⟩ :: evenTicks),
      report.2 ≠ .communicationLost := by
    rw [hreports]
    decide
  have hclock : List.IsChain (LinkTick.Follows 150000) (⟨⟨0⟩, id⟩ :: evenTicks) := by
    simp only [evenTicks, LinkTick.Follows, List.range, List.range.loop, List.map_cons,
      List.map_nil, List.isChain_cons_cons, List.isChain_singleton]
    decide
  have hlast : (⟨1950000⟩, LinkStatus.negotiating) ∈
      (start ScriptedLine.idle .default).reports (⟨⟨0⟩, id⟩ :: evenTicks) := by
    rw [hreports]
    decide
  exact ⟨hlast, negotiating_le rfl hclock hkept _ hlast rfl⟩

end Link

end GnssLink
