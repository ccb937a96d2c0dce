import Mathlib.Logic.Function.Iterate
import GnssLink.Link.Drive
import GnssLink.Proofs.Link.Publication

/-!
# Driving by hand

Driving tells from the counter of published solutions whether a tick has published one.  That is the
same as to look at what the tick took out of the slot: a solution that is taken moves the counter by
one, which no number of solutions turns into the same count, and nothing else moves it.  So the
observer is shown, tick by tick, the status of the tick and the solution that this very tick has
published, whatever the link has counted before.

To drive by hand is to poll, to show the observer what the poll came to, and to pause, round after
round.  Driving does as many rounds as by hand up to the first one at which the observer asks to
stop, and nothing behind it.

## Main definitions

* `Driven` — a link and its surroundings between two rounds.
* `Host.shown`, `Host.answer`, `Host.round` — a round by hand.
* `Host.recording` — a host that also keeps all that its observer is shown.
* `Host.DrivesByHand` — what driving has to come to.

## Main results

* `Link.observedTick_eq` — the counter tells what the tick has published.
* `Link.drive_recording` — to keep a record does not change the driving.
* `Link.drive_byHand` — driving is polling by hand.
-/

namespace GnssLink

/-- A link and its surroundings between two rounds. -/
structure Driven (σ η : Type) where
  link : Link σ
  world : η

namespace Host

variable {σ ε η : Type}

/-- The same host, with a record of all that its observer is shown. -/
def recording (host : Host σ η) : Host σ (η × List (LinkStatus × Option Solution)) where
  now world := host.now world.1
  pause period line world :=
    let (line, inner) := host.pause period line world.1
    (line, inner, world.2)
  observe status fresh world :=
    let (stop, inner) := host.observe status fresh world.1
    (stop, inner, world.2 ++ [(status, fresh)])

variable [SerialLine σ ε]

/-- The status of a poll, and the solution that it publishes. -/
def shown (host : Host σ η) (d : Driven σ η) : LinkStatus × Option Solution :=
  ((d.link.poll (host.now d.world)).1, d.link.taken (host.now d.world))

/-- What the observer makes of a poll: whether to stop, and the surroundings behind it. -/
def answer (host : Host σ η) (d : Driven σ η) : Bool × η :=
  host.observe (host.shown d).1 (host.shown d).2 d.world

/-- The link behind a poll. -/
def polled (host : Host σ η) (d : Driven σ η) : Link σ :=
  (d.link.poll (host.now d.world)).2

/-- A round by hand: poll, show it to the observer, and pause. -/
def round (host : Host σ η) (period : UInt32) (d : Driven σ η) : Driven σ η :=
  let (line, world) := host.pause period (host.polled d).line (host.answer d).2
  ⟨{ host.polled d with line := line }, world⟩

/-- What driving for at most some ticks has to come to, with a record of all that the observer is
shown.  It stops at the first round at which the observer asks to, before the pause; if it does not
ask, all rounds are made. -/
inductive DrivesByHand (host : Host σ η) (period : UInt32) (d : Driven σ η)
    (record : List (LinkStatus × Option Solution)) (ticks : Nat) :
    Option LinkStatus × Link σ × η × List (LinkStatus × Option Solution) → Prop
  | stops (last : Nat) (in_time : last < ticks)
      (asked : (host.answer ((host.round period)^[last] d)).1 = true)
      (first : ∀ i < last, (host.answer ((host.round period)^[i] d)).1 = false) :
      DrivesByHand host period d record ticks
        (some (host.shown ((host.round period)^[last] d)).1,
          host.polled ((host.round period)^[last] d),
          (host.answer ((host.round period)^[last] d)).2,
          record ++ (List.range (last + 1)).map fun i => host.shown ((host.round period)^[i] d))
  | goesOn (never : ∀ i < ticks, (host.answer ((host.round period)^[i] d)).1 = false) :
      DrivesByHand host period d record ticks
        (none, ((host.round period)^[ticks] d).link, ((host.round period)^[ticks] d).world,
          record ++ (List.range ticks).map fun i => host.shown ((host.round period)^[i] d))

variable {host : Host σ η} {period : UInt32} {d : Driven σ η}

/-- With a record the observer answers as without, and what it is shown goes into the record. -/
theorem recording_answer (host : Host σ η) (l : Link σ) (world : η)
    (record : List (LinkStatus × Option Solution)) :
    host.recording.answer ⟨l, (world, record)⟩ =
      ((host.answer ⟨l, world⟩).1, (host.answer ⟨l, world⟩).2,
        record ++ [host.shown ⟨l, world⟩]) := rfl

/-- A round at which the observer does not ask to stop stands in front of the others. -/
theorem DrivesByHand.of_round {record : List (LinkStatus × Option Solution)} {ticks : Nat}
    {result : Option LinkStatus × Link σ × η × List (LinkStatus × Option Solution)}
    (hgoes : (host.answer d).1 = false)
    (h : host.DrivesByHand period (host.round period d) (record ++ [host.shown d]) ticks result) :
    host.DrivesByHand period d record (ticks + 1) result := by
  have hfirst : ∀ {n : Nat},
      (∀ i < n, (host.answer ((host.round period)^[i] (host.round period d))).1 = false) →
      ∀ i < n + 1, (host.answer ((host.round period)^[i] d)).1 = false := by
    intro n hlater i hi
    cases i with
    | zero => exact hgoes
    | succ i => exact hlater i (Nat.lt_of_succ_lt_succ hi)
  have hrecord : ∀ n, record ++ [host.shown d] ++
      (List.range n).map (fun i => host.shown ((host.round period)^[i] (host.round period d))) =
      record ++ (List.range (n + 1)).map fun i => host.shown ((host.round period)^[i] d) := by
    intro n
    rw [List.range_succ_eq_map, List.map_cons, List.map_map, List.append_assoc]
    rfl
  cases h with
  | stops last in_time asked first =>
    rw [hrecord]
    exact .stops (last + 1) (Nat.succ_lt_succ in_time) asked (hfirst first)
  | goesOn never =>
    rw [hrecord]
    exact .goesOn (hfirst never)

end Host

namespace Link

variable {σ ε η : Type} [SerialLine σ ε]

/-! ### One tick -/

/-- A solution is published if and only if it is taken, and otherwise nothing changes. -/
theorem taken_iff (l : Link σ) (now : Instant) :
    (∀ solution, l.taken now = some solution ↔ l.Publishes (l.poll now).2 solution) ∧
      (l.taken now = none ↔ l.Keeps (l.poll now).2) := by
  rcases l.poll_publishes now with ⟨published, htaken, hpublishes⟩ | ⟨htaken, hkeeps⟩
  · rw [htaken]
    refine ⟨fun solution => ⟨fun hsame => ?_, fun h => ?_⟩, ⟨(nomatch ·), ?_⟩⟩
    · cases hsame
      exact hpublishes
    · exact hpublishes.solution.symm.trans h.solution
    · exact fun hkeeps => absurd hkeeps.epochs hpublishes.epochs_ne
  · rw [htaken]
    refine ⟨fun solution => ⟨(nomatch ·), fun h => ?_⟩, fun _ => hkeeps, fun _ => rfl⟩
    exact absurd hkeeps.epochs h.epochs_ne

/-- **The counter tells what the tick has published.** -/
theorem observedTick_eq (l : Link σ) (now : Instant) :
    l.observedTick now = ((l.poll now).1, l.taken now, (l.poll now).2) := by
  rcases l.poll_publishes now with ⟨published, htaken, hpublishes⟩ | ⟨htaken, hkeeps⟩
  · simp only [observedTick, if_pos hpublishes.epochs_ne, hpublishes.solution, htaken]
  · simp only [observedTick, hkeeps.epochs, ne_eq, not_true_eq_false, if_false, htaken]

/-! ### Driving -/

/-- Driving for at least one tick makes a round by hand, and goes on behind it unless the observer
asks to stop. -/
theorem drive_succ (host : Host σ η) (period : UInt32) (ticks : Nat) (d : Driven σ η) :
    drive host period (ticks + 1) d.link d.world =
      if (host.answer d).1 = true then
        (some (host.shown d).1, host.polled d, (host.answer d).2)
      else
        drive host period ticks (host.round period d).link (host.round period d).world := by
  simp only [drive, observedTick_eq]
  rfl

/-- To keep a record does not change the driving. -/
theorem drive_recording (host : Host σ η) (period : UInt32) (ticks : Nat) (l : Link σ) (world : η)
    (record : List (LinkStatus × Option Solution)) :
    ∃ record', drive host.recording period ticks l (world, record) =
      ((drive host period ticks l world).1, (drive host period ticks l world).2.1,
        (drive host period ticks l world).2.2, record') := by
  induction ticks generalizing l world record with
  | zero => exact ⟨record, rfl⟩
  | succ ticks ih =>
    rw [drive_succ host period ticks ⟨l, world⟩,
      drive_succ host.recording period ticks ⟨l, (world, record)⟩, Host.recording_answer]
    by_cases hstop : (host.answer ⟨l, world⟩).1 = true
    · rw [if_pos hstop, if_pos hstop]
      exact ⟨_, rfl⟩
    · rw [if_neg hstop, if_neg hstop]
      exact ih _ _ _

/-- Driving with a record that has begun. -/
theorem drive_byHand_record (host : Host σ η) (period : UInt32) (ticks : Nat) (d : Driven σ η)
    (record : List (LinkStatus × Option Solution)) :
    host.DrivesByHand period d record ticks
      (drive host.recording period ticks d.link (d.world, record)) := by
  -- The record has to be arbitrary: the rounds behind the first one go on with a longer one.
  induction ticks generalizing d record with
  | zero =>
    have hnone : record ++ (List.range 0).map
        (fun i => host.shown ((host.round period)^[i] d)) = record := List.append_nil record
    have hend : host.DrivesByHand period d record 0 _ :=
      .goesOn fun i hi => absurd hi (Nat.not_lt_zero i)
    rw [hnone] at hend
    exact hend
  | succ ticks ih =>
    rw [drive_succ host.recording period ticks ⟨d.link, (d.world, record)⟩, Host.recording_answer]
    by_cases hstop : (host.answer d).1 = true
    · rw [if_pos hstop]
      exact .stops 0 (Nat.succ_pos ticks) hstop fun i hi => absurd hi (Nat.not_lt_zero i)
    · rw [if_neg hstop]
      exact .of_round (Bool.eq_false_iff.2 hstop) (ih (host.round period d) _)

/-- **Driving is polling by hand.**  From any link, with any host and any observer, the observer is
shown what the polls by hand come to, each of them once and in order, up to the first one at which
it asks to stop; there the driving ends with the status of that poll.  The second part of what is
shown is the solution that the poll publishes, and nothing if it publishes none.  Keeping the record
does not change the driving. -/
theorem drive_byHand (host : Host σ η) (period : UInt32) (ticks : Nat) (d : Driven σ η) :
    host.DrivesByHand period d [] ticks
        (drive host.recording period ticks d.link (d.world, [])) ∧
      (∀ d : Driven σ η,
        (∀ solution, (host.shown d).2 = some solution ↔
          d.link.Publishes (host.polled d) solution) ∧
        ((host.shown d).2 = none ↔ d.link.Keeps (host.polled d))) ∧
      ∃ record, drive host.recording period ticks d.link (d.world, []) =
        ((drive host period ticks d.link d.world).1, (drive host period ticks d.link d.world).2.1,
          (drive host period ticks d.link d.world).2.2, record) :=
  ⟨drive_byHand_record host period ticks d [], fun d => d.link.taken_iff (host.now d.world),
    drive_recording host period ticks d.link d.world []⟩

end Link

end GnssLink
