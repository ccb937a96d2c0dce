import Mathlib.Algebra.GroupWithZero.Nat
import GnssLink.Proofs.Frame.Counting
import GnssLink.Proofs.Link.Publication

/-!
# The counters of a link

A link counts over all its sessions, modulo 2³².  The frames of the present session are counted by
its decoder, those of the sessions before it were added up when they were replaced.  Over any number
of communication losses nothing is lost and nothing counted twice: the counters say how many frames
and how many broken frames the scan finds in the bytes that each session has read, how many ticks
lost the communication, and how many solutions were taken.

The invariant is that the decoder of the present session is a new one that took the bytes of this
session (`Link.HasRead`).

## Main definitions

* `Link.sessions`, `Link.bytesRead` — the bytes that each session of a run has read, and all bytes.
* `Link.losses`, `Link.allTaken` — the ticks that lose the communication, and the solutions that the
  ticks take.
* `Link.Accounts` — what the counters say about a run.

## Main results

* `Link.next_of_lost` — a communication loss leaves a new session behind.
* `Link.HasRead.next_counters` — what a tick does to the counters.
* `Link.run_accounts` — what the counters say about every run.
-/

namespace GnssLink

/-- The counters with the frames in some bytes. -/
def LinkStats.withFrames (counters : LinkStats) (bytes : Bytes) : LinkStats :=
  { counters with
    packets := counters.packets + UInt32.ofNat (Stream.frames bytes)
    errors := counters.errors + UInt32.ofNat (Stream.broken bytes) }

namespace Link

variable {σ ε : Type} [SerialLine σ ε]

/-! ### What happens in a run -/

/-- The bytes that the sessions of a run have read, one string for each session, the present session
last.  The first of them had read some bytes before. -/
def sessions (l : Link σ) (before : Bytes) : List (LinkTick σ) → List Bytes
  | [] => [before]
  | tick :: ticks =>
    if l.tickStatus tick = .communicationLost then
      (before ++ l.received tick) :: (l.next tick).sessions [] ticks
    else
      (l.next tick).sessions (before ++ l.received tick) ticks

/-- All bytes that are read in a run. -/
def bytesRead (l : Link σ) : List (LinkTick σ) → Bytes
  | [] => []
  | tick :: ticks => l.received tick ++ (l.next tick).bytesRead ticks

/-- The number of ticks that lose the communication. -/
def losses (l : Link σ) (ticks : List (LinkTick σ)) : Nat :=
  (l.reports ticks).countP fun report => report.2 = .communicationLost

/-- The solutions that the ticks of a run take, in order. -/
def allTaken (l : Link σ) : List (LinkTick σ) → List Solution
  | [] => []
  | tick :: ticks => ((l.alter tick.world).taken tick.now).toList ++ (l.next tick).allTaken ticks

variable {l : Link σ} {before : Bytes}

/-- No byte is read in two sessions, and none in between. -/
theorem flatten_sessions (l : Link σ) (before : Bytes) (ticks : List (LinkTick σ)) :
    (l.sessions before ticks).flatten = before ++ l.bytesRead ticks := by
  induction ticks generalizing l before with
  | nil => simp only [sessions, bytesRead, List.flatten_cons, List.flatten_nil]
  | cons tick ticks ih =>
    rw [sessions]
    split
    · rw [List.flatten_cons, ih, bytesRead, List.append_assoc, List.nil_append]
    · rw [ih, bytesRead, List.append_assoc]

theorem losses_cons (l : Link σ) (tick : LinkTick σ) (ticks : List (LinkTick σ)) :
    l.losses (tick :: ticks) =
      (l.next tick).losses ticks + if l.tickStatus tick = .communicationLost then 1 else 0 := by
  simp only [losses, reports, List.countP_cons, decide_eq_true_eq]

/-- Every communication loss begins a session. -/
theorem length_sessions (l : Link σ) (before : Bytes) (ticks : List (LinkTick σ)) :
    (l.sessions before ticks).length = l.losses ticks + 1 := by
  induction ticks generalizing l before with
  | nil => rfl
  | cons tick ticks ih =>
    rw [sessions, losses_cons]
    split
    · rw [List.length_cons, ih]
    · rw [ih]

/-! ### One tick -/

omit [SerialLine σ ε] in
/-- A link whose tick did not fail has not lost the communication. -/
theorem status_ne_communicationLost (l : Link σ) : l.status ≠ .communicationLost := by
  unfold status
  split <;> exact fun h => nomatch h

/-- **A communication loss leaves a new session behind**, and the published solution and its counter
as they were. -/
theorem next_of_lost {tick : LinkTick σ} (h : l.tickStatus tick = .communicationLost) :
    (l.next tick).session = .start l.settings ∧ l.Keeps (l.next tick) := by
  rcases l.next_cases tick with ⟨e, s, line, -, -, hnext⟩ |
    ⟨s1, line1, -, ⟨e, s, line, -, -, hnext⟩ | ⟨solution, s, line, -, hstatus, -⟩⟩
  · rw [hnext]
    exact ⟨rfl, rfl, rfl⟩
  · rw [hnext]
    exact ⟨rfl, rfl, rfl⟩
  · exact absurd (hstatus.symm.trans h) (status_ne_communicationLost _)

theorem settings_next (l : Link σ) (tick : LinkTick σ) : (l.next tick).settings = l.settings := by
  rcases l.next_cases tick with ⟨e, s, line, -, -, hnext⟩ |
    ⟨s1, line1, -, ⟨e, s, line, -, -, hnext⟩ | ⟨solution, s, line, -, -, hnext⟩⟩
  · rw [hnext]
    rfl
  · rw [hnext]
    rfl
  · rw [hnext]
    cases solution <;> rfl

theorem settings_run (l : Link σ) (ticks : List (LinkTick σ)) :
    (l.run ticks).settings = l.settings := by
  induction ticks generalizing l with
  | nil => rfl
  | cons tick ticks ih => exact (ih (l.next tick)).trans (l.settings_next tick)

/-- The present session has read some bytes. -/
def HasRead (l : Link σ) (bytes : Bytes) : Prop :=
  l.session.decoder = (Decoder.initial.feedAll bytes).2

/-- The frames of the present session are counted by its decoder. -/
theorem HasRead.stats (h : l.HasRead before) : l.stats = l.counters.withFrames before := by
  have hdecoder := congrArg Decoder.stats h
  rw [Decoder.stats_feedAll_initial] at hdecoder
  simp only [Link.stats, hdecoder, LinkStats.withFrames]

theorem hasRead_of_start {settings : Settings} (h : l.session = .start settings) :
    l.HasRead [] := by
  rw [HasRead, h]
  rfl

/-- The receiving task reads the bytes of the tick. -/
theorem HasRead.receive (h : l.HasRead before) {tick : LinkTick σ}
    {result : Except (LinkError ε) Unit} {s : Session} {line : σ}
    (hreceive : l.session.receive (tick.world l.line) = (result, s, line)) :
    s.decoder = (Decoder.initial.feedAll (before ++ l.received tick)).2 := by
  rw [Session.decoder_receive hreceive, h, Decoder.feedAll_append]
  rfl

/-- A session that is replaced leaves its counters behind. -/
theorem HasRead.restart (h : l.HasRead before) :
    l.restart.HasRead [] ∧
      l.restart.counters =
        { l.counters.withFrames before with restarts := l.counters.restarts + 1 } := by
  rw [← h.stats]
  exact ⟨hasRead_of_start rfl, rfl⟩

/-- **What a tick does to the counters.**  A communication loss adds those of the session that is
replaced; any other tick adds no frames, and the session goes on. -/
theorem HasRead.next_counters (h : l.HasRead before) (tick : LinkTick σ) :
    (l.tickStatus tick = .communicationLost ∧ (l.next tick).HasRead [] ∧
      (l.next tick).counters =
        { l.counters.withFrames (before ++ l.received tick) with
          restarts := l.counters.restarts + 1 }) ∨
    (l.tickStatus tick ≠ .communicationLost ∧
      (l.next tick).HasRead (before ++ l.received tick) ∧
      (l.next tick).counters = { l.counters with epochs := (l.next tick).counters.epochs }) := by
  rcases l.next_cases tick with ⟨e, s, line, hreceive, hstatus, hnext⟩ |
    ⟨s1, line1, hreceive, ⟨e, s, line, hrun, hstatus, hnext⟩ |
      ⟨solution, s, line, hrun, hstatus, hnext⟩⟩
  · have hread : HasRead { l with session := s, line := line } (before ++ l.received tick) :=
      h.receive hreceive
    rw [hnext]
    exact .inl ⟨hstatus, hread.restart⟩
  · have hread : HasRead { l with session := s, line := line } (before ++ l.received tick) :=
      (Session.runProtocol_keeps hrun).decoder.trans (h.receive hreceive)
    rw [hnext]
    exact .inl ⟨hstatus, hread.restart⟩
  · have hread : HasRead { l with session := s, line := line } (before ++ l.received tick) :=
      (Session.runProtocol_keeps hrun).decoder.trans (h.receive hreceive)
    refine .inr ⟨hstatus ▸ status_ne_communicationLost _, ?_⟩
    rw [hnext]
    cases solution <;> exact ⟨hread, rfl⟩

/-! ### All ticks of a run -/

/-- The counters of frames behind a run, whose first session had read some bytes before. -/
theorem HasRead.frames_run (h : l.HasRead before) (ticks : List (LinkTick σ)) :
    (l.run ticks).stats.packets = l.counters.packets +
        UInt32.ofNat ((l.sessions before ticks).map Stream.frames).sum ∧
    (l.run ticks).stats.errors = l.counters.errors +
        UInt32.ofNat ((l.sessions before ticks).map Stream.broken).sum := by
  -- A loss moves the bytes read so far into the counters and starts again with none; any other
  -- tick only makes them longer.
  induction ticks generalizing l before with
  | nil =>
    have hstats : (l.run []).stats = l.counters.withFrames before := h.stats
    simp only [hstats, LinkStats.withFrames, sessions, List.map_cons, List.map_nil, List.sum_cons,
      List.sum_nil, Nat.add_zero, and_self]
  | cons tick ticks ih =>
    rw [sessions]
    rcases h.next_counters tick with ⟨hlost, hread, hcounters⟩ | ⟨hkept, hread, hcounters⟩
    · obtain ⟨hpackets, herrors⟩ := ih hread
      rw [hcounters] at hpackets herrors
      rw [if_pos hlost, List.map_cons, List.map_cons, List.sum_cons, List.sum_cons,
        UInt32.ofNat_add, UInt32.ofNat_add, ← UInt32.add_assoc, ← UInt32.add_assoc]
      exact ⟨hpackets, herrors⟩
    · obtain ⟨hpackets, herrors⟩ := ih hread
      rw [hcounters] at hpackets herrors
      rw [if_neg hkept]
      exact ⟨hpackets, herrors⟩

/-- The counter of communication losses behind a run. -/
theorem HasRead.restarts_run (h : l.HasRead before) (ticks : List (LinkTick σ)) :
    (l.run ticks).stats.restarts = l.counters.restarts + UInt32.ofNat (l.losses ticks) := by
  induction ticks generalizing l before with
  | nil => exact (UInt32.add_zero _).symm
  | cons tick ticks ih =>
    rw [losses_cons]
    rcases h.next_counters tick with ⟨hlost, hread, hcounters⟩ | ⟨hkept, hread, hcounters⟩
    · have hrun := ih hread
      rw [hcounters, UInt32.add_assoc, DecoderStats.one_add_ofNat] at hrun
      rw [if_pos hlost]
      exact hrun
    · have hrun := ih hread
      rw [hcounters] at hrun
      rw [if_neg hkept]
      exact hrun

/-- The counter of solutions behind a run, and the published solution. -/
theorem epochs_run (l : Link σ) (ticks : List (LinkTick σ)) :
    (l.run ticks).stats.epochs = l.counters.epochs + UInt32.ofNat (l.allTaken ticks).length ∧
    (l.run ticks).solution = (l.allTaken ticks).getLast?.or l.solution := by
  induction ticks generalizing l with
  | nil => exact ⟨(UInt32.add_zero _).symm, rfl⟩
  | cons tick ticks ih =>
    obtain ⟨hepochs, hsolution⟩ := ih (l.next tick)
    rw [allTaken, List.length_append, UInt32.ofNat_add, ← UInt32.add_assoc, List.getLast?_append,
      Option.or_assoc]
    rcases (l.alter tick.world).poll_publishes tick.now with
      ⟨solution, htaken, hpublishes⟩ | ⟨htaken, hkeeps⟩
    · have hcounter : (l.next tick).counters.epochs = l.counters.epochs + 1 := hpublishes.epochs
      have hpublished : (l.next tick).solution = some solution := hpublishes.solution
      rw [hcounter] at hepochs
      rw [hpublished] at hsolution
      rw [htaken]
      exact ⟨hepochs, hsolution⟩
    · have hcounter : (l.next tick).counters.epochs = l.counters.epochs := hkeeps.epochs
      have hsame : (l.next tick).solution = l.solution := hkeeps.solution
      rw [hcounter] at hepochs
      rw [hsame] at hsolution
      rw [htaken]
      exact ⟨hepochs.trans (by rw [Option.toList_none]; simp), hsolution⟩

/-- What the counters of a link say about the run behind it. -/
structure Accounts (l : Link σ) (ticks : List (LinkTick σ)) : Prop where
  /-- Every byte is read in one session. -/
  read : (l.sessions [] ticks).flatten = l.bytesRead ticks
  /-- There is one session more than communication losses. -/
  sessions : (l.sessions [] ticks).length = l.losses ticks + 1
  /-- All frames in all sessions are counted. -/
  packets : (l.run ticks).stats.packets =
    UInt32.ofNat ((l.sessions [] ticks).map Stream.frames).sum
  /-- All broken frames in all sessions are counted. -/
  errors : (l.run ticks).stats.errors =
    UInt32.ofNat ((l.sessions [] ticks).map Stream.broken).sum
  /-- All communication losses are counted. -/
  restarts : (l.run ticks).stats.restarts = UInt32.ofNat (l.losses ticks)
  /-- All solutions that were taken are counted. -/
  epochs : (l.run ticks).stats.epochs = UInt32.ofNat (l.allTaken ticks).length
  /-- The last of them is published. -/
  solution : (l.run ticks).solution = (l.allTaken ticks).getLast?

/-- **What the counters say about every run.**  All frames, all broken frames, all communication
losses and all solutions are counted, each once, modulo 2³².  A further tick that loses the
communication changes neither the solution nor its counter, and leaves a new session behind. -/
theorem run_accounts (settings : Settings) (line : σ) (ticks : List (LinkTick σ)) :
    (start line settings).Accounts ticks ∧
      ∀ tick, ((start line settings).run ticks).tickStatus tick = .communicationLost →
        (((start line settings).run ticks).next tick).session = .start settings ∧
          ((start line settings).run ticks).Keeps
            (((start line settings).run ticks).next tick) := by
  have hread : (start line settings).HasRead [] := hasRead_of_start rfl
  obtain ⟨hpackets, herrors⟩ := hread.frames_run ticks
  obtain ⟨hepochs, hsolution⟩ := (start line settings).epochs_run ticks
  constructor
  · constructor
    case read => exact (start line settings).flatten_sessions [] ticks
    case sessions => exact (start line settings).length_sessions [] ticks
    case packets => exact hpackets.trans (UInt32.zero_add _)
    case errors => exact herrors.trans (UInt32.zero_add _)
    case restarts => exact (hread.restarts_run ticks).trans (UInt32.zero_add _)
    case epochs => exact hepochs.trans (UInt32.zero_add _)
    case solution => exact hsolution.trans (Option.or_none)
  · intro tick hlost
    obtain ⟨hsession, hkeeps⟩ := next_of_lost hlost
    rw [settings_run] at hsession
    exact ⟨hsession, hkeeps⟩

end Link

end GnssLink
