import GnssLink.Link.Basic
import GnssLink.Proofs.Link.History

/-!
# Runs of a link

A link is ticked at any instants.  Before each tick the world acts on the line.  A run goes on over
communication losses, where the session is replaced by a new one.

## Main definitions

* `LinkTick` — an instant, and what the world does before it.
* `Link.tickStatus`, `Link.next` — what a tick reports, and the link behind it.
* `Link.run`, `Link.reports` — the link behind some ticks, and all that they report.
* `Link.received` — the bytes that a tick drains.

## Main results

* `Link.next_cases` — a tick receives and calls the protocol task, or the session is replaced.
-/

namespace GnssLink

/-- A tick at an instant, after the world acted on the line. -/
structure LinkTick (σ : Type) where
  now : Instant
  world : σ → σ

namespace Link

variable {σ ε : Type}

/-- The world acts on the line. -/
def alter (l : Link σ) (world : σ → σ) : Link σ :=
  { l with line := world l.line }

variable [SerialLine σ ε]

/-- What a tick reports. -/
def tickStatus (l : Link σ) (tick : LinkTick σ) : LinkStatus :=
  ((l.alter tick.world).poll tick.now).1

/-- The link behind a tick. -/
def next (l : Link σ) (tick : LinkTick σ) : Link σ :=
  ((l.alter tick.world).poll tick.now).2

/-- The link behind some ticks. -/
def run (l : Link σ) (ticks : List (LinkTick σ)) : Link σ :=
  ticks.foldl next l

/-- All that some ticks report, with the instants. -/
def reports (l : Link σ) : List (LinkTick σ) → List (Instant × LinkStatus)
  | [] => []
  | tick :: ticks => (tick.now, l.tickStatus tick) :: (l.next tick).reports ticks

/-- The bytes that a tick drains. -/
def received (l : Link σ) (tick : LinkTick σ) : Bytes :=
  SerialLine.drained (tick.world l.line)

/-- **What a tick does.**  The receiving task fails, or the protocol task fails behind it, and the
session is replaced; or both succeed, and the solution that was taken is published. -/
theorem next_cases (l : Link σ) (tick : LinkTick σ) :
    (∃ e s line, l.session.receive (tick.world l.line) = (.error e, s, line) ∧
      l.tickStatus tick = .communicationLost ∧
      l.next tick = restart { l with session := s, line := line }) ∨
    (∃ s1 line1, l.session.receive (tick.world l.line) = (.ok (), s1, line1) ∧
      ((∃ e s line, s1.runProtocol l.settings tick.now line1 = (.error e, s, line) ∧
          l.tickStatus tick = .communicationLost ∧
          l.next tick = restart { l with session := s, line := line }) ∨
       (∃ solution s line, s1.runProtocol l.settings tick.now line1 = (.ok solution, s, line) ∧
          l.tickStatus tick = ({ l with session := s, line := line } : Link σ).status ∧
          l.next tick = publish { l with session := s, line := line } solution))) := by
  rcases hreceive : l.session.receive (tick.world l.line) with ⟨e | ⟨⟩, s1, line1⟩
  · refine .inl ⟨e, s1, line1, rfl, ?_, ?_⟩
    · simp only [tickStatus, poll, Link.tick, alter, hreceive]
    · simp only [next, poll, Link.tick, alter, hreceive]
  · refine .inr ⟨s1, line1, rfl, ?_⟩
    rcases hrun : s1.runProtocol l.settings tick.now line1 with ⟨e | solution, s, line⟩
    · refine .inl ⟨e, s, line, rfl, ?_, ?_⟩
      · simp only [tickStatus, poll, Link.tick, alter, hreceive, hrun]
      · simp only [next, poll, Link.tick, alter, hreceive, hrun]
    · refine .inr ⟨solution, s, line, rfl, ?_, ?_⟩
      · simp only [tickStatus, poll, Link.tick, alter, hreceive, hrun]
        cases solution <;> rfl
      · simp only [next, poll, Link.tick, alter, hreceive, hrun]

end Link

end GnssLink
