import GnssLink.Link.Basic

/-!
# Driving the link

A host drives the link: it makes a tick, shows the observer the status and the solution that the
tick published, and pauses for a period, until the observer asks it to stop.  During the pause the
world goes on: the clock advances and the line receives bytes.

The observer may never ask to stop, so the number of ticks is bounded by an argument.

## Main definitions

* `Host` — the clock, the pause and the observer.
* `Link.observedTick` — a tick and what the observer is shown.
* `Link.drive` — ticks and pauses until the observer asks to stop.
-/

namespace GnssLink

/-- The surroundings of a link with a line in `σ`: a clock, a pause of a number of milliseconds
during which the line may change, and an observer, which answers whether to stop. -/
structure Host (σ η : Type) where
  now : η → Instant
  pause : UInt32 → σ → η → σ × η
  observe : LinkStatus → Option Solution → η → Bool × η

namespace Link

variable {σ ε η : Type} [SerialLine σ ε]

/-- One tick, with its status and the solution that it published.  The counter of published
solutions tells whether it published one. -/
def observedTick (l : Link σ) (now : Instant) : LinkStatus × Option Solution × Link σ :=
  let (status, after) := l.poll now
  (status, if after.stats.epochs ≠ l.stats.epochs then after.solution else none, after)

/-- Ticks and pauses until the observer asks to stop, at most `ticks` of them.  The answer is the
status of the tick at which it asked, if it did. -/
def drive (host : Host σ η) (period : UInt32) : Nat → Link σ → η → Option LinkStatus × Link σ × η
  | 0, l, world => (none, l, world)
  | ticks + 1, l, world =>
    let (status, fresh, l) := l.observedTick (host.now world)
    let (stop, world) := host.observe status fresh world
    if stop then
      (some status, l, world)
    else
      let (line, world) := host.pause period l.line world
      drive host period ticks { l with line := line } world

end Link

end GnssLink
