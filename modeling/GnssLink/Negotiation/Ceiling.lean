import GnssLink.Time

/-!
# Ceilings

A ceiling bounds the time that a phase may take.  It runs from an instant, or waits to be started.

## Main definitions

* `Ceiling` — a limit and the instant from which it runs.
* `Ceiling.arm`, `Ceiling.defer`, `Ceiling.start` — run from now on, wait, begin to run.
* `Ceiling.expired` — more time than the limit has passed.
-/

namespace GnssLink

/-- A limit, and the instant from which it runs, if it runs. -/
structure Ceiling where
  startedAt : Option Instant
  limit : Milliseconds
  deriving DecidableEq, Repr

namespace Ceiling

/-- A ceiling that does not run. -/
def off : Ceiling :=
  ⟨none, 0⟩

/-- Run from now on with a limit. -/
def arm (_ : Ceiling) (now : Instant) (limit : Milliseconds) : Ceiling :=
  ⟨some now, limit⟩

/-- Take a limit and wait to be started. -/
def defer (_ : Ceiling) (limit : Milliseconds) : Ceiling :=
  ⟨none, limit⟩

/-- Begin to run, unless the ceiling already does. -/
def start (c : Ceiling) (now : Instant) : Ceiling :=
  match c.startedAt with
  | some _ => c
  | none => { c with startedAt := some now }

/-- The ceiling runs. -/
def isRunning (c : Ceiling) : Bool :=
  c.startedAt.isSome

/-- Strictly more time than the limit has passed. -/
def expired (c : Ceiling) (now : Instant) : Bool :=
  match c.startedAt with
  | some start => c.limit.toMicros < now.since start
  | none => false

end Ceiling

end GnssLink
