import GnssLink.Message.Basic

/-!
# The reply to the last command

Of all commands only the last one sent is followed up; sending another gives up on it.  A reply
belongs to it if it names the same id, whatever class it names, and the first such reply decides.

## Main definitions

* `ReplyState` — what became of the last command.
* `ReplyTracker` — the state and the id that is waited for.
* `ReplyTracker.begin`, `ReplyTracker.accept`, `ReplyTracker.refuse` — a command was sent, and the
  two replies.
-/

namespace GnssLink

/-- What became of the last command: none was sent, no reply came, or the first reply. -/
inductive ReplyState where
  | idle
  | waiting
  | accepted
  | refused
  deriving DecidableEq, Repr

/-- The last command, by its id, and what became of it. -/
structure ReplyTracker where
  state : ReplyState
  awaited : UInt8
  deriving DecidableEq, Repr

namespace ReplyTracker

/-- No command was sent. -/
def initial : ReplyTracker :=
  ⟨.idle, 0⟩

/-- A command of an id was sent. -/
def begin (_ : ReplyTracker) (id : UInt8) : ReplyTracker :=
  ⟨.waiting, id⟩

/-- A reply decides, if one is waited for and it names the awaited id. -/
def settle (t : ReplyTracker) (verdict : ReplyState) (reply : Reply) : ReplyTracker :=
  if t.state = .waiting ∧ reply.command.id = t.awaited then { t with state := verdict } else t

/-- A positive reply arrived. -/
def accept (t : ReplyTracker) (reply : Reply) : ReplyTracker :=
  t.settle .accepted reply

/-- A negative reply arrived. -/
def refuse (t : ReplyTracker) (reply : Reply) : ReplyTracker :=
  t.settle .refused reply

end ReplyTracker

end GnssLink
