import Mathlib.Logic.Relation
import GnssLink.Proofs.Link.Replies
import GnssLink.Proofs.Negotiation.CommandIds

/-!
# The exchange of commands and answers

A session talks to a module over a link.  The module answers each command that was sent to it at
most once, and its reply names the type of the command.  The link loses answers, delays them for any
time and changes their order, but it neither makes up nor repeats any: the replies in the bytes that
a session receives are answers that were on their way.  At the beginning nothing is on its way.

The session hears the verdict of an answer and the type that it names.  Which command was answered
it does not hear; here the answer carries the place of the command among the operations that were
performed, and the exchange keeps the answer that changed the tracker last.

## Main definitions

* `Answer`, `Answer.heard` — an answer, and what the session hears of it.
* `Exchange`, `Exchange.Step` — session, module and link, and their steps in any order.
* `Exchange.Reachable` — the exchanges that can come about.
* `Exchange.DecidedBy`, `Moment.HasLeft` — the reply that the tracker holds, and a step that is
  behind.
-/

namespace GnssLink

variable {σ ε : Type}

/-- The answer of the module to one command, which is named by its place among the operations that
were performed.  The reply names its type. -/
structure Answer where
  place : Nat
  positive : Bool
  reply : Reply
  deriving DecidableEq

namespace Answer

/-- What the answer means for the command. -/
def verdict (a : Answer) : ReplyState :=
  if a.positive then .accepted else .refused

/-- What the session hears of an answer.  The place is not part of it. -/
def heard (a : Answer) : ReplyState × Reply :=
  (a.verdict, a.reply)

theorem verdict_ne_idle (a : Answer) : a.verdict ≠ .idle := by
  unfold verdict
  split <;> exact fun h => nomatch h

/-- The tracker hears an answer.  The answer is kept if it changed the tracker. -/
def deliver (heardSoFar : ReplyTracker × Option Answer) (a : Answer) :
    ReplyTracker × Option Answer :=
  let tracker := heardSoFar.1.hear a.heard
  (tracker, if tracker = heardSoFar.1 then heardSoFar.2 else some a)

theorem deliver_tracker (heardSoFar : ReplyTracker × Option Answer) (answers : List Answer) :
    (answers.foldl deliver heardSoFar).1 =
      (answers.map heard).foldl ReplyTracker.hear heardSoFar.1 := by
  induction answers generalizing heardSoFar with
  | nil => rfl
  | cons a answers ih => exact ih _

end Answer

/-- A session and a module with a link between them: the places of the commands that the module
answered, the answers on their way, and the answer that decided on the last command. -/
structure Exchange (σ ε : Type) where
  moment : Moment σ ε
  answered : List Nat
  inFlight : List Answer
  decider : Option Answer

/-- No call has failed so far. -/
def Moment.Alive (m : Moment σ ε) : Prop :=
  ∃ solution, m.result = .ok solution

/-- The step at the cursor of a run is behind. -/
def Moment.HasLeft (m : Moment σ ε) (run : PlanRun) : Prop :=
  ∀ run', m.session.phase = .configuration run' → run'.cursor ≠ run.cursor

namespace Exchange

/-- No call was made, and nothing is on its way. -/
def start (settings : Settings) (line : σ) : Exchange σ ε :=
  ⟨.start settings line, [], [], none⟩

variable [SerialLine σ ε]

/-- The steps of session, module and link, in any order. -/
inductive Step (settings : Settings) : Exchange σ ε → Exchange σ ε → Prop
  /-- The protocol task is called. -/
  | protocol (x : Exchange σ ε) (now : Instant) (world : σ → σ) (alive : x.moment.Alive) :
      Step settings x { x with moment := x.moment.next settings (.protocol now world) }
  /-- The module answers a command that was sent to it and that it has not answered. -/
  | answer (x : Exchange σ ε) (a : Answer) (fresh : a.place ∉ x.answered)
      (sent : ∃ call, x.moment.line.performed[a.place]? = some call ∧
        call.Carries a.reply.command) :
      Step settings x { x with answered := a.place :: x.answered, inFlight := a :: x.inFlight }
  /-- An answer is lost. -/
  | lose (x : Exchange σ ε) (a : Answer) :
      Step settings x { x with inFlight := x.inFlight.erase a }
  /-- The receiving task is called.  The replies in the bytes that it drains are answers that were
  on their way; they arrive in any order, and `rest` has not arrived yet. -/
  | receive (x : Exchange σ ε) (world : σ → σ) (answers rest : List Answer)
      (alive : x.moment.Alive) (arrived : x.inFlight.Perm (answers ++ rest))
      (heard : x.moment.session.decoder.replies
        (SerialLine.drained (x.moment.line.alter world)) = answers.map Answer.heard) :
      Step settings x
        { moment := x.moment.next settings (.receive world)
          answered := x.answered
          inFlight := rest
          decider := (answers.foldl Answer.deliver (x.moment.session.tracker, x.decider)).2 }

/-- The exchanges that can come about. -/
def Reachable (settings : Settings) (line : σ) (x : Exchange σ ε) : Prop :=
  Relation.ReflTransGen (Step settings) (start settings line) x

/-- The reply that the tracker holds is the answer of the module to the command at a place, with a
verdict. -/
def DecidedBy (x : Exchange σ ε) (place : Nat) (verdict : ReplyState) : Prop :=
  ∃ a, x.decider = some a ∧ a.place = place ∧ a.verdict = verdict ∧ a.place ∈ x.answered

end Exchange

end GnssLink
