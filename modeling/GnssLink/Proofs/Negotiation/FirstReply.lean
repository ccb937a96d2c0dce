import Mathlib.Data.List.Basic
import GnssLink.Negotiation.Reply

/-!
# The first reply decides

From the moment at which a command is sent, the tracker follows the replies.  What becomes of the
command is the verdict of the first reply that names its id; earlier replies, replies that name
other ids, and later replies do not matter, and neither does the class that a reply names.

## Main definitions

* `Response` — a reply and whether it is positive.
* `ReplyTracker.take` — a reply arrives.
* `Response.first` — the verdict of the first reply that names an id.

## Main results

* `ReplyTracker.foldl_take_begin`, `ReplyTracker.foldl_take_first` — what becomes of a command.
-/

namespace GnssLink

/-- A reply to a command, and whether it is positive. -/
structure Response where
  positive : Bool
  reply : Reply
  deriving DecidableEq, Repr

namespace Response

/-- What becomes of the command that is answered. -/
def verdict (response : Response) : ReplyState :=
  if response.positive then .accepted else .refused

/-- What the first of some replies that names an id says, if there is one. -/
def first (id : UInt8) (responses : List Response) : Option ReplyState :=
  (responses.find? fun response => response.reply.command.id = id).map verdict

theorem verdict_ne_waiting (response : Response) : response.verdict ≠ .waiting := by
  unfold verdict
  split <;> exact fun h => nomatch h

/-- There is no such reply, or it is positive, or it is negative. -/
theorem first_cases (id : UInt8) (responses : List Response) :
    first id responses = none ∨ first id responses = some .accepted ∨
      first id responses = some .refused := by
  unfold first
  cases responses.find? fun response => response.reply.command.id = id with
  | none => exact .inl rfl
  | some response =>
    rw [Option.map_some, verdict]
    split
    · exact .inr (.inl rfl)
    · exact .inr (.inr rfl)

/-- Once a reply names the id, later replies do not matter. -/
theorem first_append {id : UInt8} {responses : List Response} {state : ReplyState}
    (h : first id responses = some state) (later : List Response) :
    first id (responses ++ later) = some state := by
  obtain ⟨response, hfound, hverdict⟩ := Option.map_eq_some_iff.1 h
  rw [first, List.find?_append, hfound, Option.some_or, Option.map_some, hverdict]

end Response

namespace ReplyTracker

/-- Once the command is decided, every reply is passed over. -/
theorem settle_of_ne {t : ReplyTracker} (h : t.state ≠ .waiting) (verdict : ReplyState)
    (reply : Reply) : t.settle verdict reply = t :=
  if_neg fun hmatch => h hmatch.1

/-- A reply arrives. -/
def take (t : ReplyTracker) (response : Response) : ReplyTracker :=
  if response.positive then t.accept response.reply else t.refuse response.reply

theorem take_eq_settle (t : ReplyTracker) (response : Response) :
    t.take response = t.settle response.verdict response.reply := by
  unfold take Response.verdict
  split <;> rfl

/-- A reply that names another id is passed over. -/
theorem take_of_ne {t : ReplyTracker} {response : Response}
    (h : response.reply.command.id ≠ t.awaited) : t.take response = t := by
  rw [take_eq_settle, settle, if_neg fun hmatch => h hmatch.2]

/-- **The first reply that names the id of the command decides.** -/
theorem foldl_take_begin (t : ReplyTracker) (id : UInt8) (responses : List Response) :
    responses.foldl take (t.begin id) = ⟨(Response.first id responses).getD .waiting, id⟩ := by
  induction responses with
  | nil => rfl
  | cons response responses ih =>
    rw [List.foldl_cons, Response.first]
    by_cases hid : response.reply.command.id = id
    · have hdecided : (t.begin id).take response = ⟨response.verdict, id⟩ := by
        rw [take_eq_settle, settle, if_pos ⟨rfl, hid⟩]
        rfl
      have hfixed : ∀ later, ReplyTracker.take ⟨response.verdict, id⟩ later =
          ⟨response.verdict, id⟩ := fun later => by
        rw [take_eq_settle, settle_of_ne response.verdict_ne_waiting]
      rw [hdecided, List.foldl_fixed' hfixed, List.find?_cons_of_pos (by simpa using hid)]
      rfl
    · rw [take_of_ne hid, ih, Response.first, List.find?_cons_of_neg (by simpa using hid)]

/-- A tracker that has followed some replies follows the later ones. -/
theorem foldl_take_first (id : UInt8) (earlier later : List Response) :
    later.foldl take ⟨(Response.first id earlier).getD .waiting, id⟩ =
      ⟨(Response.first id (earlier ++ later)).getD .waiting, id⟩ := by
  rw [← foldl_take_begin initial, ← foldl_take_begin initial, List.foldl_append]

end ReplyTracker

end GnssLink
