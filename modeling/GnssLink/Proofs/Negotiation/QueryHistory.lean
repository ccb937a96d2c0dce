import GnssLink.Proofs.Negotiation.FirstReply
import GnssLink.Proofs.Negotiation.Remaining

/-!
# The history of a version query

A version query is polled over a line that may fail at any write and at any readings of the clock;
version reports and replies arrive at any time between the polls.  After a failure the query is
polled again like after a wait.  Still at most two requests are written; the second one is not
attempted before the first went unanswered; and the query ends only with a generation that is known,
or because the second request went unanswered as well.

An observer keeps the instants at which a request was written.  The number of attempts is the number
of these instants, so it is at most two and never wraps (`QueryMoment.Consistent`).

## Main definitions

* `QueryMoment`, `QueryMoment.next`, `QueryMoment.after` — a query with all that takes part in it.
* `QueryMoment.Consistent` — what the query has to do with the requests that were written.
* `QueryMoment.Rules` — what the next poll does.

## Main results

* `QueryMoment.Consistent.after` — the invariant holds after all events.
* `QueryMoment.asks_by_rules` — every poll keeps to the rules.
-/

namespace GnssLink

/-! ### Moments of a query -/

/-- A query with all that takes part in it, and the result of the last poll.  The last entry is seen
from outside: the instants at which a request was written. -/
structure QueryMoment (σ ε : Type) where
  query : VersionQuery
  known : Capabilities
  tracker : ReplyTracker
  line : Recorder σ
  result : Option (Except (NegotiationError ε) Progress)
  writtenAt : List Instant

/-- What happens to a query: a version report or a reply arrives, or the query is polled, after the
world acted on the line. -/
inductive QueryEvent (σ : Type) where
  | report (v : VersionReport)
  | reply (response : Response)
  | poll (now : Instant) (world : σ → σ)

/-- Something arrives. -/
def QueryEvent.Arrives {σ : Type} : QueryEvent σ → Prop
  | .report _ | .reply _ => True
  | .poll _ _ => False

variable {σ ε : Type}

namespace QueryMoment

/-- Before the first event. -/
def start (known : Capabilities) (tracker : ReplyTracker) (line : σ) : QueryMoment σ ε :=
  ⟨.start, known, tracker, .ofLine line, none, []⟩

/-! ### What a poll can come to -/

/-- A poll writes a request: none is waited for, or the last one went unanswered and another one is
left. -/
def Asks (m : QueryMoment σ ε) (now : Instant) : Prop :=
  m.query.sentAt = none ∨
    m.query.Unanswered m.known now ∧ m.query.attempts < Timing.versionAttempts

/-- What a poll can come to.  It rests, because of the generation, the wait or the number of
requests; or it writes a request, or it fails to. -/
inductive Turn (m : QueryMoment σ ε) (now : Instant) (m' : QueryMoment σ ε) : Prop
  | rests (progress : Progress) (sentAt : Instant) (sent : m.query.sentAt = some sentAt)
      (ends : progress = .ready → m.known.generation ≠ .unknown ∨
        m.query.Unanswered m.known now ∧ Timing.versionAttempts ≤ m.query.attempts)
      (calls : m'.line.calls = m.line.calls)
      (same : m' = { m with line := m'.line, result := some (.ok progress) })
  | writes (asks : m.Asks now)
      (calls : m'.line.calls = m.line.calls ++ [VersionQuery.requestCall])
      (same : m' = ⟨⟨m.query.attempts + 1, some now⟩, m.known,
        m.tracker.begin versionRequest.type.id, m'.line,
        some (.ok (if m.known.generation = .unknown then .pending else .ready)),
        m.writtenAt ++ [now]⟩)
  | fails (asks : m.Asks now) (e : NegotiationError ε)
      (calls : m'.line.calls = m.line.calls ++ [.write versionRequest.transmitted false])
      (same : m' = ⟨{ m.query with sentAt := none }, m.known,
        m.tracker.begin versionRequest.type.id, m'.line, some (.error e), m.writtenAt⟩)

variable {m m' : QueryMoment σ ε} {now : Instant}

/-- A poll attempts at most one write, of the request. -/
theorem Turn.calls (hturn : m.Turn now m') :
    m'.line.calls = m.line.calls ∨
      ∃ ok, m'.line.calls = m.line.calls ++ [.write versionRequest.transmitted ok] := by
  cases hturn with
  | rests _ _ _ _ hcalls => exact .inl hcalls
  | writes _ hcalls => exact .inr ⟨true, hcalls⟩
  | fails _ _ hcalls => exact .inr ⟨false, hcalls⟩

/-- A poll fails if and only if the write does. -/
theorem Turn.failed_iff (hturn : m.Turn now m') :
    (∃ e, m'.result = some (.error e)) ↔
      m'.line.calls = m.line.calls ++ [.write versionRequest.transmitted false] := by
  cases hturn with
  | rests _ _ _ _ hcalls hsame =>
    rw [hsame, hcalls]
    exact iff_of_false (fun ⟨_, h⟩ => nomatch h)
      fun h => List.cons_ne_nil _ _ (List.append_right_eq_self.1 h.symm)
  | writes _ hcalls hsame =>
    rw [hsame, hcalls]
    refine iff_of_false (fun ⟨_, h⟩ => nomatch h) fun h => ?_
    have hcall := List.singleton_inj.1 (List.append_cancel_left h)
    cases hcall
  | fails _ e hcalls hsame =>
    rw [hsame]
    exact iff_of_true ⟨e, rfl⟩ hcalls

/-- After a failure as many requests were written as before, and none is waited for. -/
theorem Turn.of_failed (hturn : m.Turn now m') (hfailed : ∃ e, m'.result = some (.error e)) :
    m'.query = { m.query with sentAt := none } ∧ m'.line.performed = m.line.performed ∧
      m'.writtenAt = m.writtenAt := by
  obtain ⟨e, herror⟩ := hfailed
  cases hturn with
  | rests _ _ _ _ _ hsame | writes _ _ hsame =>
    rw [hsame] at herror
    cases herror
  | fails _ _ hcalls hsame =>
    exact ⟨by rw [hsame], Recorder.performed_of_not_ok hcalls rfl, by rw [hsame]⟩

/-- A poll that asks attempts the write. -/
theorem Turn.calls_of_asks (hturn : m.Turn now m') (hunsent : m.query.sentAt = none) :
    ∃ ok, m'.line.calls = m.line.calls ++ [.write versionRequest.transmitted ok] := by
  cases hturn with
  | rests _ _ hsent =>
    rw [hunsent] at hsent
    cases hsent
  | writes _ hcalls => exact ⟨true, hcalls⟩
  | fails _ _ hcalls => exact ⟨false, hcalls⟩

/-! ### The invariant -/

/-- What a query has to do with the requests that were written: it counts them, it waits for the
answer to the last one, and another one is left while it waits for none. -/
structure Consistent (m : QueryMoment σ ε) : Prop where
  attempts : m.query.attempts.toNat = m.writtenAt.length
  atMostTwo : m.query.attempts ≤ Timing.versionAttempts
  performed : m.line.performed = List.replicate m.writtenAt.length VersionQuery.requestCall
  waiting : ∀ sentAt, m.query.sentAt = some sentAt → m.writtenAt.getLast? = some sentAt
  unsent : m.query.sentAt = none →
    m.query.attempts < Timing.versionAttempts ∧
      m.line.calls.getLast? ≠ some VersionQuery.requestCall

theorem consistent_start (known : Capabilities) (tracker : ReplyTracker) (line : σ) :
    (start known tracker line : QueryMoment σ ε).Consistent where
  attempts := rfl
  atMostTwo := UInt8.le_of_lt (by decide : (0 : UInt8) < 2)
  performed := rfl
  waiting := fun _ h => nomatch h
  unsent := fun _ => ⟨(by decide : (0 : UInt8) < 2), fun h => nomatch h⟩

namespace Consistent

/-- A query that asks has a request left. -/
theorem attempts_lt (h : m.Consistent) (hasks : m.Asks now) :
    m.query.attempts < Timing.versionAttempts :=
  hasks.elim (fun hunsent => (h.unsent hunsent).1) And.right

/-- The counter does not wrap. -/
theorem toNat_succ (h : m.Consistent) (hasks : m.Asks now) :
    (m.query.attempts + 1).toNat = m.query.attempts.toNat + 1 := by
  have hlt : m.query.attempts.toNat < 2 := UInt8.lt_iff_toNat_lt.1 (h.attempts_lt hasks)
  rw [UInt8.toNat_add]
  exact Nat.mod_eq_of_lt (Nat.lt_of_le_of_lt (Nat.succ_le_of_lt hlt) (by decide))

/-- The request that is waited for was written last. -/
theorem unanswered (h : m.Consistent) (hover : m.query.Unanswered m.known now) :
    ∃ last, m.writtenAt.getLast? = some last ∧ m.known.generation = .unknown ∧
      Timing.commandWait.toMicros ≤ now.since last := by
  obtain ⟨sentAt, hsent, hunknown, hlate⟩ := hover
  exact ⟨sentAt, h.waiting sentAt hsent, hunknown, hlate⟩

/-- The invariant after a poll. -/
theorem of_turn (h : m.Consistent) (hturn : m.Turn now m') : m'.Consistent := by
  cases hturn with
  | rests progress sentAt hsent _ hcalls hsame =>
    have hperformed := Recorder.performed_congr hcalls
    rw [hsame]
    exact ⟨h.attempts, h.atMostTwo, hperformed.trans h.performed, h.waiting,
      fun hunsent => nomatch hsent.symm.trans hunsent⟩
  | writes hasks hcalls hsame =>
    have hcount := h.toNat_succ hasks
    have hperformed := Recorder.performed_of_ok hcalls rfl
    have hlt : m.query.attempts.toNat < 2 := UInt8.lt_iff_toNat_lt.1 (h.attempts_lt hasks)
    rw [hsame]
    constructor
    case attempts => rw [hcount, h.attempts, List.length_append, List.length_singleton]
    case atMostTwo =>
      rw [UInt8.le_iff_toNat_le, hcount]
      exact Nat.succ_le_of_lt hlt
    case performed =>
      rw [hperformed, h.performed, List.length_append, List.length_singleton,
        List.replicate_succ']
    case waiting =>
      rintro sentAt hsent
      obtain rfl := Option.some.inj hsent
      exact List.getLast?_concat
    case unsent => exact fun hunsent => nomatch hunsent
  | fails hasks e hcalls hsame =>
    have hperformed : m'.line.performed = m.line.performed :=
      Recorder.performed_of_not_ok hcalls rfl
    rw [hsame]
    refine ⟨h.attempts, h.atMostTwo, hperformed.trans h.performed, ?_,
      fun _ => ⟨h.attempts_lt hasks, ?_⟩⟩
    · exact fun _ hsent => nomatch hsent
    · rw [hcalls, List.getLast?_concat]
      exact fun hcall => nomatch hcall

/-- The second request is not attempted before the first one went unanswered. -/
theorem second_of_turn (h : m.Consistent) (hturn : m.Turn now m') {first : Instant}
    (hfirst : m.writtenAt = [first])
    (hlast : m.line.calls.getLast? = some VersionQuery.requestCall)
    (hcalls : m'.line.calls ≠ m.line.calls) :
    m.known.generation = .unknown ∧ Timing.commandWait.toMicros ≤ now.since first := by
  have hover : m.Asks now → m.known.generation = .unknown ∧
      Timing.commandWait.toMicros ≤ now.since first := by
    rintro (hunsent | ⟨hover, -⟩)
    · exact absurd hlast (h.unsent hunsent).2
    · obtain ⟨last, hwritten, hunknown, hlate⟩ := h.unanswered hover
      rw [hfirst] at hwritten
      obtain rfl := Option.some.inj hwritten
      exact ⟨hunknown, hlate⟩
  cases hturn with
  | rests _ _ _ _ hsame => exact absurd hsame hcalls
  | writes hasks | fails hasks => exact hover hasks

/-- The query ends with a known generation after a request, or because the second request went
unanswered as well. -/
theorem ready_of_turn (h : m.Consistent) (hturn : m.Turn now m')
    (hready : m'.result = some (.ok .ready)) :
    (m.known.generation ≠ .unknown ∧ m'.writtenAt ≠ []) ∨
    ∃ first second, m'.writtenAt = [first, second] ∧
      Timing.commandWait.toMicros ≤ now.since second := by
  cases hturn with
  | rests progress sentAt hsent hends _ hsame =>
    have hwritten := h.waiting sentAt hsent
    rw [hsame] at hready ⊢
    obtain rfl : progress = .ready := Except.ok.inj (Option.some.inj hready)
    rcases hends rfl with hknown | ⟨hover, hlast⟩
    · refine .inl ⟨hknown, fun hnil => ?_⟩
      rw [show m.writtenAt = [] from hnil] at hwritten
      cases hwritten
    · obtain ⟨last, hlast', -, hlate⟩ := h.unanswered hover
      have htwo : m.writtenAt.length = 2 := by
        rw [← h.attempts, UInt8.le_antisymm h.atMostTwo hlast]
        rfl
      obtain ⟨first, second, hboth⟩ := List.length_eq_two.1 htwo
      rw [hboth] at hlast'
      obtain rfl : second = last := Option.some.inj hlast'
      exact .inr ⟨first, second, hboth, hlate⟩
  | writes hasks _ hsame =>
    rw [hsame] at hready ⊢
    refine .inl ⟨fun hunknown => ?_, List.append_ne_nil_of_right_ne_nil _ (List.cons_ne_nil _ _)⟩
    rw [if_pos hunknown] at hready
    cases hready
  | fails _ _ _ hsame =>
    rw [hsame] at hready
    cases hready

end Consistent

/-! ### Events -/

variable [SerialLine σ ε]

/-- After another event. -/
def next (m : QueryMoment σ ε) : QueryEvent σ → QueryMoment σ ε
  | .report v => { m with known := m.known.learn v }
  | .reply response => { m with tracker := m.tracker.take response }
  | .poll now world =>
    let (result, query, tracker, line) :=
      m.query.poll now m.known m.tracker (m.line.alter world)
    { m with
      query, tracker, line, result := some result
      writtenAt := m.writtenAt ++ if line.performed = m.line.performed then [] else [now] }

/-- After several events. -/
def after (m : QueryMoment σ ε) (events : List (QueryEvent σ)) : QueryMoment σ ε :=
  events.foldl next m

/-- A poll comes to one of these. -/
theorem turn (m : QueryMoment σ ε) (now : Instant) (world : σ → σ) :
    m.Turn now (m.next (.poll now world)) := by
  rcases hpoll : m.query.poll now m.known m.tracker (m.line.alter world) with
    ⟨result, query, tracker, line⟩
  rcases VersionQuery.poll_state hpoll with ⟨⟨sentAt, hsent, hresult⟩, rfl, rfl, rfl⟩ |
    ⟨hasks, hrequest⟩
  · have hsame : ∀ p, result = .ok p → m.next (.poll now world) =
        { m with line := m.line.alter world, result := some (.ok p) } := by
      rintro p rfl
      have hperformed : (m.line.alter world).performed = m.line.performed :=
        Recorder.performed_congr rfl
      simp only [next, hpoll, if_pos hperformed, List.append_nil]
    rcases hresult with ⟨hknown, hready⟩ | ⟨-, -, hpending⟩ | ⟨hover, hlast, hready⟩
    · rw [hsame _ hready]
      exact .rests .ready sentAt hsent (fun _ => .inl hknown) rfl rfl
    · rw [hsame _ hpending]
      exact .rests .pending sentAt hsent (fun hready => nomatch hready) rfl rfl
    · rw [hsame _ hready]
      exact .rests .ready sentAt hsent (fun _ => .inr ⟨hover, hlast⟩) rfl rfl
  · obtain ⟨rfl, ⟨rfl, rfl, hcalls⟩ | ⟨e, rfl, rfl, hcalls⟩⟩ := VersionQuery.request_cases hrequest
    · have hperformed : line.performed = m.line.performed ++ [VersionQuery.requestCall] :=
        Recorder.performed_of_ok hcalls rfl
      have hchanged : line.performed ≠ m.line.performed := by
        rw [hperformed]
        exact fun hsame => List.cons_ne_nil _ _ (List.append_right_eq_self.1 hsame)
      simp only [next, hpoll, if_neg hchanged]
      exact .writes hasks hcalls rfl
    · have hperformed : line.performed = m.line.performed :=
        Recorder.performed_of_not_ok hcalls rfl
      simp only [next, hpoll, if_pos hperformed, List.append_nil]
      exact .fails hasks e hcalls rfl

namespace Consistent

theorem next (h : m.Consistent) (event : QueryEvent σ) : (m.next event).Consistent := by
  cases event with
  | report v => exact ⟨h.attempts, h.atMostTwo, h.performed, h.waiting, h.unsent⟩
  | reply response => exact ⟨h.attempts, h.atMostTwo, h.performed, h.waiting, h.unsent⟩
  | poll now world => exact h.of_turn (m.turn now world)

/-- **The invariant holds after all events.** -/
theorem after (h : m.Consistent) (events : List (QueryEvent σ)) : (m.after events).Consistent := by
  induction events generalizing m with
  | nil => exact h
  | cons event events ih => exact ih (h.next event)

end Consistent

/-! ### What every poll does -/

/-- What a poll has to do with the requests. -/
structure Rules (m : QueryMoment σ ε) (now : Instant) (m' : QueryMoment σ ε) : Prop where
  /-- The attempts are the requests that were written, and at most two. -/
  counts : m'.line.performed = List.replicate m'.query.attempts.toNat VersionQuery.requestCall ∧
    m'.writtenAt.length = m'.query.attempts.toNat ∧
    m'.query.attempts ≤ Timing.versionAttempts
  /-- At most one write is attempted, of the request. -/
  atMostOne : m'.line.calls = m.line.calls ∨
    ∃ ok, m'.line.calls = m.line.calls ++ [.write versionRequest.transmitted ok]
  /-- The second request is not attempted before the first one went unanswered. -/
  second : ∀ first, m.writtenAt = [first] →
    m.line.calls.getLast? = some VersionQuery.requestCall → m'.line.calls ≠ m.line.calls →
      m.known.generation = .unknown ∧ Timing.commandWait.toMicros ≤ now.since first
  /-- The query ends with a known generation after a request, or because the second request went
  unanswered as well. -/
  ready : m'.result = some (.ok .ready) →
    (m.known.generation ≠ .unknown ∧ m'.writtenAt ≠ []) ∨
    ∃ first second, m'.writtenAt = [first, second] ∧
      Timing.commandWait.toMicros ≤ now.since second
  /-- A poll fails if and only if the write does. -/
  failed : (∃ e, m'.result = some (.error e)) ↔
    m'.line.calls = m.line.calls ++ [.write versionRequest.transmitted false]
  /-- A failure takes no attempt. -/
  notCounted : (∃ e, m'.result = some (.error e)) →
    m'.query.attempts = m.query.attempts ∧ m'.line.performed = m.line.performed
  /-- After a failure, whatever arrives, the next poll attempts the same write. -/
  again : (∃ e, m'.result = some (.error e)) →
    ∀ events : List (QueryEvent σ), (∀ event ∈ events, event.Arrives) → ∀ now world, ∃ ok,
      ((m'.after events).next (.poll now world)).line.calls =
        m'.line.calls ++ [.write versionRequest.transmitted ok]

/-- What arrives changes neither the query nor the line. -/
theorem after_of_arrives (m : QueryMoment σ ε) {events : List (QueryEvent σ)}
    (h : ∀ event ∈ events, event.Arrives) :
    (m.after events).query = m.query ∧ (m.after events).line = m.line := by
  induction events generalizing m with
  | nil => exact ⟨rfl, rfl⟩
  | cons event events ih =>
    obtain ⟨hevent, hrest⟩ := List.forall_mem_cons.1 h
    obtain ⟨hquery, hline⟩ := ih (m.next event) hrest
    cases event with
    | report v | reply response => exact ⟨hquery, hline⟩
    | poll now world => cases hevent

namespace Consistent

/-- A poll of a consistent query keeps to the rules. -/
theorem rules (h : m.Consistent) (now : Instant) (world : σ → σ) :
    m.Rules now (m.next (.poll now world)) := by
  have hturn := m.turn now world
  have hnext := h.next (.poll now world)
  constructor
  case counts =>
    exact ⟨by rw [hnext.attempts]; exact hnext.performed, hnext.attempts.symm, hnext.atMostTwo⟩
  case atMostOne => exact hturn.calls
  case second => exact fun first => h.second_of_turn hturn
  case ready => exact h.ready_of_turn hturn
  case failed => exact hturn.failed_iff
  case notCounted =>
    intro hfailed
    obtain ⟨hquery, hperformed, -⟩ := hturn.of_failed hfailed
    exact ⟨by rw [hquery], hperformed⟩
  case again =>
    intro hfailed events harrive now' world'
    obtain ⟨hquery, -⟩ := hturn.of_failed hfailed
    obtain ⟨hsame, hline⟩ := after_of_arrives (m.next (.poll now world)) harrive
    have hunsent : ((m.next (.poll now world)).after events).query.sentAt = none := by
      rw [hsame, hquery]
    obtain ⟨ok, hcalls⟩ := (turn _ now' world').calls_of_asks hunsent
    exact ⟨ok, by rw [hcalls, hline]⟩

end Consistent

/-- **What every poll of a version query does.**  From the start of a query, after any reports,
replies and polls, at any instants and over a line that may fail at any time, the next poll keeps to
the rules. -/
theorem asks_by_rules (known : Capabilities) (tracker : ReplyTracker) (line : σ)
    (events : List (QueryEvent σ)) (now : Instant) (world : σ → σ) :
    Rules ((start known tracker line : QueryMoment σ ε).after events) now
      (((start known tracker line).after events).next (.poll now world)) :=
  ((consistent_start known tracker line).after events).rules now world

end QueryMoment

end GnssLink
