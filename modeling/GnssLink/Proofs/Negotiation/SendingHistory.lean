import GnssLink.Proofs.Command.Encoding
import GnssLink.Proofs.Consecutive
import GnssLink.Proofs.Negotiation.FirstReply
import GnssLink.Proofs.Negotiation.Sending

/-!
# The history of a sender

Commands of all kinds are sent over one line with one tracker, and replies arrive in between.  Some
commands do not fit the transmit buffer, and any write may fail.  Still the tracker can be told from
outside: it follows the last command that was encoded, whatever became of its write, and the first
reply behind it that names its id decides.

A command that is not encoded is as if it had not been sent.  So the turns fall into those up to the
last command that is encoded, which do not matter to the tracker, and those behind it, in which the
tracker takes the replies and nothing else (`Sender.tracker_after`).

## Main definitions

* `Command.Encodes`, `Command.frame` — a command that fits the transmit buffer, and its frame.
* `Sender`, `Sender.turn` — a line with a tracker, and what happens to them.
* `Sender.Turn.call` — the call that the line receives in a turn.
* `Sender.FollowsUp` — what is known of some turns.

## Main results

* `Command.encode_of_frame`, `Command.encode_of_none` — when a command is encoded, and how.
* `Command.Encodes.fits`, `Command.transmitted_of_frame` — what is encoded is written as a frame.
* `Sender.turn_of_error`, `Sender.turn_of_frame` — one command is sent.
* `Sender.calls_after`, `Sender.tracker_after` — the calls on the line, and the tracker.
* `Sender.followsUp` — the rule for all turns.
-/

namespace GnssLink

/-! ### Commands in the transmit buffer -/

namespace Command

variable {c : Command} {f : Frame}

/-- The command fits the transmit buffer. -/
def Encodes (c : Command) : Prop :=
  ∃ answer, c.encode (List.replicate transmitCapacity 0) = .ok answer

/-- The frame around the bytes that a command lays out in the area of the transmit buffer that is
for the payload.  There is none if the command is refused there or claims to be longer. -/
def frame (c : Command) : Option Frame :=
  match c.layOut (List.replicate maxCommandPayload 0) with
  | .ok (n, area) => if n ≤ maxCommandPayload then some ⟨c.type, area.take n⟩ else none
  | .error _ => none

/-- In the transmit buffer the area for the payload stands between header and checksum. -/
theorem encode_transmit (c : Command) :
    c.encode (List.replicate transmitCapacity 0) =
      match c.layOut (List.replicate maxCommandPayload 0) with
      | .error e => .error e
      | .ok (n, area) => Frame.finish c.type n (List.replicate Frame.headerLength 0 ++
          (area ++ List.replicate Frame.checksumLength 0)) := by
  have hparts : List.replicate transmitCapacity (0 : UInt8) =
      List.replicate Frame.headerLength 0 ++
        (List.replicate maxCommandPayload 0 ++ List.replicate Frame.checksumLength 0) := by
    rw [List.replicate_append_replicate, List.replicate_append_replicate]
    rfl
  rw [hparts]
  exact c.encode_append List.length_replicate List.length_replicate

/-- A command that has a frame is encoded into it. -/
theorem encode_of_frame (h : c.frame = some f) : f.type = c.type ∧ ∃ behind,
    c.encode (List.replicate transmitCapacity 0) = .ok (f.wire.length, f.wire ++ behind) := by
  rw [frame] at h
  split at h
  case h_2 => cases h
  case h_1 n area hlaid =>
    obtain ⟨hle, hframe⟩ := Option.ite_none_right_eq_some.1 h
    obtain rfl := Option.some.inj hframe
    have harea : n ≤ area.length := by
      rwa [c.length_layOut hlaid, List.length_replicate]
    -- the area is the payload and what is behind it
    obtain ⟨payload, behind, rfl, rfl⟩ : ∃ payload behind, area = payload ++ behind ∧
        payload.length = n :=
      ⟨area.take n, area.drop n, (List.take_append_drop n area).symm, List.length_take_of_le harea⟩
    have hlt : payload.length < UInt16.size := Nat.lt_of_le_of_lt hle (by decide)
    have hbehind : Frame.checksumLength ≤
        (behind ++ List.replicate Frame.checksumLength 0).length := by
      rw [List.length_append, List.length_replicate]
      exact Nat.le_add_left _ _
    refine ⟨rfl, (behind ++ List.replicate Frame.checksumLength 0).drop Frame.checksumLength, ?_⟩
    rw [encode_transmit, hlaid, Frame.length_wire, List.take_left]
    simp only [List.append_assoc]
    exact Frame.finish_eq List.length_replicate hlt hbehind

/-- A command that has no frame is refused. -/
theorem encode_of_none (h : c.frame = none) :
    ∃ e, c.encode (List.replicate transmitCapacity 0) = .error e := by
  rw [encode_transmit]
  rw [frame] at h
  split at h
  case h_2 e hrefused => exact ⟨e, by rw [hrefused]⟩
  case h_1 n area hlaid =>
    have hlong : ¬ n ≤ maxCommandPayload := fun hle => by
      rw [if_pos hle] at h
      cases h
    have harea : area.length = maxCommandPayload := by
      rw [c.length_layOut hlaid, List.length_replicate]
    have hfits : ¬ Frame.FitsInto n (List.replicate Frame.headerLength 0 ++
        (area ++ List.replicate Frame.checksumLength 0)) := by
      simp only [Frame.FitsInto, Frame.wireLength, List.length_append, List.length_replicate, harea]
      omega
    exact ⟨.bufferTooSmall, by rw [hlaid]; exact Frame.finish_error hfits⟩

/-- A command fits the transmit buffer if and only if it has a frame. -/
theorem encodes_iff : c.Encodes ↔ ∃ f, c.frame = some f := by
  constructor
  · rintro ⟨answer, hanswer⟩
    refine Option.ne_none_iff_exists'.1 fun hnone => ?_
    obtain ⟨e, he⟩ := encode_of_none hnone
    cases he.symm.trans hanswer
  · rintro ⟨f, hframe⟩
    obtain ⟨-, behind, hencode⟩ := encode_of_frame hframe
    exact ⟨_, hencode⟩

/-- The longest payload of a command has sixty bytes. -/
example : (ofFields .monVer [List.replicate 60 0]).frame.isSome ∧
    (ofFields .monVer [List.replicate 61 0]).frame = none := by decide

/-- A command that has a frame is written in it. -/
theorem transmitted_of_frame (h : c.frame = some f) : c.transmitted = f.wire := by
  obtain ⟨-, behind, hencode⟩ := encode_of_frame h
  simp only [transmitted, hencode, List.take_left]

/-- What is written for a command that is encoded is always a frame. -/
theorem Encodes.fits (h : c.Encodes) : c.Fits := by
  obtain ⟨f, hframe⟩ := encodes_iff.1 h
  obtain ⟨htype, behind, hencode⟩ := encode_of_frame hframe
  refine ⟨_, _, hencode, f.payload, ?_⟩
  rw [transmitted_of_frame hframe, ← htype]

theorem encode_of_not_encodes (h : ¬ c.Encodes) :
    ∃ e, c.encode (List.replicate transmitCapacity 0) = .error e := by
  cases hencode : c.encode (List.replicate transmitCapacity 0) with
  | error e => exact ⟨e, rfl⟩
  | ok answer => exact absurd ⟨answer, hencode⟩ h

end Command

/-! ### Turns of a sender -/

/-- A line, and the tracker of the commands that are sent over it. -/
structure Sender (σ : Type) where
  tracker : ReplyTracker
  line : Recorder σ

namespace Sender

open Consecutive (answers after)

/-- What happens to a sender: a command is sent, a reply arrives, or the world acts on the line. -/
inductive Turn (σ : Type) where
  | send (c : Command)
  | reply (response : Response)
  | world (act : σ → σ)

variable {σ ε : Type}

/-- Before the first turn. -/
def start (line : σ) : Sender σ :=
  ⟨.initial, .ofLine line⟩

/-- The replies among some turns, in order. -/
def replies (turns : List (Turn σ)) : List Response :=
  turns.filterMap fun
    | .reply response => some response
    | _ => none

/-- The call that the line receives in a turn that had an answer: a command that has a frame is
written in it, with the success that was answered.  Nothing else calls the line. -/
def Turn.call : Turn σ × Option (Except (SendError ε) Unit) → Option LineCall
  | (.send c, some result) => c.frame.map fun f => .write f.wire result.isOk
  | _ => none

variable [SerialLine σ ε]

/-- One turn.  Only sending a command has an answer. -/
def turn (t : Turn σ) : StateM (Sender σ) (Option (Except (SendError ε) Unit)) := fun s =>
  match t with
  | .send c =>
    let (result, tracker, line) := c.send s.tracker s.line
    (some result, ⟨tracker, line⟩)
  | .reply response => (none, { s with tracker := s.tracker.take response })
  | .world act => (none, { s with line := s.line.alter act })

variable {c : Command} {s : Sender σ}

/-- A command that is not encoded changes nothing. -/
theorem turn_of_error {e : SerializationError}
    (h : c.encode (List.replicate transmitCapacity 0) = .error e) :
    turn (.send c) s = (some (.error (.serialization e)), s) := by
  simp only [turn, Command.send, h]

/-- A command that has a frame is one write of it.  The reply is waited for also if the write
fails. -/
theorem turn_of_frame {f : Frame} (h : c.frame = some f) :
    turn (.send c) s =
      (some ((SerialLine.write s.line f.wire).1.mapError .send),
        ⟨s.tracker.begin c.type.id, (SerialLine.write s.line f.wire).2⟩) := by
  have hfits : c.Fits := (Command.encodes_iff.2 ⟨f, h⟩).fits
  rcases hsend : c.send s.tracker s.line with ⟨result, tracker, line⟩
  obtain ⟨rfl, written, hwrite, rfl⟩ := hfits.send_state hsend
  rw [Command.transmitted_of_frame h] at hwrite
  simp only [turn, hsend, hwrite]

/-- A turn appends its call to those on the line. -/
theorem calls_turn (t : Turn σ) (s : Sender σ) :
    (turn t s).2.line.calls = s.line.calls ++ (Turn.call (t, (turn t s).1)).toList := by
  cases t with
  | reply response => exact (List.append_nil _).symm
  | world act => exact (List.append_nil _).symm
  | send c =>
    cases hframe : c.frame with
    | none =>
      obtain ⟨e, he⟩ := Command.encode_of_none hframe
      rw [turn_of_error he, Turn.call, hframe]
      exact (List.append_nil _).symm
    | some f =>
      rw [turn_of_frame hframe, Turn.call, hframe]
      show s.line.calls ++ [.write f.wire (SerialLine.write s.line.line f.wire).1.isOk] =
        s.line.calls ++ [.write f.wire ((SerialLine.write s.line.line f.wire).1.mapError _).isOk]
      cases (SerialLine.write s.line.line f.wire).1 <;> rfl

/-- **The calls on the line** are those of the turns, in order. -/
theorem calls_after (s : Sender σ) (turns : List (Turn σ)) :
    (after turn s turns).line.calls =
      s.line.calls ++ (turns.zip (answers turn s turns)).filterMap Turn.call := by
  induction turns generalizing s with
  | nil => exact (List.append_nil _).symm
  | cons t turns ih =>
    rw [Consecutive.after_cons, ih, calls_turn, Consecutive.answers_cons, List.zip_cons_cons,
      List.filterMap_cons, List.append_assoc]
    cases Turn.call (t, (turn t s).1) <;> rfl

/-- **While no command is encoded, the tracker takes the replies** and nothing else. -/
theorem tracker_after {turns : List (Turn σ)} (h : ∀ c, .send c ∈ turns → ¬ c.Encodes)
    (s : Sender σ) :
    (after turn s turns).tracker = (replies turns).foldl ReplyTracker.take s.tracker := by
  induction turns generalizing s with
  | nil => rfl
  | cons t turns ih =>
    have hlater : ∀ c, .send c ∈ turns → ¬ c.Encodes := fun c hc => h c (List.mem_cons_of_mem _ hc)
    rw [Consecutive.after_cons, ih hlater]
    cases t with
    | reply response => rfl
    | world act => rfl
    | send c =>
      obtain ⟨e, he⟩ := Command.encode_of_not_encodes (h c List.mem_cons_self)
      rw [turn_of_error he]
      rfl

/-- A tracker that no command was sent with passes over every reply. -/
theorem foldl_take_initial (responses : List Response) :
    responses.foldl ReplyTracker.take .initial = .initial :=
  List.foldl_fixed' (fun response => by
    rw [ReplyTracker.take_eq_settle, ReplyTracker.settle_of_ne (by decide)]) responses

/-! ### The whole rule -/

/-- What is known of the answers to some turns, and of the sender behind them. -/
structure FollowsUp (line : σ) (turns : List (Turn σ))
    (given : List (Option (Except (SendError ε) Unit))) (s : Sender σ) : Prop where
  /-- A command that is not encoded changes nothing, neither on the line nor in the tracker. -/
  refused : ∀ early c late e, turns = early ++ .send c :: late →
    c.encode (List.replicate transmitCapacity 0) = .error e →
    given[early.length]? = some (some (.error (.serialization e))) ∧
      after turn (start line) (early ++ [.send c]) = after turn (start line) early
  /-- Every other command is one write of its whole frame, and the answer is that of the line. -/
  written : ∀ early c late n buffer, turns = early ++ .send c :: late →
    c.encode (List.replicate transmitCapacity 0) = .ok (n, buffer) →
    ∃ f, c.frame = some f ∧ f.type = c.type ∧ f.wire = buffer.take n ∧ ∀ result line',
      SerialLine.write (after turn (start line) early).line.line f.wire = (result, line') →
      given[early.length]? = some (some (result.mapError .send)) ∧
        (after turn (start line) (early ++ [.send c])).line =
          ⟨line', (after turn (start line) early).line.calls ++ [.write f.wire result.isOk]⟩
  /-- Nothing else is written. -/
  calls : s.line.calls = (turns.zip given).filterMap Turn.call
  /-- The tracker is idle as long as no command is encoded. -/
  idle : (∀ c, .send c ∈ turns → ¬ c.Encodes) → s.tracker = .initial
  /-- After that it has the id of the last command that was encoded, whether it was written or not,
  and the first reply behind this command that names the id decides. -/
  followed : ∀ early c late, turns = early ++ .send c :: late → c.Encodes →
    (∀ later, .send later ∈ late → ¬ later.Encodes) →
    s.tracker = ⟨(Response.first c.type.id (replies late)).getD .waiting, c.type.id⟩

/-- **The last command that was encoded is followed up**, over any line. -/
theorem followsUp (line : σ) (turns : List (Turn σ)) :
    FollowsUp line turns (answers turn (start line) turns) (after turn (start line) turns) := by
  refine ⟨?refused, ?written, calls_after _ turns, ?idle, ?followed⟩
  case refused =>
    rintro early c late e rfl he
    rw [Consecutive.getElem?_answers, Consecutive.after_concat, turn_of_error he]
    exact ⟨rfl, rfl⟩
  case written =>
    rintro early c late n buffer rfl hencoded
    obtain ⟨f, hframe⟩ := Command.encodes_iff.1 ⟨_, hencoded⟩
    obtain ⟨htype, behind, hbuffer⟩ := Command.encode_of_frame hframe
    obtain ⟨rfl, rfl⟩ := Prod.mk.inj (Except.ok.inj (hbuffer.symm.trans hencoded))
    refine ⟨f, hframe, htype, List.take_left.symm, fun result line' hwrite => ?_⟩
    obtain ⟨rfl, rfl⟩ := Prod.mk.inj hwrite
    rw [Consecutive.getElem?_answers, Consecutive.after_concat, turn_of_frame hframe]
    exact ⟨rfl, rfl⟩
  case idle =>
    intro hnone
    rw [tracker_after hnone]
    exact foldl_take_initial _
  case followed =>
    rintro early c late rfl hencodes hlater
    obtain ⟨f, hframe⟩ := Command.encodes_iff.1 hencodes
    rw [Consecutive.after_append, Consecutive.after_cons, tracker_after hlater,
      turn_of_frame hframe]
    exact ReplyTracker.foldl_take_begin (after turn (start line) early).tracker _ _

end Sender

end GnssLink
