import Mathlib.Data.List.Basic
import GnssLink.Negotiation.PlanRun
import GnssLink.Proofs.Frame.RoundTrip
import GnssLink.Proofs.Link.Replies
import GnssLink.Proofs.Message.Parsing
import GnssLink.Proofs.Negotiation.FirstReply

/-!
# A module that answers

Between two ticks a module sends whole frames.  If a command was sent in the tick before, it answers
this command, and it sends no other reply.  It may refuse what the step allows to be refused, and it
may stay silent where silence is allowed.

Then at the next tick the answer is there: either the step is complete, or the module has stayed
silent as it may.

## Main definitions

* `PlanStep.AnsweredBy` — a frame that may answer the command of a step.
* `Answered` — what the module sends between two ticks.

## Main results

* `Decoder.replies_wire` — the replies in whole frames.
* `Answered.hear_own` — the step is complete, or the module stays silent as it may.
* `Answered.hear_none` — without a command the tracker stays as it is.
-/

namespace GnssLink

/-! ### Replies in whole frames -/

/-- Only a message of the class of replies is read as one. -/
theorem Message.cls_of_asReply {type : MessageType} {payload : Bytes} {m : Message}
    (h : Message.parse type payload = .ok m) (hreply : m.asReply ≠ none) :
    type.cls = MessageType.ackAck.cls := by
  obtain ⟨rfl, -⟩ := type_of_parse h
  cases m
  case accepted | refused => rfl
  all_goals exact absurd rfl hreply

/-- The reply that a frame is, with the verdict of the receiver. -/
def Frame.asReply (f : Frame) : Option (ReplyState × Reply) :=
  (Outcome.frame f).asReply

theorem Frame.asReply_of_cls {f : Frame} (h : f.type.cls ≠ MessageType.ackAck.cls) :
    f.asReply = none := by
  simp only [asReply, Outcome.asReply]
  split
  · next m hparse =>
    by_contra hreply
    exact h (Message.cls_of_asReply hparse hreply)
  · rfl

theorem LittleEndian.ofNat_decode_singleton (b : UInt8) :
    UInt8.ofNat (LittleEndian.decode [b]) = b := by
  simp only [decode, Nat.mul_zero, Nat.add_zero, UInt8.ofNat_toNat]

/-- A positive reply names the type of a command. -/
theorem Frame.asReply_ackAck (type : MessageType) :
    (Frame.mk .ackAck [type.cls, type.id]).asReply = some (.accepted, ⟨type⟩) := by
  have hread : (Frame.mk .ackAck [type.cls, type.id]).asReply =
      some (.accepted, ⟨⟨UInt8.ofNat (LittleEndian.decode [type.cls]),
        UInt8.ofNat (LittleEndian.decode [type.id])⟩⟩) := rfl
  rw [hread, LittleEndian.ofNat_decode_singleton, LittleEndian.ofNat_decode_singleton]

/-- A negative reply names the type of a command. -/
theorem Frame.asReply_ackNak (type : MessageType) :
    (Frame.mk .ackNak [type.cls, type.id]).asReply = some (.refused, ⟨type⟩) := by
  have hread : (Frame.mk .ackNak [type.cls, type.id]).asReply =
      some (.refused, ⟨⟨UInt8.ofNat (LittleEndian.decode [type.cls]),
        UInt8.ofNat (LittleEndian.decode [type.id])⟩⟩) := rfl
  rw [hread, LittleEndian.ofNat_decode_singleton, LittleEndian.ofNat_decode_singleton]

/-- Of a burst only the frame can be a reply. -/
theorem Burst.filterMap_outcomes (b : Burst) :
    b.outcomes.filterMap Outcome.asReply = b.frame.asReply.toList := by
  have hpending : ∀ n, (List.replicate n Outcome.pending).filterMap Outcome.asReply = [] :=
    fun n => List.filterMap_replicate_of_none rfl
  rw [outcomes, List.filterMap_append, hpending, List.nil_append,
    List.filterMap_eq_flatMap_toList, List.flatMap_singleton]
  rfl

namespace Decoder

variable {d : Decoder} {frames : List Frame}

/-- A decoder that searches takes whole frames one after the other, and searches again. -/
theorem feedAll_wire (hd : d.step = .sync1)
    (hshort : ∀ f ∈ frames, f.payload.length ≤ Frame.maxPayload) :
    d.replies (frames.map Frame.wire).flatten = frames.filterMap Frame.asReply ∧
      (d.feedAll (frames.map Frame.wire).flatten).2.step = .sync1 := by
  let burst (f : Frame) : Burst := ⟨[], f, List.replicate (Frame.wireLength f.payload.length) 0⟩
  have hsendable : ∀ b ∈ frames.map burst, b.Sendable := by
    intro b hb
    obtain ⟨f, hf, rfl⟩ := List.mem_map.1 hb
    exact ⟨List.not_mem_nil, hshort f hf, Nat.le_of_eq List.length_replicate.symm⟩
  obtain ⟨houtcomes, hstep⟩ := feedAll_flatten hd hsendable
  have hbytes : (frames.map burst).map (fun b => b.noise ++ b.frame.wire) =
      frames.map Frame.wire := by
    rw [List.map_map]
    rfl
  rw [hbytes] at houtcomes hstep
  refine ⟨?_, hstep⟩
  simp only [replies, houtcomes, List.filterMap_flatMap, List.flatMap_map,
    Burst.filterMap_outcomes]
  exact (List.filterMap_eq_flatMap_toList Frame.asReply frames).symm

end Decoder

/-! ### Answers -/

/-- A frame answers the command of a step: it accepts the command, or, where that is tolerated, it
refuses it. -/
def PlanStep.AnsweredBy (step : PlanStep) (f : Frame) : Prop :=
  f = ⟨.ackAck, [step.command.type.cls, step.command.type.id]⟩ ∨
    (step.policy ≠ .accepted ∧ f = ⟨.ackNak, [step.command.type.cls, step.command.type.id]⟩)

/-- What a module sends between two ticks, if a command was sent in the tick before, or none was.
Only this command is answered, and it is answered unless silence is tolerated.  All other classes of
messages may be sent at any time. -/
structure Answered (sent : Option PlanStep) (frames : List Frame) : Prop where
  own : ∀ f ∈ frames, f.type.cls = MessageType.ackAck.cls →
    ∃ step, sent = some step ∧ step.AnsweredBy f
  answers : ∀ step, sent = some step → step.policy ≠ .answeredOrTimeout →
    ∃ f ∈ frames, step.AnsweredBy f

namespace Answered

variable {frames : List Frame} {step : PlanStep}

/-- Without a command no reply is heard. -/
theorem hear_none (h : Answered none frames) : frames.filterMap Frame.asReply = [] := by
  refine List.filterMap_eq_nil_iff.2 fun f hf => Frame.asReply_of_cls fun hcls => ?_
  obtain ⟨step, hsent, -⟩ := h.own f hf hcls
  cases hsent

/-- Frames of other classes do not matter. -/
theorem of_silence (h : ∀ f ∈ frames, f.type.cls ≠ MessageType.ackAck.cls) :
    Answered none frames :=
  ⟨fun f hf hcls => absurd hcls (h f hf), fun _ hsent => nomatch hsent⟩

/-- Every reply that is heard names the command, and a refusal is tolerated. -/
theorem of_mem_replies (h : Answered (some step) frames) {heard : ReplyState × Reply}
    (hmem : heard ∈ frames.filterMap Frame.asReply) :
    heard.2.command = step.command.type ∧
      (heard.1 = .accepted ∨ heard.1 = .refused ∧ step.policy ≠ .accepted) := by
  obtain ⟨f, hf, hreply⟩ := List.mem_filterMap.1 hmem
  have hcls : f.type.cls = MessageType.ackAck.cls := by
    by_contra hother
    cases (Frame.asReply_of_cls hother).symm.trans hreply
  obtain ⟨step', hsent, haccepts | ⟨hpolicy, hrefuses⟩⟩ := h.own f hf hcls
  · cases hsent
    rw [haccepts, Frame.asReply_ackAck] at hreply
    cases hreply
    exact ⟨rfl, .inl rfl⟩
  · cases hsent
    rw [hrefuses, Frame.asReply_ackNak] at hreply
    cases hreply
    exact ⟨rfl, .inr ⟨rfl, hpolicy⟩⟩

/-- If no reply is heard, silence is tolerated. -/
theorem policy_of_silence (h : Answered (some step) frames)
    (hsilent : frames.filterMap Frame.asReply = []) : step.policy = .answeredOrTimeout := by
  by_contra hpolicy
  obtain ⟨f, hf, hanswer⟩ := h.answers step rfl hpolicy
  have hnone := List.filterMap_eq_nil_iff.1 hsilent f hf
  rcases hanswer with rfl | ⟨-, rfl⟩
  · rw [Frame.asReply_ackAck] at hnone
    cases hnone
  · rw [Frame.asReply_ackNak] at hnone
    cases hnone

/-- **The answer is heard.**  Of a tracker that waits for the command the step is complete, at any
time, or the module has stayed silent as it may. -/
theorem hear_own (h : Answered (some step) frames) {tracker : ReplyTracker}
    (htracker : tracker = (frames.filterMap Frame.asReply).foldl ReplyTracker.hear
      ⟨.waiting, step.command.type.id⟩) :
    (∀ waited, step.policy.judge tracker.state waited = .complete) ∨
      (tracker = ⟨.waiting, step.command.type.id⟩ ∧ step.policy = .answeredOrTimeout) := by
  cases hheard : frames.filterMap Frame.asReply with
  | nil =>
    rw [hheard] at htracker
    exact .inr ⟨htracker, h.policy_of_silence hheard⟩
  | cons first later =>
    -- The first reply decides; more of them may follow, and they are passed over.
    obtain ⟨hcommand, hverdict⟩ := h.of_mem_replies (hheard ▸ List.mem_cons_self)
    have hdecided : ReplyTracker.hear ⟨.waiting, step.command.type.id⟩ first =
        ⟨first.1, step.command.type.id⟩ := by
      rw [ReplyTracker.hear, ReplyTracker.settle, if_pos ⟨rfl, by rw [hcommand]⟩]
    have hne : first.1 ≠ .waiting := by
      rcases hverdict with hverdict | ⟨hverdict, -⟩ <;> rw [hverdict] <;> decide
    have hfixed : ∀ heard, ReplyTracker.hear ⟨first.1, step.command.type.id⟩ heard =
        ⟨first.1, step.command.type.id⟩ := fun heard => ReplyTracker.settle_of_ne hne _ _
    rw [hheard, List.foldl_cons, hdecided, List.foldl_fixed' hfixed] at htracker
    rw [htracker]
    refine .inl fun waited => ?_
    rcases hverdict with hverdict | ⟨hverdict, hpolicy⟩
    · simp only [hverdict, WaitPolicy.judge]
    · simp only [hverdict]
      cases hsame : step.policy with
      | accepted => exact absurd hsame hpolicy
      | answered | answeredOrTimeout => rfl

end Answered

end GnssLink
