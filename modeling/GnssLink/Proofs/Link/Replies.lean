import GnssLink.Proofs.Link.History

/-!
# Replies in the received bytes

Of everything that a session receives only the replies reach the tracker.  Which replies a byte
string contains depends on the decoder and not on the rest of the session; they are heard one after
the other, in the order in which their frames end.

## Main definitions

* `Decoder.replies` — the replies in a byte string.
* `ReplyTracker.hear` — a reply reaches the tracker.

## Main results

* `Session.tracker_receive` — receiving hears the replies in the drained bytes.
-/

namespace GnssLink

/-- The reply that a message is, with the verdict of the receiver. -/
def Message.asReply : Message → Option (ReplyState × Reply)
  | .accepted reply => some (.accepted, reply)
  | .refused reply => some (.refused, reply)
  | _ => none

/-- The reply in the frame that a byte completed. -/
def Outcome.asReply : Outcome → Option (ReplyState × Reply)
  | .frame f =>
    match Message.parse f.type f.payload with
    | .ok m => m.asReply
    | .error _ => none
  | .pending | .skipped | .rejected _ => none

theorem Outcome.asReply_eq (outcome : Outcome) :
    outcome.asReply = outcome.asMessage.bind Message.asReply := by
  cases outcome with
  | frame f =>
    simp only [asReply, asMessage]
    cases Message.parse f.type f.payload <;> rfl
  | pending | skipped | rejected e => rfl

/-- The replies in a byte string, in the order in which their frames end. -/
def Decoder.replies (d : Decoder) (bytes : Bytes) : List (ReplyState × Reply) :=
  (d.feedAll bytes).1.filterMap Outcome.asReply

theorem Decoder.replies_cons (d : Decoder) (byte : UInt8) (rest : Bytes) :
    d.replies (byte :: rest) =
      (d.feed byte).1.asReply.toList ++ (d.feed byte).2.replies rest := by
  simp only [replies, feedAll, List.filterMap_cons]
  cases (d.feed byte).1.asReply <;> rfl

/-- A reply reaches the tracker. -/
def ReplyTracker.hear (t : ReplyTracker) (heard : ReplyState × Reply) : ReplyTracker :=
  t.settle heard.1 heard.2

namespace Session

theorem tracker_dispatch (s : Session) (m : Message) :
    (s.dispatch m).tracker = m.asReply.toList.foldl ReplyTracker.hear s.tracker := by
  cases m <;> rfl

theorem decoder_dispatch (s : Session) (m : Message) : (s.dispatch m).decoder = s.decoder := by
  cases m <;> rfl

/-- The decoder takes the byte, whatever becomes of the frame that it completes. -/
theorem decoder_takeByte (s : Session) (byte : UInt8) :
    (s.takeByte byte).decoder = (s.decoder.feed byte).2 := by
  rcases s.takeByte_cases byte with ⟨m, -, htaken⟩ | ⟨-, htaken⟩
  · rw [htaken, decoder_dispatch]
  · rw [htaken]

theorem decoder_foldl_takeByte (s : Session) (bytes : Bytes) :
    (bytes.foldl takeByte s).decoder = (s.decoder.feedAll bytes).2 := by
  induction bytes generalizing s with
  | nil => rfl
  | cons byte rest ih => rw [List.foldl_cons, ih, decoder_takeByte, Decoder.feedAll]

/-- A byte that completes a reply lets the tracker hear it, and no other byte changes the
tracker. -/
theorem tracker_takeByte (s : Session) (byte : UInt8) :
    (s.takeByte byte).tracker =
      (s.decoder.feed byte).1.asReply.toList.foldl ReplyTracker.hear s.tracker := by
  rw [Outcome.asReply_eq]
  rcases s.takeByte_cases byte with ⟨m, hmessage, htaken⟩ | ⟨hnone, htaken⟩
  · rw [htaken, hmessage]
    exact tracker_dispatch _ m
  · rw [htaken, hnone]
    rfl

theorem tracker_foldl_takeByte (s : Session) (bytes : Bytes) :
    (bytes.foldl takeByte s).tracker =
      (s.decoder.replies bytes).foldl ReplyTracker.hear s.tracker := by
  induction bytes generalizing s with
  | nil => rfl
  | cons byte rest ih =>
    rw [List.foldl_cons, ih, decoder_takeByte, tracker_takeByte, Decoder.replies_cons,
      List.foldl_append]

variable {σ ε : Type} [SerialLine σ ε]

/-- The decoder takes the drained bytes. -/
theorem decoder_receive {s s' : Session} {line line' : σ} {result : Except (LinkError ε) Unit}
    (h : s.receive line = (result, s', line')) :
    s'.decoder = (s.decoder.feedAll (SerialLine.drained line)).2 := by
  rw [receive_state h, decoder_foldl_takeByte]

/-- **Receiving hears the replies in the drained bytes**, and nothing else reaches the tracker. -/
theorem tracker_receive {s s' : Session} {line line' : σ} {result : Except (LinkError ε) Unit}
    (h : s.receive line = (result, s', line')) :
    s'.tracker =
      (s.decoder.replies (SerialLine.drained line)).foldl ReplyTracker.hear s.tracker := by
  rw [receive_state h, tracker_foldl_takeByte]

end Session

end GnssLink
