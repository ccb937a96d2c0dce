import GnssLink.Proofs.Link.Replies
import GnssLink.Proofs.Navigation.Epochs

/-!
# Completed epochs in the received bytes

Which epochs a byte string completes depends on the decoder and the assembler only, not on the rest
of the session.  The slot has room for one solution: after the bytes it holds that of the epoch that
was completed last, or what it held before if none was completed.

## Main definitions

* `Decoder.messages` — the messages in a byte string.
* `Assembler.snapshots` — the solutions that the assembler hands out.
* `Session.completed` — the solutions of the epochs that a byte string completes.

## Main results

* `Session.epoch_receive` — what the slot holds after the receiving task.
-/

namespace GnssLink

/-- The messages in a byte string, in the order in which their frames end. -/
def Decoder.messages (d : Decoder) (bytes : Bytes) : List Message :=
  (d.feedAll bytes).1.filterMap Outcome.asMessage

theorem Decoder.messages_cons (d : Decoder) (byte : UInt8) (rest : Bytes) :
    d.messages (byte :: rest) =
      (d.feed byte).1.asMessage.toList ++ (d.feed byte).2.messages rest := by
  simp only [messages, feedAll, List.filterMap_cons]
  cases (d.feed byte).1.asMessage <;> rfl

namespace Assembler

/-- The solutions that the assembler hands out while it applies messages. -/
def snapshots (a : Assembler) : List Message → List Solution
  | [] => []
  | m :: rest => (a.apply m).1.toList ++ (a.apply m).2.snapshots rest

theorem snapshots_append (a : Assembler) (before rest : List Message) :
    a.snapshots (before ++ rest) = a.snapshots before ++ (a.applyAll before).snapshots rest := by
  induction before generalizing a with
  | nil => rfl
  | cons m before ih =>
    simp only [List.cons_append, snapshots, ih, List.append_assoc]
    rfl

end Assembler

namespace Session

/-- The solutions of the epochs that a byte string completes, in order. -/
def completed (s : Session) (bytes : Bytes) : List Solution :=
  s.assembler.snapshots (s.decoder.messages bytes)

theorem assembler_dispatch (s : Session) (m : Message) :
    (s.dispatch m).assembler = (s.assembler.apply m).2 := by
  cases m <;> rfl

theorem epoch_dispatch (s : Session) (m : Message) :
    (s.dispatch m).epoch = (s.assembler.apply m).1.or s.epoch := by
  cases m <;> rfl

/-- A byte that completes a message applies it, and no other byte changes the assembler. -/
theorem assembler_takeByte (s : Session) (byte : UInt8) :
    (s.takeByte byte).assembler =
      s.assembler.applyAll (s.decoder.feed byte).1.asMessage.toList := by
  rcases s.takeByte_cases byte with ⟨m, hmessage, htaken⟩ | ⟨hnone, htaken⟩
  · rw [htaken, hmessage]
    exact assembler_dispatch _ m
  · rw [htaken, hnone]
    rfl

/-- A byte that completes an epoch puts its solution in the slot. -/
theorem epoch_takeByte (s : Session) (byte : UInt8) :
    (s.takeByte byte).epoch =
      (s.assembler.snapshots (s.decoder.feed byte).1.asMessage.toList).getLast?.or s.epoch := by
  rcases s.takeByte_cases byte with ⟨m, hmessage, htaken⟩ | ⟨hnone, htaken⟩
  · rw [htaken, hmessage, epoch_dispatch, Option.toList_some, Assembler.snapshots,
      Assembler.snapshots, List.append_nil]
    cases (s.assembler.apply m).1 <;> rfl
  · rw [htaken, hnone]
    rfl

theorem completed_cons (s : Session) (byte : UInt8) (rest : Bytes) :
    s.completed (byte :: rest) =
      s.assembler.snapshots (s.decoder.feed byte).1.asMessage.toList ++
        (s.takeByte byte).completed rest := by
  rw [completed, Decoder.messages_cons, Assembler.snapshots_append, completed, assembler_takeByte,
    decoder_takeByte]

theorem epoch_foldl_takeByte (s : Session) (bytes : Bytes) :
    (bytes.foldl takeByte s).epoch = (s.completed bytes).getLast?.or s.epoch := by
  induction bytes generalizing s with
  | nil => rfl
  | cons byte rest ih =>
    rw [List.foldl_cons, ih, epoch_takeByte, completed_cons, List.getLast?_append, Option.or_assoc]

variable {σ ε : Type} [SerialLine σ ε]

/-- **The slot holds the epoch that was completed last** among the drained bytes, or what it held
before. -/
theorem epoch_receive {s s' : Session} {line line' : σ} {result : Except (LinkError ε) Unit}
    (h : s.receive line = (result, s', line')) :
    s'.epoch = (s.completed (SerialLine.drained line)).getLast?.or s.epoch := by
  rw [receive_state h, epoch_foldl_takeByte]

end Session

end GnssLink
