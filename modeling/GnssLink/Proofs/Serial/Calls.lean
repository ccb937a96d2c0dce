import GnssLink.Serial.Recorder
import GnssLink.Serial.Script

/-!
# What a line delivers and what a recorder records

Draining a line folds the bytes that it delivers into a state; which bytes these are depends on the
line only.

A recorder appends one entry for each change of speed and each write, and none for reading, for
draining or for a question about the transmitter.  An operation that succeeds is *performed*; an
operation that fails is recorded, but not performed.

## Main definitions

* `SerialLine.drained` — the bytes that draining takes from a line.
* `Recorder.alter` — the world acts on a line that is recorded.

## Main results

* `SerialLine.drain_state` — draining folds these bytes.
* `Recorder.calls_setBaudRate`, `Recorder.calls_write` — the two operations that are recorded.
* `Recorder.calls_drain` — draining is not recorded.
-/

namespace GnssLink

variable {σ ε : Type} [SerialLine σ ε]

/-! ### Draining -/

namespace SerialLine

/-- The bytes that draining takes from a line, in order. -/
def drained (line : σ) : Bytes :=
  (drain (fun bytes byte => bytes ++ [byte]) ([] : Bytes) line).2.1

theorem drain_of_error {β : Type} {combine : β → UInt8 → β} {start : β} {line line' : σ} {e : ε}
    (hwaiting : hasWaiting line = true) (hread : readByte line = (.error e, line')) :
    drain combine start line = (.error e, start, line') := by
  rw [drain, if_pos hwaiting]
  split <;> simp_all

theorem drain_of_ok {β : Type} {combine : β → UInt8 → β} {start : β} {line line' : σ}
    {byte : UInt8} (hwaiting : hasWaiting line = true)
    (hread : readByte line = (.ok byte, line')) :
    drain combine start line = drain combine (combine start byte) line' := by
  rw [drain, if_pos hwaiting]
  split <;> simp_all

theorem drain_of_empty {β : Type} {combine : β → UInt8 → β} {start : β} {line : σ}
    (hwaiting : ¬ hasWaiting line = true) : drain combine start line = (.ok (), start, line) := by
  rw [drain, if_neg hwaiting]

/-- The fold of the bytes that were taken already, and of those that are still taken. -/
theorem drain_foldl {β : Type} (combine : β → UInt8 → β) (start : β) (taken : Bytes) (line : σ) :
    (drain combine (taken.foldl combine start) line).2.1 =
      (drain (fun bytes byte => bytes ++ [byte]) taken line).2.1.foldl combine start := by
  fun_induction drain (fun bytes byte => bytes ++ [byte]) taken line with
  | case1 taken line hwaiting e line' hread => rw [drain_of_error hwaiting hread]
  | case2 taken line hwaiting byte line' hread hlt ih =>
    rw [drain_of_ok hwaiting hread, ← ih, List.foldl_append]
    rfl
  | case3 taken line hwaiting => rw [drain_of_empty hwaiting]

/-- **Draining folds the bytes that the line delivers.** -/
theorem drain_state {β : Type} (combine : β → UInt8 → β) (start : β) (line : σ) :
    (drain combine start line).2.1 = (drained line).foldl combine start :=
  drain_foldl combine start [] line

end SerialLine

/-! ### Recording -/

/-- The world acts on the line behind the recorder. -/
def Recorder.alter {σ : Type} (r : Recorder σ) (world : σ → σ) : Recorder σ :=
  { r with line := world r.line }

namespace Recorder

variable {r r' : Recorder σ}

theorem performed_congr (h : r'.calls = r.calls) : r'.performed = r.performed := by
  rw [performed, performed, h]

/-- Of the operations that were recorded, those that succeeded were performed. -/
theorem performed_of_calls {calls : List LineCall} (h : r'.calls = r.calls ++ calls) :
    r'.performed = r.performed ++ calls.filter LineCall.ok := by
  rw [performed, h, List.filter_append]
  rfl

theorem performed_of_ok {call : LineCall} (h : r'.calls = r.calls ++ [call])
    (hok : call.ok = true) : r'.performed = r.performed ++ [call] := by
  rw [performed_of_calls h, List.filter_cons_of_pos hok]
  rfl

theorem performed_of_not_ok {call : LineCall} (h : r'.calls = r.calls ++ [call])
    (hok : call.ok = false) : r'.performed = r.performed := by
  rw [performed_of_calls h, List.filter_cons_of_neg (Bool.eq_false_iff.1 hok)]
  exact List.append_nil _

/-- A change of speed is recorded with its success. -/
theorem calls_setBaudRate {rate : BaudRate} {result : Except ε Unit}
    (h : SerialLine.setBaudRate r rate = (result, r')) :
    r'.calls = r.calls ++ [.setBaudRate rate result.isOk] := by
  obtain ⟨rfl, rfl⟩ := Prod.mk.inj h
  rfl

/-- A write is recorded with its success. -/
theorem calls_write {bytes : Bytes} {result : Except ε Unit}
    (h : SerialLine.write r bytes = (result, r')) :
    r'.calls = r.calls ++ [.write bytes result.isOk] := by
  obtain ⟨rfl, rfl⟩ := Prod.mk.inj h
  rfl

theorem calls_txEmpty {answer : Bool} (h : SerialLine.txEmpty r = (answer, r')) :
    r'.calls = r.calls := by
  obtain ⟨-, rfl⟩ := Prod.mk.inj h
  rfl

theorem calls_readByte {result : Except ε UInt8} (h : SerialLine.readByte r = (result, r')) :
    r'.calls = r.calls := by
  obtain ⟨-, rfl⟩ := Prod.mk.inj h
  rfl

/-- Draining is not recorded. -/
theorem calls_drain {β : Type} (combine : β → UInt8 → β) (start : β) (r : Recorder σ) :
    (SerialLine.drain combine start r).2.2.calls = r.calls := by
  fun_induction SerialLine.drain combine start r with
  | case1 start r hwaiting e r' hread => exact calls_readByte hread
  | case2 start r hwaiting byte r' hread hlt ih => rw [ih, calls_readByte hread]
  | case3 start r hwaiting => rfl

end Recorder

/-! ### Scripted lines -/

/-- A recorded scripted line without a read failure delivers its queue. -/
theorem ScriptedLine.drain_recorder {β : Type} (combine : β → UInt8 → β) (start : β)
    (r : Recorder ScriptedLine) (h : r.line.readFault = none) :
    SerialLine.drain combine start r =
      (.ok (), r.line.queue.foldl combine start, ⟨{ r.line with queue := [] }, r.calls⟩) := by
  obtain ⟨⟨queue, readFault, txAnswers, failSet, failWrite⟩, calls⟩ := r
  obtain rfl : readFault = none := h
  induction queue generalizing start with
  | nil =>
    rw [SerialLine.drain]
    rfl
  | cons byte rest ih =>
    rw [SerialLine.drain]
    exact ih (combine start byte)

end GnssLink
