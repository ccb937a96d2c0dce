import GnssLink.Proofs.Serial.Calls

/-!
# The reads that drain a line

Draining a line reads until nothing is waiting or a read fails.  Here these reads are listed one by
one, for any line: the bytes that they deliver, the failure of the last one, if it fails, and the
line behind them.

Of a line that is a queue of bytes nothing is lost: what the reads deliver and what is left make up
the queue, and without a failure nothing is left.  A scripted line is such a queue; if a failure is
armed behind `n` reads, the first `n` bytes are delivered.

## Main definitions

* `SerialLine.Reads` — the reads that drain a line.
* `SerialLine.IsQueue` — the line is a queue of bytes.
* `ScriptedLine.deliverable`, `ScriptedLine.fault` — the bytes of a script that can be read before a
  read fails, and that failure.

## Main results

* `SerialLine.Reads.drain_eq` — draining folds the bytes that the reads deliver.
* `SerialLine.reads_drained` — every line has such reads.
* `SerialLine.Reads.queue_eq` — the bytes of a queue are delivered or left.
* `ScriptedLine.reads` — the reads of a script.
-/

namespace GnssLink

namespace SerialLine

variable {σ ε : Type} [SerialLine σ ε]

/-- The reads that drain a line, one after the other: the bytes that they deliver, the failure of
the last one, if it fails, and the line behind them. -/
inductive Reads : σ → Bytes → Option ε → σ → Prop
  /-- Nothing is waiting. -/
  | done {line : σ} (idle : hasWaiting line = false) : Reads line [] none line
  /-- A read fails. -/
  | failed {line line' : σ} {e : ε} (waiting : hasWaiting line = true)
      (read : readByte line = (.error e, line')) : Reads line [] (some e) line'
  /-- A read delivers a byte, and the others follow. -/
  | byte {line line' behind : σ} {byte : UInt8} {bytes : Bytes} {failure : Option ε}
      (waiting : hasWaiting line = true) (read : readByte line = (.ok byte, line'))
      (rest : Reads line' bytes failure behind) : Reads line (byte :: bytes) failure behind

/-- Draining succeeds unless a read fails. -/
def verdict : Option ε → Except ε Unit
  | none => .ok ()
  | some e => .error e

variable {line behind : σ} {bytes : Bytes} {failure : Option ε}

/-- **Draining folds the bytes that the reads deliver**, and hands on their failure. -/
theorem Reads.drain_eq (h : Reads line bytes failure behind) {β : Type} (combine : β → UInt8 → β)
    (start : β) :
    drain combine start line = (verdict failure, bytes.foldl combine start, behind) := by
  induction h generalizing start with
  | done hidle =>
    exact drain_of_empty (fun hwaiting => Bool.false_ne_true (hidle.symm.trans hwaiting))
  | failed hwaiting hread => exact drain_of_error hwaiting hread
  | byte hwaiting hread _ ih =>
    rw [drain_of_ok hwaiting hread, ih]
    rfl

private theorem foldl_concat (taken bytes : Bytes) :
    bytes.foldl (fun taken byte => taken ++ [byte]) taken = taken ++ bytes := by
  induction bytes generalizing taken with
  | nil => exact (List.append_nil taken).symm
  | cons byte rest ih =>
    rw [List.foldl_cons, ih]
    exact (List.append_cons taken byte rest).symm

/-- The drained bytes are those that the reads deliver. -/
theorem Reads.drained_eq (h : Reads line bytes failure behind) : drained line = bytes := by
  rw [drained, h.drain_eq]
  exact foldl_concat [] bytes

/-- **Every line can be drained**, and the drained bytes are those that its reads deliver. -/
theorem reads_drained (line : σ) : ∃ failure behind, Reads line (drained line) failure behind := by
  have hreads : ∃ bytes failure behind, Reads line bytes failure behind := by
    -- The recursion of draining is borrowed; what it combines does not matter.
    fun_induction drain (fun (_ : Unit) _ => ()) () line with
    | case1 _ line hwaiting e line' hread => exact ⟨[], some e, line', .failed hwaiting hread⟩
    | case2 _ line hwaiting byte line' hread _ ih =>
      obtain ⟨bytes, failure, behind, hrest⟩ := ih
      exact ⟨byte :: bytes, failure, behind, .byte hwaiting hread hrest⟩
    | case3 _ line hidle => exact ⟨[], none, line, .done (Bool.eq_false_iff.2 hidle)⟩
  obtain ⟨bytes, failure, behind, h⟩ := hreads
  rw [h.drained_eq]
  exact ⟨failure, behind, h⟩

/-! ### Queues -/

/-- A line is a queue of bytes: a byte is waiting as long as it is not empty, a read takes the first
byte, and a read that fails takes none. -/
structure IsQueue (queue : σ → Bytes) : Prop where
  idle : ∀ {line : σ}, hasWaiting line = false → queue line = []
  takes : ∀ {line line' : σ} {byte : UInt8}, readByte line = (.ok byte, line') →
    queue line = byte :: queue line'
  keeps : ∀ {line line' : σ} {e : ε}, readByte line = (.error e, line') → queue line' = queue line

/-- **The bytes of a queue are delivered or left**, and without a failure none is left. -/
theorem Reads.queue_eq {queue : σ → Bytes} (hqueue : IsQueue queue)
    (h : Reads line bytes failure behind) :
    queue line = bytes ++ queue behind ∧ (failure = none → queue behind = []) := by
  induction h with
  | done hidle => exact ⟨rfl, fun _ => hqueue.idle hidle⟩
  | failed _ hread => exact ⟨(hqueue.keeps hread).symm, fun hnone => nomatch hnone⟩
  | byte _ hread _ ih =>
    obtain ⟨hbytes, hleft⟩ := ih
    exact ⟨by rw [hqueue.takes hread, hbytes, List.cons_append], hleft⟩

end SerialLine

namespace ScriptedLine

open SerialLine (Reads IsQueue)

theorem queue_pop_ok {p p' : ScriptedLine} {byte : UInt8} (h : p.pop = (.ok byte, p')) :
    p.queue = byte :: p'.queue := by
  unfold pop at h
  split at h
  · cases h
  · next hqueue =>
    cases h
    exact hqueue

theorem queue_pop_error {p p' : ScriptedLine} {e : LineFault} (h : p.pop = (.error e, p')) :
    p'.queue = p.queue := by
  unfold pop at h
  split at h <;> cases h
  rfl

/-- A scripted line is a queue of bytes. -/
theorem isQueue : IsQueue ScriptedLine.queue where
  idle := by
    rintro ⟨queue, readFault, txAnswers, failSet, failWrite⟩ hidle
    cases queue with
    | nil => rfl
    | cons byte rest => cases hidle
  takes := by
    intro p p' byte h
    change p.readByte = _ at h
    unfold readByte at h
    split at h
    · cases h
    · next n _ =>
      have hpop : ({ p with readFault := some n } : ScriptedLine).queue = byte :: p'.queue :=
        queue_pop_ok h
      exact hpop
    · exact queue_pop_ok h
  keeps := by
    intro p p' e h
    change p.readByte = _ at h
    unfold readByte at h
    split at h
    · cases h
      rfl
    · next n _ =>
      have hpop : p'.queue = ({ p with readFault := some n } : ScriptedLine).queue :=
        queue_pop_error h
      exact hpop
    · exact queue_pop_error h

/-- The bytes of a script that can be read before a read fails. -/
def deliverable (p : ScriptedLine) : Bytes :=
  match p.readFault with
  | none => p.queue
  | some n => p.queue.take n

/-- The failure of a script that is armed.  If there are not as many bytes as reads before it, the
read behind the last byte fails. -/
def fault (p : ScriptedLine) : Option LineFault :=
  p.readFault.map fun n => if p.queue.length < n then .empty else .overrun

/-- **The reads of a script**: all bytes, or as many as come before the armed failure. -/
theorem reads (p : ScriptedLine) : ∃ behind, Reads p p.deliverable p.fault behind := by
  obtain ⟨queue, readFault, txAnswers, failSet, failWrite⟩ := p
  induction queue generalizing readFault with
  | nil =>
    rcases readFault with _ | _ | n
    · exact ⟨_, .done rfl⟩
    · exact ⟨_, .failed rfl rfl⟩
    · have hfault : fault ⟨[], some (n + 1), txAnswers, failSet, failWrite⟩ = some .empty :=
        congrArg some (if_pos (Nat.succ_pos n))
      rw [hfault]
      exact ⟨_, .failed rfl rfl⟩
  | cons byte rest ih =>
    rcases readFault with _ | _ | n
    · obtain ⟨behind, hrest⟩ := ih none
      exact ⟨behind, .byte rfl rfl hrest⟩
    · exact ⟨_, .failed rfl rfl⟩
    · obtain ⟨behind, hrest⟩ := ih (some n)
      have hfault : fault ⟨byte :: rest, some (n + 1), txAnswers, failSet, failWrite⟩ =
          fault ⟨rest, some n, txAnswers, failSet, failWrite⟩ := by
        simp only [fault, Option.map_some, List.length_cons, Nat.add_lt_add_iff_right]
      rw [hfault]
      exact ⟨behind, .byte rfl rfl hrest⟩

end ScriptedLine

end GnssLink
