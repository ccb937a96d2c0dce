import GnssLink.Proofs.Link.Completions
import GnssLink.Proofs.Message.Parsing
import GnssLink.Proofs.Serial.Reads

/-!
# Receiving

The receiving task acts on the bytes of a line one after the other, up to the first read that fails,
and each byte on what the bytes before it have left.  So it does not matter how many calls a byte
string is split over, and where.

Of all that a byte string holds only the reports count: the messages of a type with a layout whose
payload is long enough.  Everything else changes the decoder alone, be it noise, a broken frame or a
frame that cannot be read.  For a frame of an unknown type this needs an invariant, since such a
frame reaches the assembler and would complete an epoch if both halves were there: a half is always
missing (`Session.AwaitsHalf`).

## Main definitions

* `Outcome.asReport`, `Decoder.reports` — the reports in a byte string.
* `Outcome.Ignored` — what a byte can bring about without being acted on.
* `Session.receiveAll` — several calls of the receiving task.
* `Session.ReceivesInOrder` — what is known of receiving in some state.

## Main results

* `Session.AwaitsHalf.foldl_takeByte` — a byte string comes to its reports and the decoder behind
  it.
* `Moment.receives_in_order` — receiving in every state that calls of the two tasks lead to.
-/

namespace GnssLink

/-! ### Reports -/

/-- The report in the frame that a byte completed. -/
def Outcome.asReport (outcome : Outcome) : Option Message :=
  outcome.asMessage.filter Message.isKnown

/-- What a byte can bring about without being acted on: nothing yet, a broken frame, a frame of an
unknown type, or one that is too short for its type. -/
inductive Outcome.Ignored : Outcome → Prop
  | pending : Ignored .pending
  | skipped : Ignored .skipped
  | rejected (e : FrameError) : Ignored (.rejected e)
  | unknown {f : Frame} (unknown : ∀ l ∈ Message.layouts, l.type ≠ f.type) : Ignored (.frame f)
  | short {f : Frame} {l : Layout Message} (known : l ∈ Message.layouts) (type : l.type = f.type)
      (short : f.payload.length < l.minLength) : Ignored (.frame f)

theorem Outcome.Ignored.asReport_eq {outcome : Outcome} (h : outcome.Ignored) :
    outcome.asReport = none := by
  cases h with
  | pending | skipped | rejected => rfl
  | unknown hunknown =>
    rw [asReport, asMessage, Message.parse_of_unknown hunknown]
    rfl
  | short hknown htype hshort =>
    rw [asReport, asMessage, ← htype, Message.parse_of_short hknown hshort]
    rfl

/-- The reports in a byte string, in the order in which their frames end. -/
def Decoder.reports (d : Decoder) (bytes : Bytes) : List Message :=
  (d.feedAll bytes).1.filterMap Outcome.asReport

theorem Decoder.reports_cons (d : Decoder) (byte : UInt8) (rest : Bytes) :
    d.reports (byte :: rest) = (d.feed byte).1.asReport.toList ++ (d.feed byte).2.reports rest := by
  simp only [reports, feedAll, List.filterMap_cons]
  cases (d.feed byte).1.asReport <;> rfl

/-- A byte string that brings about nothing to act on holds no report. -/
theorem Decoder.reports_of_ignored {d : Decoder} {bytes : Bytes}
    (h : ∀ outcome ∈ (d.feedAll bytes).1, outcome.Ignored) : d.reports bytes = [] :=
  List.filterMap_eq_nil_iff.2 fun outcome hmem => (h outcome hmem).asReport_eq

/-! ### Bytes -/

namespace Session

/-- A half of the epoch is missing. -/
def AwaitsHalf (s : Session) : Prop :=
  s.assembler.latch ≠ ⟨true, true⟩

variable {s : Session}

theorem dispatch_withDecoder (s : Session) (d : Decoder) (messages : List Message) :
    messages.foldl dispatch { s with decoder := d } =
      { messages.foldl dispatch s with decoder := d } := by
  induction messages generalizing s with
  | nil => rfl
  | cons m rest ih =>
    have hdispatch : dispatch { s with decoder := d } m = { s.dispatch m with decoder := d } := by
      cases m <;> rfl
    rw [List.foldl_cons, hdispatch, ih, List.foldl_cons]

/-- While a half is missing, a message without a layout changes nothing. -/
theorem AwaitsHalf.dispatch_other (h : s.AwaitsHalf) (type : MessageType) :
    s.dispatch (.other type) = s := by
  have happly : s.assembler.apply (.other type) = (none, s.assembler) := by
    rcases s.assembler.apply_cases (.other type) with ⟨hboth, -⟩ | ⟨-, happly⟩
    · exact absurd hboth h
    · exact happly
  simp only [dispatch, happly, Option.none_or]

theorem awaitsHalf_dispatch (s : Session) (m : Message) : (s.dispatch m).AwaitsHalf := by
  rw [AwaitsHalf, assembler_dispatch]
  exact s.assembler.latch_apply m

/-- A received byte acts on the report that it completes, if it completes one. -/
theorem AwaitsHalf.takeByte_eq (h : s.AwaitsHalf) (byte : UInt8) :
    s.takeByte byte =
      { (s.decoder.feed byte).1.asReport.toList.foldl dispatch s with
        decoder := (s.decoder.feed byte).2 } := by
  rw [← dispatch_withDecoder, Outcome.asReport]
  rcases s.takeByte_cases byte with ⟨m, hmessage, htaken⟩ | ⟨hnone, htaken⟩
  · rw [htaken, hmessage]
    -- A message without a layout is no report, but the assembler sees it all the same.
    cases m with
    | other type =>
      have hopen : AwaitsHalf { s with decoder := (s.decoder.feed byte).2 } := h
      exact hopen.dispatch_other type
    | position _ | fix _ | summary _ | velocity _ | time _ => rfl
    | pvt _ | version _ | accepted _ | refused _ => rfl
  · rw [htaken, hnone]
    rfl

theorem AwaitsHalf.takeByte (h : s.AwaitsHalf) (byte : UInt8) : (s.takeByte byte).AwaitsHalf := by
  rcases s.takeByte_cases byte with ⟨m, -, htaken⟩ | ⟨-, htaken⟩
  · rw [htaken]
    exact awaitsHalf_dispatch _ m
  · rw [htaken]
    exact h

theorem AwaitsHalf.takeBytes (h : s.AwaitsHalf) (bytes : Bytes) :
    (bytes.foldl Session.takeByte s).AwaitsHalf := by
  induction bytes generalizing s with
  | nil => exact h
  | cons byte rest ih => exact ih (h.takeByte byte)

/-- **A byte string comes to its reports and the decoder behind it.** -/
theorem AwaitsHalf.foldl_takeByte (h : s.AwaitsHalf) (bytes : Bytes) :
    bytes.foldl Session.takeByte s =
      { (s.decoder.reports bytes).foldl dispatch s with
        decoder := (s.decoder.feedAll bytes).2 } := by
  induction bytes generalizing s with
  | nil => rfl
  | cons byte rest ih =>
    rw [List.foldl_cons, ih (h.takeByte byte), decoder_takeByte, h.takeByte_eq,
      dispatch_withDecoder, Decoder.reports_cons, List.foldl_append]
    rfl

/-- A byte string without anything to act on changes the decoder alone. -/
theorem AwaitsHalf.takeBytes_of_ignored (h : s.AwaitsHalf) {bytes : Bytes}
    (hignored : ∀ outcome ∈ (s.decoder.feedAll bytes).1, outcome.Ignored) :
    bytes.foldl Session.takeByte s = { s with decoder := (s.decoder.feedAll bytes).2 } := by
  rw [h.foldl_takeByte, Decoder.reports_of_ignored hignored]
  rfl

/-! ### Calls -/

section

variable {σ ε : Type} [SerialLine σ ε]

/-- Several calls of the receiving task, each on the line as it stands then. -/
def receiveAll (s : Session) (lines : List σ) : Session :=
  lines.foldl (fun s line => (s.receive line).2.1) s

/-- Several calls take the bytes that they drain one after the other. -/
theorem receiveAll_eq (s : Session) (lines : List σ) :
    s.receiveAll lines = (lines.flatMap SerialLine.drained).foldl takeByte s := by
  induction lines generalizing s with
  | nil => rfl
  | cons line rest ih =>
    have hfirst : (s.receive line).2.1 = (SerialLine.drained line).foldl takeByte s :=
      receive_state rfl
    rw [List.flatMap_cons, List.foldl_append, ← hfirst]
    exact ih _

/-- A call makes the reads of the line, takes their bytes and hands on their failure. -/
theorem receive_eq (s : Session) {line behind : σ} {bytes : Bytes} {failure : Option ε}
    (h : SerialLine.Reads line bytes failure behind) :
    s.receive line =
      ((SerialLine.verdict failure).mapError .receive, bytes.foldl takeByte s, behind) := by
  simp only [receive, h.drain_eq]

theorem receive_eq_ok_iff (s : Session) {line behind : σ} {bytes : Bytes} {failure : Option ε}
    (h : SerialLine.Reads line bytes failure behind) :
    (s.receive line).1 = .ok () ↔ failure = none := by
  rw [s.receive_eq h]
  cases failure with
  | none => exact iff_of_true rfl rfl
  | some e =>
    constructor
    · intro hok
      cases hok
    · intro hnone
      cases hnone

end

/-- What is known of receiving in some state of a session. -/
structure ReceivesInOrder (s : Session) : Prop where
  /-- A call makes the reads of the line up to the first failure, takes their bytes one after the
  other, and hands on the failure. -/
  call : ∀ {σ ε : Type} [SerialLine σ ε] (line : σ), ∃ failure behind,
    SerialLine.Reads line (SerialLine.drained line) failure behind ∧
      s.receive line = ((SerialLine.verdict failure).mapError .receive,
        (SerialLine.drained line).foldl takeByte s, behind)
  /-- Of a queue no byte is lost, and a call succeeds if and only if its reads deliver the whole
  queue and none of them fails. -/
  queue : ∀ {σ ε : Type} [SerialLine σ ε] {queue : σ → Bytes}, SerialLine.IsQueue queue →
    ∀ line : σ, queue line = SerialLine.drained line ++ queue (s.receive line).2.2 ∧
      ((s.receive line).1 = .ok () ↔
        SerialLine.Reads line (queue line) none (s.receive line).2.2)
  /-- Of a script the bytes in front of the armed failure are taken, and the others stay. -/
  script : ∀ p : ScriptedLine, ((s.receive p).1 = .ok () ↔ p.fault = none) ∧
    (s.receive p).2.1 = p.deliverable.foldl takeByte s ∧
      p.queue = p.deliverable ++ (s.receive p).2.2.queue
  /-- Calls that read the same bytes lead to the same state, however these are split. -/
  split : ∀ {σ ε σ' ε' : Type} [SerialLine σ ε] [SerialLine σ' ε'] (lines : List σ)
    (lines' : List σ'),
    lines.flatMap SerialLine.drained = lines'.flatMap SerialLine.drained →
      s.receiveAll lines = s.receiveAll lines'
  /-- Only the reports count: a byte string comes to them and the decoder behind it. -/
  reports : ∀ bytes : Bytes, bytes.foldl takeByte s =
    { (s.decoder.reports bytes).foldl dispatch s with decoder := (s.decoder.feedAll bytes).2 }
  /-- Behind any bytes, others that bring about nothing to act on change the decoder alone. -/
  ignored : ∀ before bytes : Bytes,
    (∀ outcome ∈ ((before.foldl takeByte s).decoder.feedAll bytes).1, outcome.Ignored) →
      bytes.foldl takeByte (before.foldl takeByte s) =
        { before.foldl takeByte s with
          decoder := ((before.foldl takeByte s).decoder.feedAll bytes).2 }

theorem AwaitsHalf.receivesInOrder (h : s.AwaitsHalf) : s.ReceivesInOrder := by
  constructor
  case call =>
    intro σ ε _ line
    obtain ⟨failure, behind, hreads⟩ := SerialLine.reads_drained line
    exact ⟨failure, behind, hreads, s.receive_eq hreads⟩
  case queue =>
    intro σ ε _ queue hqueue line
    obtain ⟨failure, behind, hreads⟩ := SerialLine.reads_drained line
    obtain ⟨hbytes, hleft⟩ := hreads.queue_eq hqueue
    have hbehind : (s.receive line).2.2 = behind := by rw [s.receive_eq hreads]
    rw [hbehind]
    refine ⟨hbytes, ?_, fun hwhole => (s.receive_eq_ok_iff hwhole).2 rfl⟩
    intro hok
    obtain rfl := (s.receive_eq_ok_iff hreads).1 hok
    rwa [hbytes, hleft rfl, List.append_nil]
  case script =>
    intro p
    obtain ⟨behind, hreads⟩ := p.reads
    have hcall := s.receive_eq hreads
    refine ⟨s.receive_eq_ok_iff hreads, ?_, ?_⟩
    · rw [hcall]
    · rw [hcall]
      exact (hreads.queue_eq ScriptedLine.isQueue).1
  case split =>
    intro σ ε σ' ε' _ _ lines lines' hsame
    rw [receiveAll_eq, receiveAll_eq, hsame]
  case reports => exact h.foldl_takeByte
  case ignored => exact fun before bytes => (h.takeBytes before).takeBytes_of_ignored

/-- The receiving task leaves a half missing. -/
theorem AwaitsHalf.receive {σ ε : Type} [SerialLine σ ε] (h : s.AwaitsHalf) {s' : Session}
    {line line' : σ} {result : Except (LinkError ε) Unit}
    (hreceive : s.receive line = (result, s', line')) : s'.AwaitsHalf := by
  rw [receive_state hreceive]
  exact h.takeBytes _

/-- So does the protocol task. -/
theorem AwaitsHalf.runProtocol {σ ε : Type} [SerialLine σ ε] (h : s.AwaitsHalf) {s' : Session}
    {settings : Settings} {now : Instant} {line line' : σ}
    {result : Except (LinkError ε) (Option Solution)}
    (hrun : s.runProtocol settings now line = (result, s', line')) : s'.AwaitsHalf := by
  rw [AwaitsHalf, (runProtocol_keeps hrun).assembler]
  exact h

end Session

/-! ### All states -/

namespace Moment

variable {σ ε : Type} [SerialLine σ ε]

theorem awaitsHalf_next {m : Moment σ ε} (h : m.session.AwaitsHalf) (settings : Settings)
    (call : TaskCall σ) : (m.next settings call).session.AwaitsHalf := by
  cases call with
  | receive world => exact h.receive rfl
  | protocol now world => exact h.runProtocol rfl

theorem awaitsHalf_after {m : Moment σ ε} (h : m.session.AwaitsHalf) (settings : Settings)
    (calls : List (TaskCall σ)) : (m.after settings calls).session.AwaitsHalf := by
  induction calls generalizing m with
  | nil => exact h
  | cons call calls ih => exact ih (awaitsHalf_next h settings call)

/-- **Receiving takes the bytes of a line one after the other**, in every state of a session that
calls of the two tasks lead to: up to the first read that fails, however the bytes are split over
calls, and with no effect but on the decoder unless they hold a report. -/
theorem receives_in_order (settings : Settings) (line : σ) (calls : List (TaskCall σ)) :
    ((start settings line : Moment σ ε).after settings calls).session.ReceivesInOrder := by
  have hstart : (start settings line : Moment σ ε).session.AwaitsHalf := by
    intro hboth
    cases hboth
  exact (awaitsHalf_after hstart settings calls).receivesInOrder

end Moment

end GnssLink
