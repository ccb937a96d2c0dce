import GnssLink.Proofs.Negotiation.Remaining
import GnssLink.Proofs.Serial.Journal

/-!
# The history of an alignment

An alignment is polled over a line that may fail at any operation, whose transmitter may be busy at
any time, and with a clock that does not step back.  After a failure it is polled again like after a
wait.  Still the candidates are sent the sentence in their order, each once and right after the line
was switched to it; and the line is never switched while a sentence is in the transmitter or its
pause runs.

The journal of the line shows all this.  The invariant (`AlignmentMoment.Consistent`) ties each
position of the alignment to the sentences so far and to the last entry.

## Main definitions

* `AlignmentMoment`, `AlignmentMoment.after` — an alignment with its line.
* `Journal.CallDue`, `Journal.InOrder` — every call of a journal was due when it was made.
* `AlignmentMoment.Consistent` — the invariant.
* `AlignmentMoment.Rules` — what is true after every poll.

## Main results

* `AlignmentMoment.Consistent.next` — a poll keeps the invariant.
* `AlignmentMoment.aligns_by_rules` — what is true after any polls.
-/

namespace GnssLink

/-! ### Sentences and switches of an alignment -/

/-- The sentences to the first `n` candidates, each right after the switch to its candidate. -/
def BaudAlignment.sentences (target : BaudRate) (n : Nat) : List (Option Sight × Bytes) :=
  (BaudRate.candidates.take n).map fun candidate =>
    (some (.call (.setBaudRate candidate true)), Bytes.ofAscii target.switchSentence)

/-- The number of sentences of an alignment. -/
def BaudAlignment.trialCount (tryAll : Bool) : Nat :=
  if tryAll then BaudRate.candidates.length else 0

/-- The speed that comes next after `n` sentences. -/
def BaudAlignment.nextRate (target : BaudRate) (tryAll : Bool) (n : Nat) : BaudRate :=
  if tryAll then BaudRate.candidates[n]?.getD target else target

namespace BaudAlignment

variable {target : BaudRate} {n : Nat}

theorem length_sentences (h : n ≤ BaudRate.candidates.length) :
    (sentences target n).length = n := by
  rw [sentences, List.length_map, List.length_take, Nat.min_eq_left h]

theorem sentences_succ {candidate : BaudRate} (h : BaudRate.candidates[n]? = some candidate) :
    sentences target (n + 1) = sentences target n ++
      [(some (.call (.setBaudRate candidate true)), Bytes.ofAscii target.switchSentence)] := by
  rw [sentences, List.take_add_one, h, List.map_append]
  rfl

end BaudAlignment

namespace Journal

variable {target : BaudRate} {tryAll : Bool} {journal : Journal} {now : Instant}

/-- A call that is due: a switch to the speed that comes next, while the line is quiet, or the
sentence, right after the switch to the candidate whose turn it is. -/
def CallDue (target : BaudRate) (tryAll : Bool) (before : Journal) (now : Instant) :
    LineCall → Prop
  | .setBaudRate rate _ => Quiet before now ∧
      rate = BaudAlignment.nextRate target tryAll (sentences before).length
  | .write bytes _ => bytes = Bytes.ofAscii target.switchSentence ∧ tryAll = true ∧
      ∃ candidate, BaudRate.candidates[(sentences before).length]? = some candidate ∧
        before.getLast?.map Prod.snd = some (.call (.setBaudRate candidate true))

/-- Every call, successful or not, was due when it was made. -/
def InOrder (target : BaudRate) (tryAll : Bool) (journal : Journal) : Prop :=
  ∀ before now call, before ++ [(now, .call call)] <+: journal →
    CallDue target tryAll before now call

/-- An answer about the transmitter. -/
theorem InOrder.concat_txEmpty (h : InOrder target tryAll journal) (now : Instant)
    (answer : Bool) : InOrder target tryAll (journal ++ [(now, .txEmpty answer)]) := by
  intro before now' call hprefix
  rcases List.prefix_concat_iff.1 hprefix with hwhole | hprefix
  · obtain ⟨-, hentry⟩ := List.append_inj' hwhole rfl
    cases hentry
  · exact h before now' call hprefix

/-- A call that is due. -/
theorem InOrder.concat_call (h : InOrder target tryAll journal) {call : LineCall}
    (hdue : CallDue target tryAll journal now call) :
    InOrder target tryAll (journal ++ [(now, .call call)]) := by
  intro before now' call' hprefix
  rcases List.prefix_concat_iff.1 hprefix with hwhole | hprefix
  · obtain ⟨rfl, hentry⟩ := List.append_inj' hwhole rfl
    cases hentry
    exact hdue
  · exact h before now' call' hprefix

/-- All sentences were sent, and the last thing that happened is the switch to the target. -/
def Aligned (target : BaudRate) (tryAll : Bool) (journal : Journal) : Prop :=
  (sentences journal).length = BaudAlignment.trialCount tryAll ∧
    ∃ now, journal.getLast? = some (now, .call (.setBaudRate target true))

end Journal

open Journal

/-! ### Moments of an alignment -/

/-- An alignment with its line, and the result of the last poll. -/
structure AlignmentMoment (σ ε : Type) where
  alignment : BaudAlignment
  line : Observed σ
  result : Option (Except (NegotiationError ε) Progress)

/-- A poll at an instant, after the world acted on the line. -/
structure AlignmentPoll (σ : Type) where
  now : Instant
  world : σ → σ

variable {σ ε : Type}

namespace AlignmentMoment

variable {target : BaudRate} {tryAll : Bool} {now : Instant}
  {m : AlignmentMoment σ ε}

/-- Before the first poll. -/
def start (target : BaudRate) (tryAll : Bool) (line : σ) : AlignmentMoment σ ε :=
  ⟨.start target tryAll, .ofLine line, none⟩

/-! ### The invariant -/

/-- What is known at each position.  Before a candidate is tried the line is quiet; while a pause
runs, the last thing that was seen is the empty transmitter. -/
def Stands (target : BaudRate) (tryAll : Bool) (m : AlignmentMoment σ ε) : Prop :=
  match m.alignment.step with
  | .waitTxIdle => sentences m.line.journal = []
  | .probe index => tryAll = true ∧ index ≤ BaudRate.candidates.length ∧
      sentences m.line.journal = BaudAlignment.sentences target index ∧
      Quiet m.line.journal m.line.now
  | .draining index => tryAll = true ∧ index < BaudRate.candidates.length ∧
      sentences m.line.journal = BaudAlignment.sentences target (index + 1)
  | .settling index since => tryAll = true ∧ index < BaudRate.candidates.length ∧
      sentences m.line.journal = BaudAlignment.sentences target (index + 1) ∧
      m.line.journal.getLast? = some (since, .txEmpty true)
  | .done => sentences m.line.journal =
        BaudAlignment.sentences target (BaudAlignment.trialCount tryAll) ∧
      ∃ now, m.line.journal.getLast? = some (now, .call (.setBaudRate target true))

/-- How the last poll ended shows in the last entry.  A failure leaves the alignment at the
operation that failed. -/
def Ended (tryAll : Bool) (m : AlignmentMoment σ ε) : Prop :=
  match m.result with
  | none => m.line.journal = []
  | some (.ok .pending) => ∃ now answer, m.line.journal.getLast? = some (now, .txEmpty answer)
  | some (.ok .ready) => m.alignment.step = .done
  | some (.error _) =>
    (∃ now call, m.line.journal.getLast? = some (now, .call call) ∧ call.ok = false) ∧
      m.alignment.step =
        if tryAll then .probe (sentences m.line.journal).length else .waitTxIdle

/-- What an alignment that was polled last at an instant has to do with the journal of its line. -/
structure Consistent (target : BaudRate) (tryAll : Bool) (now : Instant) (m : AlignmentMoment σ ε) :
    Prop where
  now_eq : m.line.now = now
  target_eq : m.alignment.target = target
  tryAll_eq : m.alignment.tryAll = tryAll
  calls : InOrder target tryAll m.line.journal
  stands : m.Stands target tryAll
  ended : m.Ended tryAll

theorem consistent_start (target : BaudRate) (tryAll : Bool) (line : σ) :
    (start target tryAll line : AlignmentMoment σ ε).Consistent target tryAll ⟨0⟩ where
  now_eq := rfl
  target_eq := rfl
  tryAll_eq := rfl
  calls := fun before _ _ hprefix => by
    have hnil := List.prefix_nil.1 hprefix
    exact absurd hnil (List.append_ne_nil_of_right_ne_nil before (List.cons_ne_nil _ _))
  stands := rfl
  ended := rfl

namespace Consistent

/-- The number of sentences at each position. -/
theorem sent (h : m.Consistent target tryAll now) : ∃ n ≤ BaudAlignment.trialCount tryAll,
    sentences m.line.journal = BaudAlignment.sentences target n := by
  have hstands := h.stands
  cases hstep : m.alignment.step with
  | waitTxIdle =>
    simp only [Stands, hstep] at hstands
    exact ⟨0, Nat.zero_le _, hstands⟩
  | probe index =>
    simp only [Stands, hstep] at hstands
    obtain ⟨rfl, hle, hsentences, -⟩ := hstands
    exact ⟨index, hle, hsentences⟩
  | draining index =>
    simp only [Stands, hstep] at hstands
    obtain ⟨rfl, hlt, hsentences⟩ := hstands
    exact ⟨index + 1, hlt, hsentences⟩
  | settling index since =>
    simp only [Stands, hstep] at hstands
    obtain ⟨rfl, hlt, hsentences, -⟩ := hstands
    exact ⟨index + 1, hlt, hsentences⟩
  | done =>
    simp only [Stands, hstep] at hstands
    exact ⟨_, Nat.le_refl _, hstands.1⟩

/-- When all is done the line was switched to the target last. -/
theorem aligned (h : m.Consistent target tryAll now) (hdone : m.alignment.step = .done) :
    Aligned target tryAll m.line.journal := by
  have hstands := h.stands
  simp only [Stands, hdone] at hstands
  obtain ⟨hsentences, hlast⟩ := hstands
  refine ⟨?_, hlast⟩
  rw [hsentences, BaudAlignment.length_sentences]
  cases tryAll <;> decide

/-- The last poll finished the alignment if and only if it is aligned. -/
theorem ready_iff (h : m.Consistent target tryAll now) :
    m.result = some (.ok .ready) ↔ Aligned target tryAll m.line.journal := by
  have hended := h.ended
  constructor
  · intro hready
    simp only [Ended, hready] at hended
    exact h.aligned hended
  · rintro ⟨-, at_target, hlast⟩
    rcases hresult : m.result with _ | _ | _ | _ <;> simp only [Ended, hresult] at hended
    · rw [hended] at hlast
      cases hlast
    · obtain ⟨⟨now', call, hcall, hfailed⟩, -⟩ := hended
      cases hcall.symm.trans hlast
      cases hfailed
    · obtain ⟨now', answer, hanswer⟩ := hended
      cases hanswer.symm.trans hlast
    · rfl

/-- The last poll failed if and only if its last operation did. -/
theorem failed_iff (h : m.Consistent target tryAll now) : (∃ e, m.result = some (.error e)) ↔
    ∃ now call, m.line.journal.getLast? = some (now, .call call) ∧ call.ok = false := by
  have hended := h.ended
  constructor
  · rintro ⟨e, herror⟩
    simp only [Ended, herror] at hended
    exact hended.1
  · rintro ⟨now', call, hlast, hfailed⟩
    rcases hresult : m.result with _ | _ | _ | _ <;> simp only [Ended, hresult] at hended
    · rw [hended] at hlast
      cases hlast
    · exact ⟨_, rfl⟩
    · obtain ⟨now', answer, hanswer⟩ := hended
      cases hanswer.symm.trans hlast
    · obtain ⟨-, at_target, hswitch⟩ := h.aligned hended
      cases hswitch.symm.trans hlast
      cases hfailed

end Consistent

/-! ### What a poll does -/

/-- The next switch is due: the line is quiet, and `n` sentences were sent. -/
structure SwitchDue (target : BaudRate) (tryAll : Bool) (o : Observed σ) (n : Nat) : Prop where
  calls : InOrder target tryAll o.journal
  quiet : Quiet o.journal o.now
  sentences : sentences o.journal = BaudAlignment.sentences target n
  le : n ≤ BaudRate.candidates.length

namespace SwitchDue

variable {o : Observed σ} {n : Nat}

theorem length_eq (h : SwitchDue target tryAll o n) :
    (Journal.sentences o.journal).length = n := by
  rw [h.sentences, BaudAlignment.length_sentences h.le]

/-- The switch is attempted. -/
theorem switch (h : SwitchDue target tryAll o n) (line : σ) {rate : BaudRate} (ok : Bool)
    (hrate : rate = BaudAlignment.nextRate target tryAll n) :
    SwitchDue target tryAll (o.enter line (.call (.setBaudRate rate ok))) n where
  calls := h.calls.concat_call ⟨h.quiet, by rw [h.length_eq, hrate]⟩
  quiet := h.quiet.concat o.now rfl
  sentences := (sentences_concat_of_none rfl).trans h.sentences
  le := h.le

variable {candidate : BaudRate}

/-- The switch to the next candidate is attempted. -/
theorem switch_candidate (h : SwitchDue target true o n)
    (hcandidate : BaudRate.candidates[n]? = some candidate) (line : σ) (ok : Bool) :
    SwitchDue target true (o.enter line (.call (.setBaudRate candidate ok))) n := by
  refine h.switch line ok ?_
  simp only [BaudAlignment.nextRate, if_true, hcandidate, Option.getD_some]

/-- At the next candidate the sentence is attempted. -/
theorem write (h : SwitchDue target true o n)
    (hcandidate : BaudRate.candidates[n]? = some candidate) (line line' : σ) (ok : Bool) :
    InOrder target true ((o.enter line (.call (.setBaudRate candidate true))).enter line'
      (.call (.write (Bytes.ofAscii target.switchSentence) ok))).journal := by
  have hswitched := h.switch_candidate hcandidate line true
  refine hswitched.calls.concat_call ⟨rfl, rfl, candidate, ?_, ?_⟩
  · rw [hswitched.length_eq, hcandidate]
  · simp only [Observed.enter, List.getLast?_concat]
    rfl

/-- The sentence is not queued. -/
theorem write_failed (h : SwitchDue target true o n)
    (hcandidate : BaudRate.candidates[n]? = some candidate) (line line' : σ) :
    SwitchDue target true ((o.enter line (.call (.setBaudRate candidate true))).enter line'
      (.call (.write (Bytes.ofAscii target.switchSentence) false))) n :=
  have hswitched := h.switch_candidate hcandidate line true
  { calls := h.write hcandidate line line' false
    quiet := hswitched.quiet.concat o.now rfl
    sentences := (sentences_concat_of_none rfl).trans hswitched.sentences
    le := h.le }

/-- The sentence is queued. -/
theorem sentences_write (h : SwitchDue target true o n)
    (hcandidate : BaudRate.candidates[n]? = some candidate) (line line' : σ) :
    Journal.sentences ((o.enter line (.call (.setBaudRate candidate true))).enter line'
        (.call (.write (Bytes.ofAscii target.switchSentence) true))).journal =
      BaudAlignment.sentences target (n + 1) := by
  have hsame := (h.switch_candidate hcandidate line true).sentences
  simp only [Observed.enter] at hsame ⊢
  rw [sentences_concat, hsame, BaudAlignment.sentences_succ hcandidate, List.getLast?_concat]
  rfl

end SwitchDue

namespace Consistent

variable {a a' : BaudAlignment} {o o' : Observed σ} {n : Nat}

/-- A failed operation leaves the alignment where it is. -/
theorem of_failed (htarget : a.target = target) (htryAll : a.tryAll = tryAll)
    (hdue : SwitchDue target tryAll o n)
    (hstep : a.step = if tryAll then .probe n else .waitTxIdle)
    (hcount : tryAll = false → n = 0) {now : Instant} {call : LineCall}
    (hlast : o.journal.getLast? = some (now, .call call)) (hfailed : call.ok = false)
    (e : NegotiationError ε) :
    Consistent target tryAll o.now (⟨a, o, some (.error e)⟩ : AlignmentMoment σ ε) where
  now_eq := rfl
  target_eq := htarget
  tryAll_eq := htryAll
  calls := hdue.calls
  stands := by
    cases tryAll with
    | true =>
      simp only [Stands, hstep, if_true]
      exact ⟨trivial, hdue.le, hdue.sentences, hdue.quiet⟩
    | false =>
      simp only [Stands, hstep, Bool.false_eq_true, if_false]
      rw [hdue.sentences, hcount rfl]
      rfl
  ended := ⟨⟨now, call, hlast, hfailed⟩, by rw [hdue.length_eq]; exact hstep⟩

/-- Before the first candidate, and before the switch to a known speed, the transmitter was seen
empty. -/
theorem due_of_idle (h : m.Consistent target tryAll now) (hstep : m.alignment.step = .waitTxIdle)
    (line : σ) (poll : AlignmentPoll σ) :
    SwitchDue target tryAll ((m.line.visit poll.now poll.world).enter line (.txEmpty true)) 0 := by
  have hnone : sentences m.line.journal = [] := by
    have hstands := h.stands
    simp only [Stands, hstep] at hstands
    exact hstands
  refine ⟨h.calls.concat_txEmpty poll.now _, ?_,
    (sentences_concat_of_none rfl).trans hnone, Nat.zero_le _⟩
  exact ⟨m.line.journal, poll.now, [], rfl, List.forall_mem_nil _, fun hsent => absurd hnone hsent⟩

variable [SerialLine σ ε] {result : Except (NegotiationError ε) Progress}

/-- The switch to the target. -/
theorem of_finish (htarget : a.target = target) (htryAll : a.tryAll = tryAll)
    (hdue : SwitchDue target tryAll o (BaudAlignment.trialCount tryAll))
    (hstep : a.step = if tryAll then .probe (BaudAlignment.trialCount tryAll) else .waitTxIdle)
    (h : a.finish o = (result, a', o')) :
    Consistent target tryAll o.now (⟨a', o', some result⟩ : AlignmentMoment σ ε) := by
  have hrate : a.target =
      BaudAlignment.nextRate target tryAll (BaudAlignment.trialCount tryAll) := by
    rw [htarget]
    cases tryAll <;> rfl
  rcases BaudAlignment.finish_state h with ⟨hset, rfl, rfl⟩ | ⟨e, hset, rfl, rfl⟩
  · obtain ⟨line, rfl⟩ := Observed.setBaudRate_eq hset
    have hdue' := hdue.switch line true hrate
    refine ⟨rfl, htarget, htryAll, hdue'.calls, ⟨hdue'.sentences, o.now, ?_⟩, rfl⟩
    rw [← htarget]
    exact List.getLast?_concat
  · obtain ⟨line, rfl⟩ := Observed.setBaudRate_eq hset
    refine of_failed htarget htryAll (hdue.switch line false hrate) hstep ?_
      List.getLast?_concat rfl _
    rintro rfl
    rfl

/-- The transmitter is asked whether the sentence has left. -/
theorem of_settle (htarget : a.target = target) (htryAll : a.tryAll = true)
    (hcalls : InOrder target true o.journal)
    (hsentences : sentences o.journal = BaudAlignment.sentences target (n + 1))
    (hlt : n < BaudRate.candidates.length) (h : a.settle n o.now o = (result, a', o')) :
    Consistent target true o.now (⟨a', o', some result⟩ : AlignmentMoment σ ε) := by
  obtain ⟨rfl, empty, hempty, rfl⟩ := BaudAlignment.settle_state h
  obtain ⟨line, rfl⟩ := Observed.txEmpty_eq hempty
  have hsame : sentences (o.journal ++ [(o.now, .txEmpty empty)]) =
      BaudAlignment.sentences target (n + 1) :=
    (sentences_concat_of_none rfl).trans hsentences
  refine ⟨rfl, htarget, htryAll, hcalls.concat_txEmpty o.now empty, ?_,
    ⟨o.now, empty, List.getLast?_concat⟩⟩
  cases empty with
  | true => exact ⟨rfl, hlt, hsame, List.getLast?_concat⟩
  | false => exact ⟨rfl, hlt, hsame⟩

/-- A candidate is tried. -/
theorem of_probe (htarget : a.target = target) (htryAll : a.tryAll = true)
    (hdue : SwitchDue target true o n) (h : a.probe n o.now o = (result, a', o')) :
    Consistent target true o.now (⟨a', o', some result⟩ : AlignmentMoment σ ε) := by
  subst htarget
  rcases BaudAlignment.probe_state h with ⟨hend, hfinish⟩ | ⟨candidate, hcandidate, hcases⟩
  · obtain rfl : n = BaudRate.candidates.length :=
      Nat.le_antisymm hdue.le (List.getElem?_eq_none_iff.1 hend)
    exact of_finish (a := { a with step := .probe _ }) rfl htryAll hdue rfl hfinish
  · rcases hcases with ⟨e, hswitch, rfl, rfl⟩ | ⟨o1, hswitch, hcases⟩
    · obtain ⟨line, rfl⟩ := Observed.setBaudRate_eq hswitch
      exact of_failed (a := { a with step := .probe n }) rfl htryAll
        (hdue.switch_candidate hcandidate line false) rfl (fun h => nomatch h)
        List.getLast?_concat rfl _
    · obtain ⟨line, rfl⟩ := Observed.setBaudRate_eq hswitch
      rcases hcases with ⟨e, hwrite, rfl, rfl⟩ | ⟨o2, hwrite, hsettle⟩
      · obtain ⟨line', rfl⟩ := Observed.write_eq hwrite
        exact of_failed (a := { a with step := .probe n }) rfl htryAll
          (hdue.write_failed hcandidate line line') rfl (fun h => nomatch h)
          List.getLast?_concat rfl _
      · obtain ⟨line', rfl⟩ := Observed.write_eq hwrite
        exact of_settle (a := { a with step := .probe n })
          (o := (o.enter line _).enter line' _) rfl htryAll
          (hdue.write hcandidate line line' true) (hdue.sentences_write hcandidate line line')
          (List.getElem?_eq_some_iff.1 hcandidate).1 hsettle

end Consistent

/-! ### Polls -/

variable [SerialLine σ ε]

/-- After another poll. -/
def next (m : AlignmentMoment σ ε) (poll : AlignmentPoll σ) : AlignmentMoment σ ε :=
  let (result, alignment, line) :=
    m.alignment.poll poll.now (m.line.visit poll.now poll.world)
  ⟨alignment, line, some result⟩

/-- After several polls. -/
def after (m : AlignmentMoment σ ε) (polls : List (AlignmentPoll σ)) : AlignmentMoment σ ε :=
  polls.foldl next m

namespace Consistent

/-- **A poll keeps the invariant.** -/
theorem next (h : m.Consistent target tryAll now) (poll : AlignmentPoll σ)
    (hclock : now.micros ≤ poll.now.micros) : (m.next poll).Consistent target tryAll poll.now := by
  rcases hpoll : m.alignment.poll poll.now (m.line.visit poll.now poll.world) with
    ⟨result, a', o'⟩
  have hnext : m.next poll = ⟨a', o', some result⟩ := by simp only [AlignmentMoment.next, hpoll]
  have hstands := h.stands
  rw [hnext]
  rcases BaudAlignment.poll_state hpoll with
    ⟨hstep, ⟨hbusy, rfl, rfl⟩ | ⟨o1, hidle, ⟨hall, hprobe⟩ | ⟨hone, hfinish⟩⟩⟩ |
    ⟨index, hstep, hprobe⟩ | ⟨index, hstep, hsettle⟩ |
    ⟨index, since, hstep, ⟨-, rfl, rfl, rfl⟩ | ⟨hover, hprobe⟩⟩ | ⟨hstep, rfl, rfl, rfl⟩
  · obtain ⟨line, rfl⟩ := Observed.txEmpty_eq hbusy
    refine ⟨rfl, h.target_eq, h.tryAll_eq,
      h.calls.concat_txEmpty poll.now _, ?_,
      ⟨poll.now, false, List.getLast?_concat⟩⟩
    simp only [Stands, hstep] at hstands ⊢
    exact (sentences_concat_of_none rfl).trans hstands
  · obtain ⟨line, rfl⟩ := Observed.txEmpty_eq hidle
    obtain rfl : tryAll = true := h.tryAll_eq.symm.trans hall
    exact of_probe h.target_eq hall (h.due_of_idle hstep line poll) hprobe
  · obtain ⟨line, rfl⟩ := Observed.txEmpty_eq hidle
    obtain rfl : tryAll = false := h.tryAll_eq.symm.trans hone
    exact of_finish h.target_eq hone (h.due_of_idle hstep line poll) hstep hfinish
  · simp only [Stands, hstep] at hstands
    obtain ⟨rfl, hle, hsentences, hquiet⟩ := hstands
    have hdue : SwitchDue target true (m.line.visit poll.now poll.world) index :=
      ⟨h.calls, (h.now_eq ▸ hquiet).mono hclock, hsentences, hle⟩
    exact of_probe h.target_eq h.tryAll_eq hdue hprobe
  · simp only [Stands, hstep] at hstands
    obtain ⟨rfl, hlt, hsentences⟩ := hstands
    exact of_settle (o := m.line.visit poll.now poll.world) h.target_eq h.tryAll_eq h.calls
      hsentences hlt hsettle
  · refine ⟨rfl, h.target_eq, h.tryAll_eq, h.calls, ?_, ?_⟩
    · simp only [Stands, hstep] at hstands ⊢
      exact hstands
    · simp only [Stands, hstep] at hstands
      exact ⟨since, true, hstands.2.2.2⟩
  · simp only [Stands, hstep] at hstands
    obtain ⟨rfl, hlt, hsentences, hlast⟩ := hstands
    obtain ⟨early, hearly⟩ := List.getLast?_eq_some_iff.1 hlast
    have hquiet : Quiet m.line.journal poll.now :=
      ⟨early, since, [], hearly, List.forall_mem_nil _, fun _ => hover⟩
    have hdue : SwitchDue target true (m.line.visit poll.now poll.world) (index + 1) :=
      ⟨h.calls, hquiet, hsentences, hlt⟩
    exact of_probe h.target_eq h.tryAll_eq hdue hprobe
  · refine ⟨rfl, h.target_eq, h.tryAll_eq, h.calls, ?_, hstep⟩
    simp only [Stands, hstep] at hstands ⊢
    exact hstands

/-- **The invariant holds after all polls.** -/
theorem after (h : m.Consistent target tryAll now) {polls : List (AlignmentPoll σ)}
    (hfirst : ∀ poll ∈ polls, now.micros ≤ poll.now.micros)
    (hclock : polls.Pairwise fun earlier later => earlier.now.micros ≤ later.now.micros) :
    ∃ last, (m.after polls).Consistent target tryAll last := by
  induction polls generalizing m now with
  | nil => exact ⟨now, h⟩
  | cons poll polls ih =>
    obtain ⟨hlater, hrest⟩ := List.pairwise_cons.1 hclock
    exact ih (h.next poll (hfirst poll List.mem_cons_self)) hlater hrest

end Consistent

/-! ### What is true after every poll -/

/-- What an alignment has done, and how the last poll ended. -/
structure Rules (target : BaudRate) (tryAll : Bool) (m : AlignmentMoment σ ε) : Prop where
  /-- The candidates are sent the sentence in their order, each once and right after the switch to
  it. -/
  sent : ∃ n ≤ BaudAlignment.trialCount tryAll,
    sentences m.line.journal = BaudAlignment.sentences target n
  /-- Every call, successful or not, was due: no switch with a sentence in the transmitter, or
  before its pause was over. -/
  calls : InOrder target tryAll m.line.journal
  /-- The alignment is finished if and only if it is aligned. -/
  ready : m.result = some (.ok .ready) ↔ Aligned target tryAll m.line.journal
  /-- A finished alignment stays so, and the line is left alone, whatever the clock does. -/
  forGood : m.result = some (.ok .ready) → ∀ polls,
    (m.after polls).result = some (.ok .ready) ∧ (m.after polls).line.journal = m.line.journal
  /-- A poll fails if and only if its last operation does. -/
  failed : (∃ e, m.result = some (.error e)) ↔
    ∃ now call, m.line.journal.getLast? = some (now, .call call) ∧ call.ok = false
  /-- A failure leaves the alignment at the operation that failed. -/
  failedAt : (∃ e, m.result = some (.error e)) → m.alignment.step =
    if tryAll then .probe (sentences m.line.journal).length else .waitTxIdle

/-- When all is done a poll leaves the line alone. -/
theorem after_of_done (hdone : m.alignment.step = .done)
    (hready : m.result = some (.ok .ready)) (polls : List (AlignmentPoll σ)) :
    (m.after polls).result = some (.ok .ready) ∧ (m.after polls).line.journal = m.line.journal := by
  induction polls generalizing m with
  | nil => exact ⟨hready, rfl⟩
  | cons poll polls ih =>
    have hnext : m.next poll =
        ⟨m.alignment, m.line.visit poll.now poll.world, some (.ok .ready)⟩ := by
      simp only [next, BaudAlignment.poll, hdone]
    obtain ⟨hlater, hsame⟩ := ih (m := m.next poll) (by rw [hnext]; exact hdone) (by rw [hnext])
    exact ⟨hlater, hsame.trans (by rw [hnext]; rfl)⟩

namespace Consistent

theorem rules (h : m.Consistent target tryAll now) : m.Rules target tryAll where
  sent := h.sent
  calls := h.calls
  ready := h.ready_iff
  forGood := by
    intro hready
    have hended := h.ended
    simp only [Ended, hready] at hended
    exact after_of_done hended hready
  failed := h.failed_iff
  failedAt := by
    rintro ⟨e, herror⟩
    have hended := h.ended
    simp only [Ended, herror] at hended
    exact hended.2

end Consistent

/-- **What an alignment has done after any polls.**  From the start of an alignment, over a line
that may fail at any time and whose transmitter may be busy at any time, and with a clock that does
not step back, every poll keeps to the rules. -/
theorem aligns_by_rules (target : BaudRate) (tryAll : Bool) (line : σ)
    (polls : List (AlignmentPoll σ))
    (hclock : polls.Pairwise fun earlier later => earlier.now.micros ≤ later.now.micros) :
    Rules target tryAll ((start target tryAll line : AlignmentMoment σ ε).after polls) := by
  obtain ⟨last, hconsistent⟩ :=
    (consistent_start target tryAll line).after (fun _ _ => Nat.zero_le _) hclock
  exact hconsistent.rules

/-- One poll for each candidate and one behind the last, a tenth of a second apart.  At the second
candidate the sentence fails once, and the transmitter is busy behind the fourth one. -/
def interruptedPolls : List (AlignmentPoll ScriptedLine) :=
  [⟨⟨0⟩, id⟩,
   ⟨⟨100000⟩, fun line => { line with failWrite := true }⟩,
   ⟨⟨100000⟩, fun line => { line with failWrite := false }⟩,
   ⟨⟨200000⟩, id⟩,
   ⟨⟨300000⟩, fun line => { line with txAnswers := [false, true] }⟩,
   ⟨⟨310000⟩, id⟩,
   ⟨⟨350000⟩, id⟩,
   ⟨⟨410000⟩, id⟩,
   ⟨⟨510000⟩, id⟩,
   ⟨⟨610000⟩, id⟩]

/-- An interrupted alignment comes to its end in ten polls. -/
theorem aligns_interrupted :
    (interruptedPolls.Pairwise fun earlier later => earlier.now.micros ≤ later.now.micros) ∧
      ((start .b9600 true ScriptedLine.idle).after interruptedPolls).result =
        some (.ok .ready) ∧
      Rules .b9600 true ((start .b9600 true ScriptedLine.idle).after interruptedPolls) := by
  have hclock : interruptedPolls.Pairwise
      fun earlier later => earlier.now.micros ≤ later.now.micros := by
    simp only [interruptedPolls, List.pairwise_cons]
    decide
  exact ⟨hclock, rfl, aligns_by_rules .b9600 true ScriptedLine.idle interruptedPolls hclock⟩

end AlignmentMoment

end GnssLink
