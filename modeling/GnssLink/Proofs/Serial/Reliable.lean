import GnssLink.Proofs.Serial.Calls

/-!
# Reliable lines

A line is reliable in a class of its states if no operation fails there, the transmitter has always
run empty, and no operation leaves the class.  What the world does to the line is not looked at
here; it has to stay in the class, too.

Over such a line every part of the link takes the way without a failure, and a recorder around it is
as reliable.

## Main definitions

* `Reliable` — no operation fails in a class of states.

## Main results

* `Reliable.drain` — draining succeeds.
* `Reliable.recorder` — a recorded line is as reliable.
* `ScriptedLine.reliable` — a scripted line without a failure is reliable.
-/

namespace GnssLink

/-- No operation fails in a class of states, none leaves it, and the transmitter is always empty. -/
structure Reliable {σ ε : Type} [SerialLine σ ε] (good : σ → Prop) : Prop where
  reads : ∀ {line : σ}, good line → SerialLine.hasWaiting line = true →
    ∃ byte line', SerialLine.readByte line = (.ok byte, line') ∧ good line'
  writes : ∀ {line : σ}, good line → ∀ bytes,
    ∃ line', SerialLine.write line bytes = (.ok (), line') ∧ good line'
  empties : ∀ {line : σ}, good line →
    ∃ line', SerialLine.txEmpty line = (true, line') ∧ good line'
  switches : ∀ {line : σ}, good line → ∀ rate,
    ∃ line', SerialLine.setBaudRate line rate = (.ok (), line') ∧ good line'

namespace Reliable

variable {σ ε : Type} [SerialLine σ ε] {good : σ → Prop}

/-- **Draining succeeds.** -/
theorem drain (hgood : Reliable good) {β : Type} (combine : β → UInt8 → β) (start : β) {line : σ}
    (hline : good line) :
    (SerialLine.drain combine start line).1 = .ok () ∧
      good (SerialLine.drain combine start line).2.2 := by
  fun_induction SerialLine.drain combine start line with
  | case1 start line hwaiting e line' hread =>
    obtain ⟨byte, line1, hok, -⟩ := hgood.reads hline hwaiting
    cases hread.symm.trans hok
  | case2 start line hwaiting byte line' hread hlt ih =>
    obtain ⟨byte1, line1, hok, hline1⟩ := hgood.reads hline hwaiting
    obtain rfl : line1 = line' := congrArg Prod.snd (hok.symm.trans hread)
    exact ih hline1
  | case3 start line hwaiting => exact ⟨rfl, hline⟩

/-- **A recorded line is as reliable.** -/
theorem recorder (hgood : Reliable good) : Reliable fun r : Recorder σ => good r.line where
  reads := by
    intro r hr hwaiting
    obtain ⟨byte, line', hread, hline'⟩ := hgood.reads hr hwaiting
    refine ⟨byte, { r with line := line' }, ?_, hline'⟩
    simp only [SerialLine.readByte] at hread ⊢
    rw [hread]
  writes := by
    intro r hr bytes
    obtain ⟨line', hwrite, hline'⟩ := hgood.writes hr bytes
    refine ⟨r.record line' (.write bytes true), ?_, hline'⟩
    simp only [SerialLine.write] at hwrite ⊢
    rw [hwrite]
    rfl
  empties := by
    intro r hr
    obtain ⟨line', hempty, hline'⟩ := hgood.empties hr
    refine ⟨{ r with line := line' }, ?_, hline'⟩
    simp only [SerialLine.txEmpty] at hempty ⊢
    rw [hempty]
  switches := by
    intro r hr rate
    obtain ⟨line', hset, hline'⟩ := hgood.switches hr rate
    refine ⟨r.record line' (.setBaudRate rate true), ?_, hline'⟩
    simp only [SerialLine.setBaudRate] at hset ⊢
    rw [hset]
    rfl

end Reliable

/-- A scripted line that is to fail nowhere and whose transmitter is always empty. -/
def ScriptedLine.Untroubled (p : ScriptedLine) : Prop :=
  p.readFault = none ∧ p.txAnswers = [true] ∧ p.failSet = false ∧ p.failWrite = false

instance (p : ScriptedLine) : Decidable p.Untroubled :=
  inferInstanceAs (Decidable (_ ∧ _))

/-- A scripted line without a failure is reliable. -/
theorem ScriptedLine.reliable : Reliable ScriptedLine.Untroubled where
  reads := by
    rintro ⟨queue, readFault, txAnswers, failSet, failWrite⟩ ⟨rfl, rfl, rfl, rfl⟩ hwaiting
    cases queue with
    | nil => cases hwaiting
    | cons byte rest => exact ⟨byte, _, rfl, rfl, rfl, rfl, rfl⟩
  writes := by
    rintro ⟨queue, readFault, txAnswers, failSet, failWrite⟩ ⟨rfl, rfl, rfl, rfl⟩ bytes
    exact ⟨_, rfl, rfl, rfl, rfl, rfl⟩
  empties := by
    rintro ⟨queue, readFault, txAnswers, failSet, failWrite⟩ ⟨rfl, rfl, rfl, rfl⟩
    exact ⟨_, rfl, rfl, rfl, rfl, rfl⟩
  switches := by
    rintro ⟨queue, readFault, txAnswers, failSet, failWrite⟩ ⟨rfl, rfl, rfl, rfl⟩ rate
    exact ⟨_, rfl, rfl, rfl, rfl, rfl⟩

end GnssLink
