import GnssLink.Proofs.Link.Completions

/-!
# When an epoch is complete

A message completes the epoch if and only if a position and a velocity are among the messages since
the epoch before it was complete, this message included (`Assembler.completes_by_halves`).
Everything else follows: only a message that bears a half completes an epoch, a report of position,
velocity and time always does, and there are never more complete epochs than positions, or than
velocities.

## Main definitions

* `Message.bearsPosition`, `Message.bearsVelocity` — the messages that bear a half.
* `Assembler.completes` — a message completes the epoch behind the messages before it.
* `Assembler.CompletesByHalves` — what is known of the epochs in some messages.

## Main results

* `Assembler.length_snapshots_le` — every snapshot takes a half of its own.
* `Assembler.completes_by_halves` — the rule, for all messages.
-/

namespace GnssLink

private theorem isSome_getLast?_filterMap {α β : Type} (f : α → Option β) (xs : List α) :
    (xs.filterMap f).getLast?.isSome = xs.any fun x => (f x).isSome := by
  induction xs with
  | nil => rfl
  | cons x rest ih =>
    rw [List.any_cons, ← ih, List.filterMap_cons]
    cases f x <;> simp

namespace Message

/-- The message bears a position. -/
def bearsPosition : Message → Bool
  | position _ | pvt _ => true
  | _ => false

/-- The message bears a velocity. -/
def bearsVelocity : Message → Bool
  | velocity _ | pvt _ => true
  | _ => false

theorem isSome_positionHalf (m : Message) : m.positionHalf.isSome = m.bearsPosition := by
  cases m <;> rfl

theorem isSome_velocityHalf (m : Message) : m.velocityHalf.isSome = m.bearsVelocity := by
  cases m <;> rfl

/-- There is a last position if some message bears one. -/
theorem isSome_getLast?_positions (messages : List Message) :
    (positions messages).getLast?.isSome = messages.any bearsPosition := by
  rw [positions, isSome_getLast?_filterMap]
  exact congrArg messages.any (funext isSome_positionHalf)

/-- The same for the velocity. -/
theorem isSome_getLast?_velocities (messages : List Message) :
    (velocities messages).getLast?.isSome = messages.any bearsVelocity := by
  rw [velocities, isSome_getLast?_filterMap]
  exact congrArg messages.any (funext isSome_velocityHalf)

end Message

namespace Assembler

open Message (bearsPosition bearsVelocity positions velocities)

/-- The latch holds the position of a message that bears one. -/
theorem position_absorb (a : Assembler) (m : Message) :
    (a.absorb m).latch.position = (a.latch.position || m.bearsPosition) := by
  rw [latch_absorb, ← Message.isSome_positionHalf]

/-- The same for the velocity. -/
theorem velocity_absorb (a : Assembler) (m : Message) :
    (a.absorb m).latch.velocity = (a.latch.velocity || m.bearsVelocity) := by
  rw [latch_absorb, ← Message.isSome_velocityHalf]

/-! ### The messages since the last complete epoch -/

/-- A message completes the epoch, behind the messages before it. -/
def completes (before : List Message) (m : Message) : Bool :=
  ((initial.applyAll before).apply m).1.isSome

theorem sinceFrom_cons (a : Assembler) (since : List Message) (m : Message) (rest : List Message) :
    a.sinceFrom since (m :: rest) =
      (a.apply m).2.sinceFrom (if (a.apply m).1.isSome then [] else since ++ [m]) rest := by
  rw [sinceFrom]
  split
  · next happly => simp only [happly, Option.isSome_some, if_true]
  · next happly => simp only [happly, Option.isSome_none, Bool.false_eq_true, if_false]

/-- One more message begins a new epoch if it completes one, and belongs to the present epoch
otherwise. -/
theorem sinceFrom_concat (a : Assembler) (since messages : List Message) (m : Message) :
    a.sinceFrom since (messages ++ [m]) =
      if ((a.applyAll messages).apply m).1.isSome then []
      else a.sinceFrom since messages ++ [m] := by
  induction messages generalizing a since with
  | nil => exact sinceFrom_cons a since m []
  | cons first rest ih =>
    rw [List.cons_append, sinceFrom_cons, ih, sinceFrom_cons]
    rfl

theorem sinceSnapshot_concat (messages : List Message) (m : Message) :
    sinceSnapshot (messages ++ [m]) =
      if completes messages m then [] else sinceSnapshot messages ++ [m] :=
  sinceFrom_concat initial [] messages m

/-- The messages since the last complete epoch are the last ones of all. -/
theorem sinceFrom_suffix (a : Assembler) (since messages : List Message) :
    a.sinceFrom since messages <:+ since ++ messages := by
  induction messages generalizing a since with
  | nil => exact (List.append_nil since).symm ▸ List.suffix_refl since
  | cons m rest ih =>
    rw [sinceFrom_cons]
    split
    · exact (ih _ []).trans ((List.suffix_cons m rest).trans (List.suffix_append since _))
    · have hrest := ih (a.apply m).2 (since ++ [m])
      rwa [← List.append_cons] at hrest

theorem sinceSnapshot_suffix (messages : List Message) : sinceSnapshot messages <:+ messages :=
  sinceFrom_suffix initial [] messages

/-- A message completes the epoch if with it both halves are among those since the last complete
epoch. -/
theorem completes_eq (messages : List Message) (m : Message) :
    completes messages m =
      ((sinceSnapshot messages ++ [m]).any bearsPosition &&
        (sinceSnapshot messages ++ [m]).any bearsVelocity) := by
  obtain ⟨hgathers, -⟩ := gathers_sinceSnapshot messages
  have hlatch := (hgathers.absorb m).latch
  rw [Message.isSome_getLast?_positions, Message.isSome_getLast?_velocities] at hlatch
  rcases (initial.applyAll messages).apply_cases m with ⟨hboth, happly⟩ | ⟨hnot, happly⟩
  · rw [hlatch, EpochLatch.mk.injEq] at hboth
    rw [completes, happly, hboth.1, hboth.2]
    rfl
  · rw [completes, happly, Option.isSome_none, eq_comm, Bool.eq_false_iff, ne_eq, Bool.and_eq_true]
    rintro ⟨hposition, hvelocity⟩
    rw [hposition, hvelocity] at hlatch
    exact hnot hlatch

/-- Before a message completes the epoch, a half is missing; so the message bears one. -/
theorem bears_of_completes {messages : List Message} {m : Message}
    (h : completes messages m = true) : m.bearsPosition = true ∨ m.bearsVelocity = true := by
  obtain ⟨hgathers, hopen⟩ := gathers_sinceSnapshot messages
  rw [completes_eq, Bool.and_eq_true, List.any_append, List.any_append] at h
  obtain ⟨hposition, hvelocity⟩ := h
  -- The half that was missing can only have come with this message.
  rcases hgathers.missing hopen with hnone | hnone
  · left
    have hany := Message.isSome_getLast?_positions (sinceSnapshot messages)
    rw [hnone] at hany
    rw [← hany] at hposition
    simpa using hposition
  · right
    have hany := Message.isSome_getLast?_velocities (sinceSnapshot messages)
    rw [hnone] at hany
    rw [← hany] at hvelocity
    simpa using hvelocity

/-! ### The number of complete epochs -/

/-- Every snapshot takes a half of its own, which is in the latch already or arrives.  `half` reads
one half off the latch and `bears` tells which messages bear it. -/
theorem length_snapshots_le {half : EpochLatch → Bool} {bears : Message → Bool}
    (hboth : half ⟨true, true⟩ = true) (hclear : half .clear = false)
    (habsorb : ∀ (a : Assembler) m, half (a.absorb m).latch = (half a.latch || bears m))
    (a : Assembler) (messages : List Message) :
    (a.snapshots messages).length ≤ (half a.latch).toNat + messages.countP bears := by
  induction messages generalizing a with
  | nil => exact Nat.zero_le _
  | cons m rest ih =>
    have hrest := ih (a.apply m).2
    have harrives : (half (a.absorb m).latch).toNat ≤
        (half a.latch).toNat + if bears m then 1 else 0 := by
      rw [habsorb]
      cases half a.latch <;> cases bears m <;> decide
    rw [snapshots, List.length_append, List.countP_cons]
    -- A snapshot empties the latch, so the next one cannot count the same half again.
    rcases a.apply_cases m with ⟨hfull, happly⟩ | ⟨-, happly⟩
    · rw [happly, hclear, Bool.toNat_false] at hrest
      rw [hfull, hboth, Bool.toNat_true] at harrives
      rw [happly, Option.toList_some, List.length_singleton]
      omega
    · rw [happly] at hrest
      rw [happly, Option.toList_none, List.length_nil]
      dsimp only at hrest ⊢
      omega

/-! ### The rule -/

/-- What is known of the epochs in some messages. -/
structure CompletesByHalves (messages : List Message) : Prop where
  /-- A message completes the epoch if and only if a position and a velocity are among the messages
  since the last complete epoch, this one included. -/
  completes_iff : ∀ m, completes messages m = true ↔
    (∃ p ∈ sinceSnapshot messages ++ [m], p.bearsPosition = true) ∧
      (∃ v ∈ sinceSnapshot messages ++ [m], v.bearsVelocity = true)
  /-- A message that completes the epoch ends it; every other one belongs to it. -/
  since : ∀ m, sinceSnapshot (messages ++ [m]) =
    if completes messages m then [] else sinceSnapshot messages ++ [m]
  /-- A message that completes the epoch bears one of its halves. -/
  bears : ∀ m, completes messages m = true → m.bearsPosition = true ∨ m.bearsVelocity = true
  /-- A report of position, velocity and time completes the epoch. -/
  pvt : ∀ r, completes messages (.pvt r) = true
  /-- No more epochs are complete than messages bear a position. -/
  positions : (initial.snapshots messages).length ≤ messages.countP bearsPosition
  /-- No more epochs are complete than messages bear a velocity. -/
  velocities : (initial.snapshots messages).length ≤ messages.countP bearsVelocity
  /-- The latch never holds both halves. -/
  latch : (initial.applyAll messages).latch ≠ ⟨true, true⟩

/-- **An epoch is complete as soon as both halves were applied since the last one.** -/
theorem completes_by_halves (messages : List Message) : CompletesByHalves messages := by
  have hiff : ∀ m, completes messages m = true ↔
      (∃ p ∈ sinceSnapshot messages ++ [m], p.bearsPosition = true) ∧
        (∃ v ∈ sinceSnapshot messages ++ [m], v.bearsVelocity = true) := by
    intro m
    rw [completes_eq, Bool.and_eq_true, List.any_eq_true, List.any_eq_true]
  constructor
  case completes_iff => exact hiff
  case since => exact sinceSnapshot_concat messages
  case bears => exact fun m => bears_of_completes
  case pvt =>
    intro r
    have hmem : Message.pvt r ∈ sinceSnapshot messages ++ [.pvt r] := by simp
    exact (hiff _).2 ⟨⟨_, hmem, rfl⟩, ⟨_, hmem, rfl⟩⟩
  case positions =>
    have hle : (initial.snapshots messages).length ≤ 0 + messages.countP bearsPosition :=
      length_snapshots_le rfl rfl position_absorb initial messages
    rwa [Nat.zero_add] at hle
  case velocities =>
    have hle : (initial.snapshots messages).length ≤ 0 + messages.countP bearsVelocity :=
      length_snapshots_le rfl rfl velocity_absorb initial messages
    rwa [Nat.zero_add] at hle
  case latch => exact (gathers_sinceSnapshot messages).2

end Assembler

end GnssLink
