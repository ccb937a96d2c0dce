import GnssLink.Proofs.Negotiation.Remaining

/-!
# The ids of the commands

A reply is matched with a command by the id alone, so it matters which commands of a session share
an id.  No command of a plan has the id of the version request.  Many steps of a plan share one id;
but a step that need not be answered shares its id with no later step.

What is written is the wire form of a command, from which its type can be read back, or a text
sentence, which is not the wire form of anything.

## Main definitions

* `LineCall.Carries` — the frame of a command of a type was written.
* `PlanStep.FreesId` — a step does not stand in the way of a later one.

## Main results

* `ConfigCommand.id_ne_versionRequest`, `Plan.pairwise_make` — which ids differ.
* `LineCall.Carries.type_eq` — the type of a command is read back from its frame.
* `BaudAlignment.not_carries_of_mem_trials` — a text sentence is no frame.
-/

namespace GnssLink

/-! ### Which ids differ -/

theorem ConfigCommand.id_ne_versionRequest (c : ConfigCommand) :
    c.type.id ≠ versionRequest.type.id := by
  cases c <;> exact fun h => nomatch h

/-- If a step need not be answered, a later one has another id. -/
def PlanStep.FreesId (step later : PlanStep) : Prop :=
  step.policy = .answeredOrTimeout → step.command.type.id ≠ later.command.type.id

namespace Plan

/-- Steps that have to be answered may share their ids with later steps. -/
theorem pairwise_append_of_answered {first rest : Plan}
    (hfirst : ∀ step ∈ first, step.policy ≠ .answeredOrTimeout)
    (hrest : rest.Pairwise PlanStep.FreesId) : (first ++ rest).Pairwise PlanStep.FreesId := by
  refine List.pairwise_append.2 ⟨?_, hrest, ?_⟩
  · exact List.pairwise_of_forall_mem_list fun step hstep _ _ hpolicy =>
      absurd hpolicy (hfirst step hstep)
  · exact fun step hstep _ _ hpolicy => absurd hpolicy (hfirst step hstep)

theorem policy_of_mem_group {entries : List (ConfigCommand × WaitPolicy)}
    (h : ∀ entry ∈ entries, entry.2 ≠ .answeredOrTimeout) :
    ∀ step ∈ group entries, step.policy ≠ .answeredOrTimeout := by
  cases entries with
  | nil => exact fun step hstep => nomatch hstep
  | cons entry entries =>
    simp only [group, List.forall_mem_cons, List.forall_mem_map] at h ⊢
    exact h

theorem policy_of_mem_sentencesOff :
    ∀ entry ∈ sentencesOff, entry.2 ≠ .answeredOrTimeout := by
  simp [sentencesOff]

theorem policy_of_mem_reports (tier : Tier) (period : UInt16) :
    ∀ entry ∈ reports tier period, entry.2 ≠ .answeredOrTimeout := by
  cases tier <;> simp [reports, Tier.reportRates]

/-- **A step that need not be answered shares its id with no later step.** -/
theorem pairwise_make (settings : Settings) (known : Capabilities) :
    (make settings known).Pairwise PlanStep.FreesId := by
  simp only [make, groups, List.flatMap_cons, List.flatMap_nil, List.append_nil]
  refine pairwise_append_of_answered (policy_of_mem_group (by simp)) ?_
  refine pairwise_append_of_answered (policy_of_mem_group policy_of_mem_sentencesOff) ?_
  refine pairwise_append_of_answered (policy_of_mem_group (policy_of_mem_reports _ _)) ?_
  -- The two optional groups are left: the augmentation service and the satellite systems.
  cases systemChoice settings known with
  | none => exact List.pairwise_singleton _ _
  | some choice => exact List.pairwise_pair.2 fun _ h => nomatch h

/-- The same for two places in a plan. -/
theorem id_ne_of_lt {settings : Settings} {known : Capabilities} {i j : Nat}
    {step later : PlanStep} (hstep : (make settings known)[i]? = some step)
    (hlater : (make settings known)[j]? = some later) (hlt : i < j)
    (hpolicy : step.policy = .answeredOrTimeout) :
    step.command.type.id ≠ later.command.type.id := by
  obtain ⟨hi, rfl⟩ := List.getElem?_eq_some_iff.1 hstep
  obtain ⟨hj, rfl⟩ := List.getElem?_eq_some_iff.1 hlater
  exact List.pairwise_iff_getElem.1 (pairwise_make settings known) i j hi hj hlt hpolicy

end Plan

/-! ### What a write carries -/

/-- The frame of a command of a type was written. -/
def LineCall.Carries (call : LineCall) (type : MessageType) : Prop :=
  ∃ payload, call = .write (Frame.mk type payload).wire true

/-- The type of a command is read back from its frame. -/
theorem LineCall.Carries.type_eq {call : LineCall} {type type' : MessageType}
    (h : call.Carries type) (h' : call.Carries type') : type = type' := by
  obtain ⟨payload, rfl⟩ := h
  obtain ⟨payload', hwrite⟩ := h'
  have hwire := (LineCall.write.inj hwrite).1
  simp only [Frame.wire, Frame.body, List.cons_append, List.cons.injEq, true_and] at hwire
  obtain ⟨hcls, hid, -⟩ := hwire
  cases type
  cases type'
  simp only at hcls hid
  rw [hcls, hid]

theorem Command.Fits.carries {c : Command} (h : c.Fits) :
    (LineCall.write c.transmitted true).Carries c.type := by
  obtain ⟨n, buffer, -, payload, hwire⟩ := h
  exact ⟨payload, by rw [hwire]⟩

theorem VersionQuery.carries_requestCall : requestCall.Carries versionRequest.type :=
  versionRequest_fits.carries

theorem PlanStep.carries_call (step : PlanStep) : step.call.Carries step.command.type :=
  step.command.fits.carries

theorem LineCall.not_carries_setBaudRate (rate : BaudRate) (type : MessageType) :
    ¬ (LineCall.setBaudRate rate true).Carries type := by
  rintro ⟨payload, h⟩
  cases h

/-- A text sentence begins with a dollar sign, a frame does not. -/
theorem BaudAlignment.not_carries_of_mem_trials {target : BaudRate} {candidates : List BaudRate}
    {call : LineCall} (h : call ∈ trials target candidates) (type : MessageType) :
    ¬ call.Carries type := by
  obtain ⟨candidate, -, hcall⟩ := List.mem_flatMap.1 h
  rcases List.mem_cons.1 hcall with rfl | hcall
  · exact LineCall.not_carries_setBaudRate candidate type
  · rw [List.mem_singleton.1 hcall]
    rintro ⟨payload, hwrite⟩
    have hwire := (LineCall.write.inj hwrite).1
    have hhead := congrArg List.head? hwire
    simp [Bytes.ofAscii, BaudRate.switchSentence, Sentence.ofBody, Frame.wire, Frame.sync1] at hhead

end GnssLink
