import Mathlib.Data.List.Induction
import Mathlib.Data.Nat.Basic
import Mathlib.Order.MinMax
import GnssLink.Negotiation.Capabilities
import GnssLink.Proofs.Message.Fields
import GnssLink.Proofs.Message.Texts

/-!
# What version reports teach

Galileo is marked in a version report if and only if the marker stands in one of its extension
slots, in front of the padding (`VersionReport.marksGalileo_of_payload`).

What is known after some reports depends on all of them: the generation is the highest one that any
of them names, whatever their order, and Galileo is known if and only if some report lists systems
and marks Galileo when the generation, that report included, was known to be late enough
(`Capabilities.learned_from`).

## Main definitions

* `Generation.highest`, `Generation.IsHighest` — the highest of some generations.
* `Capabilities.learnAll` — what is known after some reports.
* `VersionReport.NamesGalileo` — a report that tells of Galileo.
* `Capabilities.LearnedFrom` — what is known of learning.

## Main results

* `Generation.rank_injective` — the generations are in a linear order, that of their ranks.
* `VersionReport.marksGalileo_of_payload` — where the marker has to stand in a payload.
* `Generation.ofHardware_eq_iff` — the text of a slot decides on the generation.
* `Capabilities.learned_from` — the rule for all sequences of reports.
-/

namespace GnssLink

/-! ### The marker -/

namespace VersionReport

theorem marksGalileo_iff {v : VersionReport} : v.marksGalileo = true ↔
    ∃ slot ∈ Bytes.slots extensionWidth v.extensions, galileoMarker <:+: Bytes.untilNul slot := by
  simp only [marksGalileo, extensionTexts, List.any_map, List.any_eq_true, Function.comp_apply,
    Bytes.contains_iff_infix]

/-- **Where the marker has to stand** in the payload of a report: behind the version slots, inside
one extension slot and inside the payload, and with no NUL byte in front of its end in that slot. -/
theorem marksGalileo_of_payload {payload : Bytes} (hlong : 40 ≤ payload.length) :
    ∃ v, layout.decode payload = .ok v ∧
      (v.marksGalileo = true ↔ ∃ k p, payload.slice p 3 = Bytes.ofAscii "GAL" ∧
        40 + 30 * k ≤ p ∧ p + 3 ≤ min (40 + 30 * (k + 1)) payload.length ∧
        ∀ i, 40 + 30 * k ≤ i → i < p + 3 → payload[i]? ≠ some 0) := by
  refine ⟨ofPayload payload, reads.decode_of_le hlong, ?_⟩
  rw [marksGalileo_iff]
  exact Bytes.marked_iff (by decide) (by decide)

/-- The marker alone in a slot that is cut short behind it. -/
theorem marksGalileo_of_cutSlot :
    40 ≤ (List.replicate 40 0 ++ Bytes.ofAscii "GAL").length ∧
      ∃ v, layout.decode (List.replicate 40 0 ++ Bytes.ofAscii "GAL") = .ok v ∧
        v.marksGalileo = true := by
  have hlong : 40 ≤ (List.replicate 40 0 ++ Bytes.ofAscii "GAL").length := by decide
  obtain ⟨v, hdecode, hmarks⟩ := marksGalileo_of_payload hlong
  refine ⟨hlong, v, hdecode, hmarks.2 ⟨0, 40, by decide, by decide, by decide, ?_⟩⟩
  intro i hfirst hlast
  have hi : i = 40 ∨ i = 41 ∨ i = 42 := by omega
  rcases hi with rfl | rfl | rfl <;> decide

end VersionReport

/-! ### Generations -/

namespace Generation

variable {g h next : Generation} {gs gs' : List Generation}

theorem rank_injective : Function.Injective rank := by
  intro a b heq
  cases a <;> cases b <;> first | rfl | cases heq

instance : LT Generation where
  lt a b := a.rank < b.rank

instance : DecidableLT Generation := fun a b =>
  inferInstanceAs (Decidable (a.rank < b.rank))

instance : Min Generation where
  min a b := if a ≤ b then a else b

/-- The order of the ranks.  It keeps the comparisons that the generations have already, and adds
the laws of a linear order. -/
instance : LinearOrder Generation :=
  rank_injective.linearOrder rank .rfl .rfl
    (fun _ _ => (apply_ite rank _ _ _).trans (min_def _ _).symm)
    (fun _ _ => (apply_ite rank _ _ _).trans (max_def _ _).symm) fun _ _ => rfl

/-- The generation is the highest of some: none of them is above it and it is one of them, or there
are none and it is the unknown one. -/
structure IsHighest (g : Generation) (gs : List Generation) : Prop where
  le : ∀ h ∈ gs, h ≤ g
  attained : g ∈ gs ∨ gs = [] ∧ g = unknown

theorem isHighest_nil : unknown.IsHighest [] :=
  ⟨fun _ hmem => absurd hmem List.not_mem_nil, .inr ⟨rfl, rfl⟩⟩

/-- One more generation. -/
theorem IsHighest.concat (hg : g.IsHighest gs) (next : Generation) :
    (max g next).IsHighest (gs ++ [next]) where
  le h hmem := by
    rcases List.mem_append.1 hmem with hold | hnext
    · exact le_trans (hg.le h hold) (le_max_left g next)
    · obtain rfl := List.mem_singleton.1 hnext
      exact le_max_right g h
  attained := by
    refine .inl ?_
    rcases max_choice g next with hmax | hmax
    · rcases hg.attained with hmem | ⟨rfl, rfl⟩
      · rw [hmax]
        exact List.mem_append_left _ hmem
      · -- nothing is below the unknown generation
        have hnext : next ≤ unknown := hmax ▸ le_max_right unknown next
        rw [hmax, le_antisymm hnext (Nat.zero_le next.rank)]
        exact List.mem_singleton_self _
    · rw [hmax]
      exact List.mem_append_right _ (List.mem_singleton_self next)

theorem IsHighest.eq_of_perm (hg : g.IsHighest gs) (hh : h.IsHighest gs') (hperm : gs.Perm gs') :
    g = h := by
  rcases hg.attained with hmem | ⟨rfl, rfl⟩
  · rcases hh.attained with hmem' | ⟨rfl, -⟩
    · exact le_antisymm (hh.le g (hperm.mem_iff.1 hmem)) (hg.le h (hperm.mem_iff.2 hmem'))
    · exact absurd (hperm.mem_iff.1 hmem) List.not_mem_nil
  · rcases hh.attained with hmem' | ⟨-, rfl⟩
    · exact absurd (hperm.mem_iff.2 hmem') List.not_mem_nil
    · rfl

/-- No two generations have the same text. -/
theorem hardwareTexts_unique : ∀ entry ∈ hardwareTexts, ∀ entry' ∈ hardwareTexts,
    Bytes.ofAscii entry.1 = Bytes.ofAscii entry'.1 → entry.2 = entry'.2 := by
  decide

/-- **The text of a slot decides on the generation:** it is the one with that text, and unknown if
there is none. -/
theorem ofHardware_eq_iff {slot : Bytes} (hg : g ≠ unknown) : ofHardware slot = g ↔
    ∃ text, (text, g) ∈ hardwareTexts ∧ slot.HoldsText (Bytes.ofAscii text) := by
  simp only [← Bytes.untilNul_eq_iff]
  rw [ofHardware]
  split
  · next entry hfind =>
    have hentry := List.mem_of_find?_eq_some hfind
    have hmatches := List.find?_some hfind
    have htext : Bytes.ofAscii entry.1 = Bytes.untilNul slot := eq_of_beq hmatches
    constructor
    · rintro rfl
      exact ⟨entry.1, hentry, htext.symm⟩
    · rintro ⟨text, hmem, hslot⟩
      exact hardwareTexts_unique _ hentry _ hmem (htext.trans hslot)
  · next hnone =>
    refine iff_of_false hg.symm ?_
    rintro ⟨text, hmem, hslot⟩
    exact List.find?_eq_none.1 hnone _ hmem (beq_iff_eq.2 hslot.symm)

end Generation

/-! ### Learning -/

namespace VersionReport

/-- The generation that a report names. -/
def generation (v : VersionReport) : Generation :=
  .ofHardware v.hardware

/-- The report tells of Galileo: the digit at index 9 of the software version is above two, and
some extension slot has the marker in its text. -/
def TellsGalileo (v : VersionReport) : Prop :=
  (∃ digit, v.software[9]? = some digit ∧ 0x32 < digit) ∧
    ∃ slot ∈ Bytes.slots extensionWidth v.extensions, galileoMarker <:+: Bytes.untilNul slot

theorem tellsGalileo_iff {v : VersionReport} :
    v.TellsGalileo ↔ v.listsSystems = true ∧ v.marksGalileo = true := by
  have hlists : v.listsSystems = true ↔ ∃ digit, v.software[9]? = some digit ∧ 0x32 < digit := by
    cases hdigit : v.software[9]? <;> simp [listsSystems, hdigit]
  rw [TellsGalileo, hlists, marksGalileo_iff]

end VersionReport

namespace Capabilities

variable {c : Capabilities} {reports : List VersionReport} {v : VersionReport}

/-- What is known after some reports, in order. -/
def learnAll (c : Capabilities) (reports : List VersionReport) : Capabilities :=
  reports.foldl learn c

theorem learnAll_append (c : Capabilities) (reports more : List VersionReport) :
    c.learnAll (reports ++ more) = (c.learnAll reports).learnAll more :=
  List.foldl_append

theorem learnAll_concat (c : Capabilities) (reports : List VersionReport) (v : VersionReport) :
    c.learnAll (reports ++ [v]) = (c.learnAll reports).learn v :=
  learnAll_append c reports [v]

theorem generation_learn (c : Capabilities) (v : VersionReport) :
    (c.learn v).generation = max c.generation v.generation := rfl

theorem galileo_learn : (c.learn v).galileo = true ↔
    c.galileo = true ∨ Generation.ublox8 ≤ (c.learn v).generation ∧ v.TellsGalileo := by
  rw [VersionReport.tellsGalileo_iff]
  simp only [learn, Bool.or_eq_true, Bool.and_eq_true, decide_eq_true_eq, and_assoc]

theorem generation_le_learn (c : Capabilities) (v : VersionReport) :
    c.generation ≤ (c.learn v).generation :=
  le_max_left _ _

/-- Taking up a report once more changes nothing. -/
theorem learn_learn_self (c : Capabilities) (v : VersionReport) :
    (c.learn v).learn v = c.learn v := by
  have hgeneration : ((c.learn v).learn v).generation = (c.learn v).generation :=
    max_eq_left (le_max_right c.generation v.generation)
  have hgalileo : ((c.learn v).learn v).galileo = (c.learn v).galileo := by
    rw [Bool.eq_iff_iff, galileo_learn, hgeneration, galileo_learn, or_assoc, or_self]
  exact congrArg₂ mk hgeneration hgalileo

/-- Reports only raise what is known. -/
theorem learnAll_raises (c : Capabilities) (reports : List VersionReport) :
    c.generation ≤ (c.learnAll reports).generation ∧
      (c.galileo = true → (c.learnAll reports).galileo = true) := by
  induction reports generalizing c with
  | nil => exact ⟨le_refl c.generation, id⟩
  | cons v rest ih =>
    obtain ⟨hgeneration, hgalileo⟩ := ih (c.learn v)
    exact ⟨(c.generation_le_learn v).trans hgeneration,
      fun hknown => hgalileo (galileo_learn.2 (.inl hknown))⟩

/-- The generation is the highest that any report names. -/
theorem isHighest_learnAll (reports : List VersionReport) :
    (initial.learnAll reports).generation.IsHighest (reports.map VersionReport.generation) := by
  induction reports using List.reverseRecOn with
  | nil => exact Generation.isHighest_nil
  | append_singleton reports v ih =>
    rw [learnAll_concat, generation_learn, List.map_append]
    exact ih.concat v.generation

/-- Galileo is known if some report told of it when the generation was late enough. -/
theorem galileo_learnAll : (initial.learnAll reports).galileo = true ↔
    ∃ before v, before ++ [v] <+: reports ∧
      Generation.ublox8 ≤ (initial.learnAll (before ++ [v])).generation ∧ v.TellsGalileo := by
  induction reports using List.reverseRecOn with
  | nil =>
    refine iff_of_false Bool.false_ne_true ?_
    rintro ⟨before, v, hbefore, -⟩
    exact List.append_ne_nil_of_right_ne_nil before (List.cons_ne_nil v [])
      (List.prefix_nil.1 hbefore)
  | append_singleton reports last ih =>
    rw [learnAll_concat, galileo_learn, ih, ← learnAll_concat]
    constructor
    · rintro (⟨before, v, hbefore, htells⟩ | htells)
      · exact ⟨before, v, hbefore.trans (List.prefix_append _ _), htells⟩
      · exact ⟨reports, last, List.prefix_rfl, htells⟩
    · rintro ⟨before, v, hbefore, htells⟩
      -- the report that told of it is the last one, or one of those before
      rcases List.prefix_concat_iff.1 hbefore with heq | hearlier
      · obtain ⟨rfl, hlast⟩ := List.append_inj' heq rfl
        obtain rfl := List.singleton_inj.1 hlast
        exact .inr htells
      · exact .inl ⟨before, v, hearlier, htells⟩

/-- What is known of learning from some reports. -/
structure LearnedFrom (reports : List VersionReport) : Prop where
  /-- The generation is the highest that any report names. -/
  generation : ∀ g, (initial.learnAll reports).generation = g ↔
    g.IsHighest (reports.map VersionReport.generation)
  /-- The order of the reports does not matter for it. -/
  reordered : ∀ reports', reports.Perm reports' →
    (initial.learnAll reports').generation = (initial.learnAll reports).generation
  /-- Galileo is known if and only if one of the reports told of it and, that report included, some
  report had named a generation that is late enough. -/
  galileo : (initial.learnAll reports).galileo = true ↔
    ∃ before v, before ++ [v] <+: reports ∧
      (∃ g, g.IsHighest ((before ++ [v]).map VersionReport.generation) ∧ Generation.ublox8 ≤ g) ∧
      v.TellsGalileo
  /-- Later reports only raise what is known. -/
  raised : ∀ more,
    (initial.learnAll reports).generation ≤ (initial.learnAll (reports ++ more)).generation ∧
      ((initial.learnAll reports).galileo = true →
        (initial.learnAll (reports ++ more)).galileo = true)
  /-- The last report teaches nothing more. -/
  again : ∀ v, reports.getLast? = some v →
    (initial.learnAll reports).learn v = initial.learnAll reports
  /-- A slot, of whatever length, names a known generation if and only if its whole text is one of
  the table, and then the one of that text. -/
  named : ∀ slot g, g ≠ Generation.unknown → (Generation.ofHardware slot = g ↔
    ∃ text, (text, g) ∈ Generation.hardwareTexts ∧ slot.HoldsText (Bytes.ofAscii text))

/-- **What version reports teach**, in every sequence of reports. -/
theorem learned_from (reports : List VersionReport) : LearnedFrom reports where
  generation g := by
    constructor
    · rintro rfl
      exact isHighest_learnAll reports
    · intro hg
      exact (isHighest_learnAll reports).eq_of_perm hg (.refl _)
  reordered reports' hperm :=
    (isHighest_learnAll reports').eq_of_perm (isHighest_learnAll reports) (hperm.symm.map _)
  galileo := by
    rw [galileo_learnAll]
    refine exists₂_congr fun before v => and_congr_right fun _ => and_congr_left fun _ => ?_
    constructor
    · exact fun hle => ⟨_, isHighest_learnAll _, hle⟩
    · rintro ⟨g, hg, hle⟩
      rwa [(isHighest_learnAll _).eq_of_perm hg (.refl _)]
  raised more := by
    rw [learnAll_append]
    exact learnAll_raises _ more
  again v hlast := by
    obtain ⟨before, rfl⟩ := List.getLast?_eq_some_iff.1 hlast
    rw [learnAll_concat, learn_learn_self]
  named _ _ hg := Generation.ofHardware_eq_iff hg

end Capabilities

end GnssLink
