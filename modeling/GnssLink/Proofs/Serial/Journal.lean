import Mathlib.Data.List.Basic
import GnssLink.Serial.Recorder
import GnssLink.Time

/-!
# The journal of a line

An observed line is a serial line around another one, like a recorder.  Its journal also has the
answers about the transmitter, and each entry bears the instant at which it was made.  So it shows
in which order the line was asked, switched and written to, and how much time lay in between.

A *sentence* is a write that succeeded.  It has left when the transmitter is seen empty behind it.
A journal is *quiet* when the last sentence has left and the pause behind it is over.

## Main definitions

* `Sight`, `Observed` — an entry of the journal, and a line with its journal.
* `Journal.sentences` — the sentences, each with what happened right before.
* `Journal.Quiet` — the last sentence has left, and the pause is over.

## Main results

* `Observed.setBaudRate_eq`, `Observed.write_eq`, `Observed.txEmpty_eq` — what is entered.
* `Journal.sentences_concat` — the sentences after another entry.
* `Journal.Quiet.mono`, `Journal.Quiet.concat` — a quiet journal stays so until the next
  sentence.
-/

namespace GnssLink

/-! ### Observed lines -/

/-- An entry of a journal: a call, or an answer about the transmitter. -/
inductive Sight where
  | call (c : LineCall)
  | txEmpty (answer : Bool)
  deriving DecidableEq, Repr

/-- The bytes that were queued, if a write succeeded. -/
def Sight.sentence : Sight → Option Bytes
  | .call (.write bytes true) => some bytes
  | _ => none

/-- Entries in the order of time, each with its instant. -/
abbrev Journal := List (Instant × Sight)

/-- A line, the present instant, and the journal so far. -/
structure Observed (σ : Type) where
  line : σ
  now : Instant
  journal : Journal

namespace Observed

variable {σ ε : Type}

/-- A line of which nothing was seen. -/
def ofLine (line : σ) : Observed σ :=
  ⟨line, ⟨0⟩, []⟩

/-- An observed line at an instant at which the world acted on it. -/
def visit (o : Observed σ) (now : Instant) (world : σ → σ) : Observed σ :=
  ⟨world o.line, now, o.journal⟩

/-- Make an entry and go on with another state of the line. -/
def enter (o : Observed σ) (line : σ) (sight : Sight) : Observed σ :=
  ⟨line, o.now, o.journal ++ [(o.now, sight)]⟩

instance [SerialLine σ ε] : SerialLine (Observed σ) ε where
  hasWaiting o := SerialLine.hasWaiting o.line
  readByte o :=
    let (result, line) := SerialLine.readByte o.line
    (result, { o with line := line })
  write o bytes :=
    let (result, line) := SerialLine.write o.line bytes
    (result, o.enter line (.call (.write bytes result.isOk)))
  txEmpty o :=
    let (answer, line) := SerialLine.txEmpty o.line
    (answer, o.enter line (.txEmpty answer))
  setBaudRate o rate :=
    let (result, line) := SerialLine.setBaudRate o.line rate
    (result, o.enter line (.call (.setBaudRate rate result.isOk)))
  backlog o := SerialLine.backlog o.line
  backlog_readByte := by
    intro o o' byte h
    obtain ⟨hresult, rfl⟩ := Prod.mk.inj h
    exact SerialLine.backlog_readByte (Prod.ext hresult rfl)

variable [SerialLine σ ε] {o o' : Observed σ}

theorem setBaudRate_eq {rate : BaudRate} {result : Except ε Unit}
    (h : SerialLine.setBaudRate o rate = (result, o')) :
    ∃ line, o' = o.enter line (.call (.setBaudRate rate result.isOk)) := by
  obtain ⟨rfl, rfl⟩ := Prod.mk.inj h
  exact ⟨_, rfl⟩

theorem write_eq {bytes : Bytes} {result : Except ε Unit}
    (h : SerialLine.write o bytes = (result, o')) :
    ∃ line, o' = o.enter line (.call (.write bytes result.isOk)) := by
  obtain ⟨rfl, rfl⟩ := Prod.mk.inj h
  exact ⟨_, rfl⟩

theorem txEmpty_eq {answer : Bool} (h : SerialLine.txEmpty o = (answer, o')) :
    ∃ line, o' = o.enter line (.txEmpty answer) := by
  obtain ⟨rfl, rfl⟩ := Prod.mk.inj h
  exact ⟨_, rfl⟩

end Observed

/-! ### Sentences -/

namespace Journal

/-- The sentences of a journal that goes on behind an entry, each with the entry before it. -/
def sentencesBehind : Option Sight → Journal → List (Option Sight × Bytes)
  | _, [] => []
  | before, (_, sight) :: rest =>
    (sight.sentence.toList.map fun bytes => (before, bytes)) ++ sentencesBehind (some sight) rest

/-- The sentences of a journal, each with the entry right before it. -/
def sentences (journal : Journal) : List (Option Sight × Bytes) :=
  sentencesBehind none journal

theorem sentencesBehind_concat (before : Option Sight) (journal : Journal) (now : Instant)
    (sight : Sight) :
    sentencesBehind before (journal ++ [(now, sight)]) = sentencesBehind before journal ++
      sight.sentence.toList.map fun bytes =>
        ((journal.getLast?.map Prod.snd).or before, bytes) := by
  induction journal generalizing before with
  | nil => exact List.append_nil _
  | cons entry journal ih =>
    have hlast : ((entry :: journal).getLast?.map Prod.snd).or before =
        (journal.getLast?.map Prod.snd).or (some entry.2) := by
      rw [List.getLast?_cons]
      cases journal.getLast? <;> rfl
    rw [List.cons_append, sentencesBehind, ih, sentencesBehind, List.append_assoc, hlast]

/-- Another entry is a sentence, or there are as many as before. -/
theorem sentences_concat (journal : Journal) (now : Instant) (sight : Sight) :
    sentences (journal ++ [(now, sight)]) = sentences journal ++
      sight.sentence.toList.map fun bytes => (journal.getLast?.map Prod.snd, bytes) := by
  rw [sentences, sentencesBehind_concat, Option.or_none]
  rfl

/-- An entry that is no sentence. -/
theorem sentences_concat_of_none {journal : Journal} {now : Instant} {sight : Sight}
    (h : sight.sentence = none) : sentences (journal ++ [(now, sight)]) = sentences journal := by
  rw [sentences_concat, h]
  exact List.append_nil _

/-! ### The pause behind a sentence -/

/-- The transmitter was seen empty and nothing was sent since.  If a sentence was sent before, that
is at least the pause ago. -/
def Quiet (journal : Journal) (now : Instant) : Prop :=
  ∃ early idleAt late, journal = early ++ (idleAt, .txEmpty true) :: late ∧
    (∀ entry ∈ late, entry.2.sentence = none) ∧
    (sentences early ≠ [] → Timing.baudSettling.toMicros ≤ now.since idleAt)

/-- At a later instant the pause is still over. -/
theorem Quiet.mono {journal : Journal} {now later : Instant} (h : Quiet journal now)
    (hlater : now.micros ≤ later.micros) : Quiet journal later := by
  obtain ⟨early, idleAt, late, hsplit, hlate, hpause⟩ := h
  refine ⟨early, idleAt, late, hsplit, hlate, fun hsent => ?_⟩
  exact Nat.le_trans (hpause hsent) (Nat.sub_le_sub_right hlater _)

/-- An entry that is no sentence leaves the journal quiet. -/
theorem Quiet.concat {journal : Journal} {now : Instant} (h : Quiet journal now)
    (later : Instant) {sight : Sight} (hsight : sight.sentence = none) :
    Quiet (journal ++ [(later, sight)]) now := by
  obtain ⟨early, idleAt, late, rfl, hlate, hpause⟩ := h
  refine ⟨early, idleAt, late ++ [(later, sight)], by rw [List.append_assoc]; rfl, ?_, hpause⟩
  intro entry hentry
  rcases List.mem_append.1 hentry with hentry | hentry
  · exact hlate entry hentry
  · rw [List.mem_singleton.1 hentry]
    exact hsight

end Journal

end GnssLink
