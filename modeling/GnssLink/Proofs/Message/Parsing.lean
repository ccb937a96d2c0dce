import GnssLink.Proofs.Message.Fields

/-!
# Which payloads are read

Whether a payload is read depends on its type and its length alone.  Of nine types the payload is
read by a layout, and fails if and only if it is shorter than the least length of that layout; the
error names this length and that of the payload.  A payload of any other type is of no further use,
and never fails.  So no read ever leaves the payload (`Message.parsed_by_length`).

## Main definitions

* `Message.leastLengths` — the types that are read, with their least lengths.
* `Message.type` — the type that a message is of.
* `Message.ParsedByLength` — what is known of reading a payload.

## Main results

* `Message.parse_cases` — the three things that can come of a payload.
* `Message.parsed_by_length` — the rule, for all types and payloads.
-/

namespace GnssLink

namespace Message

/-! ### Types -/

/-- The types that are read, and the length of the shortest payload of each. -/
def leastLengths : List (MessageType × Nat) :=
  [(.navPosLlh, 28), (.navStatus, 16), (.navSol, 52), (.navVelNed, 36), (.navTimeUtc, 20),
    (.navPvt, 84), (.monVer, 40), (.ackAck, 2), (.ackNak, 2)]

theorem mem_leastLengths_iff {type : MessageType} {least : Nat} :
    (type, least) ∈ leastLengths ↔ ∃ l ∈ layouts, l.type = type ∧ l.minLength = least := by
  have htable : leastLengths = layouts.map fun l => (l.type, l.minLength) := rfl
  simp only [htable, List.mem_map, Prod.mk.injEq]

/-- The type that a message is of. -/
def type : Message → MessageType
  | position _ => .navPosLlh
  | fix _ => .navStatus
  | summary _ => .navSol
  | velocity _ => .navVelNed
  | time _ => .navTimeUtc
  | pvt _ => .navPvt
  | version _ => .monVer
  | accepted _ => .ackAck
  | refused _ => .ackNak
  | other type => type

/-- The message is of a type with a layout. -/
def isKnown : Message → Bool
  | other _ => false
  | _ => true

/-! ### The three cases -/

theorem parse_of_unknown {type : MessageType} (h : ∀ l ∈ layouts, l.type ≠ type)
    (payload : Bytes) : parse type payload = .ok (.other type) := by
  have hnone : layouts.find? (·.type = type) = none :=
    List.find?_eq_none.2 fun l hl => by simpa using h l hl
  rw [parse, hnone]

/-- No two layouts are of one type. -/
theorem find?_layouts {l : Layout Message} (h : l ∈ layouts) :
    layouts.find? (·.type = l.type) = some l := by
  simp only [layouts, List.mem_cons, List.not_mem_nil, or_false] at h
  rcases h with rfl | rfl | rfl | rfl | rfl | rfl | rfl | rfl | rfl <;> rfl

theorem parse_of_short {l : Layout Message} (h : l ∈ layouts) {payload : Bytes}
    (hshort : payload.length < l.minLength) :
    parse l.type payload = .error (.tooShort l.type l.minLength payload.length) := by
  rw [parse, find?_layouts h]
  exact l.decode_of_lt hshort

/-- Every layout reads fields that make up a message of its type. -/
theorem exists_reads {l : Layout Message} (h : l ∈ layouts) : ∃ fields, l.Reads fields ∧
    ∀ payload, (fields payload).type = l.type ∧ (fields payload).isKnown = true := by
  simp only [layouts, List.mem_cons, List.not_mem_nil, or_false] at h
  rcases h with rfl | rfl | rfl | rfl | rfl | rfl | rfl | rfl | rfl
  · exact ⟨_, PositionReport.reads.map position, fun _ => ⟨rfl, rfl⟩⟩
  · exact ⟨_, FixReport.reads.map fix, fun _ => ⟨rfl, rfl⟩⟩
  · exact ⟨_, SummaryReport.reads.map summary, fun _ => ⟨rfl, rfl⟩⟩
  · exact ⟨_, VelocityReport.reads.map velocity, fun _ => ⟨rfl, rfl⟩⟩
  · exact ⟨_, TimeReport.reads.map time, fun _ => ⟨rfl, rfl⟩⟩
  · exact ⟨_, PvtReport.reads.map pvt, fun _ => ⟨rfl, rfl⟩⟩
  · exact ⟨_, VersionReport.reads.map version, fun _ => ⟨rfl, rfl⟩⟩
  · exact ⟨_, Reply.reads_accepted.map accepted, fun _ => ⟨rfl, rfl⟩⟩
  · exact ⟨_, Reply.reads_refused.map refused, fun _ => ⟨rfl, rfl⟩⟩

theorem parse_of_long {l : Layout Message} (h : l ∈ layouts) {payload : Bytes}
    (hlong : l.minLength ≤ payload.length) :
    ∃ m, parse l.type payload = .ok m ∧ m.type = l.type ∧ m.isKnown = true := by
  obtain ⟨fields, hreads, hfields⟩ := exists_reads h
  refine ⟨fields payload, ?_, hfields payload⟩
  rw [parse, find?_layouts h]
  exact hreads.decode_of_le hlong

/-- **What can come of a payload:** it is too short for its layout, it is read by its layout, or its
type has none. -/
theorem parse_cases (type : MessageType) (payload : Bytes) :
    (∃ least, (type, least) ∈ leastLengths ∧ payload.length < least ∧
      parse type payload = .error (.tooShort type least payload.length)) ∨
    (∃ least m, (type, least) ∈ leastLengths ∧ least ≤ payload.length ∧
      parse type payload = .ok m ∧ m.type = type ∧ m.isKnown = true) ∨
    ((∀ least, (type, least) ∉ leastLengths) ∧ parse type payload = .ok (.other type)) := by
  by_cases hknown : ∃ l ∈ layouts, l.type = type
  · obtain ⟨l, hl, rfl⟩ := hknown
    have hleast : (l.type, l.minLength) ∈ leastLengths := mem_leastLengths_iff.2 ⟨l, hl, rfl, rfl⟩
    rcases Nat.lt_or_ge payload.length l.minLength with hshort | hlong
    · exact .inl ⟨l.minLength, hleast, hshort, parse_of_short hl hshort⟩
    · obtain ⟨m, hparse, htype, hm⟩ := parse_of_long hl hlong
      exact .inr (.inl ⟨l.minLength, m, hleast, hlong, hparse, htype, hm⟩)
  · refine .inr (.inr ⟨fun least hmem => ?_, parse_of_unknown ?_ payload⟩)
    · obtain ⟨l, hl, htype, -⟩ := mem_leastLengths_iff.1 hmem
      exact hknown ⟨l, hl, htype⟩
    · exact fun l hl htype => hknown ⟨l, hl, htype⟩

/-! ### The rule -/

/-- What is known of reading a payload of some type. -/
structure ParsedByLength (type : MessageType) (payload : Bytes) : Prop where
  /-- It fails if and only if the type is one of those that are read and the payload is too short,
  and the error names the type and both lengths. -/
  error_iff : ∀ e, parse type payload = .error e ↔ ∃ least, (type, least) ∈ leastLengths ∧
    payload.length < least ∧ e = .tooShort type least payload.length
  /-- No read leaves the payload. -/
  inside : ∀ e, parse type payload ≠ .error (.reader e)
  /-- A payload that is long enough gives a message of its type, and not one without a layout. -/
  long : ∀ least, (type, least) ∈ leastLengths → least ≤ payload.length →
    ∃ m, parse type payload = .ok m ∧ m.type = type ∧ m.isKnown = true
  /-- Of any other type only the type itself is handed on. -/
  unknown : (∀ least, (type, least) ∉ leastLengths) → parse type payload = .ok (.other type)
  /-- Every message that is read is of the type of its payload. -/
  ok : ∀ m, parse type payload = .ok m →
    m.type = type ∧ (m.isKnown = true ↔ ∃ least, (type, least) ∈ leastLengths)

/-- A payload fails if and only if it is too short for its layout. -/
theorem parse_eq_error_iff {type : MessageType} {payload : Bytes} {e : PayloadError} :
    parse type payload = .error e ↔ ∃ least, (type, least) ∈ leastLengths ∧
      payload.length < least ∧ e = .tooShort type least payload.length := by
  constructor
  · intro herror
    rcases parse_cases type payload with ⟨least, hleast, hshort, hparse⟩ |
      ⟨least, m, -, -, hparse, -⟩ | ⟨-, hparse⟩
    · rw [hparse] at herror
      exact ⟨least, hleast, hshort, (Except.error.inj herror).symm⟩
    · cases hparse.symm.trans herror
    · cases hparse.symm.trans herror
  · rintro ⟨least, hleast, hshort, rfl⟩
    obtain ⟨l, hl, rfl, rfl⟩ := mem_leastLengths_iff.1 hleast
    exact parse_of_short hl hshort

/-- A message that is read is of the type of its payload. -/
theorem type_of_parse {type : MessageType} {payload : Bytes} {m : Message}
    (h : parse type payload = .ok m) :
    m.type = type ∧ (m.isKnown = true ↔ ∃ least, (type, least) ∈ leastLengths) := by
  rcases parse_cases type payload with ⟨least, -, -, hparse⟩ |
    ⟨least, m', hleast, -, hparse, htype, hknown⟩ | ⟨hnone, hparse⟩
  · cases hparse.symm.trans h
  · obtain rfl : m' = m := Except.ok.inj (hparse.symm.trans h)
    exact ⟨htype, iff_of_true hknown ⟨least, hleast⟩⟩
  · obtain rfl : .other type = m := Except.ok.inj (hparse.symm.trans h)
    exact ⟨rfl, iff_of_false Bool.false_ne_true fun ⟨least, hleast⟩ => hnone least hleast⟩

/-- **Whether a payload is read depends on its type and its length alone.** -/
theorem parsed_by_length (type : MessageType) (payload : Bytes) : ParsedByLength type payload := by
  constructor
  case error_iff => exact fun e => parse_eq_error_iff
  case inside =>
    intro e herror
    obtain ⟨least, -, -, hshort⟩ := parse_eq_error_iff.1 herror
    cases hshort
  case long =>
    intro least hleast hlong
    obtain ⟨l, hl, rfl, rfl⟩ := mem_leastLengths_iff.1 hleast
    exact parse_of_long hl hlong
  case unknown =>
    intro hunknown
    refine parse_of_unknown (fun l hl htype => ?_) payload
    exact hunknown l.minLength (mem_leastLengths_iff.2 ⟨l, hl, htype, rfl⟩)
  case ok => exact fun m => type_of_parse

end Message

end GnssLink
