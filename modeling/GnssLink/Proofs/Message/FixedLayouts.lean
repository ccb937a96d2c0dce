import Mathlib.Tactic.Tauto
import GnssLink.Proofs.Message.Parsing
import GnssLink.Proofs.Message.Placing

/-!
# Reading back what was laid out

Eight layouts have their fields at fixed offsets.  A payload that is long enough is read as a
message if and only if the fields of that message stand in it (`PositionReport.ofPayload_eq_iff`,
…).  So a message that was laid out over any background is read back, and nothing but the bytes of
the fields matters: neither the gaps between them nor the bytes behind the last one, however many
there are (`Message.readsFields_of_fixed`).

## Main definitions

* `PositionReport.fields`, `FixReport.fields`, … — the fields of a report with their offsets.
* `Layout.ReadsFields` — what is known of a layout with fixed offsets.

## Main results

* `Layout.Reads.readsFields` — a layout reads back its fields if they lie in order.
* `Message.readsFields_of_fixed` — the eight layouts do.
-/

namespace GnssLink

open LittleEndian FieldBytes

/-! ### The rule for one layout -/

/-- What is known of a layout whose fields stand at fixed offsets.  `runs` are the runs of offsets
that belong to fields: the first offset of each, and the one behind its last. -/
structure Layout.ReadsFields {α : Type} (l : Layout α) (message : α → Message)
    (fields : α → List FieldBytes) (runs : List (Nat × Nat)) : Prop where
  /-- Fields that are laid out over a background, which fills the gaps and extends the payload, are
  read back. -/
  placed : ∀ x background, l.minLength ≤ background.length →
    Message.parse l.type (placeAll (fields x) background) = .ok (message x)
  /-- The runs are the offsets of the bytes of the fields. -/
  runs_iff : ∀ x i, (∃ run ∈ runs, run.1 ≤ i ∧ i < run.2) ↔
    ∃ f ∈ fields x, f.offset ≤ i ∧ i < f.behind
  /-- Payloads with the same bytes in the runs are read alike. -/
  agreeing : ∀ p q : Bytes, l.minLength ≤ p.length → l.minLength ≤ q.length →
    (∀ run ∈ runs, ∀ i, run.1 ≤ i → i < run.2 → p[i]? = q[i]?) →
    Message.parse l.type p = Message.parse l.type q
  /-- An extended payload is read like the payload. -/
  extended : ∀ p more : Bytes, l.minLength ≤ p.length →
    Message.parse l.type (p ++ more) = Message.parse l.type p

namespace Layout

variable {α : Type} {l : Layout α} {message : α → Message} {ofPayload : Bytes → α}
  {fields : α → List FieldBytes} {runs : List (Nat × Nat)}

/-- A layout of the table reads every payload that is long enough. -/
theorem Reads.parse_of_le (hreads : l.Reads ofPayload) (hmem : l.map message ∈ Message.layouts)
    {payload : Bytes} (hlong : l.minLength ≤ payload.length) :
    Message.parse l.type payload = .ok (message (ofPayload payload)) := by
  have hfind : Message.layouts.find? (·.type = l.type) = some (l.map message) :=
    Message.find?_layouts hmem
  rw [Message.parse, hfind]
  exact Reads.decode_of_le (hreads.map message) hlong

/-- **A layout reads back its fields** if they lie in order, inside of its least length, and are
what it reads. -/
theorem Reads.readsFields (hreads : l.Reads ofPayload) (hmem : l.map message ∈ Message.layouts)
    (hfields : ∀ {payload : Bytes}, l.minLength ≤ payload.length →
      ∀ x, ofPayload payload = x ↔ ∀ f ∈ fields x, f.StandsIn payload)
    (horder : ∀ x, InOrder 0 l.minLength (fields x))
    (hruns : ∀ x i, (∃ run ∈ runs, run.1 ≤ i ∧ i < run.2) ↔
      ∃ f ∈ fields x, f.offset ≤ i ∧ i < f.behind) :
    l.ReadsFields message fields runs := by
  have hagree : ∀ p q : Bytes, l.minLength ≤ p.length → l.minLength ≤ q.length →
      (∀ run ∈ runs, ∀ i, run.1 ≤ i → i < run.2 → p[i]? = q[i]?) →
      Message.parse l.type p = Message.parse l.type q := by
    intro p q hp hq hsame
    -- what is read from `p` stands in `q` as well, so it is read from there
    have hstands : ∀ f ∈ fields (ofPayload p), f.StandsIn q := by
      intro f hf
      have hslice : p.slice f.offset f.bytes.length = q.slice f.offset f.bytes.length := by
        refine Bytes.slice_congr fun i hfirst hlast => ?_
        obtain ⟨run, hrun, hle, hlt⟩ := (hruns _ i).2 ⟨f, hf, hfirst, hlast⟩
        exact hsame run hrun i hle hlt
      exact hslice.symm.trans ((hfields hp _).1 rfl f hf)
    rw [hreads.parse_of_le hmem hp, hreads.parse_of_le hmem hq, (hfields hq _).2 hstands]
  refine ⟨fun x background hlong => ?_, hruns, hagree, fun p more hp => ?_⟩
  · have hplaced : l.minLength ≤ (placeAll (fields x) background).length := by
      rwa [(horder x).length_placeAll hlong]
    rw [hreads.parse_of_le hmem hplaced,
      (hfields hplaced x).2 fun _ hf => (horder x).standsIn hlong hf]
  · have hextended : l.minLength ≤ (p ++ more).length := by
      rw [List.length_append]
      omega
    refine hagree _ _ hextended hp fun run hrun i hle hlt => ?_
    obtain ⟨f, hf, -, hbehind⟩ := (hruns (ofPayload p) i).1 ⟨run, hrun, hle, hlt⟩
    have hlimit := ((horder _).of_mem hf).2
    exact List.getElem?_append_left (by omega)

end Layout

variable {payload : Bytes}

/-! ### Position -/

/-- Seven words. -/
def PositionReport.fields (r : PositionReport) : List FieldBytes :=
  [⟨0, ofUInt32 r.timeOfWeek⟩,
   ⟨4, ofInt32 r.longitude⟩,
   ⟨8, ofInt32 r.latitude⟩,
   ⟨12, ofInt32 r.height⟩,
   ⟨16, ofInt32 r.heightAboveSea⟩,
   ⟨20, ofUInt32 r.horizontalAccuracy⟩,
   ⟨24, ofUInt32 r.verticalAccuracy⟩]

theorem PositionReport.ofPayload_eq_iff (hlong : 28 ≤ payload.length) (r : PositionReport) :
    ofPayload payload = r ↔ ∀ f ∈ r.fields, f.StandsIn payload := by
  cases r
  simp (disch := omega) [ofPayload, fields, StandsIn, Bytes.u32At_eq_iff, Bytes.i32At_eq_iff]

theorem PositionReport.readsFields : layout.ReadsFields .position fields [(0, 28)] := by
  refine reads.readsFields (by simp [Message.layouts]) ofPayload_eq_iff (fun r => ?_) fun r i => ?_
  · simp [layout, fields, InOrder, behind]
  · simp [fields, behind]
    omega

/-! ### Fix status -/

/-- The time, and two bytes behind it. -/
def FixReport.fields (r : FixReport) : List FieldBytes :=
  [⟨0, ofUInt32 r.timeOfWeek⟩,
   ⟨4, [r.fix]⟩,
   ⟨5, [r.flags]⟩]

theorem FixReport.ofPayload_eq_iff (hlong : 16 ≤ payload.length) (r : FixReport) :
    ofPayload payload = r ↔ ∀ f ∈ r.fields, f.StandsIn payload := by
  cases r
  simp (disch := omega) [ofPayload, fields, StandsIn, Bytes.u8At_eq_iff, Bytes.u32At_eq_iff]

theorem FixReport.readsFields : layout.ReadsFields .fix fields [(0, 6)] := by
  refine reads.readsFields (by simp [Message.layouts]) ofPayload_eq_iff (fun r => ?_) fun r i => ?_
  · simp [layout, fields, InOrder, behind]
  · simp [fields, behind]
    omega

/-! ### Summary -/

/-- Four bytes at the start, two in the middle, and three close to the end. -/
def SummaryReport.fields (r : SummaryReport) : List FieldBytes :=
  [⟨0, ofUInt32 r.timeOfWeek⟩,
   ⟨10, [r.fix]⟩,
   ⟨11, [r.flags]⟩,
   ⟨44, ofUInt16 r.dilution⟩,
   ⟨47, [r.satellites]⟩]

theorem SummaryReport.ofPayload_eq_iff (hlong : 52 ≤ payload.length) (r : SummaryReport) :
    ofPayload payload = r ↔ ∀ f ∈ r.fields, f.StandsIn payload := by
  cases r
  simp (disch := omega) [ofPayload, fields, StandsIn, Bytes.u8At_eq_iff, Bytes.u16At_eq_iff,
    Bytes.u32At_eq_iff]

theorem SummaryReport.readsFields :
    layout.ReadsFields .summary fields [(0, 4), (10, 12), (44, 46), (47, 48)] := by
  refine reads.readsFields (by simp [Message.layouts]) ofPayload_eq_iff (fun r => ?_) fun r i => ?_
  · simp [layout, fields, InOrder, behind]
  · simp [fields, behind]
    omega

/-! ### Velocity -/

/-- Nine words. -/
def VelocityReport.fields (r : VelocityReport) : List FieldBytes :=
  [⟨0, ofUInt32 r.timeOfWeek⟩,
   ⟨4, ofInt32 r.north⟩,
   ⟨8, ofInt32 r.east⟩,
   ⟨12, ofInt32 r.down⟩,
   ⟨16, ofUInt32 r.speed⟩,
   ⟨20, ofUInt32 r.groundSpeed⟩,
   ⟨24, ofInt32 r.heading⟩,
   ⟨28, ofUInt32 r.speedAccuracy⟩,
   ⟨32, ofUInt32 r.headingAccuracy⟩]

theorem VelocityReport.ofPayload_eq_iff (hlong : 36 ≤ payload.length) (r : VelocityReport) :
    ofPayload payload = r ↔ ∀ f ∈ r.fields, f.StandsIn payload := by
  cases r
  simp (disch := omega) [ofPayload, fields, StandsIn, Bytes.u32At_eq_iff, Bytes.i32At_eq_iff]

theorem VelocityReport.readsFields : layout.ReadsFields .velocity fields [(0, 36)] := by
  refine reads.readsFields (by simp [Message.layouts]) ofPayload_eq_iff (fun r => ?_) fun r i => ?_
  · simp [layout, fields, InOrder, behind]
  · simp [fields, behind]
    omega

/-! ### Time -/

/-- The fraction of the second stands in front of the date. -/
def TimeReport.fields (r : TimeReport) : List FieldBytes :=
  [⟨0, ofUInt32 r.timeOfWeek⟩,
   ⟨4, ofUInt32 r.accuracy⟩,
   ⟨8, ofInt32 r.time.nanosecond⟩,
   ⟨12, ofUInt16 r.time.year⟩,
   ⟨14, [r.time.month]⟩,
   ⟨15, [r.time.day]⟩,
   ⟨16, [r.time.hour]⟩,
   ⟨17, [r.time.minute]⟩,
   ⟨18, [r.time.second]⟩,
   ⟨19, [r.time.validity]⟩]

theorem TimeReport.ofPayload_eq_iff (hlong : 20 ≤ payload.length) (r : TimeReport) :
    ofPayload payload = r ↔ ∀ f ∈ r.fields, f.StandsIn payload := by
  obtain ⟨_, _, ⟨⟩⟩ := r
  simp (disch := omega) only [ofPayload, mk.injEq, UtcTime.mk.injEq, Bytes.u8At_eq_iff,
    Bytes.u16At_eq_iff, Bytes.u32At_eq_iff, Bytes.i32At_eq_iff, fields, List.forall_mem_cons,
    StandsIn, List.length_singleton, length_ofUInt16, length_ofUInt32, length_ofInt32,
    List.not_mem_nil, false_imp_iff, implies_true]
  -- the record and the payload have the fields in different orders
  tauto

theorem TimeReport.readsFields : layout.ReadsFields .time fields [(0, 20)] := by
  refine reads.readsFields (by simp [Message.layouts]) ofPayload_eq_iff (fun r => ?_) fun r i => ?_
  · simp [layout, fields, InOrder, behind]
  · simp [fields, behind]
    omega

/-! ### Position, velocity and time -/

/-- The fields of a report of position, velocity and time fill its first 78 bytes. -/
def PvtReport.fields (r : PvtReport) : List FieldBytes :=
  [⟨0, ofUInt32 r.timeOfWeek⟩,
   ⟨4, ofUInt16 r.time.year⟩,
   ⟨6, [r.time.month]⟩,
   ⟨7, [r.time.day]⟩,
   ⟨8, [r.time.hour]⟩,
   ⟨9, [r.time.minute]⟩,
   ⟨10, [r.time.second]⟩,
   ⟨11, [r.time.validity]⟩,
   ⟨12, ofUInt32 r.timeAccuracy⟩,
   ⟨16, ofInt32 r.time.nanosecond⟩,
   ⟨20, [r.fix]⟩,
   ⟨21, [r.flags]⟩,
   ⟨22, [r.flags2]⟩,
   ⟨23, [r.satellites]⟩,
   ⟨24, ofInt32 r.longitude⟩,
   ⟨28, ofInt32 r.latitude⟩,
   ⟨32, ofInt32 r.height⟩,
   ⟨36, ofInt32 r.heightAboveSea⟩,
   ⟨40, ofUInt32 r.horizontalAccuracy⟩,
   ⟨44, ofUInt32 r.verticalAccuracy⟩,
   ⟨48, ofInt32 r.north⟩,
   ⟨52, ofInt32 r.east⟩,
   ⟨56, ofInt32 r.down⟩,
   ⟨60, ofInt32 r.groundSpeed⟩,
   ⟨64, ofInt32 r.heading⟩,
   ⟨68, ofUInt32 r.speedAccuracy⟩,
   ⟨72, ofUInt32 r.headingAccuracy⟩,
   ⟨76, ofUInt16 r.dilution⟩]

theorem PvtReport.ofPayload_eq_iff (hlong : 84 ≤ payload.length) (r : PvtReport) :
    ofPayload payload = r ↔ ∀ f ∈ r.fields, f.StandsIn payload := by
  obtain ⟨_, ⟨⟩⟩ := r
  simp (disch := omega) only [ofPayload, mk.injEq, UtcTime.mk.injEq, Bytes.u8At_eq_iff,
    Bytes.u16At_eq_iff, Bytes.u32At_eq_iff, Bytes.i32At_eq_iff, fields, List.forall_mem_cons,
    StandsIn, List.length_singleton, length_ofUInt16, length_ofUInt32, length_ofInt32,
    List.not_mem_nil, false_imp_iff, implies_true]
  -- the record and the payload have the fields in different orders
  tauto

theorem PvtReport.readsFields : layout.ReadsFields .pvt fields [(0, 78)] := by
  refine reads.readsFields (by simp [Message.layouts]) ofPayload_eq_iff (fun r => ?_) fun r i => ?_
  · simp [layout, fields, InOrder, behind]
  · simp [fields, behind]
    omega

/-! ### Replies -/

/-- Class and id of the command that is answered. -/
def Reply.fields (r : Reply) : List FieldBytes :=
  [⟨0, [r.command.cls]⟩,
   ⟨1, [r.command.id]⟩]

theorem Reply.ofPayload_eq_iff (hlong : 2 ≤ payload.length) (r : Reply) :
    ofPayload payload = r ↔ ∀ f ∈ r.fields, f.StandsIn payload := by
  obtain ⟨⟨⟩⟩ := r
  simp (disch := omega) [ofPayload, fields, StandsIn, Bytes.u8At_eq_iff]

theorem Reply.readsFields_accepted : acceptedLayout.ReadsFields .accepted fields [(0, 2)] := by
  refine reads_accepted.readsFields (by simp [Message.layouts]) ofPayload_eq_iff (fun r => ?_)
    fun r i => ?_
  · simp [acceptedLayout, fields, InOrder, behind]
  · simp [fields, behind]
    omega

theorem Reply.readsFields_refused : refusedLayout.ReadsFields .refused fields [(0, 2)] := by
  refine reads_refused.readsFields (by simp [Message.layouts]) ofPayload_eq_iff (fun r => ?_)
    fun r i => ?_
  · simp [refusedLayout, fields, InOrder, behind]
  · simp [fields, behind]
    omega

/-! ### All eight layouts -/

/-- **What was laid out is read back**, in each of the eight layouts with fixed offsets: nothing but
the bytes of the fields matters. -/
theorem Message.readsFields_of_fixed :
    PositionReport.layout.ReadsFields position PositionReport.fields [(0, 28)] ∧
    FixReport.layout.ReadsFields fix FixReport.fields [(0, 6)] ∧
    SummaryReport.layout.ReadsFields summary SummaryReport.fields
      [(0, 4), (10, 12), (44, 46), (47, 48)] ∧
    VelocityReport.layout.ReadsFields velocity VelocityReport.fields [(0, 36)] ∧
    TimeReport.layout.ReadsFields time TimeReport.fields [(0, 20)] ∧
    PvtReport.layout.ReadsFields pvt PvtReport.fields [(0, 78)] ∧
    Reply.acceptedLayout.ReadsFields accepted Reply.fields [(0, 2)] ∧
    Reply.refusedLayout.ReadsFields refused Reply.fields [(0, 2)] :=
  ⟨PositionReport.readsFields, FixReport.readsFields, SummaryReport.readsFields,
    VelocityReport.readsFields, TimeReport.readsFields, PvtReport.readsFields,
    Reply.readsFields_accepted, Reply.readsFields_refused⟩

end GnssLink
