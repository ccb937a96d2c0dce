import GnssLink.Negotiation.BaudAlignment
import GnssLink.Proofs.Negotiation.Sending

/-!
# What remains to be sent

At every point of an alignment, and at every point of a plan, a list of operations on the line
remains to be performed.  A poll performs operations from the front of that list and in its order,
each one once; what remains afterwards is the rest.  This holds for every clock and every line.  If
an operation fails, the operations before it were performed.

The number of version requests is not known in advance; `VersionQuery.poll_cases` says when one is
sent.

## Main definitions

* `Executes` — a list of operations is worked off from the front.
* `BaudAlignment.remaining`, `PlanRun.remaining` — what remains of an alignment, and of a plan.

## Main results

* `BaudAlignment.poll_state`, `VersionQuery.poll_state`, `PlanRun.poll_cases` — what a poll does,
  over any line.
* `BaudAlignment.poll_executes`, `PlanRun.poll_executes` — a poll works off what remains.
-/

namespace GnssLink

variable {σ ε : Type} [SerialLine σ ε]

/-- Between two states of a recorder operations were performed that stand at the front of `todo`.
Without a failure `rest` is what remains of them, and nothing remains once the answer is `ready`. -/
def Executes {φ : Type} (result : Except φ Progress) (todo rest : List LineCall)
    (r r' : Recorder σ) : Prop :=
  ∃ done, r'.performed = r.performed ++ done ∧
    match result with
    | .ok p => todo = done ++ rest ∧ (p = Progress.ready → rest = [])
    | .error _ => done <+: todo

theorem Executes.performed_isPrefix {φ : Type} {result : Except φ Progress}
    {todo rest : List LineCall} {r r' : Recorder σ} (h : Executes result todo rest r r') :
    r.performed <+: r'.performed := by
  obtain ⟨done, hdone, -⟩ := h
  exact ⟨done, hdone.symm⟩

/-- What was performed and what remains make up the whole. -/
theorem Executes.append_eq {φ : Type} {p : Progress} {todo rest whole : List LineCall}
    {r r' : Recorder σ} (h : Executes (.ok p : Except φ Progress) todo rest r r')
    (hwhole : r.performed ++ todo = whole) : r'.performed ++ rest = whole := by
  obtain ⟨done, hdone, htodo, -⟩ := h
  rw [hdone, List.append_assoc, ← htodo, hwhole]

/-- In the end the whole was performed. -/
theorem Executes.performed_eq {φ : Type} {todo rest whole : List LineCall} {r r' : Recorder σ}
    (h : Executes (.ok .ready : Except φ Progress) todo rest r r')
    (hwhole : r.performed ++ todo = whole) : r'.performed = whole := by
  have hrest := h.append_eq hwhole
  obtain ⟨-, -, -, hready⟩ := h
  rw [hready rfl, List.append_nil] at hrest
  exact hrest

/-- After a failure a part of the whole was performed. -/
theorem Executes.isPrefix {φ : Type} {e : φ} {todo rest whole : List LineCall} {r r' : Recorder σ}
    (h : Executes (.error e : Except φ Progress) todo rest r r')
    (hwhole : r.performed ++ todo = whole) : r'.performed <+: whole := by
  obtain ⟨done, hdone, hprefix⟩ := h
  rw [hdone, ← hwhole]
  exact (List.prefix_append_right_inj _).2 hprefix

theorem Executes.of_performed_eq {φ : Type} {result : Except φ Progress} {todo rest : List LineCall}
    {r r' r'' : Recorder σ} (h : Executes result todo rest r' r'')
    (hsame : r'.performed = r.performed) : Executes result todo rest r r'' := by
  rw [Executes, hsame] at h
  exact h

/-- Nothing is performed, and as much remains as before. -/
theorem Executes.of_eq {φ : Type} {p : Progress} {todo rest : List LineCall} {r r' : Recorder σ}
    (hsame : r'.performed = r.performed) (hrest : rest = todo) (hready : p = .ready → rest = []) :
    Executes (.ok p : Except φ Progress) todo rest r r' :=
  ⟨[], by rw [hsame, List.append_nil], hrest.symm, hready⟩

/-- A failure before any operation. -/
theorem Executes.of_error {φ : Type} {e : φ} {todo rest : List LineCall} {r r' : Recorder σ}
    (hsame : r'.performed = r.performed) :
    Executes (.error e : Except φ Progress) todo rest r r' :=
  ⟨[], by rw [hsame, List.append_nil], List.nil_prefix⟩

/-! ### Alignment -/

namespace BaudAlignment

/-- The operations for a list of candidates: each one is switched to and sent the sentence. -/
def trials (target : BaudRate) (candidates : List BaudRate) : List LineCall :=
  candidates.flatMap fun candidate =>
    [.setBaudRate candidate true, .write (Bytes.ofAscii target.switchSentence) true]

/-- The operations that remain of an alignment. -/
def remaining (a : BaudAlignment) : List LineCall :=
  match a.step with
  | .waitTxIdle =>
    (if a.tryAll then trials a.target BaudRate.candidates else []) ++ [.setBaudRate a.target true]
  | .probe index =>
    trials a.target (BaudRate.candidates.drop index) ++ [.setBaudRate a.target true]
  | .draining index | .settling index _ =>
    trials a.target (BaudRate.candidates.drop (index + 1)) ++ [.setBaudRate a.target true]
  | .done => []

variable {a a' : BaudAlignment} {index : Nat} {now : Instant}
  {result : Except (NegotiationError ε) Progress}

section

variable {line line' : σ}

/-- The switch to the target is made, or it fails and the alignment stays where it is. -/
theorem finish_state (h : a.finish line = (result, a', line')) :
    (SerialLine.setBaudRate line a.target = (.ok (), line') ∧ result = .ok .ready ∧
      a' = { a with step := .done }) ∨
    (∃ e, SerialLine.setBaudRate line a.target = (.error e, line') ∧ result = .error (.serial e) ∧
      a' = a) := by
  rcases hset : SerialLine.setBaudRate line a.target with ⟨e | ⟨⟩, line1⟩
  · simp only [finish, hset, Prod.mk.injEq] at h
    obtain ⟨rfl, rfl, rfl⟩ := h
    exact .inr ⟨e, rfl, rfl, rfl⟩
  · simp only [finish, hset, Prod.mk.injEq] at h
    obtain ⟨rfl, rfl, rfl⟩ := h
    exact .inl ⟨rfl, rfl, rfl⟩

/-- The transmitter is asked, and the answer decides whether the pause begins. -/
theorem settle_state (h : a.settle index now line = (result, a', line')) :
    result = .ok .pending ∧ ∃ empty, SerialLine.txEmpty line = (empty, line') ∧
      a' = { a with step := if empty then .settling index now else .draining index } := by
  rcases hempty : SerialLine.txEmpty line with ⟨empty, line1⟩
  cases empty <;>
  · simp only [settle, hempty, Prod.mk.injEq] at h
    obtain ⟨rfl, rfl, rfl⟩ := h
    exact ⟨rfl, _, rfl, rfl⟩

/-- Behind the last candidate the alignment is finished.  At a candidate the switch fails, or the
sentence does, or the transmitter is asked. -/
theorem probe_state (h : a.probe index now line = (result, a', line')) :
    (BaudRate.candidates[index]? = none ∧
      finish { a with step := .probe index } line = (result, a', line')) ∨
    (∃ candidate, BaudRate.candidates[index]? = some candidate ∧
      ((∃ e, SerialLine.setBaudRate line candidate = (.error e, line') ∧
          result = .error (.serial e) ∧ a' = { a with step := .probe index }) ∨
       (∃ line1, SerialLine.setBaudRate line candidate = (.ok (), line1) ∧
          ((∃ e, SerialLine.write line1 (Bytes.ofAscii a.target.switchSentence) =
                (.error e, line') ∧
              result = .error (.serial e) ∧ a' = { a with step := .probe index }) ∨
           (∃ line2, SerialLine.write line1 (Bytes.ofAscii a.target.switchSentence) =
                (.ok (), line2) ∧
              settle { a with step := .probe index } index now line2 =
                (result, a', line')))))) := by
  cases hcandidate : BaudRate.candidates[index]? with
  | none =>
    simp only [probe, hcandidate] at h
    exact .inl ⟨rfl, h⟩
  | some candidate =>
    refine .inr ⟨candidate, rfl, ?_⟩
    rcases hswitch : SerialLine.setBaudRate line candidate with ⟨e | ⟨⟩, line1⟩
    · simp only [probe, hcandidate, hswitch, Prod.mk.injEq] at h
      obtain ⟨rfl, rfl, rfl⟩ := h
      exact .inl ⟨e, rfl, rfl, rfl⟩
    · refine .inr ⟨line1, rfl, ?_⟩
      rcases hwrite : SerialLine.write line1 (Bytes.ofAscii a.target.switchSentence) with
        ⟨e | ⟨⟩, line2⟩
      · simp only [probe, hcandidate, hswitch, hwrite, Prod.mk.injEq] at h
        obtain ⟨rfl, rfl, rfl⟩ := h
        exact .inl ⟨e, rfl, rfl, rfl⟩
      · simp only [probe, hcandidate, hswitch, hwrite] at h
        exact .inr ⟨line2, rfl, h⟩

/-- **What a poll of the alignment does.**  It waits for pending output, it tries a candidate, it
waits for a sentence or for the pause behind it, or there is nothing left to do. -/
theorem poll_state (h : a.poll now line = (result, a', line')) :
    (a.step = .waitTxIdle ∧
      ((SerialLine.txEmpty line = (false, line') ∧ result = .ok .pending ∧ a' = a) ∨
       (∃ line1, SerialLine.txEmpty line = (true, line1) ∧
          ((a.tryAll = true ∧ a.probe 0 now line1 = (result, a', line')) ∨
           (a.tryAll = false ∧ a.finish line1 = (result, a', line')))))) ∨
    (∃ index, a.step = .probe index ∧ a.probe index now line = (result, a', line')) ∨
    (∃ index, a.step = .draining index ∧ a.settle index now line = (result, a', line')) ∨
    (∃ index since, a.step = .settling index since ∧
      ((now.since since < Timing.baudSettling.toMicros ∧ result = .ok .pending ∧ a' = a ∧
          line' = line) ∨
       (Timing.baudSettling.toMicros ≤ now.since since ∧
          a.probe (index + 1) now line = (result, a', line')))) ∨
    (a.step = .done ∧ result = .ok .ready ∧ a' = a ∧ line' = line) := by
  cases hstep : a.step with
  | waitTxIdle =>
    refine .inl ⟨rfl, ?_⟩
    rcases hempty : SerialLine.txEmpty line with ⟨_ | _, line1⟩
    · simp only [poll, hstep, hempty, Prod.mk.injEq] at h
      obtain ⟨rfl, rfl, rfl⟩ := h
      exact .inl ⟨rfl, rfl, rfl⟩
    · simp only [poll, hstep, hempty] at h
      refine .inr ⟨line1, rfl, ?_⟩
      split at h
      · next hall => exact .inl ⟨hall, h⟩
      · next hone => exact .inr ⟨Bool.eq_false_iff.2 hone, h⟩
  | probe index =>
    simp only [poll, hstep] at h
    exact .inr (.inl ⟨index, rfl, h⟩)
  | draining index =>
    simp only [poll, hstep] at h
    exact .inr (.inr (.inl ⟨index, rfl, h⟩))
  | settling index since =>
    refine .inr (.inr (.inr (.inl ⟨index, since, rfl, ?_⟩)))
    simp only [poll, hstep] at h
    split at h
    · next hwait =>
      simp only [Prod.mk.injEq] at h
      obtain ⟨rfl, rfl, rfl⟩ := h
      exact .inl ⟨hwait, rfl, rfl, rfl⟩
    · next hover => exact .inr ⟨Nat.not_lt.1 hover, h⟩
  | done =>
    simp only [poll, hstep, Prod.mk.injEq] at h
    obtain ⟨rfl, rfl, rfl⟩ := h
    exact .inr (.inr (.inr (.inr ⟨rfl, rfl, rfl, rfl⟩)))

end

variable {r r' : Recorder σ}

/-- The switch to the target is performed, or it fails. -/
theorem finish_cases (h : a.finish r = (result, a', r')) :
    (result = .ok .ready ∧ a'.remaining = [] ∧
      r'.calls = r.calls ++ [.setBaudRate a.target true]) ∨
    (∃ e, result = .error e ∧ r'.calls = r.calls ++ [.setBaudRate a.target false]) := by
  rcases finish_state h with ⟨hset, rfl, rfl⟩ | ⟨e, hset, rfl, -⟩
  · exact .inl ⟨rfl, rfl, Recorder.calls_setBaudRate hset⟩
  · exact .inr ⟨_, rfl, Recorder.calls_setBaudRate hset⟩

/-- Waiting for the transmitter is not recorded. -/
theorem settle_eq (h : a.settle index now r = (result, a', r')) :
    result = .ok .pending ∧ r'.calls = r.calls ∧
      a'.remaining =
        trials a.target (BaudRate.candidates.drop (index + 1)) ++ [.setBaudRate a.target true] := by
  obtain ⟨rfl, empty, hempty, rfl⟩ := settle_state h
  refine ⟨rfl, Recorder.calls_txEmpty hempty, ?_⟩
  cases empty <;> rfl

/-- Behind the last candidate the alignment is finished.  At a candidate the switch fails, or the
sentence does, or the transmitter is waited for. -/
theorem probe_cases (h : a.probe index now r = (result, a', r')) :
    (BaudRate.candidates[index]? = none ∧
      finish { a with step := .probe index } r = (result, a', r')) ∨
    (∃ candidate, BaudRate.candidates[index]? = some candidate ∧
      ((∃ e, result = .error e ∧ r'.calls = r.calls ++ [.setBaudRate candidate false]) ∨
       (∃ e, result = .error e ∧ r'.calls = r.calls ++ [.setBaudRate candidate true,
          .write (Bytes.ofAscii a.target.switchSentence) false]) ∨
       (result = .ok .pending ∧ r'.calls = r.calls ++ [.setBaudRate candidate true,
          .write (Bytes.ofAscii a.target.switchSentence) true] ∧
          a'.remaining = trials a.target (BaudRate.candidates.drop (index + 1)) ++
            [.setBaudRate a.target true]))) := by
  rcases probe_state h with hend | ⟨candidate, hcandidate, ⟨e, hswitch, rfl, -⟩ |
    ⟨r1, hswitch, ⟨e, hwrite, rfl, -⟩ | ⟨r2, hwrite, hsettle⟩⟩⟩
  · exact .inl hend
  · exact .inr ⟨candidate, hcandidate, .inl ⟨_, rfl, Recorder.calls_setBaudRate hswitch⟩⟩
  · have hcalls := Recorder.calls_write hwrite
    rw [Recorder.calls_setBaudRate hswitch, List.append_assoc] at hcalls
    exact .inr ⟨candidate, hcandidate, .inr (.inl ⟨_, rfl, hcalls⟩)⟩
  · have hcalls := Recorder.calls_write hwrite
    rw [Recorder.calls_setBaudRate hswitch, List.append_assoc] at hcalls
    obtain ⟨rfl, hsame, hrest⟩ := settle_eq hsettle
    exact .inr ⟨candidate, hcandidate, .inr (.inr ⟨rfl, hsame.trans hcalls, hrest⟩)⟩

/-- A poll of the alignment waits, or it tries a candidate, or it switches to the target. -/
theorem poll_cases (h : a.poll now r = (result, a', r')) :
    (∃ p, result = .ok p ∧ r'.calls = r.calls ∧ a'.remaining = a.remaining ∧
      (p = .ready → a'.remaining = [])) ∨
    (∃ index r1, r1.calls = r.calls ∧ a.probe index now r1 = (result, a', r') ∧
      a.remaining =
        trials a.target (BaudRate.candidates.drop index) ++ [.setBaudRate a.target true]) ∨
    (∃ r1, r1.calls = r.calls ∧ a.finish r1 = (result, a', r') ∧
      a.remaining = [.setBaudRate a.target true]) := by
  rcases poll_state h with ⟨hstep, ⟨hbusy, rfl, rfl⟩ | ⟨r1, hidle, ⟨hall, hprobe⟩ |
      ⟨hone, hfinish⟩⟩⟩ | ⟨index, hstep, hprobe⟩ | ⟨index, hstep, hsettle⟩ |
    ⟨index, since, hstep, ⟨-, rfl, rfl, rfl⟩ | ⟨-, hprobe⟩⟩ | ⟨hstep, rfl, rfl, rfl⟩
  · exact .inl ⟨_, rfl, Recorder.calls_txEmpty hbusy, rfl, fun hready => nomatch hready⟩
  · refine .inr (.inl ⟨0, r1, Recorder.calls_txEmpty hidle, hprobe, ?_⟩)
    simp only [remaining, hstep, if_pos hall]
    rfl
  · refine .inr (.inr ⟨r1, Recorder.calls_txEmpty hidle, hfinish, ?_⟩)
    simp only [remaining, hstep, hone]
    rfl
  · exact .inr (.inl ⟨index, r, rfl, hprobe, by simp only [remaining, hstep]⟩)
  · obtain ⟨rfl, hsame, hrest⟩ := settle_eq hsettle
    refine .inl ⟨_, rfl, hsame, ?_, fun hready => nomatch hready⟩
    rw [hrest]
    simp only [remaining, hstep]
  · exact .inl ⟨_, rfl, rfl, rfl, fun hready => nomatch hready⟩
  · exact .inr (.inl ⟨index + 1, r, rfl, hprobe, by simp only [remaining, hstep]⟩)
  · exact .inl ⟨_, rfl, rfl, rfl, fun _ => by simp only [remaining, hstep]⟩

theorem finish_executes (h : a.finish r = (result, a', r')) :
    Executes result [.setBaudRate a.target true] a'.remaining r r' := by
  rcases finish_cases h with ⟨rfl, hrest, hcalls⟩ | ⟨e, rfl, hcalls⟩
  · exact ⟨_, Recorder.performed_of_ok hcalls rfl, by rw [hrest]; rfl, fun _ => hrest⟩
  · exact Executes.of_error (Recorder.performed_of_not_ok hcalls rfl)

theorem probe_executes (h : a.probe index now r = (result, a', r')) :
    Executes result
      (trials a.target (BaudRate.candidates.drop index) ++ [.setBaudRate a.target true])
      a'.remaining r r' := by
  rcases probe_cases h with ⟨hend, hfinish⟩ | ⟨candidate, hcandidate, hcases⟩
  · rw [List.drop_of_length_le (List.getElem?_eq_none_iff.1 hend)]
    exact (finish_executes hfinish :)
  · have hdrop : BaudRate.candidates.drop index =
        candidate :: BaudRate.candidates.drop (index + 1) := by
      obtain ⟨hlt, hget⟩ := List.getElem?_eq_some_iff.1 hcandidate
      rw [List.drop_eq_getElem_cons hlt, hget]
    rw [hdrop]
    rcases hcases with ⟨e, rfl, hcalls⟩ | ⟨e, rfl, hcalls⟩ | ⟨rfl, hcalls, hrest⟩
    · exact Executes.of_error (Recorder.performed_of_not_ok hcalls rfl)
    · exact ⟨[.setBaudRate candidate true], Recorder.performed_of_calls hcalls,
        List.prefix_append [LineCall.setBaudRate candidate true] _⟩
    · refine ⟨_, Recorder.performed_of_calls hcalls, ?_, fun hready => nomatch hready⟩
      rw [hrest]
      rfl

/-- **A poll of the alignment works off what remains.** -/
theorem poll_executes (h : a.poll now r = (result, a', r')) :
    Executes result a.remaining a'.remaining r r' := by
  rcases poll_cases h with ⟨p, rfl, hcalls, hsame, hready⟩ |
    ⟨index, r1, hcalls, hprobe, hremaining⟩ | ⟨r1, hcalls, hfinish, hremaining⟩
  · exact Executes.of_eq (Recorder.performed_congr hcalls) hsame hready
  · rw [hremaining]
    exact (probe_executes hprobe).of_performed_eq (Recorder.performed_congr hcalls)
  · rw [hremaining]
    exact (finish_executes hfinish).of_performed_eq (Recorder.performed_congr hcalls)

end BaudAlignment

/-! ### Version query -/

namespace VersionQuery

variable {q q' : VersionQuery} {now : Instant} {known : Capabilities}
  {tracker tracker' : ReplyTracker} {r r' : Recorder σ}
  {result : Except (NegotiationError ε) Progress}

/-- A version request as it is performed. -/
def requestCall : LineCall :=
  .write versionRequest.transmitted true

/-- A request is sent.  If that fails none is waited for, so the next poll tries again. -/
theorem request_state {line line' : σ}
    (h : q.request now known tracker line = (result, q', tracker', line')) :
    ∃ sent, versionRequest.send tracker line = (sent, tracker', line') ∧
      ((sent = .ok () ∧ result = .ok (if known.generation = .unknown then .pending else .ready) ∧
          q' = ⟨q.attempts + 1, some now⟩) ∨
       (∃ e, sent = .error e ∧ result = .error (.send e) ∧ q' = { q with sentAt := none })) := by
  rcases hsend : versionRequest.send tracker line with ⟨e | ⟨⟩, tracker1, line1⟩
  · simp only [request, hsend, Prod.mk.injEq] at h
    obtain ⟨rfl, rfl, rfl, rfl⟩ := h
    exact ⟨_, rfl, .inr ⟨e, rfl, rfl, rfl⟩⟩
  · simp only [request, hsend, Prod.mk.injEq] at h
    obtain ⟨rfl, rfl, rfl, rfl⟩ := h
    exact ⟨_, rfl, .inl ⟨rfl, rfl, rfl⟩⟩

/-- On a recorded line the request is written, and its answer is waited for also if that fails. -/
theorem request_cases (h : q.request now known tracker r = (result, q', tracker', r')) :
    tracker' = tracker.begin versionRequest.type.id ∧
      ((result = .ok (if known.generation = .unknown then .pending else .ready) ∧
          q' = ⟨q.attempts + 1, some now⟩ ∧ r'.calls = r.calls ++ [requestCall]) ∨
       (∃ e, result = .error e ∧ q' = { q with sentAt := none } ∧
          r'.calls = r.calls ++ [.write versionRequest.transmitted false])) := by
  obtain ⟨sent, hsend, hcases⟩ := request_state h
  obtain ⟨htracker, ⟨rfl, hcalls⟩ | ⟨e, rfl, hcalls⟩⟩ := versionRequest_fits.send_cases hsend
  · rcases hcases with ⟨-, hresult, hquery⟩ | ⟨e, herror, -⟩
    · exact ⟨htracker, .inl ⟨hresult, hquery, hcalls⟩⟩
    · cases herror
  · rcases hcases with ⟨hok, -⟩ | ⟨e, -, hresult, hquery⟩
    · cases hok
    · exact ⟨htracker, .inr ⟨_, hresult, hquery, hcalls⟩⟩

/-- The wait for the answer to the last request is over, and the generation is still unknown. -/
def Unanswered (q : VersionQuery) (known : Capabilities) (now : Instant) : Prop :=
  ∃ sentAt, q.sentAt = some sentAt ∧ known.generation = .unknown ∧
    Timing.commandWait.toMicros ≤ now.since sentAt

/-- **What a poll of the version query does.**  While a request is waited for, the generation is
known, or the wait goes on, or it is over.  Behind the last request the query is then finished;
otherwise a request is sent. -/
theorem poll_state {line line' : σ}
    (h : q.poll now known tracker line = (result, q', tracker', line')) :
    ((∃ sentAt, q.sentAt = some sentAt ∧
        ((known.generation ≠ .unknown ∧ result = .ok .ready) ∨
         (known.generation = .unknown ∧ now.since sentAt < Timing.commandWait.toMicros ∧
            result = .ok .pending) ∨
         (q.Unanswered known now ∧ Timing.versionAttempts ≤ q.attempts ∧ result = .ok .ready))) ∧
      q' = q ∧ tracker' = tracker ∧ line' = line) ∨
    ((q.sentAt = none ∨ q.Unanswered known now ∧ q.attempts < Timing.versionAttempts) ∧
      q.request now known tracker line = (result, q', tracker', line')) := by
  cases hsent : q.sentAt with
  | none =>
    simp only [poll, hsent] at h
    exact .inr ⟨.inl rfl, h⟩
  | some sentAt =>
    simp only [poll, hsent] at h
    split at h
    · next hknown =>
      simp only [Prod.mk.injEq] at h
      obtain ⟨rfl, rfl, rfl, rfl⟩ := h
      exact .inl ⟨⟨sentAt, rfl, .inl ⟨hknown, rfl⟩⟩, rfl, rfl, rfl⟩
    · next hunknown =>
      have hgeneration : known.generation = .unknown := Decidable.not_not.1 hunknown
      split at h
      · next hwait =>
        simp only [Prod.mk.injEq] at h
        obtain ⟨rfl, rfl, rfl, rfl⟩ := h
        exact .inl ⟨⟨sentAt, rfl, .inr (.inl ⟨hgeneration, hwait, rfl⟩)⟩, rfl, rfl, rfl⟩
      · next hover =>
        have hunanswered : q.Unanswered known now :=
          ⟨sentAt, hsent, hgeneration, Nat.not_lt.1 hover⟩
        split at h
        · next hlast =>
          simp only [Prod.mk.injEq] at h
          obtain ⟨rfl, rfl, rfl, rfl⟩ := h
          exact .inl ⟨⟨sentAt, rfl, .inr (.inr ⟨hunanswered, hlast, rfl⟩)⟩, rfl, rfl, rfl⟩
        · next hleft => exact .inr ⟨.inr ⟨hunanswered, UInt8.not_le.1 hleft⟩, h⟩

/-- While a request is waited for, the query ends without another one. -/
theorem poll_ready_of_sent {line line' : σ} (hsent : q.sentAt.isSome)
    (h : q.poll now known tracker line = (.ok .ready, q', tracker', line')) : line' = line := by
  rcases poll_state h with ⟨-, -, -, hline⟩ | ⟨hnone | ⟨⟨_, -, hunknown, -⟩, -⟩, hrequest⟩
  · exact hline
  · rw [hnone] at hsent
    cases hsent
  · obtain ⟨_, -, ⟨-, hready, -⟩ | ⟨e, -, herror, -⟩⟩ := request_state hrequest
    · rw [if_pos hunknown] at hready
      cases hready
    · cases herror

/-- A poll that does not fail leaves a request behind that is waited for. -/
theorem poll_sentAt {line line' : σ} {p : Progress}
    (h : q.poll now known tracker line = (.ok p, q', tracker', line')) : q'.sentAt.isSome := by
  rcases poll_state h with ⟨⟨sentAt, hsent, -⟩, rfl, -⟩ | ⟨-, hrequest⟩
  · rw [hsent]
    rfl
  · obtain ⟨_, -, ⟨-, -, rfl⟩ | ⟨e, -, herror, -⟩⟩ := request_state hrequest
    · rfl
    · cases herror

/-- **A poll of the version query sends one request, or nothing.**  A request is sent if none is
waited for, or if another attempt is left. -/
theorem poll_cases (h : q.poll now known tracker r = (result, q', tracker', r')) :
    (q.sentAt.isSome ∧ (∃ p, result = .ok p) ∧ q' = q ∧ tracker' = tracker ∧ r' = r) ∨
    ((q.sentAt = none ∨ q.attempts < Timing.versionAttempts) ∧
      tracker' = tracker.begin versionRequest.type.id ∧
        ((∃ p, result = .ok p ∧ q' = ⟨q.attempts + 1, some now⟩ ∧
            r'.calls = r.calls ++ [requestCall]) ∨
         (∃ e, result = .error e ∧
            r'.calls = r.calls ++ [.write versionRequest.transmitted false]))) := by
  rcases poll_state h with ⟨⟨sentAt, hsent, hresult⟩, rfl, rfl, rfl⟩ | ⟨hleft, hrequest⟩
  · refine .inl ⟨by rw [hsent]; rfl, ?_, rfl, rfl, rfl⟩
    rcases hresult with ⟨-, rfl⟩ | ⟨-, -, rfl⟩ | ⟨-, -, rfl⟩ <;> exact ⟨_, rfl⟩
  · obtain ⟨htracker, ⟨rfl, rfl, hcalls⟩ | ⟨e, rfl, -, hcalls⟩⟩ := request_cases hrequest
    · exact .inr ⟨hleft.imp_right And.right, htracker, .inl ⟨_, rfl, rfl, hcalls⟩⟩
    · exact .inr ⟨hleft.imp_right And.right, htracker, .inr ⟨e, rfl, hcalls⟩⟩

/-- A query that has begun or is about to begin: it waits for the answer to the last of one or two
requests, or no request was sent. -/
def InProgress (q : VersionQuery) : Prop :=
  q = .start ∨ q.sentAt.isSome ∧ (q.attempts = 1 ∨ q.attempts = 2)

theorem InProgress.attempts_le (hq : q.InProgress) : q.attempts.toNat ≤ 2 := by
  rcases hq with rfl | ⟨-, hone | htwo⟩
  · exact Nat.zero_le 2
  · rw [hone]
    exact Nat.le_succ 1
  · rw [htwo]
    exact Nat.le_refl 2

/-- A poll keeps the number of requests that were performed equal to the number of attempts. -/
theorem InProgress.poll (hq : q.InProgress) {before : List LineCall}
    (hlog : r.performed = before ++ List.replicate q.attempts.toNat requestCall)
    (h : q.poll now known tracker r = (result, q', tracker', r')) :
    (∃ p, result = .ok p ∧ q'.sentAt.isSome ∧ (q'.attempts = 1 ∨ q'.attempts = 2) ∧
      r.performed <+: r'.performed ∧
      r'.performed = before ++ List.replicate q'.attempts.toNat requestCall) ∨
    (∃ e, result = .error e ∧ r'.performed = r.performed) := by
  rcases poll_cases h with ⟨hsent, ⟨p, rfl⟩, rfl, -, rfl⟩ |
    ⟨hleft, -, ⟨p, rfl, rfl, hcalls⟩ | ⟨e, rfl, hcalls⟩⟩
  · rcases hq with rfl | ⟨-, hattempts⟩
    · cases hsent
    · exact .inl ⟨p, rfl, hsent, hattempts, List.prefix_refl _, hlog⟩
  · have hperformed := Recorder.performed_of_ok hcalls rfl
    -- Before the request there was none, or one of two attempts.
    have hattempts : q.attempts = 0 ∨ q.attempts = 1 := by
      rcases hq with rfl | ⟨hsent, hone | htwo⟩
      · exact .inl rfl
      · exact .inr hone
      · rcases hleft with hnone | hlt
        · rw [hnone] at hsent
          cases hsent
        · rw [htwo] at hlt
          exact absurd hlt (by decide)
    refine .inl ⟨p, rfl, rfl, ?_, hperformed ▸ List.prefix_append _ _, ?_⟩
    · rcases hattempts with hzero | hone
      · exact .inl (by rw [hzero]; rfl)
      · exact .inr (by rw [hone]; rfl)
    · have hcount : (q.attempts + 1).toNat = q.attempts.toNat + 1 := by
        rcases hattempts with hzero | hone
        · rw [hzero]; rfl
        · rw [hone]; rfl
      rw [hperformed, hlog, hcount, List.replicate_succ', List.append_assoc]
  · exact .inr ⟨e, rfl, Recorder.performed_of_not_ok hcalls rfl⟩

end VersionQuery

/-! ### Plans -/

/-- The operation of a step. -/
def PlanStep.call (step : PlanStep) : LineCall :=
  .write step.command.toCommand.transmitted true

/-- A step is left without a reply only if it need not be answered and the wait is over. -/
theorem WaitPolicy.of_judge_waiting {policy : WaitPolicy} {waited : Nat}
    (h : policy.judge .waiting waited = .complete) :
    policy = .answeredOrTimeout ∧ Timing.commandWait.toMicros ≤ waited := by
  cases policy with
  | accepted | answered => cases h
  | answeredOrTimeout =>
    simp only [judge] at h
    split at h
    · cases h
    · next hover => exact ⟨rfl, Nat.not_lt.1 hover⟩

/-- A step is given up on only because of a negative reply. -/
theorem WaitPolicy.of_judge_rejected {policy : WaitPolicy} {reply : ReplyState} {waited : Nat}
    (h : policy.judge reply waited = .rejected) : reply = .refused := by
  cases reply with
  | refused => rfl
  | accepted => cases h
  | idle | waiting =>
    cases policy with
    | accepted | answered => cases h
    | answeredOrTimeout =>
      simp only [judge] at h
      split at h <;> cases h

namespace PlanRun

/-- The operations that remain of a plan: the step at the cursor, unless it was sent, and all steps
behind it. -/
def remaining (run : PlanRun) : List LineCall :=
  match run.sentAt with
  | none => (run.plan.drop run.cursor).map PlanStep.call
  | some _ => (run.plan.drop (run.cursor + 1)).map PlanStep.call

variable {run run' : PlanRun} {now : Instant} {tracker tracker' : ReplyTracker}
  {ceiling ceiling' : Ceiling} {r r' : Recorder σ} {result : Except (NegotiationError ε) Progress}

section

variable {line line' : σ}

/-- **What sending the step at the cursor does.**  Behind the last step there is nothing to send.  A
step that opens a group starts the group ceiling, also if the command is not sent. -/
theorem sendStep_state
    (h : run.sendStep now tracker ceiling line = (result, run', tracker', ceiling', line')) :
    (run.plan[run.cursor]? = none ∧ result = .ok .ready ∧ run' = run ∧ tracker' = tracker ∧
      ceiling' = ceiling ∧ line' = line) ∨
    (∃ step sent, run.plan[run.cursor]? = some step ∧
      step.command.toCommand.send tracker line = (sent, tracker', line') ∧
      ceiling' = (if step.opensGroup then ⟨some now, Timing.groupCeiling⟩ else ceiling) ∧
      ((sent = .ok () ∧ result = .ok .pending ∧ run' = { run with sentAt := some now }) ∨
       (∃ e, sent = .error e ∧ result = .error (.send e) ∧ run' = run))) := by
  cases hstep : run.plan[run.cursor]? with
  | none =>
    simp only [sendStep, hstep, Prod.mk.injEq] at h
    obtain ⟨rfl, rfl, rfl, rfl, rfl⟩ := h
    exact .inl ⟨rfl, rfl, rfl, rfl, rfl, rfl⟩
  | some step =>
    rcases hsend : step.command.toCommand.send tracker line with ⟨e | ⟨⟩, tracker1, line1⟩
    · simp only [sendStep, hstep, hsend, Prod.mk.injEq] at h
      obtain ⟨rfl, rfl, rfl, rfl, rfl⟩ := h
      exact .inr ⟨step, _, rfl, hsend, rfl, .inr ⟨e, rfl, rfl, rfl⟩⟩
    · simp only [sendStep, hstep, hsend, Prod.mk.injEq] at h
      obtain ⟨rfl, rfl, rfl, rfl, rfl⟩ := h
      exact .inr ⟨step, _, rfl, hsend, rfl, .inl ⟨rfl, rfl, rfl⟩⟩

/-- **What a poll of a plan does.**  It waits, or it refuses to go on, or it leaves the step at the
cursor and sends the next one, or it sends the step at the cursor. -/
theorem poll_cases
    (h : run.poll now tracker ceiling line = (result, run', tracker', ceiling', line')) :
    (∃ step sentAt, run.plan[run.cursor]? = some step ∧ run.sentAt = some sentAt ∧
      ((step.policy.judge tracker.state (now.since sentAt) = .wait ∧ result = .ok .pending ∧
          run' = run ∧ tracker' = tracker ∧ ceiling' = ceiling ∧ line' = line) ∨
       (step.policy.judge tracker.state (now.since sentAt) = .rejected ∧
          result = .error (.rejected step.command.type) ∧
          run' = run ∧ tracker' = tracker ∧ ceiling' = ceiling ∧ line' = line) ∨
       (step.policy.judge tracker.state (now.since sentAt) = .complete ∧
          PlanRun.sendStep { run with cursor := run.cursor + 1, sentAt := none } now tracker
            ceiling line = (result, run', tracker', ceiling', line')))) ∨
    ((run.plan[run.cursor]? = none ∨ run.sentAt = none) ∧
      run.sendStep now tracker ceiling line = (result, run', tracker', ceiling', line')) := by
  cases hstep : run.plan[run.cursor]? with
  | none =>
    simp only [poll, hstep] at h
    exact .inr ⟨.inl rfl, h⟩
  | some step =>
    cases hsent : run.sentAt with
    | none =>
      simp only [poll, hstep, hsent] at h
      exact .inr ⟨.inr rfl, h⟩
    | some sentAt =>
      refine .inl ⟨step, sentAt, rfl, rfl, ?_⟩
      cases hjudge : step.policy.judge tracker.state (now.since sentAt) with
      | wait =>
        simp only [poll, hstep, hsent, hjudge, Prod.mk.injEq] at h
        obtain ⟨rfl, rfl, rfl, rfl, rfl⟩ := h
        exact .inl ⟨rfl, rfl, rfl, rfl, rfl, rfl⟩
      | rejected =>
        simp only [poll, hstep, hsent, hjudge, Prod.mk.injEq] at h
        obtain ⟨rfl, rfl, rfl, rfl, rfl⟩ := h
        exact .inr (.inl ⟨rfl, rfl, rfl, rfl, rfl, rfl⟩)
      | complete =>
        simp only [poll, hstep, hsent, hjudge] at h
        exact .inr (.inr ⟨rfl, h⟩)

end

/-- On a recorded line the command of the step is written. -/
theorem sendStep_cases
    (h : run.sendStep now tracker ceiling r = (result, run', tracker', ceiling', r')) :
    (run.plan[run.cursor]? = none ∧ result = .ok .ready ∧ run' = run ∧ tracker' = tracker ∧
      ceiling' = ceiling ∧ r' = r) ∨
    (∃ step, run.plan[run.cursor]? = some step ∧
      tracker' = tracker.begin step.command.type.id ∧
      ceiling' = (if step.opensGroup then ⟨some now, Timing.groupCeiling⟩ else ceiling) ∧
      ((result = .ok .pending ∧ run' = { run with sentAt := some now } ∧
          r'.calls = r.calls ++ [step.call]) ∨
       (∃ e, result = .error (.send e) ∧ run' = run ∧
          r'.calls = r.calls ++ [.write step.command.toCommand.transmitted false]))) := by
  rcases sendStep_state h with hend |
    ⟨step, sent, hstep, hsend, hceiling, ⟨rfl, hresult, hrun⟩ | ⟨e, rfl, hresult, hrun⟩⟩
  · exact .inl hend
  · obtain ⟨htracker, ⟨-, hcalls⟩ | ⟨e, herror, -⟩⟩ := step.command.fits.send_cases hsend
    · exact .inr ⟨step, hstep, htracker, hceiling, .inl ⟨hresult, hrun, hcalls⟩⟩
    · cases herror
  · obtain ⟨htracker, ⟨hok, -⟩ | ⟨-, -, hcalls⟩⟩ := step.command.fits.send_cases hsend
    · cases hok
    · exact .inr ⟨step, hstep, htracker, hceiling, .inr ⟨e, hresult, hrun, hcalls⟩⟩

theorem sendStep_pending
    (h : run.sendStep now tracker ceiling r = (.ok .pending, run', tracker', ceiling', r')) :
    run'.sentAt.isSome := by
  rcases sendStep_cases h with ⟨-, hready, -⟩ | ⟨step, -, -, -, ⟨-, rfl, -⟩ | ⟨e, herror, -⟩⟩
  · cases hready
  · rfl
  · cases herror

/-- A poll that has to be made again leaves a step behind whose reply is waited for. -/
theorem poll_pending
    (h : run.poll now tracker ceiling r = (.ok .pending, run', tracker', ceiling', r')) :
    run'.sentAt.isSome := by
  rcases poll_cases h with ⟨step, sentAt, -, hsent, ⟨-, -, rfl, -⟩ | ⟨-, herror, -⟩ | ⟨-, hsend⟩⟩ |
    ⟨-, hsend⟩
  · rw [hsent]
    rfl
  · cases herror
  · exact sendStep_pending hsend
  · exact sendStep_pending hsend

/-- Sending the step at the cursor works off what remains. -/
theorem sendStep_executes (hsent : run.sentAt = none ∨ run.plan[run.cursor]? = none)
    (h : run.sendStep now tracker ceiling r = (result, run', tracker', ceiling', r')) :
    Executes result run.remaining run'.remaining r r' ∧ run'.plan = run.plan := by
  rcases sendStep_cases h with ⟨hnone, rfl, rfl, -, -, rfl⟩ |
    ⟨step, hstep, -, -, ⟨rfl, rfl, hcalls⟩ | ⟨e, rfl, rfl, hcalls⟩⟩
  · have hlen := List.getElem?_eq_none_iff.1 hnone
    refine ⟨Executes.of_eq rfl rfl fun _ => ?_, rfl⟩
    unfold remaining
    split
    · rw [List.drop_of_length_le hlen, List.map_nil]
    · rw [List.drop_of_length_le (Nat.le_succ_of_le hlen), List.map_nil]
  · obtain ⟨hlt, hget⟩ := List.getElem?_eq_some_iff.1 hstep
    have hnone : run.sentAt = none := by
      rcases hsent with hsent | hend
      · exact hsent
      · simp [hstep] at hend
    refine ⟨⟨_, Recorder.performed_of_ok hcalls rfl, ?_, fun hready => nomatch hready⟩, rfl⟩
    simp only [remaining, hnone]
    rw [List.drop_eq_getElem_cons hlt, hget]
    rfl
  · exact ⟨Executes.of_error (Recorder.performed_of_not_ok hcalls rfl), rfl⟩

/-- **A poll of a plan works off what remains.** -/
theorem poll_executes
    (h : run.poll now tracker ceiling r = (result, run', tracker', ceiling', r')) :
    Executes result run.remaining run'.remaining r r' ∧ run'.plan = run.plan := by
  rcases poll_cases h with ⟨step, sentAt, hstep, hsent, ⟨-, rfl, rfl, -, -, rfl⟩ |
    ⟨-, rfl, rfl, -, -, rfl⟩ | ⟨-, hsend⟩⟩ | ⟨hsent, hsend⟩
  · exact ⟨Executes.of_eq rfl rfl (fun hready => nomatch hready), rfl⟩
  · exact ⟨Executes.of_error rfl, rfl⟩
  · obtain ⟨hexecutes, hplan⟩ := sendStep_executes (.inl rfl) hsend
    have hremaining : run.remaining =
        PlanRun.remaining { run with cursor := run.cursor + 1, sentAt := none } := by
      simp only [remaining, hsent]
    exact ⟨hremaining ▸ hexecutes, hplan⟩
  · exact sendStep_executes hsent.symm hsend

end PlanRun

end GnssLink
