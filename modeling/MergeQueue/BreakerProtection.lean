import MergeQueue.GitLabClient

/-!
# What the circuit breaker of the client sees

An exhausted retry loop raises the last exception itself, while the client
tells the breaker about the wrapper only.  Hence the breaker never leaves its
closed state, whatever GitLab answers.
-/

namespace MergeQueue

/-- One call of the client, with what it sent and the breaker that it left. -/
structure CallRecord where
  startedAt : ℤ
  finishedAt : ℤ
  sent : List Sent
  result : Except ClientError Response
  breaker : CircuitBreaker

section Run

variable (settings : ClientSettings) (tenacity : Tenacity)

def callRecord (r : ApiRequest) (w : ClientWorld) : CallRecord × ClientWorld :=
  let (result, w') := request settings tenacity r w
  let (finishedAt, w'') := w'.tick
  ({ startedAt := w.clock w.ticks
     finishedAt
     sent := w'.trace.drop w.trace.length
     result
     breaker := w'.breaker }, w'')

/-- The calls of a client, one after the other. -/
def runCalls : List ApiRequest → ClientWorld → List CallRecord
  | [], _ => []
  | r :: rs, w =>
      let (record, w) := callRecord settings tenacity r w
      record :: runCalls rs w

end Run

/-- The answer makes the client try again. -/
def HttpAnswer.transient : HttpAnswer → Bool
  | .response r => r.statusCode = 429 || (500 ≤ r.statusCode && r.statusCode < 600)
  | .transportError => false

/-- The call used up its attempts on server errors and rate limits. -/
def CallRecord.exhausted (settings : ClientSettings) (record : CallRecord) : Bool :=
  record.sent.length = max 1 settings.apiMaxRetries && record.sent.all fun x ↦ x.answer.transient

/-- The call failed fast, without sending anything. -/
def CallRecord.FailedFast (record : CallRecord) : Prop :=
  (∃ e, record.result = .error (.gitlab e) ∧ e.kind = .circuitOpen) ∧ record.sent = []

/-- Some consecutive calls, as many as the threshold, are all exhausted. -/
def ThresholdReached (settings : ClientSettings) (records : List CallRecord) : Prop :=
  ∃ pre block post, records = pre ++ block ++ post ∧
    block.length = settings.circuitBreakerFailureThreshold ∧
      ∀ record ∈ block, record.exhausted settings = true

/-- After as many exhausted calls as the threshold the breaker is open, and
until the timeout has passed every further call fails fast. -/
def BreakerProtects (settings : ClientSettings) (records : List CallRecord) : Prop :=
  ∀ pre block post, records = pre ++ block ++ post →
    block.length = settings.circuitBreakerFailureThreshold →
      (∀ record ∈ block, record.exhausted settings = true) →
        ∀ last, block.getLast? = some last → last.breaker.state = .open ∧
          ∀ record ∈ post,
            record.startedAt - last.finishedAt < settings.circuitBreakerHalfOpenTimeout →
              record.FailedFast

theorem send_breaker (r : ApiRequest) (w : ClientWorld) : (w.send r).2.breaker = w.breaker := rfl

theorem executeSingleRequest_closed {r : ApiRequest} {w : ClientWorld}
    (h : w.breaker.state = .closed) :
    (executeSingleRequest r w).2.breaker.state = .closed := by
  rw [executeSingleRequest]
  rcases hsend : w.send r with ⟨response | _, w'⟩
  · have hclosed : w'.breaker.state = .closed := by
      rw [show w' = (w.send r).2 by rw [hsend], send_breaker, h]
    simp only
    cases handleErrorResponse response with
    | error e => exact hclosed
    | ok u => simp [CircuitBreaker.recordSuccess_of_closed hclosed, hclosed]
  · rw [show w' = (w.send r).2 by rw [hsend]]
    exact h

/-- The retry loop keeps a closed breaker closed, and raises no wrapper. -/
theorem executeAttempts_closed {tenacity : Tenacity} (hreraise : ∀ e, tenacity true e = .own e)
    {r : ApiRequest} (retries : ℕ) {w : ClientWorld} (h : w.breaker.state = .closed) :
    (executeAttempts tenacity r retries w).2.breaker.state = .closed ∧
      ∀ last, (executeAttempts tenacity r retries w).1 ≠ .error (.retryError last) := by
  induction retries generalizing w with
  | zero =>
      have hsingle := executeSingleRequest_closed (r := r) h
      rw [executeAttempts]
      generalize executeSingleRequest r w = out at hsingle ⊢
      obtain ⟨e | response, w'⟩ := out
      · simp only [hreraise]
        split_ifs <;> exact ⟨hsingle, by simp⟩
      · exact ⟨hsingle, by simp⟩
  | succ retries ih =>
      have hsingle := executeSingleRequest_closed (r := r) h
      rw [executeAttempts]
      generalize executeSingleRequest r w = out at hsingle ⊢
      obtain ⟨e | response, w'⟩ := out
      · simp only
        split_ifs
        · exact ih hsingle
        · exact ⟨hsingle, by simp⟩
      · exact ⟨hsingle, by simp⟩

theorem request_closed {settings : ClientSettings} {tenacity : Tenacity}
    (hreraise : ∀ e, tenacity true e = .own e) {r : ApiRequest} {w : ClientWorld}
    (h : w.breaker.state = .closed) :
    (request settings tenacity r w).2.breaker.state = .closed := by
  rw [request]
  simp only [ClientWorld.tick, CircuitBreaker.beforeCall_of_closed h, executeWithRetry]
  have hattempts := executeAttempts_closed hreraise (r := r) (settings.apiMaxRetries - 1)
    (w := { w with ticks := w.ticks + 1 }) h
  generalize executeAttempts tenacity r (settings.apiMaxRetries - 1)
    { w with ticks := w.ticks + 1 } = out at hattempts ⊢
  obtain ⟨(e | last) | response, w'⟩ := out
  · exact hattempts.1
  · exact absurd rfl (hattempts.2 last)
  · exact hattempts.1

/-- No run opens the breaker. -/
theorem runCalls_closed {settings : ClientSettings} {tenacity : Tenacity}
    (hreraise : ∀ e, tenacity true e = .own e) (requests : List ApiRequest) {w : ClientWorld}
    (h : w.breaker.state = .closed) :
    ∀ record ∈ runCalls settings tenacity requests w, record.breaker.state = .closed := by
  induction requests generalizing w with
  | nil => simp [runCalls]
  | cons r rs ih =>
      have hcall : (request settings tenacity r w).2.breaker.state = .closed :=
        request_closed hreraise h
      intro record hrecord
      rw [runCalls] at hrecord
      rcases List.mem_cons.mp hrecord with rfl | hrecord
      · exact hcall
      · exact ih (w := (callRecord settings tenacity r w).2) hcall record hrecord

/-- A run that reaches the threshold leaves GitLab unprotected. -/
theorem not_breakerProtects_of_thresholdReached {settings : ClientSettings}
    {tenacity : Tenacity} (hreraise : ∀ e, tenacity true e = .own e)
    {requests : List ApiRequest} {w : ClientWorld}
    (hnew : w.breaker = createCircuitBreaker settings)
    (h : ThresholdReached settings (runCalls settings tenacity requests w)) :
    ¬ BreakerProtects settings (runCalls settings tenacity requests w) := by
  obtain ⟨pre, block, post, hrecords, hlength, hexhausted⟩ := h
  intro hprotects
  have hne : block ≠ [] := by
    rintro rfl
    exact absurd hlength.symm (Nat.one_le_iff_ne_zero.mp settings.one_le_failureThreshold)
  have hopen := (hprotects pre block post hrecords hlength hexhausted _
    (List.getLast?_eq_some_getLast hne)).1
  have hclosed : w.breaker.state = .closed := by
    rw [hnew]
    rfl
  have hmem : block.getLast hne ∈ runCalls settings tenacity requests w := by
    rw [hrecords]
    exact List.mem_append_left _ (List.mem_append_right _ (List.getLast_mem hne))
  rw [runCalls_closed hreraise requests hclosed _ hmem] at hopen
  cases hopen

/-- The breaker protects GitLab only in the runs that never reach its threshold. -/
theorem breakerProtects_iff_not_thresholdReached {settings : ClientSettings}
    {tenacity : Tenacity} (hreraise : ∀ e, tenacity true e = .own e)
    (requests : List ApiRequest) {w : ClientWorld}
    (hnew : w.breaker = createCircuitBreaker settings) :
    BreakerProtects settings (runCalls settings tenacity requests w) ↔
      ¬ ThresholdReached settings (runCalls settings tenacity requests w) := by
  constructor
  · exact fun hprotects hreached ↦
      not_breakerProtects_of_thresholdReached hreraise hnew hreached hprotects
  · intro hnone pre block post hrecords hlength hexhausted
    exact absurd ⟨pre, block, post, hrecords, hlength, hexhausted⟩ hnone

/-! ## An outage -/

/-- GitLab answers every request with status 503. -/
def outage : ClientWorld where
  breaker := createCircuitBreaker .default
  head := "head"
  exchanges := fun _ ↦ { answer := .response { statusCode := 503 } }
  clock := fun n ↦ n

/-- Six requests during the outage. -/
def outageCalls : List CallRecord :=
  runCalls .default reraising (List.replicate 6 (.getMr 7)) outage

theorem outage_thresholdReached : ThresholdReached {} outageCalls :=
  ⟨[], outageCalls.take 5, outageCalls.drop 5, by simp, by decide +kernel, by decide +kernel⟩

theorem breakerProtects_iff_not_thresholdReached_outage : ¬ BreakerProtects {} outageCalls :=
  fun hprotects ↦ (breakerProtects_iff_not_thresholdReached (fun _ ↦ rfl) _ rfl).mp hprotects
    outage_thresholdReached

/-- Five exhausted requests leave the breaker closed, and the sixth is sent. -/
theorem outage_breaker_stays_closed :
    ¬ ∀ (settings : ClientSettings) (tenacity : Tenacity), (∀ e, tenacity true e = .own e) →
        ∀ (requests : List ApiRequest) (w : ClientWorld),
          w.breaker = createCircuitBreaker settings →
            BreakerProtects settings (runCalls settings tenacity requests w) := by
  intro hclaim
  exact not_breakerProtects_of_thresholdReached (fun _ ↦ rfl) rfl outage_thresholdReached
    (hclaim {} reraising (fun _ ↦ rfl) (List.replicate 6 (.getMr 7)) outage rfl)

end MergeQueue
