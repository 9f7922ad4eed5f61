import MergeQueue.GitLabClient
import MergeQueue.Lib.Checks
import MergeQueue.RateLimit
import MergeQueue.Redaction

/-!
# From a response to an exception

The rate limit headers are taken in before the status of a response is looked at, and the
body is parsed, shortened to a message and redacted before the exception exists.  Whatever
these steps raise takes its place.
-/

namespace MergeQueue

/-- A response; `json` is what `response.json()` returns, if it does not raise. -/
structure HttpResponse where
  statusCode : ℕ
  reasonPhrase : String := ""
  rate : RateHeaders := {}
  retryAfter : Option String := none
  json : Option BodyJson := none
  text : String := ""

/-- What a request raises besides the errors of the transport. -/
inductive RequestError
  | gitlab (error : GitLabError) (responseBody : BodyJson)
  | arithmetic (error : ArithmeticError)
  | attributeError

namespace BodyJson

/-- `bool(body)`; nothing and an empty text are no message. -/
def truthy : BodyJson → Bool
  | .null => false
  | .bool b => b
  | .int n => n ≠ 0
  | .float text => text ≠ "0.0" && text ≠ "-0.0"
  | .str s => s ≠ ""
  | .arr xs => !xs.isEmpty
  | .obj fields => !fields.isEmpty

/-- `dict.get(key)`, if its value is truthy. -/
def getTruthy (fields : List (String × BodyJson)) (key : String) : Option BodyJson :=
  (fields.lookup key).filter truthy

/-- The fields of a body are redacted, and a text is stored as it is.  Other bodies have no
fields; nothing stands for the `AttributeError`. -/
def sanitizeResponseBody : BodyJson → Option BodyJson
  | .null => some .null
  | .str s => some (.str s)
  | .obj fields => some (.obj (redactDict fields))
  | .bool _ => none
  | .int _ => none
  | .float _ => none
  | .arr _ => none

end BodyJson

namespace HttpResponse

variable (response : HttpResponse)

def isSuccess : Bool := decide (200 ≤ response.statusCode ∧ response.statusCode < 300)

/-- The JSON value of the body, or else its text. -/
def parseResponseBody : BodyJson :=
  response.json.getD (if response.text = "" then .null else .str response.text)

/-- `Retry-After`, where it is an integer. -/
def parseRetryAfter : Option ℤ := (response.retryAfter.filter (· ≠ "")).bind pyInt

section Text

variable (str : BodyJson → String)

/-- The text of the error; `str` is the text of a value. -/
def extractErrorMessage : String :=
  match response.parseResponseBody with
  | .obj fields =>
      str (((BodyJson.getTruthy fields "message").or (BodyJson.getTruthy fields "error")).getD
        (.obj fields))
  | body => if body.truthy then str body else response.reasonPhrase

/-- What the status and the message of a response say. -/
def summary : Response where
  statusCode := response.statusCode
  errorMessage := response.extractErrorMessage str

/-- The exception of the status, with the redacted body. -/
def handleErrorResponse : Except RequestError Unit :=
  match MergeQueue.handleErrorResponse (response.summary str) with
  | .ok () => .ok ()
  | .error (.gitlab error) =>
      let retryAfter := if error.kind = .rateLimit then response.parseRetryAfter else none
      match response.parseResponseBody.sanitizeResponseBody with
      | some responseBody => .error (.gitlab { error with retryAfter } responseBody)
      | none => .error .attributeError
  | .error .transport => .ok ()
  | .error .malformedBody => .ok ()

end Text

end HttpResponse

/-- What the client keeps between its requests. -/
structure ClientMemory where
  rateLimit : RateLimitState := {}
  breaker : CircuitBreaker := {}

/-- A request that was answered with the response. -/
def HttpResponse.executeSingleRequest (thresholds : RateThresholds) (str : BodyJson → String)
    (now : ℤ) (response : HttpResponse) (memory : ClientMemory) :
    Except RequestError HttpResponse × ClientMemory :=
  let (updated, rateLimit) :=
    updateRateLimitState thresholds now response.rate memory.rateLimit
  let memory := { memory with rateLimit }
  match updated with
  | .error e => (.error (.arithmetic e), memory)
  | .ok () =>
      match response.handleErrorResponse str with
      | .error e => (.error e, memory)
      | .ok () => (.ok response, { memory with breaker := memory.breaker.recordSuccess })

/-! ## What is asked of it -/

/-- The exception for a status that is no success. -/
def ErrorKind.ofStatus (statusCode : ℕ) : ErrorKind :=
  if statusCode = 404 then .notFound
  else if statusCode = 409 then .conflict
  else if statusCode = 429 then .rateLimit
  else if 500 ≤ statusCode ∧ statusCode < 600 then .server
  else .api

/-- A success is returned.  Everything else is raised as the exception of its status, with the
body in which every value under a sensitive key is redacted and nothing else is changed. -/
def Classified (response : HttpResponse) (result : Except RequestError HttpResponse) : Prop :=
  if response.isSuccess then result = .ok response
  else ∃ error responseBody, result = .error (.gitlab error responseBody) ∧
    error.kind = .ofStatus response.statusCode ∧ error.statusCode = some response.statusCode ∧
    responseBody = response.parseResponseBody.redacted ∧ responseBody.Clean

/-- The header is absent or empty, or an integer. -/
def SpellsInt (header : Option String) : Prop :=
  ∀ text ∈ header.filter (· ≠ ""), (pyInt text).isSome

/-- No number in the headers has no float where one is needed. -/
structure RateHeaders.Harmless (thresholds : RateThresholds) (headers : RateHeaders) : Prop where
  limit : SpellsInt headers.limit
  remaining : SpellsInt headers.remaining
  reset : SpellsInt headers.reset
  quotient : ∀ limit remaining, headerInt headers.limit = .ok (some limit) →
    headerInt headers.remaining = .ok (some remaining) → limit ≠ 0 → QuotientFits remaining limit
  seconds : ∀ limit remaining resetAt, headerInt headers.limit = .ok (some limit) →
    headerInt headers.remaining = .ok (some remaining) → limit ≠ 0 →
    (thresholds.critical remaining limit || thresholds.warning remaining limit) = true →
    headerInt headers.reset = .ok (some resetAt) → FitsFloat resetAt

/-- The body is absent, a text or an object whose lists within lists hold no secret. -/
def BodyJson.Redactable : BodyJson → Prop
  | .null => True
  | .str _ => True
  | .obj fields => NestedClean fields
  | .bool _ => False
  | .int _ => False
  | .float _ => False
  | .arr _ => False

/-! ## The headers -/

section Headers

variable {thresholds : RateThresholds}

theorem headerInt_eq_ok_iff (header : Option String) :
    (∃ n, headerInt header = .ok n) ↔ SpellsInt header := by
  unfold headerInt SpellsInt
  cases hfilter : header.filter (· ≠ "") with
  | none => simp
  | some text =>
      cases hint : pyInt text with
      | none => simp [hint]
      | some n => simp [hint]

/-- The numbers of the headers that are taken in. -/
theorem parseRateLimitHeaders_eq_ok {headers : RateHeaders} {limit remaining reset : Option ℤ}
    (hlimit : headerInt headers.limit = .ok limit)
    (hremaining : headerInt headers.remaining = .ok remaining)
    (hreset : headerInt headers.reset = .ok reset) :
    parseRateLimitHeaders headers = .ok (limit, remaining, reset) := by
  unfold parseRateLimitHeaders
  rw [hlimit, hremaining, hreset]
  rfl

theorem exceedsThreshold_eq {test : RatioTest} {state : RateLimitState} {limit remaining : ℤ}
    (hlimit : state.limit = some limit) (hremaining : state.remaining = some remaining) :
    state.exceedsThreshold test =
      if limit = 0 then .ok false
      else if QuotientFits remaining limit then .ok (test remaining limit)
      else .error .overflowError := by
  unfold RateLimitState.exceedsThreshold
  rw [hlimit, hremaining]

/-- Without both numbers there is no ratio. -/
theorem exceedsThreshold_unknown {test : RatioTest} {state : RateLimitState}
    (h : state.limit = none ∨ state.remaining = none) :
    state.exceedsThreshold test = .ok false := by
  unfold RateLimitState.exceedsThreshold
  rcases h with h | h
  · rw [h]
  · rw [h]
    cases state.limit <;> rfl

theorem secondsUntilReset_eq_ok_iff {state : RateLimitState} {now : ℤ} :
    (∃ seconds, state.secondsUntilReset now = .ok seconds) ↔
      ∀ resetAt, state.resetAt = some resetAt → FitsFloat resetAt := by
  unfold RateLimitState.secondsUntilReset
  cases state.resetAt with
  | none => simp
  | some resetAt =>
      by_cases hfits : FitsFloat resetAt
      · simp [hfits]
      · simp [hfits]

/-- The warnings about a state without a ratio compute nothing. -/
theorem logRateLimit_unknown {state : RateLimitState} (now : ℤ)
    (h : state.limit = none ∨ state.remaining = none) :
    logRateLimit thresholds now state = .ok () := by
  unfold logRateLimit
  rw [exceedsThreshold_unknown h, exceedsThreshold_unknown h]
  rfl

theorem logRateLimit_zero {state : RateLimitState} (now : ℤ) {remaining : ℤ}
    (hlimit : state.limit = some 0) (hremaining : state.remaining = some remaining) :
    logRateLimit thresholds now state = .ok () := by
  unfold logRateLimit
  rw [exceedsThreshold_eq hlimit hremaining, exceedsThreshold_eq hlimit hremaining]
  rfl

/-- The warnings fail on a quotient or on a reset that no float holds. -/
theorem logRateLimit_eq_ok_iff {state : RateLimitState} {now limit remaining : ℤ}
    (hlimit : state.limit = some limit) (hremaining : state.remaining = some remaining)
    (hne : limit ≠ 0) :
    logRateLimit thresholds now state = .ok () ↔ QuotientFits remaining limit ∧
      ((thresholds.critical remaining limit || thresholds.warning remaining limit) = true →
        ∀ resetAt, state.resetAt = some resetAt → FitsFloat resetAt) := by
  have hexceeds (test : RatioTest) := @exceedsThreshold_eq test state limit remaining hlimit
    hremaining
  have hseconds := @secondsUntilReset_eq_ok_iff state now
  unfold logRateLimit
  simp only [hexceeds, if_neg hne]
  by_cases hfits : QuotientFits remaining limit
  · simp only [hfits, true_and]
    rw [← hseconds]
    cases hcritical : thresholds.critical remaining limit with
    | true =>
        cases state.secondsUntilReset now with
        | error e => simp [bind, Except.bind]
        | ok seconds => simp [bind, Except.bind, pure, Except.pure]
    | false =>
        cases hwarning : thresholds.warning remaining limit with
        | true =>
            cases state.secondsUntilReset now with
            | error e => simp [bind, Except.bind]
            | ok seconds => simp [bind, Except.bind, pure, Except.pure]
        | false => simp [bind, Except.bind, pure, Except.pure]
  · simp only [hfits, false_and, iff_false]
    intro h
    cases h

/-- Taking in the headers raises exactly when they are not harmless. -/
theorem updateRateLimitState_eq_ok_iff (now : ℤ) (headers : RateHeaders) (state : RateLimitState) :
    (updateRateLimitState thresholds now headers state).1 = .ok () ↔
      headers.Harmless thresholds := by
  constructor
  · intro h
    obtain ⟨numbers, hparse⟩ : ∃ numbers, parseRateLimitHeaders headers = .ok numbers := by
      unfold updateRateLimitState at h
      cases hparse : parseRateLimitHeaders headers with
      | error e =>
          rw [hparse] at h
          cases h
      | ok numbers => exact ⟨numbers, rfl⟩
    obtain ⟨limit, hlimit, hrest⟩ := bind_eq_ok.mp hparse
    obtain ⟨remaining, hremaining, hrest⟩ := bind_eq_ok.mp hrest
    obtain ⟨resetAt, hreset, hnumbers⟩ := bind_eq_ok.mp hrest
    have hlog : ∀ limit' remaining', limit = some limit' → remaining = some remaining' →
        logRateLimit thresholds now { limit, remaining, resetAt } = .ok () := by
      rintro limit' remaining' rfl rfl
      unfold updateRateLimitState at h
      rw [parseRateLimitHeaders_eq_ok hlimit hremaining hreset] at h
      simpa using h
    refine ⟨(headerInt_eq_ok_iff _).mp ⟨_, hlimit⟩, (headerInt_eq_ok_iff _).mp ⟨_, hremaining⟩,
      (headerInt_eq_ok_iff _).mp ⟨_, hreset⟩, fun limit' remaining' hlimit' hremaining' hne ↦ ?_,
      fun limit' remaining' resetAt' hlimit' hremaining' hne htest hreset' ↦ ?_⟩
    · obtain rfl : limit = some limit' := Except.ok.inj (hlimit.symm.trans hlimit')
      obtain rfl : remaining = some remaining' := Except.ok.inj (hremaining.symm.trans hremaining')
      exact ((logRateLimit_eq_ok_iff rfl rfl hne).mp (hlog _ _ rfl rfl)).1
    · obtain rfl : limit = some limit' := Except.ok.inj (hlimit.symm.trans hlimit')
      obtain rfl : remaining = some remaining' := Except.ok.inj (hremaining.symm.trans hremaining')
      obtain rfl : resetAt = some resetAt' := Except.ok.inj (hreset.symm.trans hreset')
      exact ((logRateLimit_eq_ok_iff rfl rfl hne).mp (hlog _ _ rfl rfl)).2 htest resetAt' rfl
  · intro h
    obtain ⟨limit, hlimit⟩ := (headerInt_eq_ok_iff _).mpr h.limit
    obtain ⟨remaining, hremaining⟩ := (headerInt_eq_ok_iff _).mpr h.remaining
    obtain ⟨resetAt, hreset⟩ := (headerInt_eq_ok_iff _).mpr h.reset
    unfold updateRateLimitState
    rw [parseRateLimitHeaders_eq_ok hlimit hremaining hreset]
    simp only
    split_ifs with hnone
    · rfl
    · cases limit with
      | none => exact logRateLimit_unknown now (Or.inl rfl)
      | some limit =>
          cases remaining with
          | none => exact logRateLimit_unknown now (Or.inr rfl)
          | some remaining =>
              by_cases hzero : limit = 0
              · subst hzero
                exact logRateLimit_zero now rfl rfl
              · refine (logRateLimit_eq_ok_iff rfl rfl hzero).mpr
                  ⟨h.quotient _ _ hlimit hremaining hzero, fun htest resetAt' hresetAt ↦ ?_⟩
                exact h.seconds _ _ _ hlimit hremaining hzero htest
                  (hreset.trans (congrArg Except.ok hresetAt))

end Headers

/-! ## The body -/

section Body

variable (str : BodyJson → String) (response : HttpResponse)

theorem summary_isSuccess : (response.summary str).isSuccess = response.isSuccess := rfl

/-- The kind and the status of the exception are those of the status. -/
theorem handleErrorResponse_summary (h : response.isSuccess = false) :
    ∃ error, handleErrorResponse (response.summary str) = .error (.gitlab error) ∧
      error.kind = .ofStatus response.statusCode ∧
      error.statusCode = some response.statusCode := by
  have hfailure : ¬ (response.summary str).isSuccess = true := by
    rw [summary_isSuccess, h]
    exact Bool.false_ne_true
  have hstatus : (response.summary str).statusCode = response.statusCode := rfl
  unfold handleErrorResponse ErrorKind.ofStatus
  simp only [if_neg hfailure, hstatus]
  split_ifs
  all_goals exact ⟨_, rfl, rfl, rfl⟩

theorem sanitizeResponseBody_eq_iff (body : BodyJson) :
    body.sanitizeResponseBody = some body.redacted ↔ body.Redactable := by
  cases body with
  | null => simp [BodyJson.sanitizeResponseBody, BodyJson.redacted, BodyJson.Redactable]
  | str s => simp [BodyJson.sanitizeResponseBody, BodyJson.redacted, BodyJson.Redactable]
  | obj fields =>
      rw [BodyJson.sanitizeResponseBody, BodyJson.redacted, BodyJson.Redactable,
        ← BodyJson.redactDict_eq_iff fields]
      exact ⟨fun h ↦ BodyJson.obj.inj (Option.some.inj h), fun h ↦ by rw [h]⟩
  | bool b => simp [BodyJson.sanitizeResponseBody, BodyJson.Redactable]
  | int n => simp [BodyJson.sanitizeResponseBody, BodyJson.Redactable]
  | float text => simp [BodyJson.sanitizeResponseBody, BodyJson.Redactable]
  | arr xs => simp [BodyJson.sanitizeResponseBody, BodyJson.Redactable]

theorem handleErrorResponse_success (h : response.isSuccess = true) :
    response.handleErrorResponse str = .ok () := by
  have hsuccess : MergeQueue.handleErrorResponse (response.summary str) = .ok () := by
    unfold handleErrorResponse
    rw [summary_isSuccess, if_pos h]
  rw [HttpResponse.handleErrorResponse, hsuccess]

/-- A response that is no success raises the exception of its status, unless its body has no
redacted form. -/
theorem handleErrorResponse_failure (h : response.isSuccess = false) :
    ∃ error : GitLabError, error.kind = .ofStatus response.statusCode ∧
      error.statusCode = some response.statusCode ∧
      response.handleErrorResponse str =
        match response.parseResponseBody.sanitizeResponseBody with
        | some responseBody => .error (.gitlab error responseBody)
        | none => .error .attributeError := by
  obtain ⟨error, herror, hkind, hstatus⟩ := handleErrorResponse_summary str response h
  refine ⟨{ error with
    retryAfter := if error.kind = .rateLimit then response.parseRetryAfter else none }, hkind,
    hstatus, ?_⟩
  rw [HttpResponse.handleErrorResponse, herror]

/-- What is raised after the headers were taken in. -/
theorem classified_failure_iff (h : response.isSuccess = false) :
    (∃ error responseBody,
        response.handleErrorResponse str = .error (.gitlab error responseBody) ∧
        error.kind = .ofStatus response.statusCode ∧
        error.statusCode = some response.statusCode ∧
        responseBody = response.parseResponseBody.redacted ∧ responseBody.Clean) ↔
      response.parseResponseBody.Redactable := by
  obtain ⟨error, hkind, hstatus, hraised⟩ := handleErrorResponse_failure str response h
  rw [← sanitizeResponseBody_eq_iff, hraised]
  constructor
  · rintro ⟨error', responseBody, hresult, -, -, hredacted, -⟩
    cases hbody : response.parseResponseBody.sanitizeResponseBody with
    | none =>
        rw [hbody] at hresult
        cases hresult
    | some body =>
        rw [hbody] at hresult
        cases hresult
        rw [hredacted]
  · intro hbody
    rw [hbody]
    exact ⟨error, _, rfl, hkind, hstatus, rfl, BodyJson.clean_redacted _⟩

end Body

/-- A response is classified exactly when its headers can be read, and it is a success or its
body can be redacted. -/
theorem every_answer_classified_iff (thresholds : RateThresholds) (str : BodyJson → String)
    (now : ℤ) (response : HttpResponse) (memory : ClientMemory) :
    Classified response (response.executeSingleRequest thresholds str now memory).1 ↔
      response.rate.Harmless thresholds ∧
        (response.isSuccess = true ∨ response.parseResponseBody.Redactable) := by
  rw [← updateRateLimitState_eq_ok_iff now response.rate memory.rateLimit]
  unfold Classified HttpResponse.executeSingleRequest
  cases hupdated : (updateRateLimitState thresholds now response.rate memory.rateLimit).1 with
  | error e =>
      simp only [hupdated]
      split_ifs <;> simp
  | ok u =>
      simp only [hupdated, true_and]
      cases hsuccess : response.isSuccess with
      | true => simp [handleErrorResponse_success str response hsuccess]
      | false =>
          rw [← classified_failure_iff str response hsuccess]
          obtain ⟨error, hkind, hstatus, hraised⟩ :=
            handleErrorResponse_failure str response hsuccess
          rw [hraised]
          cases response.parseResponseBody.sanitizeResponseBody <;> simp

/-- A list of messages, which is no object. -/
theorem list_body_is_not_classified :
    ¬ ∀ (thresholds : RateThresholds) (str : BodyJson → String) (now : ℤ)
        (response : HttpResponse) (memory : ClientMemory),
        Classified response (response.executeSingleRequest thresholds str now memory).1 := by
  intro hclaim
  obtain ⟨error, responseBody, hresult, -⟩ := hclaim defaultThresholds (fun _ ↦ "") 0
    { statusCode := 503, json := some (.arr [.str "down"]), text := "[\"down\"]" } {}
  cases hresult

end MergeQueue
