import MergeQueue.WebhookRetry

/-!
# The webhook endpoint

GitLab delivers an event again unless the endpoint answers it with a status of
2xx.  The endpoint parses the event and hands it to a handler; an event that
could not be parsed or handled is stored in the retry queue.
-/

namespace MergeQueue

open WebhookRetryManager

variable {π : Type}

inductive EventKind
  | mergeRequest
  | pipeline
  | note
  deriving DecidableEq, Repr

def EventKind.className : EventKind → String
  | mergeRequest => "MergeRequestEvent"
  | pipeline => "PipelineEvent"
  | note => "NoteEvent"

/-- What the endpoint reads of a parsed event. -/
structure WebhookEvent where
  objectKind : String
  kind : EventKind
  projectId : ℕ
  deriving DecidableEq, Repr

/-- A body that is a JSON object: the project and the kind it names, and all of it. -/
structure WebhookPayload (π : Type) where
  rawProjectId : Option ℕ
  objectKind : Option String
  body : π

/-- What parsing may raise. -/
inductive ParseError
  | valueError (message : String)
  | keyError (message : String)
  | other (message : String)
  deriving DecidableEq, Repr

/-- What a handler may raise. -/
inductive HandlerError
  | circuitOpen (retryAfter : Option ℕ)
  | queueItemNotFound (mrIid : ℕ)
  | other (message : String)
  | cancelled
  deriving DecidableEq, Repr

/-- The body of an answer. -/
inductive WebhookAnswer
  | ok
  | projectIgnored (reason : String) (eventProjectId : Option ℕ)
      (configuredProjectIds : List ℕ)
  | eventIgnored (reason : String) (detail : Option String)
  | queuedForRetry (retryId : ℕ)
  | serviceUnavailable (retryAfter : ℕ)
  | error (reason : Option String)
  | raised (detail : String)
  deriving DecidableEq, Repr

structure WebhookResponse where
  statusCode : ℕ := 200
  answer : WebhookAnswer
  deriving DecidableEq, Repr

/-- A status of 2xx. -/
def WebhookResponse.acknowledges (response : WebhookResponse) : Bool :=
  decide (200 ≤ response.statusCode ∧ response.statusCode < 300)

/-- What the endpoint is given: its secret and projects, what the parser and the
handler make of the request, and how the transaction of a retry insert goes. -/
structure WebhookState (π : Type) where
  retryManager : WebhookRetryManager := {}
  webhookSecret : Option String
  configuredIds : List ℕ
  parseWebhookEvent : WebhookPayload π → Except ParseError (Option WebhookEvent)
  routeWebhookEvent : WebhookEvent → Except HandlerError Unit
  insert : RetryChoice

namespace WebhookState

variable (state : WebhookState π)

def validateWebhookRequest (token : String) : Option WebhookResponse :=
  match state.webhookSecret with
  | none => some { statusCode := 500, answer := .raised "Webhook secret not configured" }
  | some secret =>
      if token = secret then none
      else some { statusCode := 401, answer := .raised "Invalid webhook token" }

/-- An event of a project that is not configured. -/
def ignoredProject (eventProjectId : Option ℕ) : WebhookResponse where
  answer :=
    .projectIgnored
      (if state.configuredIds.length = 1 then "project_id_mismatch" else "project_not_configured")
      eventProjectId state.configuredIds

/-- Stores an event for retry, and answers with `failed` where that raises. -/
def addToRetryQueue (event : SavedEvent π) (error : String) (failed : WebhookAnswer)
    (w : RetryWorld π) : WebhookResponse × RetryWorld π :=
  match w.exec state.retryManager state.insert (.add event error) with
  | (.ok retryId, w) => ({ answer := .queuedForRetry retryId }, w)
  | (.error _, w) => ({ answer := failed }, w)

/-- Hands a parsed event to its handler. -/
def dispatch (payload : WebhookPayload π) (event : WebhookEvent) (w : RetryWorld π) :
    WebhookResponse × RetryWorld π :=
  match state.routeWebhookEvent event with
  | .ok () => ({ answer := .ok }, w)
  | .error (.circuitOpen retryAfter) =>
      let seconds := if retryAfter.getD 0 = 0 then 30 else retryAfter.getD 0
      ({ statusCode := 503, answer := .serviceUnavailable seconds }, w)
  | .error (.queueItemNotFound _) => ({ answer := .eventIgnored "mr_not_in_queue" none }, w)
  | .error (.other message) =>
      state.addToRetryQueue
        { projectId := event.projectId, eventType := event.objectKind, payload := payload.body }
        message (.error none) w
  | .error .cancelled => ({ statusCode := 500, answer := .raised "cancelled" }, w)

def handleGitlabWebhook (token : String) (payload : WebhookPayload π) (w : RetryWorld π) :
    WebhookResponse × RetryWorld π :=
  match state.validateWebhookRequest token with
  | some refused => (refused, w)
  | none =>
      match payload.rawProjectId with
      | none => (state.ignoredProject none, w)
      | some rawProjectId =>
          if rawProjectId ∉ state.configuredIds then (state.ignoredProject (some rawProjectId), w)
          else
            match state.parseWebhookEvent payload with
            | .error (.valueError message) | .error (.keyError message) =>
                state.addToRetryQueue
                  { projectId := rawProjectId
                    eventType := payload.objectKind.getD "unknown"
                    payload := payload.body }
                  message (.error (some "parse_failed")) w
            | .error (.other message) => ({ statusCode := 500, answer := .raised message }, w)
            | .ok none =>
                ({ answer := .eventIgnored "unknown_event_type" payload.objectKind }, w)
            | .ok (some event) =>
                if event.projectId ∉ state.configuredIds then
                  (state.ignoredProject (some event.projectId), w)
                else if event.kind = .note then
                  ({ answer := .eventIgnored "unsupported_event_type" event.kind.className }, w)
                else state.dispatch payload event w

/-! ## What an acknowledged request has come to -/

/-- The event was handled to the end. -/
def Handled (payload : WebhookPayload π) : Prop :=
  ∃ event, state.parseWebhookEvent payload = .ok (some event) ∧
    state.routeWebhookEvent event = .ok ()

/-- The event is of no kind or project that the bot deals with, or about a merge
request that is not in the queue. -/
def NotRelevant (payload : WebhookPayload π) : Prop :=
  state.parseWebhookEvent payload = .ok none ∨
    ∃ event, state.parseWebhookEvent payload = .ok (some event) ∧
      (event.projectId ∉ state.configuredIds ∨ event.kind = .note ∨
        ∃ mrIid, state.routeWebhookEvent event = .error (.queueItemNotFound mrIid))

/-- The request added a row with its payload to the retry queue. -/
def StoredForRetry (payload : WebhookPayload π) (w w' : RetryWorld π) : Prop :=
  ∃ row, w'.store.retryQueue.rows = w.store.retryQueue.rows ++ [row] ∧
    row.payload = payload.body

/-- An acknowledged request was handled, was not relevant, or is stored. -/
def AcknowledgesOnly (token : String) (payload : WebhookPayload π) (w : RetryWorld π) : Prop :=
  (state.handleGitlabWebhook token payload w).1.acknowledges = true →
    state.Handled payload ∨ state.NotRelevant payload ∨
      StoredForRetry payload w (state.handleGitlabWebhook token payload w).2

/-- The request can only be saved by a retry: it cannot be parsed, or its handler fails. -/
def NeedsRetry (payload : WebhookPayload π) : Prop :=
  (∃ message, state.parseWebhookEvent payload = .error (.valueError message) ∨
      state.parseWebhookEvent payload = .error (.keyError message)) ∨
    ∃ event, state.parseWebhookEvent payload = .ok (some event) ∧
      event.projectId ∈ state.configuredIds ∧ event.kind ≠ .note ∧
      ∃ message, state.routeWebhookEvent event = .error (.other message)

/-- The transaction of the retry insert commits. -/
def InsertCommits : Prop := ∀ error, state.insert.failure ≠ some (error, false)

end WebhookState

/-! ## The retry insert -/

section Insert

variable {state : WebhookState π} {w : RetryWorld π} {event : SavedEvent π}
  {payload : WebhookPayload π}

theorem insertRetry_rows (m : WebhookRetryManager) (event : SavedEvent π) (error : String)
    (now : ℤ) (store : RetryStore π) :
    (m.insertRetry event error now store).retryQueue.rows =
      store.retryQueue.rows ++ [m.insertedRetry event error now store.retryQueue.nextId] := by
  have hfree : store.retryQueue.byKey store.retryQueue.nextId = none := by
    rw [KeyedTable.byKey_eq_none_iff]
    intro r hr
    exact (store.retryQueue.below r hr).ne
  exact @KeyedTable.insertOrIgnore_rows_of_free _ _ _ _ _
    (m.rowId_insertedRetry event error now) _ hfree

/-- A retry insert is answered with 200, and adds its row exactly when it commits. -/
theorem addToRetryQueue_spec (hpayload : event.payload = payload.body) (error : String)
    (failed : WebhookAnswer) :
    (state.addToRetryQueue event error failed w).1.statusCode = 200 ∧
      (WebhookState.StoredForRetry payload w (state.addToRetryQueue event error failed w).2 ↔
        state.InsertCommits) := by
  obtain ⟨manager, secret, ids, parse, route, ⟨now, failure⟩⟩ := state
  have hstored : WebhookState.StoredForRetry payload w
      (w.commit manager now (.add event error)).2 :=
    ⟨_, insertRetry_rows manager event error now w.store, hpayload⟩
  rcases failure with _ | ⟨e, _ | _⟩
  · refine ⟨rfl, fun _ _ hnone ↦ ?_, fun _ ↦ hstored⟩
    cases hnone
  · refine ⟨rfl, fun h ↦ ?_, fun h ↦ absurd rfl (h e)⟩
    obtain ⟨row, hrows, -⟩ := h
    have hlength := congrArg List.length hrows
    simp [WebhookState.addToRetryQueue, RetryWorld.exec] at hlength
  · refine ⟨rfl, fun _ _ hsome ↦ ?_, fun _ ↦ hstored⟩
    cases hsome

theorem acknowledges_of_statusCode {response : WebhookResponse} (h : response.statusCode = 200) :
    response.acknowledges = true := by
  simp [WebhookResponse.acknowledges, h]

/-! ## The endpoint -/

/-- A request that only a retry can save was neither handled nor irrelevant. -/
theorem not_handled_of_needsRetry (h : state.NeedsRetry payload) :
    ¬ state.Handled payload ∧ ¬ state.NotRelevant payload := by
  rcases h with ⟨message, hparse | hparse⟩ | ⟨event, hparse, hproject, hkind, message, hroute⟩
  · simp [WebhookState.Handled, WebhookState.NotRelevant, hparse]
  · simp [WebhookState.Handled, WebhookState.NotRelevant, hparse]
  · simp [WebhookState.Handled, WebhookState.NotRelevant, hparse, hproject, hkind, hroute]

variable {token : String} {rawProjectId : ℕ}

/-- The endpoint answers a request that needs a retry with 200. -/
theorem handleGitlabWebhook_of_needsRetry (htoken : state.webhookSecret = some token)
    (hraw : payload.rawProjectId = some rawProjectId)
    (hconfigured : rawProjectId ∈ state.configuredIds) (h : state.NeedsRetry payload) :
    (state.handleGitlabWebhook token payload w).1.acknowledges = true ∧
      (WebhookState.StoredForRetry payload w (state.handleGitlabWebhook token payload w).2 ↔
        state.InsertCommits) := by
  have hvalid : state.validateWebhookRequest token = none := by
    simp [WebhookState.validateWebhookRequest, htoken]
  have hspec : ∀ (event : SavedEvent π) error failed, event.payload = payload.body →
      state.handleGitlabWebhook token payload w = state.addToRetryQueue event error failed w →
      (state.handleGitlabWebhook token payload w).1.acknowledges = true ∧
        (WebhookState.StoredForRetry payload w (state.handleGitlabWebhook token payload w).2 ↔
          state.InsertCommits) := by
    intro event error failed hbody heq
    obtain ⟨hstatus, hstored⟩ := @addToRetryQueue_spec _ state w event payload hbody error failed
    rw [heq]
    exact ⟨acknowledges_of_statusCode hstatus, hstored⟩
  rcases h with ⟨message, hparse | hparse⟩ | ⟨event, hparse, hproject, hkind, message, hroute⟩
  · refine hspec ⟨rawProjectId, payload.objectKind.getD "unknown", payload.body⟩ message
      (.error (some "parse_failed")) rfl ?_
    simp only [WebhookState.handleGitlabWebhook, hvalid, hraw, hconfigured, hparse,
      not_true_eq_false, if_false]
  · refine hspec ⟨rawProjectId, payload.objectKind.getD "unknown", payload.body⟩ message
      (.error (some "parse_failed")) rfl ?_
    simp only [WebhookState.handleGitlabWebhook, hvalid, hraw, hconfigured, hparse,
      not_true_eq_false, if_false]
  · refine hspec ⟨event.projectId, event.objectKind, payload.body⟩ message (.error none) rfl ?_
    simp only [WebhookState.handleGitlabWebhook, hvalid, hraw, hconfigured, hparse, hproject,
      hkind, WebhookState.dispatch, hroute, not_true_eq_false, if_false]

/-- Any other request is acknowledged only where it was handled or is not relevant. -/
theorem handleGitlabWebhook_of_not_needsRetry (htoken : state.webhookSecret = some token)
    (hraw : payload.rawProjectId = some rawProjectId)
    (hconfigured : rawProjectId ∈ state.configuredIds) (h : ¬ state.NeedsRetry payload)
    (hack : (state.handleGitlabWebhook token payload w).1.acknowledges = true) :
    state.Handled payload ∨ state.NotRelevant payload := by
  have hvalid : state.validateWebhookRequest token = none := by
    simp [WebhookState.validateWebhookRequest, htoken]
  simp only [WebhookState.handleGitlabWebhook, hvalid, hraw, hconfigured, not_true_eq_false,
    if_false] at hack
  cases hparse : state.parseWebhookEvent payload with
  | error e =>
      cases e with
      | valueError message => exact absurd (Or.inl ⟨message, Or.inl hparse⟩) h
      | keyError message => exact absurd (Or.inl ⟨message, Or.inr hparse⟩) h
      | other message =>
          rw [hparse] at hack
          cases hack
  | ok parsed =>
      cases parsed with
      | none => exact Or.inr (Or.inl hparse)
      | some event =>
          by_cases hproject : event.projectId ∈ state.configuredIds
          · by_cases hkind : event.kind = .note
            · exact Or.inr (Or.inr ⟨event, hparse, Or.inr (Or.inl hkind)⟩)
            · simp only [hparse, hproject, hkind, WebhookState.dispatch, not_true_eq_false,
                if_false] at hack
              cases hroute : state.routeWebhookEvent event with
              | ok out => exact Or.inl ⟨event, hparse, hroute⟩
              | error e =>
                  cases e with
                  | circuitOpen retryAfter | cancelled =>
                      rw [hroute] at hack
                      cases hack
                  | queueItemNotFound mrIid =>
                      exact Or.inr (Or.inr ⟨event, hparse, Or.inr (Or.inr ⟨mrIid, hroute⟩)⟩)
                  | other message =>
                      exact absurd (Or.inr ⟨event, hparse, hproject, hkind, message, hroute⟩) h
          · exact Or.inr (Or.inr ⟨event, hparse, Or.inl hproject⟩)

/-- A request of a configured project is acknowledged only where it came to
something, exactly when a retry insert that it needs commits. -/
theorem webhook_acknowledgesOnly_iff (htoken : state.webhookSecret = some token)
    (hraw : payload.rawProjectId = some rawProjectId)
    (hconfigured : rawProjectId ∈ state.configuredIds) (w : RetryWorld π) :
    state.AcknowledgesOnly token payload w ↔ (state.NeedsRetry payload → state.InsertCommits) := by
  constructor
  · intro honly hneeds
    obtain ⟨hack, hstored⟩ :=
      handleGitlabWebhook_of_needsRetry (w := w) htoken hraw hconfigured hneeds
    obtain ⟨hhandled, hrelevant⟩ := not_handled_of_needsRetry hneeds
    rcases honly hack with h | h | h
    · exact absurd h hhandled
    · exact absurd h hrelevant
    · exact hstored.mp h
  · intro hcommits hack
    by_cases hneeds : state.NeedsRetry payload
    · exact Or.inr (Or.inr ((handleGitlabWebhook_of_needsRetry htoken hraw hconfigured
        hneeds).2.mpr (hcommits hneeds)))
    · exact (handleGitlabWebhook_of_not_needsRetry htoken hraw hconfigured hneeds hack).imp_right
        Or.inl

end Insert

/-! ## A handler that fails while the database does -/

def brokenState (failure : Option (RetryError × Bool)) : WebhookState Unit where
  webhookSecret := some "secret"
  configuredIds := [1]
  parseWebhookEvent := fun _ ↦
    .ok (some { objectKind := "pipeline", kind := .pipeline, projectId := 1 })
  routeWebhookEvent := fun _ ↦ .error (.other "database is locked")
  insert := { now := 0, failure }

def pipelinePayload : WebhookPayload Unit where
  rawProjectId := some 1
  objectKind := some "pipeline"
  body := ()

theorem webhook_acknowledgesOnly_when_stored :
    (brokenState none).AcknowledgesOnly "secret" pipelinePayload { store := .empty } :=
  (webhook_acknowledgesOnly_iff rfl rfl (by decide) _).mpr fun _ _ ↦ nofun

/-- The event is neither handled nor saved, and GitLab is told that all went well. -/
theorem webhook_acknowledges_lost_event :
    ¬ ∀ (state : WebhookState Unit) (token : String) (payload : WebhookPayload Unit)
        (rawProjectId : ℕ) (w : RetryWorld Unit),
        state.webhookSecret = some token → payload.rawProjectId = some rawProjectId →
        rawProjectId ∈ state.configuredIds → state.AcknowledgesOnly token payload w := by
  intro hclaim
  have honly := hclaim (brokenState (some (.database "database is locked", false))) "secret"
    pipelinePayload 1 { store := .empty } rfl rfl (by decide)
  rcases honly (by decide) with ⟨event, -, hroute⟩ | h | ⟨row, hrows, -⟩
  · cases hroute
  · simp [WebhookState.NotRelevant, brokenState] at h
  · have hlength := congrArg List.length hrows
    rw [List.length_append, List.length_singleton] at hlength
    exact absurd hlength (by decide)

end MergeQueue
