import MergeQueue.Lib.Checks
import MergeQueue.Lib.PyInt
import MergeQueue.Lib.PyJson
import MergeQueue.Lib.Solo
import MergeQueue.WebSocketManager
import Mathlib.Data.List.Dedup
import Mathlib.Data.List.Sort

/-!
# Tokens and what they give access to

A token carries the projects that its user may see.  The middleware decodes it before a
protected route runs and hands the claims on; the routes of a project then look the project
up among them.  The claims pass through several hands, and name the same projects in each.
-/

namespace MergeQueue.Auth

/-- A refused request, or an exception that no handler catches. -/
inductive HttpError
  | http (status : ℕ) (detail : String)
  | unhandled
  deriving DecidableEq, Repr

/-! ## The settings -/

structure AuthSettings where
  gitlabUrl : String := "https://gitlab.com"
  oauthClientId : Option String := none
  oauthClientSecret : Option String := none
  oauthRedirectUri : Option String := none
  jwtSecret : String
  jwtExpirationHours : ℤ := 24
  projects : List ℤ
  gitlabProjectId : ℤ := 0

/-- The state of the web application, with the ids of its project components. -/
structure App where
  settings : AuthSettings
  projectComponents : Option (List ℤ) := none

/-! ## Claims -/

/-- `d[key] = value`. -/
def setClaim (key : String) (value : Json) : Claims → Claims
  | [] => [(key, value)]
  | (k, v) :: rest => if k = key then (k, value) :: rest else (k, v) :: setClaim key value rest

/-- `d.get(key)`. -/
def getClaim (key : String) (claims : Claims) : Json := (claims.lookup key).getD .null

@[simp] theorem lookup_setClaim (key : String) (value : Json) (claims : Claims) :
    (setClaim key value claims).lookup key = some value := by
  induction claims with
  | nil => simp [setClaim]
  | cons entry rest ih =>
      obtain ⟨k, v⟩ := entry
      by_cases hk : k = key
      · simp [setClaim, hk]
      · have hne : (key == k) = false := by simpa using Ne.symm hk
        rw [setClaim, if_neg hk, List.lookup_cons, hne]
        exact ih

theorem lookup_setClaim_of_ne {key other : String} (h : other ≠ key) (value : Json)
    (claims : Claims) : (setClaim key value claims).lookup other = claims.lookup other := by
  induction claims with
  | nil => simp [setClaim, h]
  | cons entry rest ih =>
      obtain ⟨k, v⟩ := entry
      by_cases hk : k = key
      · subst hk
        have hne : (other == k) = false := by simpa using h
        rw [setClaim, if_pos rfl, List.lookup_cons, List.lookup_cons, hne]
      · rw [setClaim, if_neg hk, List.lookup_cons, List.lookup_cons, ih]

/-! ## The token library -/

inductive JwtError
  | expiredSignature
  | invalidToken
  deriving DecidableEq, Repr

/-- What is used of the token library, and `str` of a value.  A time is in microseconds. -/
structure Jwt where
  encode : Claims → String → String
  decode : String → String → ℤ → Except JwtError Claims
  str : Json → String

/-- The microseconds of a second. -/
def second : ℤ := 1000000

/-- `str.split()`. -/
def splitBlanks (text : List Char) : List (List Char) :=
  (text.splitOnP fun c ↦ PyJson.isSpace c.toNat).filter (· ≠ [])

/-- What the token library documents.  A token is read back with its own secret from the second
of its issue on and until the second at which it expires, and it has no blanks. -/
structure Jwt.Lawful (jwt : Jwt) : Prop where
  accepted : ∀ {payload : Claims} {issued expires now : ℤ} (secret : String),
    payload.lookup "iat" = some (.num issued) → payload.lookup "exp" = some (.num expires) →
    second * issued ≤ now → now < second * expires →
    jwt.decode (jwt.encode payload secret) secret now = .ok payload
  expired : ∀ {payload : Claims} {issued expires now : ℤ} (secret : String),
    payload.lookup "iat" = some (.num issued) → payload.lookup "exp" = some (.num expires) →
    second * issued ≤ now → second * expires ≤ now →
    jwt.decode (jwt.encode payload secret) secret now = .error .expiredSignature
  word : ∀ payload secret, (jwt.encode payload secret).toList ≠ [] ∧
    ∀ c ∈ (jwt.encode payload secret).toList, PyJson.isSpace c.toNat = false

/-! ## Issuing -/

/-- The entries of `project_ids` that are kept. -/
def rawProjectIds (userData : Claims) : Except HttpError (List Json) :=
  match getClaim "project_ids" userData with
  | .null =>
      let legacyProjectId := getClaim "project_id" userData
      .ok (if (Json.asInt legacyProjectId).isSome then [legacyProjectId] else [])
  | .arr ids => .ok (ids.filter fun id ↦ (Json.asInt id).isSome)
  | .str _ | .obj _ => .ok []
  | .num _ | .bool _ => .error .unhandled

/-- The legacy claim of a singleton. -/
def singleProject : List Json → Json
  | [id] => id
  | _ => .null

/-- The time in whole seconds, as the token library writes it. -/
def timegm (time : ℤ) : ℤ := time / second

def tokenLifetime (settings : AuthSettings) : Option ℤ → ℤ
  | none => settings.jwtExpirationHours * 3600 * second
  | some delta => delta

def tokenPayload (id username : Json) (text : Json → String) (userData : Claims)
    (projectIds : List Json) (now expire : ℤ) : Claims :=
  [("sub", .str (text id)),
    ("username", username),
    ("name", (userData.lookup "name").getD username),
    ("email", getClaim "email" userData),
    ("avatar_url", getClaim "avatar_url" userData),
    ("project_id", singleProject projectIds),
    ("project_ids", .arr projectIds),
    ("exp", .num (timegm expire)),
    ("iat", .num (timegm now))]

def createAccessToken (jwt : Jwt) (userData : Claims) (settings : AuthSettings) (now : ℤ)
    (expiresDelta : Option ℤ) : Except HttpError String := do
  let projectIds ← rawProjectIds userData
  match userData.lookup "id", userData.lookup "username" with
  | some id, some username =>
      return jwt.encode
        (tokenPayload id username jwt.str userData projectIds now
          (now + tokenLifetime settings expiresDelta))
        settings.jwtSecret
  | _, _ => throw .unhandled

/-! ## Decoding -/

inductive TokenError
  | tokenExpired
  | invalidToken
  deriving DecidableEq, Repr

def decodeToken (jwt : Jwt) (token : String) (settings : AuthSettings) (now : ℤ) :
    Except TokenError Claims :=
  match jwt.decode token settings.jwtSecret now with
  | .ok payload => .ok payload
  | .error .expiredSignature => .error .tokenExpired
  | .error .invalidToken => .error .invalidToken

/-- `sorted(get_authorized_project_ids(payload))`. -/
def sortedProjectIds (payload : Claims) : List ℤ :=
  (getAuthorizedProjectIds payload).dedup.insertionSort (· ≤ ·)

@[simp] theorem mem_sortedProjectIds {p : ℤ} {payload : Claims} :
    p ∈ sortedProjectIds payload ↔ p ∈ getAuthorizedProjectIds payload := by
  rw [sortedProjectIds, List.mem_insertionSort, List.mem_dedup]

/-! ## The Authorization header -/

/-- The word after `Bearer`, where these are the two words of the header. -/
def bearerWord (header : String) : Option String :=
  match splitBlanks header.toList with
  | [scheme, token] =>
      if scheme.map Char.toLower = "bearer".toList then some (String.ofList token) else none
  | _ => none

def headerMissing : String := "Missing Authorization header"

def headerInvalid : String := "Invalid Authorization header format. Expected: Bearer <token>"

/-- The header, where it is not empty. -/
def presentHeader (authHeader : Option String) : Option String :=
  authHeader.filter fun header ↦ header ≠ ""

theorem presentHeader_eq_some {authHeader : Option String} {header : String} :
    presentHeader authHeader = some header ↔ authHeader = some header ∧ header ≠ "" := by
  rw [presentHeader, Option.filter_eq_some_iff, decide_eq_true_iff]

/-- `_extract_bearer_token`. -/
def extractBearerToken (authHeader : Option String) : Except HttpError String :=
  match presentHeader authHeader with
  | none => .error (.http 401 headerMissing)
  | some header =>
      match bearerWord header with
      | none => .error (.http 401 headerInvalid)
      | some token => .ok token

/-! ## The middleware -/

def publicPathPrefixes : List String :=
  ["/health/metrics", "/health/ready", "/ready", "/auth/", "/webhooks/", "/ws/", "/docs",
    "/openapi.json", "/redoc"]

def publicPathsExact : List String := ["/health"]

def isPublicPath (path : String) : Bool :=
  publicPathsExact.contains path ||
    publicPathPrefixes.any fun start ↦ start.toList.isPrefixOf path.toList

/-- What the middleware leaves of the claims. -/
def requestUser (payload : Claims) : Claims :=
  [("sub", getClaim "sub" payload),
    ("username", getClaim "username" payload),
    ("name", getClaim "name" payload),
    ("email", getClaim "email" payload),
    ("avatar_url", getClaim "avatar_url" payload),
    ("project_id", getClaim "project_id" payload),
    ("project_ids", .arr ((sortedProjectIds payload).map .num))]

/-- The claims of the request's token, or what is wrong with it; nothing for a request that
has no header. -/
def extractAndValidateToken (jwt : Jwt) (settings : AuthSettings) (now : ℤ)
    (authHeader : Option String) : Option (Except String Claims) :=
  match presentHeader authHeader with
  | none => none
  | some header =>
      match bearerWord header with
      | none => some (.error headerInvalid)
      | some token =>
          match decodeToken jwt token settings now with
          | .ok payload => some (.ok (requestUser payload))
          | .error .tokenExpired => some (.error "Token has expired")
          | .error .invalidToken => some (.error "Invalid token")

/-- The user with whom the route runs. -/
def dispatch (jwt : Jwt) (settings : AuthSettings) (now : ℤ) (path : String)
    (authHeader : Option String) : Except HttpError (Option Claims) :=
  if isPublicPath path then .ok none
  else
    match extractAndValidateToken jwt settings now authHeader with
    | none => .error (.http 401 headerMissing)
    | some (.error detail) => .error (.http 401 detail)
    | some (.ok user) => .ok (some user)

/-! ## The project of a request -/

def configuredProjectIds (app : App) : List ℤ :=
  match app.projectComponents with
  | some (id :: ids) => id :: ids
  | _ => app.settings.projects

def authorizedProjectIdsFromUser (user : Option Claims) : List ℤ :=
  user.elim [] getAuthorizedProjectIds

def projectNotFound : HttpError := .http 404 "Project not found"

def resolveProjectId (user : Option Claims) (app : App) (requestedProjectId : Option ℤ) :
    Except HttpError ℤ := do
  let requested ←
    match requestedProjectId with
    | some id => pure id
    | none =>
        match configuredProjectIds app with
        | [id] => pure id
        | _ => throw (.http 400 "project_id is required when multiple projects are configured")
  ensure (requested ∈ configuredProjectIds app) projectNotFound
  ensure (requested ∈ authorizedProjectIdsFromUser user) projectNotFound
  return requested

def resolveRequestProject (user : Option Claims) (app : App) (rawProjectId : Option String) :
    Except HttpError ℤ :=
  match rawProjectId with
  | none => resolveProjectId user app none
  | some raw =>
      match pyInt raw with
      | none => .error projectNotFound
      | some id => resolveProjectId user app (some id)

/-! ## The routes of a project -/

/-- A route that works on one project. -/
inductive ProjectRoute
  | history
  | historyItem (iid : String)
  | analyticsSummary
  | analyticsHourly
  | analyticsOutcomes
  | failureReasons
  | config
  | dlq
  | dlqStats
  | dlqEntry (entryId : String)
  | dlqRetry (entryId : String)
  | queue
  | activeQueue
  | queueStats
  | queueItem (mrIid : String)
  deriving DecidableEq, Repr

/-- The path below the project. -/
def ProjectRoute.tail : ProjectRoute → String
  | history => "/history"
  | historyItem iid => "/history/" ++ iid
  | analyticsSummary => "/analytics/summary"
  | analyticsHourly => "/analytics/hourly"
  | analyticsOutcomes => "/analytics/outcomes"
  | failureReasons => "/analytics/failure-reasons"
  | config => "/config"
  | dlq => "/dlq"
  | dlqStats => "/dlq/stats"
  | dlqEntry entryId => "/dlq/" ++ entryId
  | dlqRetry entryId => "/dlq/" ++ entryId ++ "/retry"
  | queue => "/queue"
  | activeQueue => "/queue/active"
  | queueStats => "/queue/stats"
  | queueItem mrIid => "/queue/" ++ mrIid

/-- The path of the route, without a project for the legacy alias. -/
def ProjectRoute.path (route : ProjectRoute) : Option String → String
  | none => "/api" ++ route.tail
  | some projectId => "/api/projects/" ++ projectId ++ route.tail

/-- The project for which the route runs. -/
def serveProject (jwt : Jwt) (app : App) (now : ℤ) (route : ProjectRoute)
    (rawProjectId authHeader : Option String) : Except HttpError ℤ := do
  let user ← dispatch jwt app.settings now (route.path rawProjectId) authHeader
  resolveRequestProject user app rawProjectId

/-- The projects that the dashboard offers, with the URL that GitLab gave of each. -/
def getProjects (user : Option Claims) (app : App) (webUrl : ℤ → Option String) :
    List (ℤ × String) :=
  ((configuredProjectIds app).filter (· ∈ authorizedProjectIdsFromUser user)).map fun id ↦
    (id, (webUrl id).getD "")

/-- What `/auth/me` says of the user. -/
def userAccount (payload : Claims) : Claims :=
  [("id", getClaim "sub" payload),
    ("username", getClaim "username" payload),
    ("name", getClaim "name" payload),
    ("email", getClaim "email" payload),
    ("avatar_url", getClaim "avatar_url" payload),
    ("project_ids", .arr ((sortedProjectIds payload).map .num))]

/-- `/auth/me`, which checks the token itself. -/
def getCurrentUser (jwt : Jwt) (settings : AuthSettings) (now : ℤ) (authHeader : Option String) :
    Except HttpError Claims := do
  let token ← extractBearerToken authHeader
  match decodeToken jwt token settings now with
  | .error .tokenExpired => throw (.http 401 "Token has expired")
  | .error .invalidToken => throw (.http 401 "Invalid token")
  | .ok payload => return userAccount payload

/-! ## Which projects a token names -/

section Claims

variable {payload userData : Claims}

/-- The user of a request has the projects of the token. -/
theorem getAuthorizedProjectIds_requestUser :
    getAuthorizedProjectIds (requestUser payload) = sortedProjectIds payload := by
  have hlookup : (requestUser payload).lookup "project_ids" =
      some (.arr ((sortedProjectIds payload).map .num)) := by rfl
  simp only [getAuthorizedProjectIds, hlookup, List.filterMap_map]
  exact List.filterMap_some

theorem getAuthorizedProjectIds_userAccount :
    getAuthorizedProjectIds (userAccount payload) = sortedProjectIds payload := by
  have hlookup : (userAccount payload).lookup "project_ids" =
      some (.arr ((sortedProjectIds payload).map .num)) := by rfl
  simp only [getAuthorizedProjectIds, hlookup, List.filterMap_map]
  exact List.filterMap_some

/-- The middleware passes the projects of the token on. -/
theorem mem_requestUser {p : ℤ} :
    p ∈ authorizedProjectIdsFromUser (some (requestUser payload)) ↔
      p ∈ getAuthorizedProjectIds payload := by
  rw [authorizedProjectIdsFromUser, Option.elim_some, getAuthorizedProjectIds_requestUser,
    mem_sortedProjectIds]

theorem mem_getProjects {user : Option Claims} {app : App} {webUrl : ℤ → Option String} {p : ℤ} :
    (∃ url, (p, url) ∈ getProjects user app webUrl) ↔
      p ∈ configuredProjectIds app ∧ p ∈ authorizedProjectIdsFromUser user := by
  simp only [getProjects, List.mem_map, List.mem_filter, decide_eq_true_iff, Prod.mk.injEq]
  constructor
  · rintro ⟨url, id, hid, rfl, -⟩
    exact hid
  · intro hp
    exact ⟨_, p, hp, rfl, rfl⟩

theorem rawProjectIds_of_ids {ids : List ℤ}
    (h : userData.lookup "project_ids" = some (.arr (ids.map .num))) :
    rawProjectIds userData = .ok (ids.map .num) := by
  have hfilter : (ids.map Json.num).filter (fun id ↦ (Json.asInt id).isSome) = ids.map .num := by
    rw [List.filter_eq_self]
    intro id hid
    obtain ⟨n, -, rfl⟩ := List.mem_map.mp hid
    rfl
  rw [rawProjectIds, getClaim, h, Option.getD_some]
  exact congrArg Except.ok hfilter

/-- What the payload of a new token says about its projects. -/
theorem getAuthorizedProjectIds_tokenPayload (id username : Json) (text : Json → String)
    (projectIds : List Json) (now expire : ℤ) :
    getAuthorizedProjectIds (tokenPayload id username text userData projectIds now expire) =
      projectIds.filterMap Json.asInt := rfl

end Claims

/-! ## Headers and paths -/

theorem splitBlanks_two {first second : List Char} {blank : Char}
    (hfirst : first ≠ [] ∧ ∀ c ∈ first, PyJson.isSpace c.toNat = false)
    (hblank : PyJson.isSpace blank.toNat = true)
    (hsecond : second ≠ [] ∧ ∀ c ∈ second, PyJson.isSpace c.toNat = false) :
    splitBlanks (first ++ blank :: second) = [first, second] := by
  have hsplit : (first ++ blank :: second).splitOnP (fun c ↦ PyJson.isSpace c.toNat) =
      [first, second] := by
    rw [List.splitOnP_append_cons_of_forall_mem hfirst.2 blank hblank,
      List.splitOnP_eq_singleton hsecond.2]
  rw [splitBlanks, hsplit, List.filter_cons_of_pos (by simpa using hfirst.1),
    List.filter_cons_of_pos (by simpa using hsecond.1), List.filter_nil]

/-- The header that a client sends for a token. -/
def bearerHeader (token : String) : String := "Bearer " ++ token

theorem bearerWord_bearerHeader {token : String}
    (h : token.toList ≠ [] ∧ ∀ c ∈ token.toList, PyJson.isSpace c.toNat = false) :
    bearerWord (bearerHeader token) = some token := by
  have htext : (bearerHeader token).toList = "Bearer".toList ++ ' ' :: token.toList := by
    rw [bearerHeader, String.toList_append]
    rfl
  have hscheme : "Bearer".toList ≠ [] ∧ ∀ c ∈ "Bearer".toList, PyJson.isSpace c.toNat = false := by
    simp [PyJson.isSpace]
  rw [bearerWord, htext, splitBlanks_two hscheme rfl h]
  exact congrArg some String.ofList_toList

theorem presentHeader_bearerHeader (token : String) :
    presentHeader (some (bearerHeader token)) = some (bearerHeader token) := by
  refine presentHeader_eq_some.mpr ⟨rfl, fun h ↦ ?_⟩
  have hlength := congrArg String.length h
  simp [bearerHeader, String.length_append] at hlength

/-- The middleware guards every route of a project. -/
theorem isPublicPath_path (route : ProjectRoute) (rawProjectId : Option String) :
    isPublicPath (route.path rawProjectId) = false := by
  obtain ⟨rest, hrest⟩ : ∃ rest, (route.path rawProjectId).toList = "/api".toList ++ rest := by
    cases rawProjectId with
    | none => exact ⟨route.tail.toList, String.toList_append⟩
    | some id =>
        refine ⟨"/projects/".toList ++ id.toList ++ route.tail.toList, ?_⟩
        rw [ProjectRoute.path, String.toList_append, String.toList_append]
        rfl
  have hexact : route.path rawProjectId ≠ "/health" := by
    intro h
    rw [h] at hrest
    exact absurd hrest (by simp)
  have hstart : ∀ start ∈ publicPathPrefixes,
      start.toList.isPrefixOf (route.path rawProjectId).toList = false := by
    rw [hrest]
    simp [publicPathPrefixes, List.isPrefixOf]
  rw [isPublicPath, Bool.or_eq_false_iff]
  constructor
  · simpa [publicPathsExact] using hexact
  · exact List.any_eq_false.mpr fun start hmem ↦
      Bool.eq_false_iff.mp (hstart start hmem)

/-! ## Who is served -/

section Serving

variable {jwt : Jwt} {app : App} {now p : ℤ} {route : ProjectRoute}
  {rawProjectId authHeader : Option String} {token : String}

/-- The project that a request names. -/
def Names (app : App) (rawProjectId : Option String) (p : ℤ) : Prop :=
  match rawProjectId with
  | none => configuredProjectIds app = [p]
  | some raw => pyInt raw = some p

theorem resolveProjectId_some {user : Option Claims} {id : ℤ} :
    resolveProjectId user app (some id) = .ok p ↔
      id = p ∧ p ∈ configuredProjectIds app ∧ p ∈ authorizedProjectIdsFromUser user := by
  rw [resolveProjectId, pure_bind, ensure_bind_eq_ok, ensure_bind_eq_ok]
  constructor
  · rintro ⟨hconfigured, hallowed, h⟩
    cases h
    exact ⟨rfl, hconfigured, hallowed⟩
  · rintro ⟨rfl, hconfigured, hallowed⟩
    exact ⟨hconfigured, hallowed, rfl⟩

theorem resolveProjectId_none {user : Option Claims} :
    resolveProjectId user app none = .ok p ↔
      configuredProjectIds app = [p] ∧ p ∈ authorizedProjectIdsFromUser user := by
  match hids : configuredProjectIds app with
  | [id] =>
      have hsome : resolveProjectId user app none = resolveProjectId user app (some id) := by
        simp only [resolveProjectId, hids]
      rw [hsome, resolveProjectId_some, hids]
      simp only [List.mem_singleton, List.cons.injEq, and_true]
      exact ⟨fun ⟨heq, _, hallowed⟩ ↦ ⟨heq, hallowed⟩,
        fun ⟨heq, hallowed⟩ ↦ ⟨heq, heq.symm, hallowed⟩⟩
  | [] => simp [resolveProjectId, hids, bind, Except.bind, throw, throwThe, MonadExceptOf.throw]
  | _ :: _ :: _ =>
      simp [resolveProjectId, hids, bind, Except.bind, throw, throwThe, MonadExceptOf.throw]

theorem resolveRequestProject_eq_ok {user : Option Claims} :
    resolveRequestProject user app rawProjectId = .ok p ↔
      Names app rawProjectId p ∧ p ∈ configuredProjectIds app ∧
        p ∈ authorizedProjectIdsFromUser user := by
  cases rawProjectId with
  | none =>
      rw [resolveRequestProject, resolveProjectId_none, Names]
      exact ⟨fun ⟨hids, hallowed⟩ ↦ ⟨hids, hids ▸ List.mem_singleton_self p, hallowed⟩,
        fun ⟨hids, _, hallowed⟩ ↦ ⟨hids, hallowed⟩⟩
  | some raw =>
      rw [resolveRequestProject, Names]
      cases hint : pyInt raw with
      | none => simp
      | some id => rw [resolveProjectId_some, Option.some_inj]

theorem decodeToken_eq_ok {settings : AuthSettings} {payload : Claims} :
    decodeToken jwt token settings now = .ok payload ↔
      jwt.decode token settings.jwtSecret now = .ok payload := by
  unfold decodeToken
  match jwt.decode token settings.jwtSecret now with
  | .ok payload' => simp
  | .error .expiredSignature => simp
  | .error .invalidToken => simp

theorem extractAndValidateToken_eq_ok {settings : AuthSettings} {user : Claims} :
    extractAndValidateToken jwt settings now authHeader = some (.ok user) ↔
      ∃ header token payload, presentHeader authHeader = some header ∧
        bearerWord header = some token ∧ decodeToken jwt token settings now = .ok payload ∧
        user = requestUser payload := by
  rw [extractAndValidateToken]
  cases hheader : presentHeader authHeader with
  | none => simp
  | some header =>
      cases hword : bearerWord header with
      | none => simp [hword]
      | some token =>
          match htoken : decodeToken jwt token settings now with
          | .error .tokenExpired => simp [hword, htoken]
          | .error .invalidToken => simp [hword, htoken]
          | .ok payload => simp [hword, htoken, eq_comm]

/-- A route behind the middleware runs with the claims of a token that was accepted. -/
theorem dispatch_eq_ok {settings : AuthSettings} {path : String} {user : Option Claims}
    (hpath : isPublicPath path = false) :
    dispatch jwt settings now path authHeader = .ok user ↔
      ∃ header token payload, presentHeader authHeader = some header ∧
        bearerWord header = some token ∧ decodeToken jwt token settings now = .ok payload ∧
        user = some (requestUser payload) := by
  have hfound : dispatch jwt settings now path authHeader = .ok user ↔
      ∃ found, extractAndValidateToken jwt settings now authHeader = some (.ok found) ∧
        user = some found := by
    rw [dispatch, hpath, if_neg Bool.false_ne_true]
    match extractAndValidateToken jwt settings now authHeader with
    | none => simp
    | some (.error detail) => simp
    | some (.ok found) => simp [eq_comm]
  rw [hfound]
  constructor
  · rintro ⟨found, hextract, rfl⟩
    obtain ⟨header, token, payload, hheader, hword, htoken, rfl⟩ :=
      extractAndValidateToken_eq_ok.mp hextract
    exact ⟨header, token, payload, hheader, hword, htoken, rfl⟩
  · rintro ⟨header, token, payload, hheader, hword, htoken, rfl⟩
    have hvalid :=
      extractAndValidateToken_eq_ok.mpr ⟨header, token, payload, hheader, hword, htoken, rfl⟩
    exact ⟨_, hvalid, rfl⟩

/-- A route runs for a project that the request names, that is configured, and that the claims of
the request's token name. -/
theorem serveProject_eq_ok :
    serveProject jwt app now route rawProjectId authHeader = .ok p ↔
      ∃ header token payload, presentHeader authHeader = some header ∧
        bearerWord header = some token ∧
        decodeToken jwt token app.settings now = .ok payload ∧
        Names app rawProjectId p ∧ p ∈ configuredProjectIds app ∧
        p ∈ getAuthorizedProjectIds payload := by
  rw [serveProject, bind_eq_ok]
  constructor
  · rintro ⟨user, hdispatch, hresolve⟩
    obtain ⟨header, token, payload, hheader, hword, htoken, rfl⟩ :=
      (dispatch_eq_ok (isPublicPath_path route rawProjectId)).mp hdispatch
    obtain ⟨hnames, hconfigured, hmem⟩ := resolveRequestProject_eq_ok.mp hresolve
    exact ⟨header, token, payload, hheader, hword, htoken, hnames, hconfigured,
      mem_requestUser.mp hmem⟩
  · rintro ⟨header, token, payload, hheader, hword, htoken, hnames, hconfigured, hmem⟩
    refine ⟨some (requestUser payload), ?_, ?_⟩
    · rw [dispatch_eq_ok (isPublicPath_path route rawProjectId)]
      exact ⟨header, token, payload, hheader, hword, htoken, rfl⟩
    · exact resolveRequestProject_eq_ok.mpr ⟨hnames, hconfigured, mem_requestUser.mpr hmem⟩

section Bearer

variable {header : String} {payload : Claims} (hheader : presentHeader authHeader = some header)
  (hword : bearerWord header = some token)

include hheader hword

/-- The request's header decides which token is meant. -/
theorem serveProject_of_token (htoken : decodeToken jwt token app.settings now = .ok payload) :
    serveProject jwt app now route rawProjectId authHeader = .ok p ↔
      Names app rawProjectId p ∧ p ∈ configuredProjectIds app ∧
        p ∈ getAuthorizedProjectIds payload := by
  rw [serveProject_eq_ok]
  constructor
  · rintro ⟨header', token', payload', hheader', hword', htoken', h⟩
    cases hheader.symm.trans hheader'
    cases hword.symm.trans hword'
    cases htoken.symm.trans htoken'
    exact h
  · intro h
    exact ⟨header, token, payload, hheader, hword, htoken, h⟩

theorem dispatch_of_expired {settings : AuthSettings} {path : String}
    (hpath : isPublicPath path = false)
    (h : jwt.decode token settings.jwtSecret now = .error .expiredSignature) :
    dispatch jwt settings now path authHeader = .error (.http 401 "Token has expired") := by
  have hvalidate : extractAndValidateToken jwt settings now authHeader =
      some (.error "Token has expired") := by
    simp only [extractAndValidateToken, hheader, hword, decodeToken, h]
  rw [dispatch, hpath, if_neg Bool.false_ne_true, hvalidate]

theorem serveProject_of_expired
    (h : jwt.decode token app.settings.jwtSecret now = .error .expiredSignature) :
    serveProject jwt app now route rawProjectId authHeader =
      .error (.http 401 "Token has expired") := by
  rw [serveProject, dispatch_of_expired hheader hword (isPublicPath_path route rawProjectId) h]
  rfl

theorem extractBearerToken_of_word : extractBearerToken authHeader = .ok token := by
  simp only [extractBearerToken, hheader, hword]

theorem getCurrentUser_of_token {settings : AuthSettings}
    (htoken : decodeToken jwt token settings now = .ok payload) :
    getCurrentUser jwt settings now authHeader = .ok (userAccount payload) := by
  rw [getCurrentUser, bind_eq_ok]
  refine ⟨token, extractBearerToken_of_word hheader hword, ?_⟩
  rw [htoken]
  rfl

theorem getCurrentUser_of_expired {settings : AuthSettings}
    (h : jwt.decode token settings.jwtSecret now = .error .expiredSignature) :
    getCurrentUser jwt settings now authHeader = .error (.http 401 "Token has expired") := by
  have htoken : decodeToken jwt token settings now = .error .tokenExpired := by
    simp only [decodeToken, h]
  rw [getCurrentUser, extractBearerToken_of_word hheader hword]
  simp only [bind, Except.bind, htoken]
  rfl

end Bearer

end Serving

/-! ## The sockets -/

open Interleave (Stage)
open WebSocketManager (connect reject)

/-- The projects for which a socket may be opened. -/
def socketProjectIds (app : App) : List ℤ :=
  match app.projectComponents with
  | some (id :: ids) => id :: ids
  | _ => [app.settings.gitlabProjectId]

/-- Whether a socket without a project is accepted. -/
def websocketQueueUpdates (app : App) (websocket : ℕ) (token : Option String) : SocketProg Bool :=
  match socketProjectIds app with
  | [id] => connect websocket token (some id)
  | _ => reject websocket "Project must be specified"

/-- Whether a socket for the project is accepted. -/
def websocketProjectQueueUpdates (app : App) (websocket : ℕ) (token : Option String)
    (projectId : ℤ) : SocketProg Bool :=
  if projectId ∈ socketProjectIds app then connect websocket token (some projectId)
  else reject websocket "Unknown project"

def socketPayload : Except TokenError Claims → Except SocketError Claims
  | .ok payload => .ok payload
  | .error .tokenExpired => .error .tokenExpired
  | .error .invalidToken => .error .invalidToken

/-- A socket that is not cut off, and `decode_token`. -/
def socketStage (jwt : Jwt) (app : App) (now : ℤ) (token : String) :
    Stage SocketOp SocketOp.Answer SocketError SocketWorld SocketChoice where
  exec := SocketWorld.exec 0
  fair choice :=
    choice.fault = none ∧ choice.payload = socketPayload (decodeToken jwt token app.settings now)

section Sockets

variable {jwt : Jwt} {app : App} {now : ℤ} {token : String} {websocket : ℕ} {w : SocketWorld}
  {log : List SocketOp}

/-- The end of a socket that is refused: nothing was accepted or registered. -/
def Refused (websocket : ℕ) (w : SocketWorld) (result : Except SocketError Bool)
    (log : List SocketOp) (w' : SocketWorld) : Prop :=
  result = .ok false ∧ SocketOp.accept websocket ∉ log ∧ w'.manager = w.manager

/-- The end of a socket that is accepted for the project. -/
def Accepted (websocket : ℕ) (p : ℤ) (result : Except SocketError Bool) (w' : SocketWorld) : Prop :=
  result = .ok true ∧ websocket ∈ w'.manager.targets (some p)

theorem reject_finishes (reason : String) (hlog : SocketOp.accept websocket ∉ log)
    {w₀ : SocketWorld} (hmanager : w.manager = w₀.manager) :
    (reject websocket reason).Finishes (socketStage jwt app now token) () log w
      fun result _ log w ↦ Refused websocket w₀ result log w := by
  apply Interleave.Program.Finishes.bind
  apply Interleave.Program.Finishes.call
  rintro choice ⟨hfault, -⟩
  have houtcome : choice.outcome = .ok () := by rw [SocketChoice.outcome, hfault]; rfl
  refine ⟨choice.outcome, w, rfl, ?_⟩
  rw [houtcome]
  exact ⟨rfl, by simpa using hlog, hmanager⟩

theorem mem_targets_register_self (m : WebSocketManager) (websocket : ℕ) (p : ℤ) :
    websocket ∈ (m.register websocket (some p)).targets (some p) := by
  simp [WebSocketManager.targets, WebSocketManager.register]

/-- The token is accepted and names the project. -/
def Allows (jwt : Jwt) (app : App) (now : ℤ) (token : String) (p : ℤ) : Prop :=
  ∃ payload, decodeToken jwt token app.settings now = .ok payload ∧
    p ∈ getAuthorizedProjectIds payload

/-- The decision of `connect` on a token that was presented. -/
def Decided (allowed : Prop) (websocket : ℕ) (p : ℤ) (w : SocketWorld)
    (result : Except SocketError Bool) (log : List SocketOp) (w' : SocketWorld) : Prop :=
  (allowed ∧ Accepted websocket p result w') ∨ (¬ allowed ∧ Refused websocket w result log w')

theorem manager_present {payload : Except SocketError Claims} :
    (w.present websocket token payload).manager = w.manager := by
  cases payload <;> rfl

/-- `connect` accepts a socket exactly when its token names the project. -/
theorem connect_finishes (htoken : token ≠ "") (p : ℤ) :
    (connect websocket (some token) (some p)).Finishes (socketStage jwt app now token) () [] w
      fun result _ log w' ↦ Decided (Allows jwt app now token p) websocket p w result log w' := by
  have hfilter : (some token).filter (· ≠ "") = some token := by simpa using htoken
  rw [connect, hfilter]
  apply Interleave.Program.Finishes.handle
  apply Interleave.Program.Finishes.bind
  apply Interleave.Program.Finishes.call
  rintro choice ⟨-, hpayload⟩
  refine ⟨_, _, rfl, ?_⟩
  rw [hpayload]
  have hlog : SocketOp.accept websocket ∉ [] ++ [SocketOp.decodeToken websocket token] := by simp
  match hdecode : decodeToken jwt token app.settings now with
  | .error .tokenExpired =>
      refine (reject_finishes "Token expired" hlog manager_present).mono ?_
      intro result _ log w' hrefused
      exact Or.inr ⟨fun ⟨payload, h, _⟩ ↦ by simp [hdecode] at h, hrefused⟩
  | .error .invalidToken =>
      refine (reject_finishes "Invalid token" hlog manager_present).mono ?_
      intro result _ log w' hrefused
      exact Or.inr ⟨fun ⟨payload, h, _⟩ ↦ by simp [hdecode] at h, hrefused⟩
  | .ok payload =>
      have hallows : Allows jwt app now token p ↔ p ∈ getAuthorizedProjectIds payload := by
        refine ⟨fun ⟨payload', h, hmem⟩ ↦ ?_, fun hmem ↦ ⟨payload, hdecode, hmem⟩⟩
        cases hdecode.symm.trans h
        exact hmem
      by_cases hmem : p ∈ getAuthorizedProjectIds payload
      · have hallowed : ((some p).any fun id ↦ !(getAuthorizedProjectIds payload).contains id) =
            false := by simpa using hmem
        simp only [socketPayload, hallowed, Bool.false_eq_true, if_false]
        apply Interleave.Program.Finishes.bind
        apply Interleave.Program.Finishes.call
        rintro choice ⟨hfault, -⟩
        have houtcome : choice.outcome = .ok () := by rw [SocketChoice.outcome, hfault]; rfl
        refine ⟨choice.outcome, _, rfl, ?_⟩
        rw [houtcome]
        apply Interleave.Program.Finishes.bind
        apply Interleave.Program.Finishes.call
        rintro choice -
        refine ⟨.ok (), _, rfl, ?_⟩
        exact Or.inl ⟨hallows.mpr hmem, rfl, mem_targets_register_self _ _ _⟩
      · have hrefused : ((some p).any fun id ↦ !(getAuthorizedProjectIds payload).contains id) =
            true := by simpa using hmem
        simp only [socketPayload, hrefused, if_true]
        refine (reject_finishes "Project access denied" hlog manager_present).mono ?_
        intro result _ log w' hrefused
        obtain ⟨rfl, hlog, hmanager⟩ := hrefused
        exact Or.inr ⟨hallows.not.mpr hmem, rfl, hlog, hmanager⟩

end Sockets

/-- Whatever a token says, a socket for a project is accepted with it exactly when the routes run
for the project with it, and then gets what is broadcast to the project. -/
theorem sockets_agree_with_routes (jwt : Jwt) {app : App} {id : ℤ} {ids : List ℤ}
    (hcomponents : app.projectComponents = some (id :: ids)) (now : ℤ) {token : String}
    (hword : token.toList ≠ [] ∧ ∀ c ∈ token.toList, PyJson.isSpace c.toNat = false)
    (route : ProjectRoute) {raw : String} {p : ℤ} (hraw : pyInt raw = some p) (websocket : ℕ)
    (w : SocketWorld) :
    (websocketProjectQueueUpdates app websocket (some token) p).Finishes
      (socketStage jwt app now token) () [] w
      fun result _ log w' ↦
        Decided (serveProject jwt app now route (some raw) (some (bearerHeader token)) = .ok p)
          websocket p w result log w' := by
  have hids : socketProjectIds app = id :: ids := by rw [socketProjectIds, hcomponents]
  have hconfigured : configuredProjectIds app = id :: ids := by
    rw [configuredProjectIds, hcomponents]
  have hserved : serveProject jwt app now route (some raw) (some (bearerHeader token)) = .ok p ↔
      p ∈ id :: ids ∧ Allows jwt app now token p := by
    rw [serveProject_eq_ok, hconfigured]
    constructor
    · rintro ⟨header, token', payload, hheader, hword', htoken, -, hmem, hauthorized⟩
      cases (presentHeader_bearerHeader token).symm.trans hheader
      cases (bearerWord_bearerHeader hword).symm.trans hword'
      exact ⟨hmem, payload, htoken, hauthorized⟩
    · rintro ⟨hmem, payload, htoken, hauthorized⟩
      exact ⟨_, token, payload, presentHeader_bearerHeader token, bearerWord_bearerHeader hword,
        htoken, hraw, hmem, hauthorized⟩
  have hne : token ≠ "" := fun h ↦ hword.1 (by rw [h]; rfl)
  rw [websocketProjectQueueUpdates, hids]
  by_cases hmem : p ∈ id :: ids
  · rw [if_pos hmem]
    refine (connect_finishes hne p).mono fun result _ log w' hdecided ↦ ?_
    rwa [propext (hserved.trans (and_iff_right hmem))]
  · rw [if_neg hmem]
    refine (reject_finishes "Unknown project" List.not_mem_nil rfl).mono ?_
    intro result _ log w' hrefused
    exact Or.inr ⟨fun h ↦ hmem (hserved.mp h).1, hrefused⟩

/-- A token of an earlier version names one project. -/
def legacyJwt : Jwt where
  encode _ _ := "legacy"
  decode token _ _ :=
    if token = "legacy" then .ok [("project_id", .num 7)] else .error .invalidToken
  str _ := ""

theorem legacy_token_opens_socket :
    (websocketProjectQueueUpdates ⟨{ jwtSecret := "", projects := [7, 8] }, some [7, 8]⟩ 0
      (some "legacy") 7).Finishes
      (socketStage legacyJwt ⟨{ jwtSecret := "", projects := [7, 8] }, some [7, 8]⟩ 0 "legacy")
      () [] {}
      fun result _ _ w' ↦ Accepted 0 7 result w' := by
  have hraw : pyInt "7" = some 7 := by decide +kernel
  have hword : "legacy".toList ≠ [] ∧ ∀ c ∈ "legacy".toList, PyJson.isSpace c.toNat = false := by
    simp [PyJson.isSpace]
  refine (sockets_agree_with_routes legacyJwt rfl 0 hword .queue hraw 0 {}).mono ?_
  rintro result _ log w' (⟨-, haccepted⟩ | ⟨hrefused, -⟩)
  · exact haccepted
  · refine absurd (serveProject_eq_ok.mpr ?_) hrefused
    refine ⟨_, "legacy", [("project_id", .num 7)], presentHeader_bearerHeader _,
      bearerWord_bearerHeader hword, rfl, hraw, ?_, ?_⟩
    · decide
    · decide

end MergeQueue.Auth
