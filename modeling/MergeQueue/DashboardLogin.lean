import MergeQueue.AccessTokens

/-!
# Logging in to the dashboard

A login starts in a browser, which keeps its state in a cookie, goes through GitLab and ends with
the exchange of a code for a token.  The token names the configured projects that GitLab showed to
the user.  Nothing is stored on the server: what a later request may see is what its token says.
-/

namespace MergeQueue.Auth

/-! ## GitLab's side -/

/-- A failed request, or an answer with its JSON body, where it has one. -/
inductive HttpReply
  | requestError
  | response (status : ℕ) (body : Option Json)

/-- What GitLab answers during one login, to the form of the exchange and to requests with the
access token. -/
structure GitLabReplies where
  token : String → List (String × String) → HttpReply
  user : String → String → HttpReply
  project : String → String → HttpReply

structure OAuthConfig where
  clientId : String
  clientSecret : String
  redirectUri : String
  authorizeUrl : String
  tokenUrl : String
  userinfoUrl : String
  scopes : List String

def gitlabOauthScopes : List String := ["read_user", "read_api"]

/-- `url.rstrip("/")`. -/
def rstripSlash (url : String) : String :=
  String.ofList (url.toList.reverse.dropWhile (· = '/')).reverse

/-- The text, where it is not empty. -/
def nonempty (text : Option String) : Option String := text.filter fun s ↦ s ≠ ""

def getOauthConfig (settings : AuthSettings) : Option OAuthConfig := do
  let clientId ← nonempty settings.oauthClientId
  let clientSecret ← nonempty settings.oauthClientSecret
  let redirectUri ← nonempty settings.oauthRedirectUri
  let gitlabUrl := rstripSlash settings.gitlabUrl
  return {
    clientId, clientSecret, redirectUri
    authorizeUrl := gitlabUrl ++ "/oauth/authorize"
    tokenUrl := gitlabUrl ++ "/oauth/token"
    userinfoUrl := gitlabUrl ++ "/api/v4/user"
    scopes := gitlabOauthScopes }

/-! ## The start -/

/-- The seconds for which a browser keeps the state. -/
def stateCookieMaxAge : ℤ := 600

structure LoginRedirect where
  authorizeUrl : String
  params : List (String × String)
  cookie : String
  secure : Bool

/-- `login`, with the state that it draws. -/
def login (settings : AuthSettings) (oauthState scheme : String) (forwardedProto : Option String) :
    Except HttpError LoginRedirect :=
  match getOauthConfig settings with
  | none => .error (.http 503 "OAuth authentication is not configured")
  | some config =>
      .ok {
        authorizeUrl := config.authorizeUrl
        params := [("client_id", config.clientId), ("redirect_uri", config.redirectUri),
          ("response_type", "code"), ("scope", " ".intercalate config.scopes),
          ("state", oauthState)]
        cookie := oauthState
        secure := forwardedProto = some "https" ∨ scheme = "https" }

/-! ## The exchange -/

/-- The parameters with which GitLab sends the browser back. -/
structure Callback where
  code : Option String := none
  state : Option String := none
  error : Option String := none
  errorDescription : Option String := none

/-- `secrets.compare_digest` of two texts, which it refuses unless they are ASCII. -/
def compareDigest (a b : String) : Except HttpError Bool :=
  if (a.toList ++ b.toList).all fun c ↦ c.toNat < 128 then .ok (a = b) else .error .unhandled

/-- `_validate_oauth_params`; it gives the code, which is there then. -/
def validateOauthParams (callback : Callback) (oauthState : Option String) :
    Except HttpError String :=
  match nonempty callback.error, nonempty callback.code, nonempty callback.state with
  | some error, _, _ =>
      .error (.http 400 ("OAuth error: " ++ (nonempty callback.errorDescription).getD error))
  | none, none, _ => .error (.http 400 "Missing authorization code")
  | none, some _, none => .error (.http 400 "Missing state parameter")
  | none, some code, some state => do
      match oauthState with
      | none => throw (.http 400 "Invalid state parameter")
      | some expected =>
          let same ← compareDigest state expected
          ensure (same = true) (.http 400 "Invalid state parameter")
          return code

def tokenForm (config : OAuthConfig) (code : String) : List (String × String) :=
  [("client_id", config.clientId), ("client_secret", config.clientSecret), ("code", code),
    ("grant_type", "authorization_code"), ("redirect_uri", config.redirectUri)]

/-- `_exchange_code_for_token`. -/
def exchangeCodeForToken : HttpReply → Except HttpError String
  | .requestError => .error (.http 502 "Failed to connect to GitLab for token exchange")
  | .response 200 (some (.obj data)) =>
      match getClaim "access_token" data with
      | .str token =>
          if token ≠ "" then .ok token else .error (.http 502 "No access token in response")
      | _ => .error (.http 502 "No access token in response")
  | .response 200 _ => .error .unhandled
  | .response _ _ => .error (.http 502 "Failed to exchange code for token")

/-- `_fetch_user_info`. -/
def fetchUserInfo : HttpReply → Except HttpError Json
  | .requestError => .error (.http 502 "Failed to connect to GitLab for user info")
  | .response 200 (some body) => .ok body
  | .response 200 none => .error .unhandled
  | .response _ _ => .error (.http 502 "Failed to fetch user information from GitLab")

def validateProjectAccess : HttpReply → Bool
  | .response 200 _ => true
  | _ => false

def projectUrl (settings : AuthSettings) (projectId : ℤ) : String :=
  rstripSlash settings.gitlabUrl ++ "/api/v4/projects/" ++ toString projectId

structure TokenResponse where
  accessToken : String
  user : Claims

/-- The configured projects that GitLab shows to the owner of the access token. -/
def authorizedProjectIds (settings : AuthSettings) (replies : GitLabReplies)
    (accessToken : String) : List ℤ :=
  settings.projects.filter fun id ↦
    validateProjectAccess (replies.project (projectUrl settings id) accessToken)

/-- The user for whom the token is made. -/
def withProjects (ids : List ℤ) (userInfo : Claims) : Claims :=
  setClaim "project_id" (singleProject (ids.map .num))
    (setClaim "project_ids" (.arr (ids.map .num)) userInfo)

def exchangeToken (jwt : Jwt) (app : App) (now : ℤ) (replies : GitLabReplies) (callback : Callback)
    (oauthState : Option String) : Except HttpError TokenResponse :=
  match getOauthConfig app.settings with
  | none => .error (.http 503 "OAuth not configured")
  | some config => do
      let code ← validateOauthParams callback oauthState
      let accessToken ← exchangeCodeForToken (replies.token config.tokenUrl (tokenForm config code))
      let userInfo ← fetchUserInfo (replies.user config.userinfoUrl accessToken)
      let ids := authorizedProjectIds app.settings replies accessToken
      match userInfo with
      | .obj userInfo => do
          ensure (ids ≠ [])
            (.http 403 "Access denied: you don't have access to any configured project")
          let token ← createAccessToken jwt (withProjects ids userInfo) app.settings now none
          return {
            accessToken := token
            user := [("id", getClaim "id" userInfo), ("username", getClaim "username" userInfo),
              ("name", getClaim "name" userInfo), ("email", getClaim "email" userInfo),
              ("avatar_url", getClaim "avatar_url" userInfo)] }
      | _ => throw .unhandled

/-! ## What an exchange that succeeds has seen -/

section Exchange

variable {jwt : Jwt} {app : App} {now : ℤ} {replies : GitLabReplies} {callback : Callback}
  {oauthState : Option String}

theorem nonempty_eq_some {text : Option String} {s : String} :
    nonempty text = some s ↔ text = some s ∧ s ≠ "" := by
  rw [nonempty, Option.filter_eq_some_iff, decide_eq_true_iff]

theorem compareDigest_eq_true {a b : String} (h : compareDigest a b = .ok true) : a = b := by
  unfold compareDigest at h
  split_ifs at h
  simpa using h

/-- The state that GitLab sent back is the one of the cookie. -/
theorem validateOauthParams_state {code : String}
    (h : validateOauthParams callback oauthState = .ok code) :
    callback.code = some code ∧ ∃ state, callback.state = some state ∧ oauthState = some state := by
  unfold validateOauthParams at h
  cases herror : nonempty callback.error with
  | some error => simp [herror] at h
  | none =>
    cases hcode : nonempty callback.code with
    | none => simp [herror, hcode] at h
    | some found =>
      cases hstate : nonempty callback.state with
      | none => simp [herror, hcode, hstate] at h
      | some state =>
        cases oauthState with
        | none => simp [herror, hcode, hstate] at h
        | some expected =>
            simp only [herror, hcode, hstate] at h
            obtain ⟨same, hsame, h⟩ := bind_eq_ok.mp h
            obtain ⟨htrue, h⟩ := ensure_bind_eq_ok.mp h
            cases h
            rw [htrue] at hsame
            rw [← compareDigest_eq_true hsame]
            exact ⟨(nonempty_eq_some.mp hcode).1, state, (nonempty_eq_some.mp hstate).1, rfl⟩

/-- GitLab gave an access token for the code, and showed with it the project, which was
configured. -/
def Confirmed (app : App) (replies : GitLabReplies) (callback : Callback) (p : ℤ) : Prop :=
  ∃ config code accessToken, getOauthConfig app.settings = some config ∧
    callback.code = some code ∧
    exchangeCodeForToken (replies.token config.tokenUrl (tokenForm config code)) =
      .ok accessToken ∧
    p ∈ app.settings.projects ∧
    validateProjectAccess (replies.project (projectUrl app.settings p) accessToken) = true

/-- When the tokens of a login stop being accepted. -/
def tokenExpiry (settings : AuthSettings) (time : ℤ) : ℤ :=
  second * timegm (time + settings.jwtExpirationHours * 3600 * second)

theorem tokenExpiry_le (settings : AuthSettings) (time : ℤ) :
    tokenExpiry settings time ≤ time + settings.jwtExpirationHours * 3600 * second := by
  rw [tokenExpiry, timegm]
  exact Int.mul_ediv_self_le (by decide)

theorem lt_tokenExpiry_add (settings : AuthSettings) (time : ℤ) :
    time + settings.jwtExpirationHours * 3600 * second < tokenExpiry settings time + second := by
  rw [tokenExpiry, timegm]
  exact Int.lt_mul_ediv_self_add (by decide)

/-- What a payload says of one login. -/
structure PayloadOf (app : App) (replies : GitLabReplies) (callback : Callback) (time : ℤ)
    (payload : Claims) : Prop where
  issued : payload.lookup "iat" = some (.num (timegm time))
  expires : payload.lookup "exp" =
    some (.num (timegm (time + app.settings.jwtExpirationHours * 3600 * second)))
  projects : ∀ p, p ∈ getAuthorizedProjectIds payload ↔ Confirmed app replies callback p

theorem filterMap_asInt_num (ids : List ℤ) : (ids.map Json.num).filterMap Json.asInt = ids := by
  rw [List.filterMap_map]
  exact List.filterMap_some

theorem rawProjectIds_withProjects (ids : List ℤ) (userInfo : Claims) :
    rawProjectIds (withProjects ids userInfo) = .ok (ids.map .num) := by
  apply rawProjectIds_of_ids
  rw [withProjects, lookup_setClaim_of_ne (by decide), lookup_setClaim]

/-- A token is issued for the state of the cookie, and says which projects GitLab confirmed. -/
theorem exchangeToken_spec {response : TokenResponse}
    (h : exchangeToken jwt app now replies callback oauthState = .ok response) :
    (∃ state, callback.state = some state ∧ oauthState = some state) ∧
      ∃ payload, response.accessToken = jwt.encode payload app.settings.jwtSecret ∧
        PayloadOf app replies callback now payload := by
  unfold exchangeToken at h
  cases hconfig : getOauthConfig app.settings with
  | none => simp [hconfig] at h
  | some config =>
    rw [hconfig] at h
    obtain ⟨code, hcode, h⟩ := bind_eq_ok.mp h
    obtain ⟨accessToken, haccess, h⟩ := bind_eq_ok.mp h
    obtain ⟨userInfo, huser, h⟩ := bind_eq_ok.mp h
    obtain ⟨hcallback, hstate⟩ := validateOauthParams_state hcode
    refine ⟨hstate, ?_⟩
    match userInfo, h with
    | .obj userInfo, h =>
      obtain ⟨hids, h⟩ := ensure_bind_eq_ok.mp h
      obtain ⟨token, htoken, h⟩ := bind_eq_ok.mp h
      cases h
      rw [createAccessToken, rawProjectIds_withProjects] at htoken
      match hid : (withProjects (authorizedProjectIds app.settings replies accessToken)
          userInfo).lookup "id",
        hname : (withProjects (authorizedProjectIds app.settings replies accessToken)
          userInfo).lookup "username" with
      | some id, some username =>
          simp only [hid, hname] at htoken
          cases htoken
          refine ⟨_, rfl, rfl, rfl, fun p ↦ ?_⟩
          rw [getAuthorizedProjectIds_tokenPayload, filterMap_asInt_num, authorizedProjectIds,
            List.mem_filter]
          constructor
          · rintro ⟨hmem, hvalid⟩
            exact ⟨config, code, accessToken, hconfig, hcallback, haccess, hmem, hvalid⟩
          · rintro ⟨config', code', accessToken', hconfig', hcallback', haccess', hmem, hvalid⟩
            cases hconfig.symm.trans hconfig'
            cases hcallback.symm.trans hcallback'
            cases haccess.symm.trans haccess'
            exact ⟨hmem, hvalid⟩
      | none, _ =>
          simp only [hid] at htoken
          cases htoken
      | some _, none =>
          simp only [hid, hname] at htoken
          cases htoken

end Exchange

/-! ## Runs -/

/-- A browser was sent to GitLab with a state. -/
structure Start where
  browser : ℕ
  state : String
  time : ℤ
  deriving DecidableEq

/-- The request for a token that a browser sent with the state of a start in its cookie, and when
the request was read. -/
structure Exchange where
  browser : ℕ
  start : Start
  callback : Callback
  begun : ℤ

/-- An exchange that gave a token. -/
structure Login extends Exchange where
  time : ℤ
  app : App
  replies : GitLabReplies
  token : String

/-- The application and the clock, the starts whose cookies the browsers keep, the exchanges that
wait for GitLab, and what has happened. -/
structure AccessWorld where
  app : App
  now : ℤ
  cookies : ℕ → Option Start := fun _ ↦ none
  pending : List Exchange := []
  starts : List Start := []
  logins : List Login := []

/-- An exchange is begun by its `request` and is over with its `answer`; between the two anything
else may happen. -/
inductive AccessEvent
  | pass (delay : ℕ)
  | restart (app : App)
  | start (browser : ℕ) (oauthState scheme : String) (forwardedProto : Option String)
  | request (browser : ℕ) (callback : Callback)
  | answer (index : ℕ) (replies : GitLabReplies)
  | lose (browser : ℕ)

namespace AccessWorld

variable (jwt : Jwt) (w : AccessWorld)

/-- The start whose cookie the browser still sends. -/
def kept (browser : ℕ) : Option Start :=
  (w.cookies browser).filter fun start ↦ w.now < start.time + stateCookieMaxAge * second

/-- The browser is sent to GitLab with its cookie. -/
def began (start : Start) : AccessWorld :=
  { w with
    cookies := Function.update w.cookies start.browser (some start)
    starts := start :: w.starts }

/-- The parameters are checked when the request is read, against values that stay as they are, and
the cookie is not looked at again; `app_state` is the one of the process, which ends with its
requests.  The response that deletes the cookie comes when it comes, with `lose`. -/
def apply : AccessEvent → AccessWorld
  | .pass delay => { w with now := w.now + delay }
  | .restart app => { w with app, pending := [] }
  | .start browser oauthState scheme forwardedProto =>
      match login w.app.settings oauthState scheme forwardedProto with
      | .error _ => w
      | .ok redirect => w.began { browser, state := redirect.cookie, time := w.now }
  | .request browser callback =>
      match w.kept browser with
      | none => w
      | some start =>
          { w with pending := w.pending ++ [{ browser, start, callback, begun := w.now }] }
  | .answer index replies =>
      match w.pending[index]? with
      | none => w
      | some e =>
          let w' := { w with pending := w.pending.eraseIdx index }
          match exchangeToken jwt w.app w.now replies e.callback (some e.start.state) with
          | .error _ => w'
          | .ok response =>
              let l := { e with
                time := w.now, app := w.app, replies, token := response.accessToken }
              { w' with logins := l :: w.logins }
  | .lose browser => { w with cookies := Function.update w.cookies browser none }

def run (events : List AccessEvent) : AccessWorld := events.foldl (apply jwt) w

/-- What holds of an exchange: its browser had started it less than ten minutes before. -/
structure ExchangeSound (e : Exchange) : Prop where
  started : e.start ∈ w.starts
  browser : e.start.browser = e.browser
  recent : e.start.time ≤ e.begun ∧ e.begun < e.start.time + stateCookieMaxAge * second
  past : e.begun ≤ w.now

/-- What holds of a login: its token says what GitLab confirmed. -/
structure LoginSound (l : Login) : Prop where
  exchange : w.ExchangeSound l.toExchange
  answered : l.begun ≤ l.time
  past : l.time ≤ w.now
  state : l.callback.state = some l.start.state
  payload : ∃ payload, l.token = jwt.encode payload l.app.settings.jwtSecret ∧
    PayloadOf l.app l.replies l.callback l.time payload

structure Sound : Prop where
  logins : ∀ l ∈ w.logins, w.LoginSound jwt l
  pending : ∀ e ∈ w.pending, w.ExchangeSound e
  cookies : ∀ browser start, w.cookies browser = some start →
    start.browser = browser ∧ start ∈ w.starts ∧ start.time ≤ w.now

variable {jwt} {w}

theorem ExchangeSound.mono {w' : AccessWorld} {e : Exchange} (h : w.ExchangeSound e)
    (hstarts : w.starts ⊆ w'.starts) (hnow : w.now ≤ w'.now) : w'.ExchangeSound e where
  started := hstarts h.started
  browser := h.browser
  recent := h.recent
  past := h.past.trans hnow

theorem LoginSound.mono {w' : AccessWorld} {l : Login} (h : w.LoginSound jwt l)
    (hstarts : w.starts ⊆ w'.starts) (hnow : w.now ≤ w'.now) : w'.LoginSound jwt l where
  exchange := h.exchange.mono hstarts hnow
  answered := h.answered
  past := h.past.trans hnow
  state := h.state
  payload := h.payload

theorem Sound.pass (h : w.Sound jwt) (delay : ℕ) :
    Sound jwt { w with now := w.now + delay } where
  logins l hl := (h.logins l hl).mono (List.Subset.refl _) (Int.le.intro delay rfl)
  pending e he := (h.pending e he).mono (List.Subset.refl _) (Int.le.intro delay rfl)
  cookies browser start hcookie := by
    obtain ⟨hbrowser, hstart, htime⟩ := h.cookies browser start hcookie
    exact ⟨hbrowser, hstart, htime.trans (Int.le.intro delay rfl)⟩

theorem Sound.restart (h : w.Sound jwt) (app : App) :
    Sound jwt { w with app, pending := [] } where
  logins l hl := (h.logins l hl).mono (List.Subset.refl _) le_rfl
  pending _ he := absurd he List.not_mem_nil
  cookies := h.cookies

theorem Sound.began (h : w.Sound jwt) {start : Start} (htime : start.time = w.now) :
    (w.began start).Sound jwt where
  logins l hl := (h.logins l hl).mono (List.subset_cons_self _ _) le_rfl
  pending e he := (h.pending e he).mono (List.subset_cons_self _ _) le_rfl
  cookies browser found hcookie := by
    simp only [AccessWorld.began] at hcookie
    by_cases hb : browser = start.browser
    · subst hb
      rw [Function.update_self] at hcookie
      cases hcookie
      exact ⟨rfl, List.mem_cons_self, htime.le⟩
    · rw [Function.update_of_ne hb] at hcookie
      obtain ⟨hbrowser, hmem, hpast⟩ := h.cookies browser found hcookie
      exact ⟨hbrowser, List.mem_cons_of_mem _ hmem, hpast⟩

theorem Sound.lose (h : w.Sound jwt) (browser : ℕ) :
    Sound jwt { w with cookies := Function.update w.cookies browser none } where
  logins l hl := (h.logins l hl).mono (List.Subset.refl _) le_rfl
  pending e he := (h.pending e he).mono (List.Subset.refl _) le_rfl
  cookies found start hcookie := by
    dsimp only at hcookie
    by_cases hb : found = browser
    · subst hb
      rw [Function.update_self] at hcookie
      cases hcookie
    · rw [Function.update_of_ne hb] at hcookie
      exact h.cookies found start hcookie

theorem Sound.erase (h : w.Sound jwt) (index : ℕ) :
    Sound jwt { w with pending := w.pending.eraseIdx index } where
  logins l hl := (h.logins l hl).mono (List.Subset.refl _) le_rfl
  pending e he := (h.pending e (List.mem_of_mem_eraseIdx he)).mono (List.Subset.refl _) le_rfl
  cookies := h.cookies

theorem Sound.entered (h : w.Sound jwt) {l : Login} (hl : w.LoginSound jwt l) :
    Sound jwt { w with logins := l :: w.logins } where
  logins other hother := by
    rcases List.mem_cons.mp hother with rfl | hother
    · exact hl.mono (List.Subset.refl _) le_rfl
    · exact (h.logins other hother).mono (List.Subset.refl _) le_rfl
  pending e he := (h.pending e he).mono (List.Subset.refl _) le_rfl
  cookies := h.cookies

theorem kept_eq_some {browser : ℕ} {start : Start} :
    w.kept browser = some start ↔ w.cookies browser = some start ∧
      w.now < start.time + stateCookieMaxAge * second := by
  rw [kept, Option.filter_eq_some_iff, decide_eq_true_iff]

/-- The cookie with which a request comes is the one of its browser's last start. -/
theorem Sound.request (h : w.Sound jwt) {browser : ℕ} {start : Start} (callback : Callback)
    (hkept : w.kept browser = some start) :
    Sound jwt
      { w with pending := w.pending ++ [{ browser, start, callback, begun := w.now }] } where
  logins l hl := (h.logins l hl).mono (List.Subset.refl _) le_rfl
  pending e he := by
    obtain ⟨hcookie, hrecent⟩ := kept_eq_some.mp hkept
    obtain ⟨hbrowser, hstart, htime⟩ := h.cookies browser start hcookie
    rcases List.mem_append.mp he with he | he
    · exact (h.pending e he).mono (List.Subset.refl _) le_rfl
    · cases List.mem_singleton.mp he
      exact ⟨hstart, hbrowser, ⟨htime, hrecent⟩, le_rfl⟩
  cookies := h.cookies

theorem Sound.answer (h : w.Sound jwt) (index : ℕ) (replies : GitLabReplies) :
    (w.apply jwt (.answer index replies)).Sound jwt := by
  rw [AccessWorld.apply]
  cases hpending : w.pending[index]? with
  | none => exact h
  | some e =>
    have he := h.pending e (List.mem_of_getElem? hpending)
    cases hexchange :
        exchangeToken jwt w.app w.now replies e.callback (some e.start.state) with
    | error _ => simpa only [hexchange] using h.erase index
    | ok response =>
        obtain ⟨⟨state, hstate, hsame⟩, payload, htoken, hpayload⟩ := exchangeToken_spec hexchange
        cases hsame
        have hl : w.LoginSound jwt { e with
            time := w.now, app := w.app, replies, token := response.accessToken } :=
          ⟨he, he.past, le_rfl, hstate, payload, htoken, hpayload⟩
        simpa only [hexchange] using
          (h.erase index).entered (hl.mono (List.Subset.refl _) le_rfl)

theorem Sound.apply (h : w.Sound jwt) (event : AccessEvent) : (w.apply jwt event).Sound jwt := by
  cases event with
  | pass delay => exact h.pass delay
  | restart app => exact h.restart app
  | start browser oauthState scheme forwardedProto =>
      rw [AccessWorld.apply]
      cases login w.app.settings oauthState scheme forwardedProto with
      | error e => exact h
      | ok redirect => exact h.began rfl
  | request browser callback =>
      rw [AccessWorld.apply]
      cases hkept : w.kept browser with
      | none => exact h
      | some start => exact h.request callback hkept
  | answer index replies => exact h.answer index replies
  | lose browser => exact h.lose browser

theorem Sound.run (h : w.Sound jwt) (events : List AccessEvent) : (w.run jwt events).Sound jwt := by
  induction events generalizing w with
  | nil => exact h
  | cons event events ih => exact ih (h.apply event)

/-- An application that has just been installed. -/
def fresh (app : App) (now : ℤ) : AccessWorld := { app, now }

theorem Sound.fresh (app : App) (now : ℤ) : (AccessWorld.fresh app now).Sound jwt where
  logins l hl := absurd hl List.not_mem_nil
  pending _ he := absurd he List.not_mem_nil
  cookies browser start h := by cases h

end AccessWorld

/-! ## What a token gives access to -/

/-- GitLab confirmed the project during the login. -/
def Login.Confirmed (l : Login) (p : ℤ) : Prop :=
  Auth.Confirmed l.app l.replies l.callback p

def Login.expiry (l : Login) : ℤ := tokenExpiry l.app.settings l.time

section Access

variable {jwt : Jwt} {w : AccessWorld} {l : Login}

theorem timegm_le (time : ℤ) : second * timegm time ≤ time := by
  rw [timegm]
  exact Int.mul_ediv_self_le (by decide)

/-- The token of a login is read back until it expires. -/
theorem AccessWorld.LoginSound.decode (hjwt : jwt.Lawful) (h : w.LoginSound jwt l) :
    ∃ payload, PayloadOf l.app l.replies l.callback l.time payload ∧
      jwt.decode l.token l.app.settings.jwtSecret w.now =
        if w.now < l.expiry then .ok payload else .error .expiredSignature := by
  obtain ⟨payload, htoken, hpayload⟩ := h.payload
  have hissued : second * timegm l.time ≤ w.now := (timegm_le l.time).trans h.past
  refine ⟨payload, hpayload, ?_⟩
  rw [htoken]
  split_ifs with hlt
  · exact hjwt.accepted _ hpayload.issued hpayload.expires hissued hlt
  · exact hjwt.expired _ hpayload.issued hpayload.expires hissued (not_lt.mp hlt)

/-- The header of a login's token is read. -/
theorem AccessWorld.LoginSound.bearerWord (hjwt : jwt.Lawful) (h : w.LoginSound jwt l) :
    bearerWord (bearerHeader l.token) = some l.token := by
  obtain ⟨payload, htoken, -⟩ := h.payload
  rw [htoken]
  exact bearerWord_bearerHeader (hjwt.word payload _)

/-- The projects for which the routes run with the token of a login. -/
theorem AccessWorld.LoginSound.serves (hjwt : jwt.Lawful) (h : w.LoginSound jwt l)
    (hsecret : l.app.settings.jwtSecret = w.app.settings.jwtSecret) (hlt : w.now < l.expiry)
    {route : ProjectRoute} {rawProjectId : Option String} {p : ℤ} :
    serveProject jwt w.app w.now route rawProjectId (some (bearerHeader l.token)) = .ok p ↔
      Names w.app rawProjectId p ∧ p ∈ configuredProjectIds w.app ∧ l.Confirmed p := by
  obtain ⟨payload, hpayload, hdecode⟩ := h.decode hjwt
  rw [hsecret, if_pos hlt] at hdecode
  rw [serveProject_of_token (presentHeader_bearerHeader l.token) (h.bearerWord hjwt)
    (decodeToken_eq_ok.mpr hdecode), hpayload.projects]
  rfl

end Access

/-- Every character by as many letters as its code says. -/
def spell (text : List Char) : List Char :=
  text.flatMap fun c ↦ List.replicate (c.toNat + 1) 'a' ++ ['.']

theorem replicate_append_dot_inj {m n : ℕ} {s t : List Char}
    (h : List.replicate m 'a' ++ '.' :: s = List.replicate n 'a' ++ '.' :: t) : m = n ∧ s = t := by
  induction m generalizing n with
  | zero =>
      cases n with
      | zero => exact ⟨rfl, (List.cons.inj h).2⟩
      | succ n => exact absurd (List.cons.inj h).1 (by decide)
  | succ m ih =>
      cases n with
      | zero => exact absurd (List.cons.inj h).1 (by decide)
      | succ n => exact (ih (List.cons.inj h).2).imp_left fun hmn ↦ congrArg Nat.succ hmn

theorem spell_injective : Function.Injective spell := by
  intro s
  induction s with
  | nil =>
      intro t h
      cases t with
      | nil => rfl
      | cons d t => exact absurd h (by simp [spell, List.replicate_succ])
  | cons c s ih =>
      intro t h
      cases t with
      | nil => exact absurd h (by simp [spell, List.replicate_succ])
      | cons d t =>
          simp only [spell, List.flatMap_cons, List.append_assoc, List.singleton_append] at h
          obtain ⟨hcode, hrest⟩ := replicate_append_dot_inj h
          rw [ih hrest, Char.toNat_inj.mp (Nat.succ.inj hcode)]

def sealed (payload : Claims) (secret : String) : String :=
  String.ofList (spell (Json.render (.arr [.str secret, .obj payload])).toList)

theorem sealed_inj {payload payload' : Claims} {secret : String}
    (h : sealed payload secret = sealed payload' secret) : payload = payload' := by
  have htext := Json.render_injective
    (String.toList_inj.mp (spell_injective (String.ofList_injective h)))
  simpa using htext

open Classical in
/-- The times of the claims are checked when they are read back. -/
noncomputable def sealedJwt : Jwt where
  encode := sealed
  decode token secret now :=
    if h : ∃ payload, token = sealed payload secret then
      match h.choose.lookup "iat", h.choose.lookup "exp" with
      | some (.num issued), some (.num expires) =>
          if now < second * issued then .error .invalidToken
          else if second * expires ≤ now then .error .expiredSignature
          else .ok h.choose
      | _, _ => .ok h.choose
    else .error .invalidToken
  str _ := "1"

theorem sealedJwt_decode {payload : Claims} {issued expires now : ℤ} {secret : String}
    (hissued : payload.lookup "iat" = some (.num issued))
    (hexpires : payload.lookup "exp" = some (.num expires)) (hnow : second * issued ≤ now) :
    sealedJwt.decode (sealedJwt.encode payload secret) secret now =
      if second * expires ≤ now then .error .expiredSignature else .ok payload := by
  have hexists : ∃ payload', sealed payload secret = sealed payload' secret := ⟨payload, rfl⟩
  have hchoose : hexists.choose = payload := (sealed_inj hexists.choose_spec).symm
  simp only [sealedJwt]
  rw [dif_pos hexists, hchoose]
  simp only [hissued, hexpires]
  rw [if_neg (not_lt.mpr hnow)]

theorem sealedJwt_lawful : sealedJwt.Lawful where
  accepted secret hissued hexpires hnow hlt := by
    rw [sealedJwt_decode hissued hexpires hnow, if_neg (not_le.mpr hlt)]
  expired secret hissued hexpires hnow hle := by
    rw [sealedJwt_decode hissued hexpires hnow, if_pos hle]
  word payload secret := by
    have htext : (sealedJwt.encode payload secret).toList =
        spell (Json.render (.arr [.str secret, .obj payload])).toList := String.toList_ofList
    rw [htext]
    constructor
    · intro h
      have hnil := spell_injective (h.trans (show [] = spell [] from rfl))
      simp [Json.render, Json.chars] at hnil
    · intro c hc
      obtain ⟨d, -, hmem⟩ := List.mem_flatMap.mp hc
      rcases List.mem_append.mp hmem with hmem | hmem
      · rw [List.eq_of_mem_replicate hmem]
        rfl
      · rw [List.mem_singleton.mp hmem]
        rfl

/-- Two exchanges with one cookie: through the one that is answered, GitLab shows one of the two
configured projects. -/
def someApp : App where
  settings := { jwtSecret := "secret", projects := [7, 8], oauthClientId := some "id",
                oauthClientSecret := some "hidden", oauthRedirectUri := some "/callback" }

def someCallback : Callback := { code := some "code", state := some "state" }

def someReplies : GitLabReplies where
  token _ _ := .response 200 (some (.obj [("access_token", .str "gl")]))
  user _ _ := .response 200 (some (.obj [("id", .num 1), ("username", .str "dev")]))
  project url _ := .response (if url = projectUrl someApp.settings 7 then 200 else 404) none

def someRun : List AccessEvent :=
  [.start 1 "state" "https" none, .pass 5, .request 1 someCallback, .request 1 someCallback,
    .pass 2, .answer 1 someReplies, .lose 1, .pass 5]

/-- What the events leave behind. -/
noncomputable def someWorld (events : List AccessEvent) : AccessWorld :=
  (AccessWorld.fresh someApp 0).run sealedJwt events

theorem someReplies_hide : ¬ Confirmed someApp someReplies someCallback 8 := by
  rintro ⟨config, code, accessToken, -, -, -, -, hvalid⟩
  have hurl : projectUrl someApp.settings 8 ≠ projectUrl someApp.settings 7 := by decide +kernel
  simp [someReplies, hurl, validateProjectAccess] at hvalid

theorem someWorld_login : ∃ l, (someWorld someRun).logins = [l] ∧ l.app = someApp ∧
    (someWorld someRun).app = someApp ∧ (someWorld someRun).now < l.expiry ∧ l.Confirmed 7 ∧
    ¬ l.Confirmed 8 := by
  exact ⟨_, rfl, rfl, rfl, by decide, ⟨_, _, _, rfl, rfl, rfl, by decide, rfl⟩, someReplies_hide⟩

theorem someWorld_sound (events : List AccessEvent) : (someWorld events).Sound sealedJwt :=
  (AccessWorld.Sound.fresh someApp 0).run events

theorem someWorld_names : Names (someWorld someRun).app (some "7") 7 := by
  change pyInt "7" = some 7
  decide +kernel

theorem someWorld_configured : 7 ∈ configuredProjectIds (someWorld someRun).app := by
  change 7 ∈ configuredProjectIds someApp
  decide

end MergeQueue.Auth
