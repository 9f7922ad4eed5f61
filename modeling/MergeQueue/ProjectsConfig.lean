import Mathlib.Data.List.Dedup
import Mathlib.Data.List.Lex
import Mathlib.Data.List.Sort
import Mathlib.Order.Nat
import MergeQueue.Lib.Checks
import MergeQueue.Lib.PyJson

/-!
# The projects setting

The projects are configured by one JSON text.  Its parser checks the array, the shape of
each entry, the two required values and the uniqueness of the ids; the configuration
checks its own values again when it is built.
-/

namespace MergeQueue.Config

open PyJson

/-! ## Errors -/

/-- A piece of a message: fixed words, or what is formatted into them. -/
inductive MessagePart
  | words (s : String)
  | value (v : Value)
  | typeName (v : Value)
  | names (names : List Str)
  | cause (e : DecodeError)

/-- The exceptions of the parser.  The fixed parts of the messages are the source's. -/
inductive ConfigError
  | valueError (message : List MessagePart)
  | recursionError

/-! ## A project configuration -/

/-- An exact name: not empty, and without blanks around it. -/
def ExactName (label : Str) : Prop := label ≠ [] ∧ strip label = label

instance (label : Str) : Decidable (ExactName label) :=
  inferInstanceAs (Decidable (label ≠ [] ∧ strip label = label))

structure ProjectConfig where
  projectId : ℤ
  token : Str
  targetBranch : Str
  queueLabel : Str
  hotfixLabel : Str
  automationLabels : List Str
  positive : 0 < projectId
  token_nonblank : strip token ≠ []
  targetBranch_nonblank : strip targetBranch ≠ []
  queueLabel_nonblank : strip queueLabel ≠ []
  hotfixLabel_nonblank : strip hotfixLabel ≠ []
  exact : ∀ label ∈ automationLabels, ExactName label
  distinct : automationLabels.Nodup

/-- The text of a value, where it is one and not blank. -/
def nonblank : Value → Option {s : Str // strip s ≠ []}
  | .str s => if h : strip s ≠ [] then some ⟨s, h⟩ else none
  | _ => none

/-- The text of a value, where it is an exact name. -/
def exactName : Value → Option {s : Str // ExactName s}
  | .str s => if h : ExactName s then some ⟨s, h⟩ else none
  | _ => none

/-- All labels, unless one is no exact name. -/
def exactNames : List Value → Option {labels : List Str // ∀ label ∈ labels, ExactName label}
  | [] => some ⟨[], by simp⟩
  | value :: values =>
      match exactName value, exactNames values with
      | some label, some labels =>
          some ⟨label.1 :: labels.1, List.forall_mem_cons.mpr ⟨label.2, labels.2⟩⟩
      | _, _ => none

/-- `_validate_automation_labels`; the labels are those of a tuple. -/
def validateAutomationLabels (projectId : Value) (values : List Value) :
    Except ConfigError {labels : List Str // (∀ label ∈ labels, ExactName label) ∧ labels.Nodup} :=
  match exactNames values with
  | none =>
      .error (.valueError [.words "automation_labels for project ", .value projectId,
        .words " require nonblank names without outer whitespace"])
  | some labels =>
      if h : labels.1.Nodup then .ok ⟨labels.1, labels.2, h⟩
      else
        .error (.valueError [.words "automation_labels for project ", .value projectId,
          .words " contain duplicate names"])

/-- The check of one of the names that a configuration must have. -/
def validateName (fieldName : String) (value : Value) :
    Except ConfigError {s : Str // strip s ≠ []} :=
  match nonblank value with
  | some name => .ok name
  | none => .error (.valueError [.words (fieldName ++ " must be a non-empty string")])

/-- The id of a value, where it is an integer and positive. -/
def positiveInt : Value → Option {n : ℤ // 0 < n}
  | .int n => if h : 0 < n then some ⟨n, h⟩ else none
  | _ => none

/-- `ProjectConfig(...)` with its `__post_init__`; the token is the value of a `Secret`. -/
def ProjectConfig.make (projectId : Value) (token : Str)
    (targetBranch queueLabel hotfixLabel : Value) (automationLabels : List Value) :
    Except ConfigError ProjectConfig :=
  match positiveInt projectId with
  | none =>
      .error (.valueError [.words "project_id must be a positive integer, got: ", .value projectId])
  | some id =>
      if htoken : strip token = [] then
        .error (.valueError [.words "token must be a non-empty Secret"])
      else do
        let target ← validateName "target_branch" targetBranch
        let queue ← validateName "queue_label" queueLabel
        let hotfix ← validateName "hotfix_label" hotfixLabel
        let labels ← validateAutomationLabels projectId automationLabels
        return {
          projectId := id.1
          token
          targetBranch := target.1
          queueLabel := queue.1
          hotfixLabel := hotfix.1
          automationLabels := labels.1
          positive := id.2
          token_nonblank := htoken
          targetBranch_nonblank := target.2
          queueLabel_nonblank := queue.2
          hotfixLabel_nonblank := hotfix.2
          exact := labels.2.1
          distinct := labels.2.2 }

/-! ## Parsing the setting -/

/-- The settings that an entry falls back to. -/
structure Defaults where
  targetBranch : Str := str "master"
  queueLabel : Str := str "merge_queue"
  hotfixLabel : Str := str "hotfix"

def decodeProjectsJson (depth : ℕ) (raw : Str) : Except ConfigError (List Value) :=
  match loads depth raw with
  | .error .malformed =>
      .error (.valueError [.words "GITLAB_QUEUE_PROJECTS is not valid JSON: ", .cause .malformed])
  -- a `ValueError` of `int`, which is no `JSONDecodeError` and passes through
  | .error .tooManyDigits => .error (.valueError [.cause .tooManyDigits])
  | .error .tooDeep => .error .recursionError
  | .ok (.list (entry :: entries)) => .ok (entry :: entries)
  | .ok _ =>
      .error (.valueError [.words "GITLAB_QUEUE_PROJECTS must be a non-empty JSON array"])

def allowedFields : List Str :=
  [str "project_id", str "token", str "target_branch", str "queue_label", str "hotfix_label",
    str "automation_labels"]

/-- The members of an entry that is an object with only supported fields. -/
def validateProjectEntryShape (entry : Value) : Except ConfigError (List (Str × Value)) :=
  match entry with
  | .dict members =>
      match ((members.map Prod.fst).dedup.filter (· ∉ allowedFields)).insertionSort (· ≤ ·) with
      | [] => .ok members
      | unknown =>
          .error (.valueError [.words "Unknown project field(s): ", .names unknown])
  | _ =>
      .error (.valueError [.words "Each project entry must be a JSON object, got: ",
        .typeName entry])

/-- `entry.get(name)`, where a member may be missing or null. -/
def present (name : Str) (members : List (Str × Value)) : Option Value :=
  match get name members with
  | none | some .null => none
  | some value => some value

def validateProjectEntryValues (members : List (Str × Value)) : Except ConfigError (ℤ × Str) :=
  match present (str "project_id") members, present (str "token") members with
  | some projectId, some token =>
      match positiveInt projectId with
      | none =>
          .error (.valueError [.words "project_id must be a positive integer, got: ",
            .value projectId])
      | some id =>
          match nonblank token with
          | none => .error (.valueError [.words "token must be a non-empty string"])
          | some token => .ok (id.1, token.1)
  | _, _ =>
      .error (.valueError
        [.words "Each project entry must have 'project_id' and 'token' fields"])

def automationLabelsFromJson (value : Value) (projectId : ℤ) : Except ConfigError (List Value) :=
  match value with
  | .list items => .ok items
  | _ =>
      .error (.valueError [.words "automation_labels for project ", .value (.int projectId),
        .words " must be a JSON array"])

def parseProjectEntry (entry : Value) (seenIds : List ℤ) (defaults : Defaults) :
    Except ConfigError ProjectConfig := do
  let members ← validateProjectEntryShape entry
  let (projectId, token) ← validateProjectEntryValues members
  if projectId ∈ seenIds then
    .error (.valueError [.words "Duplicate project_id: ", .value (.int projectId)])
  else
    let labels ← automationLabelsFromJson
      ((get (str "automation_labels") members).getD (.list [])) projectId
    ProjectConfig.make (.int projectId) token
      ((get (str "target_branch") members).getD (.str defaults.targetBranch))
      ((get (str "queue_label") members).getD (.str defaults.queueLabel))
      ((get (str "hotfix_label") members).getD (.str defaults.hotfixLabel))
      labels

/-- The loop over the entries, with the ids that were seen. -/
def parseEntries (defaults : Defaults) :
    List ℤ → List Value → Except ConfigError (List ProjectConfig)
  | _, [] => .ok []
  | seenIds, entry :: entries => do
      let config ← parseProjectEntry entry seenIds defaults
      let configs ← parseEntries defaults (config.projectId :: seenIds) entries
      return config :: configs

def parseProjectsJson (depth : ℕ) (raw : Str) (defaults : Defaults) :
    Except ConfigError (List ProjectConfig) := do
  let data ← decodeProjectsJson depth raw
  parseEntries defaults [] data

/-- The settings that the projects are configured by. -/
structure Settings where
  projectsJson : Option Str
  gitlabProjectId : ℤ
  gitlabToken : Str
  defaults : Defaults

/-- `Settings.projects`: a text that is not blank, or else the one legacy project. -/
def Settings.projects (depth : ℕ) (settings : Settings) :
    Except ConfigError (List ProjectConfig) :=
  match settings.projectsJson.filter fun raw ↦ strip raw ≠ [] with
  | some raw => parseProjectsJson depth raw settings.defaults
  | none => do
      let config ← ProjectConfig.make (.int settings.gitlabProjectId) settings.gitlabToken
        (.str settings.defaults.targetBranch) (.str settings.defaults.queueLabel)
        (.str settings.defaults.hotfixLabel) []
      return [config]

/-! ## What the checks let through -/

theorem eq_of_positiveInt {v : Value} {id : {n : ℤ // 0 < n}} (h : positiveInt v = some id) :
    v = .int id.1 := by
  cases v with
  | int n =>
      simp only [positiveInt] at h
      split_ifs at h
      cases h
      rfl
  | _ => cases h

theorem eq_of_nonblank {v : Value} {s : {s : Str // strip s ≠ []}} (h : nonblank v = some s) :
    v = .str s.1 := by
  cases v with
  | str s =>
      simp only [nonblank] at h
      split_ifs at h
      cases h
      rfl
  | _ => cases h

theorem eq_of_exactName {v : Value} {s : {s : Str // ExactName s}} (h : exactName v = some s) :
    v = .str s.1 := by
  cases v with
  | str s =>
      simp only [exactName] at h
      split_ifs at h
      cases h
      rfl
  | _ => cases h

theorem eq_of_exactNames {values : List Value}
    {labels : {labels : List Str // ∀ label ∈ labels, ExactName label}}
    (h : exactNames values = some labels) : values = labels.1.map .str := by
  induction values generalizing labels with
  | nil =>
      cases h
      rfl
  | cons value values ih =>
      simp only [exactNames] at h
      split at h
      · next label rest hlabel hrest =>
          cases h
          rw [eq_of_exactName hlabel, ih hrest]
          rfl
      · cases h

theorem eq_of_validateName {fieldName : String} {v : Value} {s : {s : Str // strip s ≠ []}}
    (h : validateName fieldName v = .ok s) : v = .str s.1 := by
  unfold validateName at h
  split at h
  · next hname =>
      cases h
      exact eq_of_nonblank hname
  · cases h

theorem eq_of_validateAutomationLabels {projectId : Value} {values : List Value}
    {labels : {labels : List Str // (∀ label ∈ labels, ExactName label) ∧ labels.Nodup}}
    (h : validateAutomationLabels projectId values = .ok labels) :
    values = labels.1.map .str := by
  unfold validateAutomationLabels at h
  split at h
  · cases h
  · next hnames =>
      split_ifs at h
      cases h
      exact eq_of_exactNames hnames

/-- A configuration holds the values that it is built from. -/
theorem make_eq_ok {projectId : Value} {token : Str} {targetBranch queueLabel hotfixLabel : Value}
    {labels : List Value} {config : ProjectConfig}
    (h : ProjectConfig.make projectId token targetBranch queueLabel hotfixLabel labels =
      .ok config) :
    projectId = .int config.projectId ∧ token = config.token ∧
      targetBranch = .str config.targetBranch ∧ queueLabel = .str config.queueLabel ∧
      hotfixLabel = .str config.hotfixLabel ∧ labels = config.automationLabels.map .str := by
  unfold ProjectConfig.make at h
  split at h
  · cases h
  · next id hid =>
      split_ifs at h
      obtain ⟨target, htarget, h⟩ := bind_eq_ok.mp h
      obtain ⟨queue, hqueue, h⟩ := bind_eq_ok.mp h
      obtain ⟨hotfix, hhotfix, h⟩ := bind_eq_ok.mp h
      obtain ⟨names, hnames, h⟩ := bind_eq_ok.mp h
      cases h
      exact ⟨eq_of_positiveInt hid, rfl, eq_of_validateName htarget, eq_of_validateName hqueue,
        eq_of_validateName hhotfix, eq_of_validateAutomationLabels hnames⟩

theorem mem_allowedFields {entry : Value} {members : List (Str × Value)}
    (h : validateProjectEntryShape entry = .ok members) :
    entry = .dict members ∧ ∀ m ∈ members, m.1 ∈ allowedFields := by
  cases entry with
  | dict written =>
      simp only [validateProjectEntryShape] at h
      split at h
      · next hnone =>
          cases h
          refine ⟨rfl, fun m hm ↦ ?_⟩
          by_contra hunknown
          have hmem : m.1 ∈ ((members.map Prod.fst).dedup.filter (· ∉ allowedFields)).insertionSort
              (· ≤ ·) := by
            rw [List.mem_insertionSort, List.mem_filter, List.mem_dedup]
            exact ⟨List.mem_map_of_mem hm, by simpa using hunknown⟩
          rw [hnone] at hmem
          cases hmem
      · cases h
  | _ => cases h

theorem get_of_present {name : Str} {members : List (Str × Value)} {v : Value}
    (h : present name members = some v) : get name members = some v := by
  unfold present at h
  split at h
  · cases h
  · cases h
  · next value _ hget =>
      rw [hget, h]

theorem get_of_validateProjectEntryValues {members : List (Str × Value)} {projectId : ℤ}
    {token : Str} (h : validateProjectEntryValues members = .ok (projectId, token)) :
    get (str "project_id") members = some (.int projectId) ∧
      get (str "token") members = some (.str token) := by
  unfold validateProjectEntryValues at h
  split at h
  · next id text hid htext =>
      split at h
      · cases h
      · next number hnumber =>
          split at h
          · cases h
          · next s hs =>
              cases h
              rw [get_of_present hid, get_of_present htext, eq_of_positiveInt hnumber,
                eq_of_nonblank hs]
              exact ⟨rfl, rfl⟩
  · cases h

/-! ## What the parser returns -/

/-- The configuration says what the entry says, and the defaults where it says nothing. -/
structure Describes (defaults : Defaults) (members : List (Str × Value)) (config : ProjectConfig) :
    Prop where
  supported : ∀ m ∈ members, m.1 ∈ allowedFields
  projectId : get (str "project_id") members = some (.int config.projectId)
  token : get (str "token") members = some (.str config.token)
  targetBranch : (get (str "target_branch") members).getD (.str defaults.targetBranch) =
    .str config.targetBranch
  queueLabel : (get (str "queue_label") members).getD (.str defaults.queueLabel) =
    .str config.queueLabel
  hotfixLabel : (get (str "hotfix_label") members).getD (.str defaults.hotfixLabel) =
    .str config.hotfixLabel
  automationLabels : (get (str "automation_labels") members).getD (.list []) =
    .list (config.automationLabels.map .str)

theorem parseProjectEntry_eq_ok {entry : Value} {seenIds : List ℤ} {defaults : Defaults}
    {config : ProjectConfig} (h : parseProjectEntry entry seenIds defaults = .ok config) :
    config.projectId ∉ seenIds ∧
      ∃ members, entry = .dict members ∧ Describes defaults members config := by
  obtain ⟨members, hmembers, h⟩ := bind_eq_ok.mp h
  obtain ⟨⟨projectId, token⟩, hvalues, h⟩ := bind_eq_ok.mp h
  obtain ⟨hentry, hsupported⟩ := mem_allowedFields hmembers
  obtain ⟨hid, htoken⟩ := get_of_validateProjectEntryValues hvalues
  simp only at h
  split_ifs at h with hseen
  obtain ⟨labels, hlabels, h⟩ := bind_eq_ok.mp h
  obtain ⟨hint, rfl, htarget, hqueue, hhotfix, rfl⟩ := make_eq_ok h
  obtain rfl : projectId = config.projectId := Value.int.inj hint
  have hwritten : (get (str "automation_labels") members).getD (.list []) =
      .list (config.automationLabels.map .str) := by
    unfold automationLabelsFromJson at hlabels
    split at hlabels
    · next hlist =>
        cases hlabels
        exact hlist
    · cases hlabels
  exact ⟨hseen, members, hentry,
    ⟨hsupported, hid, htoken, htarget, hqueue, hhotfix, hwritten⟩⟩

/-- One configuration for each entry, in their order, and no id twice. -/
theorem parseEntries_eq_ok {defaults : Defaults} {seenIds : List ℤ} {entries : List Value}
    {configs : List ProjectConfig} (h : parseEntries defaults seenIds entries = .ok configs) :
    List.Forall₂ (fun entry config ↦ ∃ members, entry = .dict members ∧
        Describes defaults members config) entries configs ∧
      (∀ config ∈ configs, config.projectId ∉ seenIds) ∧
      (configs.map ProjectConfig.projectId).Nodup := by
  induction entries generalizing seenIds configs with
  | nil =>
      cases h
      exact ⟨.nil, by simp, List.nodup_nil⟩
  | cons entry entries ih =>
      obtain ⟨config, hconfig, h⟩ := bind_eq_ok.mp h
      obtain ⟨rest, hrest, h⟩ := bind_eq_ok.mp h
      cases h
      obtain ⟨hfresh, hdescribes⟩ := parseProjectEntry_eq_ok hconfig
      obtain ⟨hall, hunseen, hnodup⟩ := ih hrest
      refine ⟨.cons hdescribes hall, ?_, ?_⟩
      · intro other hother
        rcases List.mem_cons.mp hother with rfl | hother
        · exact hfresh
        · exact fun hmem ↦ hunseen other hother (List.mem_cons_of_mem _ hmem)
      · rw [List.map_cons, List.nodup_cons]
        refine ⟨?_, hnodup⟩
        intro hmem
        obtain ⟨other, hother, hsame⟩ := List.mem_map.mp hmem
        exact hunseen other hother (hsame ▸ List.mem_cons_self)

/-! ## What the parser raises -/

theorem validateName_ne_recursionError (fieldName : String) (v : Value) :
    validateName fieldName v ≠ .error .recursionError := by
  unfold validateName
  split <;> simp

theorem validateAutomationLabels_ne_recursionError (projectId : Value) (values : List Value) :
    validateAutomationLabels projectId values ≠ .error .recursionError := by
  unfold validateAutomationLabels
  split
  · simp
  · split_ifs <;> simp

theorem make_ne_recursionError (projectId : Value) (token : Str)
    (targetBranch queueLabel hotfixLabel : Value) (labels : List Value) :
    ProjectConfig.make projectId token targetBranch queueLabel hotfixLabel labels ≠
      .error .recursionError := by
  intro h
  unfold ProjectConfig.make at h
  split at h
  · cases h
  · split_ifs at h
    · cases h
    · rcases bind_eq_error.mp h with h | ⟨target, -, h⟩
      · exact validateName_ne_recursionError _ _ h
      rcases bind_eq_error.mp h with h | ⟨queue, -, h⟩
      · exact validateName_ne_recursionError _ _ h
      rcases bind_eq_error.mp h with h | ⟨hotfix, -, h⟩
      · exact validateName_ne_recursionError _ _ h
      rcases bind_eq_error.mp h with h | ⟨names, -, h⟩
      · exact validateAutomationLabels_ne_recursionError _ _ h
      · cases h

theorem parseProjectEntry_ne_recursionError (entry : Value) (seenIds : List ℤ)
    (defaults : Defaults) : parseProjectEntry entry seenIds defaults ≠ .error .recursionError := by
  intro h
  rcases bind_eq_error.mp h with h | ⟨members, -, h⟩
  · unfold validateProjectEntryShape at h
    split at h
    · split at h <;> cases h
    · cases h
  rcases bind_eq_error.mp h with h | ⟨⟨projectId, token⟩, -, h⟩
  · unfold validateProjectEntryValues at h
    split at h
    · split at h
      · cases h
      · split at h <;> cases h
    · cases h
  simp only at h
  split_ifs at h
  · cases h
  · rcases bind_eq_error.mp h with h | ⟨labels, -, h⟩
    · unfold automationLabelsFromJson at h
      split at h <;> cases h
    · exact make_ne_recursionError _ _ _ _ _ _ h

theorem parseEntries_ne_recursionError (defaults : Defaults) (seenIds : List ℤ)
    (entries : List Value) : parseEntries defaults seenIds entries ≠ .error .recursionError := by
  induction entries generalizing seenIds with
  | nil => exact fun h ↦ by cases h
  | cons entry entries ih =>
      intro h
      rcases bind_eq_error.mp h with h | ⟨config, -, h⟩
      · exact parseProjectEntry_ne_recursionError _ _ _ h
      rcases bind_eq_error.mp h with h | ⟨rest, -, h⟩
      · exact ih _ h
      · cases h

theorem decodeProjectsJson_eq_ok {depth : ℕ} {raw : Str} {entries : List Value}
    (h : decodeProjectsJson depth raw = .ok entries) : loads depth raw = .ok (.list entries) := by
  unfold decodeProjectsJson at h
  split at h
  case h_4 hloads =>
    cases h
    exact hloads
  all_goals cases h

theorem tooDeep_of_decodeProjectsJson {depth : ℕ} {raw : Str}
    (h : decodeProjectsJson depth raw = .error .recursionError) :
    loads depth raw = .error .tooDeep := by
  unfold decodeProjectsJson at h
  split at h
  case h_3 hloads => exact hloads
  all_goals cases h

/-! ## Every text -/

/-- A positive id, a token that is not blank, and distinct exact labels. -/
def WellFormed (config : ProjectConfig) : Prop :=
  0 < config.projectId ∧ strip config.token ≠ [] ∧
    (∀ label ∈ config.automationLabels, ExactName label) ∧ config.automationLabels.Nodup

theorem wellFormed (config : ProjectConfig) : WellFormed config :=
  ⟨config.positive, config.token_nonblank, config.exact, config.distinct⟩

/-- What the parser may do with a text: it returns one configuration for each entry of the
decoded array, in the same order and each saying what its entry says, with distinct ids; or
it raises a `ValueError`; or a `RecursionError` of the decoder, on a text that is longer
than its stack is deep. -/
def ParsedFaithfully (depth : ℕ) (raw : Str) (defaults : Defaults) : Prop :=
  match parseProjectsJson depth raw defaults with
  | .ok configs =>
      ∃ entries, loads depth raw = .ok (.list entries) ∧
        List.Forall₂ (fun entry config ↦ ∃ members, entry = .dict members ∧
          Describes defaults members config) entries configs ∧
        (∀ config ∈ configs, WellFormed config) ∧
        (configs.map ProjectConfig.projectId).Nodup
  | .error (.valueError _) => True
  | .error .recursionError => loads depth raw = .error .tooDeep ∧ depth < raw.length

theorem parsedFaithfully (depth : ℕ) (raw : Str) (defaults : Defaults) :
    ParsedFaithfully depth raw defaults := by
  unfold ParsedFaithfully
  cases hparse : parseProjectsJson depth raw defaults with
  | ok configs =>
      obtain ⟨entries, hdecode, hentries⟩ := bind_eq_ok.mp hparse
      obtain ⟨hall, -, hnodup⟩ := parseEntries_eq_ok hentries
      exact ⟨entries, decodeProjectsJson_eq_ok hdecode, hall, fun config _ ↦ wellFormed config,
        hnodup⟩
  | error e =>
      cases e with
      | valueError message => trivial
      | recursionError =>
          rcases bind_eq_error.mp hparse with hdecode | ⟨entries, -, hentries⟩
          · have hdeep := tooDeep_of_decodeProjectsJson hdecode
            exact ⟨hdeep, lt_of_loads_tooDeep hdeep⟩
          · exact absurd hentries (parseEntries_ne_recursionError _ _ _)

/-- The setting is parsed wherever it is not blank. -/
theorem projects_of_json {depth : ℕ} {settings : Settings} {raw : Str}
    (hraw : settings.projectsJson = some raw) (hblank : strip raw ≠ []) :
    settings.projects depth = parseProjectsJson depth raw settings.defaults := by
  have hfilter : settings.projectsJson.filter (fun raw ↦ strip raw ≠ []) = some raw := by
    rw [hraw, Option.filter_some, if_pos (by simpa using hblank)]
  rw [Settings.projects, hfilter]

/-! ## A member that is written twice -/

def repeatedLabels : Str :=
  str ("[\x7b\"project_id\": 1, \"token\": \"t\", \"automation_labels\": [\"a\"], " ++
    "\"automation_labels\": [\"b\"]\x7d]")

theorem loads_repeatedLabels :
    loads 9 repeatedLabels = .ok (.list [.dict [(str "project_id", .int 1),
      (str "token", .str (str "t")), (str "automation_labels", .list [.str (str "a")]),
      (str "automation_labels", .list [.str (str "b")])]]) := by
  rfl

/-- The labels that are written first are not among those of the configuration. -/
theorem repeated_labels_dropped :
    ¬ ∀ depth raw defaults configs, parseProjectsJson depth raw defaults = .ok configs →
      ∃ entries, loads depth raw = .ok (.list entries) ∧
        List.Forall₂ (fun entry config ↦ ∃ members, entry = .dict members ∧
          ∀ labels, (str "automation_labels", labels) ∈ members →
            labels = .list (config.automationLabels.map .str)) entries configs := by
  intro hclaim
  have hlabels : (parseProjectsJson 9 repeatedLabels {}).toOption.map
      (fun configs ↦ configs.map ProjectConfig.automationLabels) = some [[str "b"]] := by
    decide +kernel
  cases hparse : parseProjectsJson 9 repeatedLabels {} with
  | error e =>
      rw [hparse] at hlabels
      cases hlabels
  | ok configs =>
      obtain ⟨entries, hentries, hall⟩ := hclaim 9 repeatedLabels {} configs hparse
      rw [loads_repeatedLabels] at hentries
      cases hentries
      rw [hparse] at hlabels
      obtain _ | ⟨⟨members, hmembers, hwritten⟩, hrest⟩ := hall
      cases hmembers
      have hfirst := hwritten (.list [.str (str "a")]) (by simp)
      cases hrest
      have hlast := List.cons.inj (Option.some.inj hlabels)
      rw [hlast.1] at hfirst
      have hne : str "a" ≠ str "b" := by decide
      simp [hne] at hfirst

end MergeQueue.Config
