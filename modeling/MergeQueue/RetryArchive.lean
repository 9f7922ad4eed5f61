import MergeQueue.Lib.Checks
import MergeQueue.Lib.Json
import Mathlib.Data.Fintype.Pi
import Mathlib.Data.Fintype.Prod
import Mathlib.Data.List.Sort

/-!
# The archive of undated webhook events

A migration between two schema versions moves the stored webhook events whose
dates cannot be read out of the two live tables, and puts them back afterwards
as they were.  The archive is a manifest for each capture and the captured rows,
bound to it by digests.  The hash and the date parser are parameters.
-/

namespace MergeQueue

namespace RetryArchive

/-! ## Rows and columns -/

/-- `SOURCES`: the two live tables. -/
inductive Source
  | retryQueue
  | dlq
  deriving DecidableEq

instance : Fintype Source where
  elems := {.retryQueue, .dlq}
  complete s := by cases s <;> decide

def bySource {α : Source → Type} (retry : α .retryQueue) (dlq : α .dlq) : (s : Source) → α s
  | .retryQueue => retry
  | .dlq => dlq

@[simp] theorem bySource_eta {α : Source → Type} (f : (s : Source) → α s) :
    bySource (f .retryQueue) (f .dlq) = f := by
  funext s
  cases s <;> rfl

def Source.name : Source → String
  | .retryQueue => "webhook_retry_queue"
  | .dlq => "webhook_dlq"

inductive Column : Source → Type
  | id {s : Source} : Column s
  | projectId {s : Source} : Column s
  | eventType {s : Source} : Column s
  | payload {s : Source} : Column s
  | attemptCount {s : Source} : Column s
  | lastError {s : Source} : Column s
  | maxAttempts : Column .retryQueue
  | nextAttemptAt : Column .retryQueue
  | createdAt : Column .retryQueue
  | originalCreatedAt : Column .dlq
  | movedToDlqAt : Column .dlq
  deriving DecidableEq

def Column.name {s : Source} : Column s → String
  | .id => "id"
  | .projectId => "project_id"
  | .eventType => "event_type"
  | .payload => "payload"
  | .attemptCount => "attempt_count"
  | .lastError => "last_error"
  | .maxAttempts => "max_attempts"
  | .nextAttemptAt => "next_attempt_at"
  | .createdAt => "created_at"
  | .originalCreatedAt => "original_created_at"
  | .movedToDlqAt => "moved_to_dlq_at"

/-- What a cell of the database holds, whatever the type its column declares. -/
inductive Value
  | null
  | int (n : ℤ)
  | text (s : String)
  | blob (bytes : List UInt8)
  deriving DecidableEq

/-- A row with all its columns, as `SELECT *` returns it. -/
abbrev RawRow (s : Source) := Column s → Value

def rowId {s : Source} (row : RawRow s) : ℤ :=
  match row .id with
  | .int n => n
  | _ => 0

inductive Kind
  | integer
  | text
  deriving DecidableEq

def Kind.name : Kind → String
  | .integer => "integer"
  | .text => "text"

structure RawColumn (s : Source) where
  column : Column s
  kind : Kind
  nullable : Bool

/-- The columns of both tables: the two revisions differ in one of them only. -/
structure Schema where
  originalNullable : Bool
  deriving DecidableEq

def Schema.columns (schema : Schema) : (s : Source) → List (RawColumn s)
  | .retryQueue =>
      [⟨.id, .integer, false⟩, ⟨.projectId, .integer, false⟩, ⟨.eventType, .text, false⟩,
        ⟨.payload, .text, false⟩, ⟨.attemptCount, .integer, false⟩,
        ⟨.maxAttempts, .integer, false⟩, ⟨.nextAttemptAt, .text, false⟩,
        ⟨.lastError, .text, true⟩, ⟨.createdAt, .text, true⟩]
  | .dlq =>
      [⟨.id, .integer, false⟩, ⟨.projectId, .integer, false⟩, ⟨.eventType, .text, false⟩,
        ⟨.payload, .text, false⟩, ⟨.attemptCount, .integer, false⟩, ⟨.lastError, .text, false⟩,
        ⟨.originalCreatedAt, .text, schema.originalNullable⟩, ⟨.movedToDlqAt, .text, true⟩]

/-- `RAW_COLUMNS` -/
def rawColumns (s : Source) : List (RawColumn s) := Schema.columns ⟨true⟩ s

/-- `DATES` -/
def dates : (s : Source) → List (Column s)
  | .retryQueue => [.nextAttemptAt, .createdAt]
  | .dlq => [.originalCreatedAt, .movedToDlqAt]

inductive Revision
  | head
  | previous
  deriving DecidableEq

def Revision.name : Revision → String
  | .head => "a7b8c9d0e1f2"
  | .previous => "f6a7b8c9d0e1"

/-- `_schema` -/
def schemaOf : Revision → Schema
  | .head => ⟨true⟩
  | .previous => ⟨false⟩

def Schema.json (schema : Schema) : Json :=
  .obj [(Source.retryQueue.name, columnsJson (schema.columns .retryQueue)),
    (Source.dlq.name, columnsJson (schema.columns .dlq))]
where
  columnsJson {s : Source} (columns : List (RawColumn s)) : Json :=
    .arr (columns.map fun c ↦ .arr [.str c.column.name, .str c.kind.name, .bool c.nullable])

def Schema.text (schema : Schema) : String := schema.json.render

def owner : String := "gitlab_queue.retry_rollback"

def controlId : String := "__contract_v1__"

/-! ## Digests -/

/-- A row of the manifest table: what one capture archived. -/
structure Manifest where
  archiveId : String
  owner : String
  formatVersion : ℤ
  sourceRevision : String
  targetRevision : String
  sourceSchema : String
  count : Source → ℤ
  digest : Source → String
  highWater : Source → ℤ
  deriving DecidableEq

structure ArchivedRow (s : Source) where
  archiveId : String
  row : RawRow s
  rowDigest : String

/-- The text of a cell.  Bytes have none: every row that is digested was validated before. -/
def Value.json : Value → Json
  | .null => .null
  | .int n => .num n
  | .text s => .str s
  | .blob _ => .null

def rowJson {s : Source} (row : RawRow s) : Json :=
  .arr ((rawColumns s).map fun c ↦ (row c.column).json)

def sortById {s : Source} (rows : List (RawRow s)) : List (RawRow s) :=
  rows.mergeSort fun a b ↦ decide (rowId a ≤ rowId b)

section Digest

variable (sha256 : String → String)

/-- `_digest` -/
def digest (s : Source) (rows : List (RawRow s)) : String :=
  sha256 (Json.arr ((sortById rows).map rowJson)).render

/-- The manifest without its digests, its keys in order. -/
def Manifest.context (manifest : Manifest) : Json :=
  .obj [("archive_id", .str manifest.archiveId), ("dlq_count", .num (manifest.count .dlq)),
    ("dlq_high_water", .num (manifest.highWater .dlq)),
    ("format_version", .num manifest.formatVersion), ("owner", .str manifest.owner),
    ("retry_count", .num (manifest.count .retryQueue)),
    ("retry_high_water", .num (manifest.highWater .retryQueue)),
    ("source_revision", .str manifest.sourceRevision),
    ("source_schema", .str manifest.sourceSchema),
    ("target_revision", .str manifest.targetRevision)]

/-- `_batch_digest` -/
def batchDigest (manifest : Manifest) (s : Source) (rows : List (RawRow s)) : String :=
  "bound-sha256-v1:" ++
    sha256 (Json.arr [manifest.context, .str s.name, .str (digest sha256 s rows)]).render

/-- `_control_manifest` -/
def controlManifest : Manifest where
  archiveId := controlId
  owner := owner
  formatVersion := 1
  sourceRevision := Revision.head.name
  targetRevision := Revision.previous.name
  sourceSchema := (schemaOf .head).text
  count _ := 0
  digest s := digest sha256 s []
  highWater _ := 0

end Digest

/-! ## The tables -/

def RawRow.withId {s : Source} (row : RawRow s) (id : ℤ) : RawRow s :=
  Function.update row .id (.int id)

@[simp] theorem RawRow.withId_id {s : Source} (row : RawRow s) (id : ℤ) :
    row.withId id .id = .int id := Function.update_self ..

@[simp] theorem rowId_withId {s : Source} (row : RawRow s) (id : ℤ) :
    rowId (row.withId id) = id := by
  rw [rowId, RawRow.withId_id]

/-- A live table.  Its ids are unique and AUTOINCREMENT: `sqlite_sequence` keeps the largest one
that was ever given out. -/
structure LiveTable (s : Source) where
  rows : List (RawRow s)
  seq : Option ℕ
  integral : ∀ row ∈ rows, row .id = .int (rowId row)
  unique : (rows.map rowId).Nodup
  issued : ∀ row ∈ rows, rowId row ≤ seq.getD 0

namespace LiveTable

variable {s : Source}

def ids (t : LiveTable s) : List ℤ := t.rows.map rowId

/-- `_high_water` -/
def highWater (t : LiveTable s) : ℤ := max (t.ids.max?.getD 0) (t.seq.getD 0)

def one (t : LiveTable s) (id : ℤ) : Except String (RawRow s) :=
  match t.rows.find? (rowId · = id) with
  | some row => .ok row
  | none => .error "No row was found when one was required"

def delete (t : LiveTable s) (id : ℤ) : LiveTable s where
  rows := t.rows.filter fun row ↦ rowId row ≠ id
  seq := t.seq
  integral row h := t.integral row (List.mem_of_mem_filter h)
  unique := t.unique.sublist ((List.filter_sublist).map rowId)
  issued row h := t.issued row (List.mem_of_mem_filter h)

/-- An INSERT that names the id. -/
def insert (t : LiveTable s) (columns : List (RawColumn s)) (row : RawRow s) :
    Except String (LiveTable s) :=
  if h : row .id = .int (rowId row) ∧ rowId row ∉ t.ids then
    if ∃ c ∈ columns, c.nullable = false ∧ row c.column = .null then
      .error "NOT NULL constraint failed"
    else
      .ok {
        rows := t.rows ++ [row]
        seq := some (max (t.seq.getD 0) (rowId row).toNat)
        integral := by
          intro r hr
          rcases List.mem_append.mp hr with hr | hr
          · exact t.integral r hr
          · rw [List.mem_singleton.mp hr, h.1]
        unique := by
          rw [List.map_append, List.nodup_append]
          refine ⟨t.unique, List.nodup_singleton _, ?_⟩
          rintro a ha b hb rfl
          exact h.2 (by rwa [List.mem_singleton.mp hb] at ha)
        issued := by
          intro r hr
          rcases List.mem_append.mp hr with hr | hr
          · have := t.issued r hr
            simp only [Option.getD_some]
            omega
          · rw [List.mem_singleton.mp hr]
            simp only [Option.getD_some]
            omega }
  else .error "UNIQUE constraint failed"

/-- An UPDATE of all columns but the id. -/
def update (t : LiveTable s) (columns : List (RawColumn s)) (id : ℤ) (row : RawRow s) :
    Except String (LiveTable s) :=
  if ∃ c ∈ columns, c.column ≠ .id ∧ c.nullable = false ∧ row c.column = .null then
    .error "NOT NULL constraint failed"
  else
    have hid : ∀ r : RawRow s, rowId (if rowId r = id then row.withId id else r) = rowId r := by
      intro r
      split_ifs with hr
      · rw [rowId_withId, hr]
      · rfl
    .ok {
      rows := t.rows.map fun r ↦ if rowId r = id then row.withId id else r
      seq := t.seq
      integral := by
        intro r hr
        obtain ⟨r₀, hr₀, rfl⟩ := List.mem_map.mp hr
        rw [hid r₀]
        split_ifs with h
        · rw [h]
          exact row.withId_id id
        · exact t.integral r₀ hr₀
      unique := by
        rw [List.map_map]
        simpa only [Function.comp_def, hid] using t.unique
      issued := by
        intro r hr
        obtain ⟨r₀, hr₀, rfl⟩ := List.mem_map.mp hr
        rw [hid r₀]
        exact t.issued r₀ hr₀ }

/-- `_advance` -/
def advance (t : LiveTable s) (highWater : ℤ) : LiveTable s where
  rows := t.rows
  seq := some (max (t.seq.getD 0) (max t.highWater highWater).toNat)
  integral := t.integral
  unique := t.unique
  issued row h := by
    have := t.issued row h
    simp only [Option.getD_some]
    omega

end LiveTable

structure ArchiveTables where
  manifests : List Manifest
  archived : (s : Source) → List (ArchivedRow s)

/-- What the migrations work on.  An archive table that does not exist is `none`. -/
structure Storage where
  live : (s : Source) → LiveTable s
  originalNullable : Bool
  manifests : Option (List Manifest)
  archived : (s : Source) → Option (List (ArchivedRow s))

def Storage.withTables (db : Storage) (tables : ArchiveTables) : Storage :=
  { db with
    manifests := some tables.manifests
    archived := fun s ↦ some (tables.archived s) }

/-- One archived batch as it was read. -/
structure Batch where
  manifest : Manifest
  rows : (s : Source) → List (ArchivedRow s)

/-- `_check_sources`, of which only the nullable column depends on the revision. -/
def checkSources (revision : Revision) (db : Storage) : Except String Schema :=
  match revision with
  | .head => do
      ensure (db.originalNullable = true)
        "Rollback archive refuses unexpected type/nullability in webhook_dlq"
      .ok (schemaOf .head)
  | .previous => .ok { schemaOf .previous with originalNullable := db.originalNullable }

def Value.fits (kind : Kind) : Value → Bool
  | .int _ => kind = .integer
  | .text _ => kind = .text
  | _ => false

/-- `_validate_rows`; whether a date can be read makes no difference to it. -/
def validateRows {s : Source} (columns : List (RawColumn s)) (rows : List (RawRow s)) :
    Except String Unit :=
  ensure (∀ row ∈ rows, ∀ c ∈ columns,
      row c.column = .null ∧ c.nullable = true ∨ (row c.column).fits c.kind = true)
    "Rollback archive contains incompatible raw values"

section Archive

variable (sha256 : String → String)

/-- `_archive_tables` -/
def archiveTables (db : Storage) : Except String (Option ArchiveTables) :=
  match db.manifests, db.archived .retryQueue, db.archived .dlq with
  | none, none, none => .ok none
  | some manifests, some retry, some dlq => do
      ensure (manifests.find? (·.archiveId = controlId) = some (controlManifest sha256))
        "Rollback archive has no valid durable owner/format marker"
      .ok (some { manifests := manifests, archived := bySource retry dlq })
  | _, _, _ => .error "Rollback archive is incomplete; no data was adopted"

/-- `_archive_tables` with `create` set. -/
def createArchiveTables (db : Storage) : Except String ArchiveTables := do
  match ← archiveTables sha256 db with
  | some tables => .ok tables
  | none => .ok { manifests := [controlManifest sha256], archived := fun _ ↦ [] }

def knownSchemas (revision : String) : List Schema :=
  if revision = Revision.head.name then [schemaOf .head]
  else if revision = Revision.previous.name then [schemaOf .previous, schemaOf .head]
  else []

/-- `json.loads` of a schema text that was found among the known ones. -/
def loadSchema (manifest : Manifest) : Option Schema :=
  (knownSchemas manifest.sourceRevision).find? (·.text = manifest.sourceSchema)

def ArchiveTables.batchRows (tables : ArchiveTables) (manifest : Manifest) (s : Source) :
    List (ArchivedRow s) :=
  (tables.archived s).filter (·.archiveId = manifest.archiveId)

/-- One round of the loop of `_read_archive` over the two tables of a batch. -/
def checkBatch (manifest : Manifest) (schema : Schema) (s : Source) (rows : List (ArchivedRow s)) :
    Except String Unit := do
  validateRows (schema.columns s) (rows.map (·.row))
  ensure ((rows.length : ℤ) = manifest.count s ∧
      batchDigest sha256 manifest s (rows.map (·.row)) = manifest.digest s ∧
      (∀ row ∈ rows, digest sha256 s [row.row] = row.rowDigest) ∧
      (rows.map fun row ↦ rowId row.row).max?.getD 0 ≤ manifest.highWater s)
    "Rollback archive integrity verification failed"

def readBatch (tables : ArchiveTables) (manifest : Manifest) : Except String Batch := do
  ensure (manifest.owner = owner ∧ manifest.formatVersion = 1 ∧
      manifest.targetRevision = Revision.previous.name)
    "Rollback archive ownership/version/source schema is unsupported"
  match loadSchema manifest with
  | none => .error "Rollback archive ownership/version/source schema is unsupported"
  | some schema =>
      checkBatch sha256 manifest schema .retryQueue (tables.batchRows manifest .retryQueue)
      checkBatch sha256 manifest schema .dlq (tables.batchRows manifest .dlq)
      .ok { manifest := manifest, rows := tables.batchRows manifest }

def archivedIds (batches : List Batch) (s : Source) : List ℤ :=
  batches.flatMap fun batch ↦ (batch.rows s).map fun row ↦ rowId row.row

def checkIdentities (live : (s : Source) → LiveTable s) (batches : List Batch) (s : Source) :
    Except String Unit := do
  ensure (archivedIds batches s).Nodup "Rollback archive contains repeated source identities"
  ensure (∀ id ∈ archivedIds batches s, id ∉ (live s).ids)
    ("Rollback archive restore identity collision in " ++ s.name)

/-- `_read_archive` -/
def readArchive (live : (s : Source) → LiveTable s) :
    Option ArchiveTables → Except String (List Batch)
  | none => .ok []
  | some tables => do
      let manifests := tables.manifests.filter (·.archiveId ≠ controlId)
      ensure (∀ s, ∀ row ∈ tables.archived s, row.archiveId ∈ manifests.map (·.archiveId))
        "Rollback archive has orphan rows"
      let batches ← manifests.mapM (readBatch sha256 tables)
      checkIdentities live batches .retryQueue
      checkIdentities live batches .dlq
      .ok batches

/-! ## Capture -/

variable (fromisoformat : String → Bool)

/-- `_unknown` -/
def unknown : Value → Bool
  | .text s => s = "CURRENT_TIMESTAMP" || !fromisoformat s
  | _ => true

/-- A row one of whose dates cannot be read. -/
def undated {s : Source} (row : RawRow s) : Bool :=
  (dates s).any fun c ↦ unknown fromisoformat (row c)

/-- The rows that `capture` takes, in the order of their ids. -/
def captured (db : Storage) (s : Source) : List (RawRow s) :=
  (sortById (db.live s).rows).filter (undated fromisoformat)

/-- The manifest of a capture, with its digests bound to the rest of it. -/
def captureManifest (archiveId : String) (revision : Revision) (schema : Schema) (db : Storage) :
    Manifest :=
  let manifest : Manifest :=
    { archiveId := archiveId
      owner := owner
      formatVersion := 1
      sourceRevision := revision.name
      targetRevision := Revision.previous.name
      sourceSchema := schema.text
      count := fun s ↦ (captured fromisoformat db s).length
      digest := fun s ↦ digest sha256 s (captured fromisoformat db s)
      highWater := fun s ↦ (db.live s).highWater }
  { manifest with
    digest := fun s ↦ batchDigest sha256 manifest s (captured fromisoformat db s) }

/-- The copies that a capture writes. -/
def copies (archiveId : String) {s : Source} (rows : List (RawRow s)) : List (ArchivedRow s) :=
  rows.map fun row ↦ { archiveId, row, rowDigest := digest sha256 s [row] }

/-- The rows of an archive that have just been written are read again and compared. -/
def checkCopies (archiveId : String) {s : Source} (rows : List (RawRow s))
    (archived : List (ArchivedRow s)) : Except String Unit :=
  let copied := archived.filter (·.archiveId = archiveId)
  ensure (rows = [] ∨ copied.length = rows.length ∧
      digest sha256 s (copied.map (·.row)) = digest sha256 s rows)
    "Rollback archive copy verification failed"

def deleteCaptured {s : Source} : LiveTable s → List (RawRow s) → Except String (LiveTable s)
  | t, [] => .ok t
  | t, row :: rows => do
      ensure (t.ids.count (rowId row) = 1) "Rollback archive source ownership changed"
      deleteCaptured (t.delete (rowId row)) rows

def forSources {α : Source → Type} (f : (s : Source) → Except String (α s)) :
    Except String ((s : Source) → α s) := do
  let retry ← f .retryQueue
  let dlq ← f .dlq
  .ok (bySource retry dlq)

/-- `capture`, with the archive id that `uuid4` gives. -/
def capture (archiveId : String) (revision : Revision) (db : Storage) : Except String Storage := do
  let schema ← checkSources revision db
  let tables ← archiveTables sha256 db
  let _ ← readArchive sha256 db.live tables
  let _ ← forSources fun s ↦ validateRows (schema.columns s) (db.live s).rows
  let rows := captured fromisoformat db
  if rows .retryQueue = [] ∧ rows .dlq = [] then
    .ok db
  else
    let tables ← createArchiveTables sha256 db
    let manifest := captureManifest sha256 fromisoformat archiveId revision schema db
    let archived := fun s ↦ tables.archived s ++ copies sha256 archiveId (rows s)
    let _ ← forSources fun s ↦ checkCopies sha256 archiveId (rows s) (archived s)
    ensure (archiveId ∉ tables.manifests.map (·.archiveId)) "UNIQUE constraint failed"
    let live ← forSources fun s ↦ do
      let t ← deleteCaptured (db.live s) (rows s)
      .ok (t.advance (manifest.highWater s))
    .ok ({ db with live := live }.withTables
      { manifests := tables.manifests ++ [manifest], archived := archived })

/-! ## Restore -/

/-- Puts the rows of one table of a batch back, and reads them again. -/
def restoreSource (manifest : Manifest) (s : Source) (rows : List (RawRow s)) (t : LiveTable s) :
    Except String (LiveTable s) :=
  if rows = [] then .ok (t.advance (manifest.highWater s))
  else do
    let t ← rows.foldlM (fun t row ↦ t.insert (rawColumns s) row) t
    let restored ← rows.mapM fun row ↦ t.one (rowId row)
    ensure (batchDigest sha256 manifest s restored = manifest.digest s)
      "Rollback archive restoration verification failed"
    .ok (t.advance (manifest.highWater s))

def restoreBatch (live : (s : Source) → LiveTable s) (batch : Batch) :
    Except String ((s : Source) → LiveTable s) :=
  forSources fun s ↦ restoreSource sha256 batch.manifest s ((batch.rows s).map (·.row)) (live s)

/-- `restore` -/
def restore (db : Storage) : Except String Storage := do
  let _ ← checkSources .head db
  let tables ← archiveTables sha256 db
  let batches ← readArchive sha256 db.live tables
  match tables, batches with
  | some tables, batch :: batches => do
      let acknowledged := (batch :: batches).map fun batch ↦ batch.manifest.archiveId
      let live ← (batch :: batches).foldlM (restoreBatch sha256) db.live
      .ok ({ db with live := live }.withTables
        { manifests := tables.manifests.filter (·.archiveId ∉ acknowledged)
          archived := fun s ↦ (tables.archived s).filter (·.archiveId ∉ acknowledged) })
  | _, _ => .ok db

/-! ## Runs -/

/-- What happens to the database: the service writes to a live table, which gives out an id on an
insert, or a migration captures, changes the nullable column or restores. -/
inductive Event
  | insert (s : Source) (row : RawRow s)
  | update (s : Source) (id : ℤ) (row : RawRow s)
  | delete (s : Source) (id : ℤ)
  | alter (nullable : Bool)
  | capture (archiveId : String) (revision : Revision)
  | restore

def Storage.setLive (db : Storage) (s : Source) (t : LiveTable s) : Storage :=
  { db with live := Function.update db.live s t }

@[simp] theorem Storage.setLive_live_self (db : Storage) {s : Source} (t : LiveTable s) :
    (db.setLive s t).live s = t := Function.update_self ..

theorem Storage.setLive_live_of_ne (db : Storage) {s s' : Source} (t : LiveTable s)
    (hs : s' ≠ s) : (db.setLive s t).live s' = db.live s' := Function.update_of_ne hs ..

/-- The id that the next insert gives out. -/
def LiveTable.nextId {s : Source} (t : LiveTable s) : ℤ := t.highWater + 1

/-- The database after a transaction that may raise. -/
def Storage.commit (db : Storage) : Except String Storage → Storage
  | .ok db' => db'
  | .error _ => db

def Storage.columns (db : Storage) (s : Source) : List (RawColumn s) :=
  Schema.columns ⟨db.originalNullable⟩ s

def step (db : Storage) : Event → Storage
  | .insert s row => db.commit do
      let t ← (db.live s).insert (db.columns s) (row.withId (db.live s).nextId)
      .ok (db.setLive s t)
  | .update s id row => db.commit do
      let t ← (db.live s).update (db.columns s) id row
      .ok (db.setLive s t)
  | .delete s id => db.setLive s ((db.live s).delete id)
  | .alter nullable => db.commit do
      ensure (nullable = true ∨ ∀ row ∈ (db.live .dlq).rows, row .originalCreatedAt ≠ .null)
        "NOT NULL constraint failed"
      .ok { db with originalNullable := nullable }
  | .capture archiveId revision => db.commit (capture sha256 fromisoformat archiveId revision db)
  | .restore => db.commit (restore sha256 db)

def run (db : Storage) (events : List Event) : Storage :=
  events.foldl (step sha256 fromisoformat) db

/-- The id that an event makes a live table give out. -/
def handsOut (s : Source) (db : Storage) : Event → List ℤ
  | .insert s' row =>
      match (db.live s').insert (db.columns s') (row.withId (db.live s').nextId) with
      | .ok _ => if s' = s then [(db.live s').nextId] else []
      | .error _ => []
  | _ => []

def handedOut (s : Source) (db : Storage) : List Event → List ℤ
  | [] => []
  | event :: events =>
      handsOut s db event ++ handedOut s (step sha256 fromisoformat db event) events

end Archive

end RetryArchive

end MergeQueue
