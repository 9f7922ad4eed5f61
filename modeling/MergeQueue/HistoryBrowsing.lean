import Mathlib.Data.List.Infix
import MergeQueue.Lib.Counts
import MergeQueue.Lib.Pages
import MergeQueue.Statistics

/-!
# Browsing the history

The repository filters, orders and cuts the table into pages; it never returns more than a
hundred rows at once.  The history endpoint searches the page that it was given, and the
endpoint of the failure reasons counts what is on the first page.
-/

namespace MergeQueue

def HistoryStatus.value : HistoryStatus → String
  | .merged => "merged"
  | .failed => "failed"
  | .removed => "removed"
  | .conflict => "conflict"
  | .timeout => "timeout"
  | .mergeFailed => "merge_failed"

structure PaginatedResult (α : Type) where
  items : List α
  total : ℕ
  page : ℕ
  perPage : ℕ
  totalPages : ℕ
  deriving DecidableEq, Repr

/-- What the rows of a listing have to satisfy.  Dates are the numbers of their days. -/
structure HistoryFilters where
  statusFilter : Option String := none
  dateFrom : Option ℤ := none
  dateTo : Option ℤ := none
  authorUsername : Option String := none
  deriving DecidableEq, Repr

/-- An argument that is a text, where nothing and the empty text ask for nothing. -/
def truthy (text : Option String) : Option String := text.filter (· ≠ "")

namespace HistoryRepository

def selects (filters : HistoryFilters) (projectId : ℕ) (r : HistoryRow) : Bool :=
  r.inProject (some projectId) &&
    (truthy filters.statusFilter).all (fun status ↦ r.values.status.value = status) &&
    filters.dateFrom.all (fun day ↦ daysUs day ≤ r.values.finishedAt) &&
    filters.dateTo.all (fun day ↦ r.values.finishedAt ≤ daysUs (day + 1) - 1) &&
    (truthy filters.authorUsername).all fun author ↦ r.values.authorUsername = author

/-- The rows of a listing, the last one that finished first. -/
def listing (filters : HistoryFilters) (projectId : ℕ) (db : Database) : List HistoryRow :=
  (db.history.rows.filter (selects filters projectId)).insertionSort QueueManager.historyOrder

def getHistory (page perPage : ℕ) (filters : HistoryFilters) (projectId : ℕ) (db : Database) :
    PaginatedResult HistoryRow :=
  let perPage := min perPage 100
  let offset := (page - 1) * perPage
  let total := db.history.rows.countP (selects filters projectId)
  { items := ((listing filters projectId db).drop offset).take perPage
    total
    page
    perPage
    totalPages := if 0 < total then (total + perPage - 1) / perPage else 1 }

end HistoryRepository

/-! ## The endpoints -/

/-- A merge request of the past as the dashboard gets it. -/
structure HistoryItem where
  projectId : ℕ
  mrIid : ℕ
  title : String
  authorName : String
  authorUsername : String
  authorAvatar : Option String
  targetBranch : String
  status : HistoryStatus
  isHotfix : Bool
  labels : List String
  queuedAt : ℤ
  startedAt : Option ℤ
  finishedAt : ℤ
  pipeline : Option (ℕ × Option PipelineStatus)
  failureReason : Option String
  deriving DecidableEq, Repr

def historyItem (r : HistoryRow) : HistoryItem where
  projectId := r.values.projectId
  mrIid := r.values.iid
  title := r.values.title
  authorName := r.values.authorName
  authorUsername := r.values.authorUsername
  authorAvatar := r.values.authorAvatar
  targetBranch := r.values.targetBranch
  status := r.values.status
  isHotfix := r.values.isHotfix
  labels := r.values.labels.getD []
  queuedAt := r.values.queuedAt
  startedAt := r.values.startedAt
  finishedAt := r.values.finishedAt
  pipeline := r.values.pipelineId.map fun id ↦ (id, r.values.pipelineStatus)
  failureReason := r.values.failureReason

/-- `needle in text`. -/
def contains (text needle : String) : Bool := decide (needle.toList <:+: text.toList)

/-- The parameters of a request for the history, within the bounds of the endpoint. -/
structure HistoryQuery where
  perPage : ℕ := 20
  status : Option String := none
  dateFrom : Option ℤ := none
  dateTo : Option ℤ := none
  search : Option String := none
  one_le_perPage : 1 ≤ perPage := by decide
  perPage_le : perPage ≤ 100 := by decide

def HistoryQuery.filters (query : HistoryQuery) : HistoryFilters where
  statusFilter := query.status
  dateFrom := query.dateFrom
  dateTo := query.dateTo

section Routes

variable (lower : String → String)

/-- The item is what is searched for; `lower` is `str.lower`. -/
def searchMatches (search : String) (item : HistoryItem) : Bool :=
  let searchLower := lower search
  contains (lower item.title) searchLower || contains (lower item.authorUsername) searchLower ||
    contains (lower item.authorName) searchLower || decide (searchLower = toString item.mrIid)

/-- The search, where one is asked for, finds the item. -/
def HistoryQuery.finds (query : HistoryQuery) (item : HistoryItem) : Bool :=
  (truthy query.search).all fun search ↦ searchMatches lower search item

def getHistory (query : HistoryQuery) (page projectId : ℕ) (db : Database) :
    PaginatedResult HistoryItem :=
  let result := HistoryRepository.getHistory page query.perPage query.filters projectId db
  { result with items := (result.items.map historyItem).filter (query.finds lower) }

end Routes

structure FailureReasons where
  reasons : List (String × ℕ)
  totalFailures : ℕ
  periodDays : ℕ
  deriving DecidableEq, Repr

/-- `item.failure_reason or item.status`. -/
def failureReason (r : HistoryRow) : String :=
  (truthy r.values.failureReason).getD r.values.status.value

/-- The day of an instant. -/
def dayOf (instant : ℤ) : ℤ := instant / 86400000000

def reasonCounts (items : List HistoryRow) : List (String × ℕ) :=
  items.foldl (fun counts item ↦
    if item.values.status ∈ [.failed, .conflict, .timeout] then
      Counts.setCount counts (failureReason item) (Counts.countOf counts (failureReason item) + 1)
    else counts) []

def getFailureReasons (days projectId : ℕ) (now : ℤ) (db : Database) : FailureReasons :=
  let result := HistoryRepository.getHistory 1 1000
    { dateFrom := some (dayOf (now - daysUs days)), dateTo := some (dayOf now) } projectId db
  let counts := reasonCounts result.items
  { reasons := counts.insertionSort fun x y ↦ y.2 ≤ x.2
    totalFailures := (counts.map Prod.snd).sum
    periodDays := days }

/-! ## The order of the rows -/

namespace QueueManager

instance : Std.Total historyOrder := ⟨fun a b ↦ by
  unfold historyOrder
  omega⟩

instance : IsTrans HistoryRow historyOrder := ⟨fun a b c hab hbc ↦ by
  unfold historyOrder at hab hbc ⊢
  omega⟩

end QueueManager

namespace HistoryRepository

variable {filters : HistoryFilters} {projectId : ℕ} {db : Database}

theorem perm_listing :
    (listing filters projectId db).Perm (db.history.rows.filter (selects filters projectId)) :=
  List.perm_insertionSort _ _

theorem pairwise_listing : (listing filters projectId db).Pairwise QueueManager.historyOrder :=
  List.pairwise_insertionSort _ _

theorem length_listing :
    (listing filters projectId db).length = db.history.rows.countP (selects filters projectId) := by
  rw [perm_listing.length_eq, List.countP_eq_length_filter]

theorem mem_listing {r : HistoryRow} :
    r ∈ listing filters projectId db ↔
      r ∈ db.history.rows ∧ selects filters projectId r = true := by
  rw [perm_listing.mem_iff, List.mem_filter]

/-- A page of the repository is a page of the listing, of at most a hundred rows. -/
theorem items_getHistory (page perPage : ℕ) :
    (getHistory page perPage filters projectId db).items =
      Pages.page (listing filters projectId db) (min perPage 100) page :=
  rfl

theorem totalPages_getHistory (page perPage : ℕ) :
    (getHistory page perPage filters projectId db).totalPages =
      Pages.count (listing filters projectId db).length (min perPage 100) := by
  rw [length_listing]
  rfl

end HistoryRepository

/-! ## Reading all pages -/

/-- The row satisfies the filters, and the search finds it. -/
def HistoryQuery.wants (lower : String → String) (query : HistoryQuery) (projectId : ℕ)
    (r : HistoryRow) : Bool :=
  HistoryRepository.selects query.filters projectId r && query.finds lower (historyItem r)

/-- The pages together are the rows that are wanted, in order and each of them once, the totals
count these rows, and all pages but the last are full. -/
structure BrowsesExactly (lower : String → String) (query : HistoryQuery) (projectId : ℕ)
    (db : Database) : Prop where
  rows : ∃ rows : List HistoryRow,
    rows.Perm (db.history.rows.filter (query.wants lower projectId)) ∧
      rows.Pairwise QueueManager.historyOrder ∧
      (List.range' 1 (getHistory lower query 1 projectId db).totalPages).flatMap
        (fun page ↦ (getHistory lower query page projectId db).items) = rows.map historyItem
  total : ∀ page, (getHistory lower query page projectId db).total =
    db.history.rows.countP (query.wants lower projectId)
  full : ∀ page, 1 ≤ page → page < (getHistory lower query 1 projectId db).totalPages →
    (getHistory lower query page projectId db).items.length = query.perPage

section Browsing

variable {lower : String → String} {query : HistoryQuery} {projectId : ℕ} {db : Database}

theorem getHistory_items (page : ℕ) :
    (getHistory lower query page projectId db).items =
      ((Pages.page (HistoryRepository.listing query.filters projectId db) query.perPage page).filter
        fun r ↦ query.finds lower (historyItem r)).map historyItem := by
  have hpage : min query.perPage 100 = query.perPage := min_eq_left query.perPage_le
  rw [getHistory, HistoryRepository.items_getHistory, hpage, List.filter_map]
  rfl

theorem getHistory_totalPages (page : ℕ) :
    (getHistory lower query page projectId db).totalPages =
      Pages.count (HistoryRepository.listing query.filters projectId db).length query.perPage := by
  have hpage : min query.perPage 100 = query.perPage := min_eq_left query.perPage_le
  rw [getHistory, HistoryRepository.totalPages_getHistory, hpage]

/-- The pages never lose a row, whatever is searched for. -/
theorem pages_getHistory :
    (List.range' 1 (getHistory lower query 1 projectId db).totalPages).flatMap
        (fun page ↦ (getHistory lower query page projectId db).items) =
      ((HistoryRepository.listing query.filters projectId db).filter
        fun r ↦ query.finds lower (historyItem r)).map historyItem := by
  have hpages := @Pages.filter_flatMap_page _
    (HistoryRepository.listing query.filters projectId db) query.perPage
    (fun r ↦ query.finds lower (historyItem r)) query.one_le_perPage
  rw [getHistory_totalPages, ← hpages, List.map_flatMap]
  exact List.flatMap_congr fun page _ ↦ getHistory_items page

theorem countP_wants_eq_iff :
    db.history.rows.countP (HistoryRepository.selects query.filters projectId) =
        db.history.rows.countP (query.wants lower projectId) ↔
      ∀ r ∈ db.history.rows, HistoryRepository.selects query.filters projectId r = true →
        query.finds lower (historyItem r) = true := by
  have hwants : db.history.rows.countP (query.wants lower projectId) =
      (db.history.rows.filter (HistoryRepository.selects query.filters projectId)).countP
        fun r ↦ query.finds lower (historyItem r) := by
    rw [List.countP_filter]
    exact List.countP_congr fun r _ ↦ by simp [HistoryQuery.wants, and_comm]
  rw [hwants, List.countP_eq_length_filter, eq_comm, List.countP_eq_length]
  simp only [List.mem_filter, and_imp]

end Browsing

/-- Browsing is exact where nothing is searched for among the rows that the filters let
through, or all of them are found. -/
theorem history_browsing_exact_iff (lower : String → String) (query : HistoryQuery)
    (projectId : ℕ) (db : Database) :
    BrowsesExactly lower query projectId db ↔
      ∀ r ∈ db.history.rows, HistoryRepository.selects query.filters projectId r = true →
        query.finds lower (historyItem r) = true := by
  constructor
  · intro h
    exact countP_wants_eq_iff.mp (h.total 1)
  · intro hfinds
    refine ⟨⟨_, ?_, ?_, pages_getHistory⟩, fun page ↦ countP_wants_eq_iff.mpr hfinds,
      fun page hfirst hlast ↦ ?_⟩
    · refine (HistoryRepository.perm_listing.filter _).trans (List.Perm.of_eq ?_)
      rw [List.filter_filter]
      exact List.filter_congr fun r _ ↦ Bool.and_comm _ _
    · exact HistoryRepository.pairwise_listing.filter _
    · rw [getHistory_totalPages] at hlast
      have hall : (Pages.page (HistoryRepository.listing query.filters projectId db)
          query.perPage page).filter (fun r ↦ query.finds lower (historyItem r)) =
          Pages.page (HistoryRepository.listing query.filters projectId db) query.perPage page := by
        refine List.filter_eq_self.mpr fun r hr ↦ ?_
        have hmem := HistoryRepository.mem_listing.mp
          (List.mem_of_mem_drop (List.mem_of_mem_take hr))
        exact hfinds r hmem.1 hmem.2
      rw [getHistory_items, hall, List.length_map]
      exact Pages.length_page_of_lt_count query.one_le_perPage hfirst hlast

/-! ## A search that finds one of two rows -/

/-- A merge request that failed at the given instant. -/
def failedRow (iid : ℕ) (finishedAt : ℤ) : HistoryRow where
  id := iid
  values :=
    { projectId := 1
      iid
      title := "feature"
      authorName := "ada"
      authorUsername := "ada"
      authorAvatar := none
      status := .failed
      isHotfix := false
      labels := none
      targetBranch := "main"
      queuedAt := 0
      startedAt := none
      finishedAt
      waitTimeSeconds := 0
      processingTimeSeconds := none
      failureReason := none
      pipelineId := none
      pipelineStatus := none
      pipelineDurationSeconds := none
      pipelineFailedJobs := none }

/-- So many merge requests failed, one after the other. -/
def failedTable (n : ℕ) : Database where
  mergeRequests := .empty
  history :=
    { rows := (List.range n).map fun iid ↦ failedRow iid iid
      nextId := n
      ordered := by
        rw [List.pairwise_map]
        exact List.pairwise_lt_range
      below := by
        simp [failedRow]
      unique := by
        rw [List.pairwise_map]
        exact List.pairwise_lt_range.imp fun hlt hkey ↦ hlt.ne (congrArg Prod.snd hkey) }

/-- The only row found is on the second page, and two rows on two pages are reported. -/
theorem search_is_not_counted :
    ¬ ∀ (lower : String → String) (query : HistoryQuery) (projectId : ℕ) (db : Database),
        BrowsesExactly lower query projectId db := by
  intro hclaim
  have htotal := (hclaim id { perPage := 1, search := some "0" } 1 (failedTable 2)).total 1
  revert htotal
  decide +kernel

/-! ## The failure reasons -/

/-- The rows of the period that ended badly. -/
def failureRows (days projectId : ℕ) (now : ℤ) (db : Database) : List HistoryRow :=
  (HistoryRepository.periodWindow (dayOf (now - daysUs days)) (dayOf now) projectId db).filter
    fun r ↦ r.values.status ∈ [.failed, .conflict, .timeout, .mergeFailed]

/-- The report counts each of the rows under its reason, and no other. -/
structure FailuresCounted (report : FailureReasons) (rows : List HistoryRow) : Prop where
  total : report.totalFailures = rows.length
  sum : (report.reasons.map Prod.snd).sum = rows.length
  once : (report.reasons.map Prod.fst).Nodup
  counts : ∀ reason, Counts.countOf report.reasons reason =
    rows.countP fun r ↦ failureReason r = reason

theorem reasonCounts_eq (items : List HistoryRow) :
    reasonCounts items = Counts.tally
      ((items.filter fun r ↦ r.values.status ∈ [.failed, .conflict, .timeout]).map
        failureReason) := by
  rw [Counts.tally, List.foldl_map, List.foldl_filter]
  simp only [decide_eq_true_eq]
  rfl

section FailureReasons

variable {days projectId : ℕ} {now : ℤ} {db : Database}

/-- The rows that the report is made of, the last one that finished first. -/
def periodListing (days projectId : ℕ) (now : ℤ) (db : Database) : List HistoryRow :=
  (HistoryRepository.periodWindow (dayOf (now - daysUs days)) (dayOf now) projectId
    db).insertionSort QueueManager.historyOrder

theorem periodListing_perm : (periodListing days projectId now db).Perm
    (HistoryRepository.periodWindow (dayOf (now - daysUs days)) (dayOf now) projectId db) :=
  List.perm_insertionSort _ _

/-- Only the first hundred rows are counted, whatever is asked for. -/
theorem getFailureReasons_eq :
    getFailureReasons days projectId now db =
      { reasons := (reasonCounts ((periodListing days projectId now db).take 100)).insertionSort
          fun x y ↦ y.2 ≤ x.2
        totalFailures := Counts.total
          (reasonCounts ((periodListing days projectId now db).take 100))
        periodDays := days } := by
  have hlisting : HistoryRepository.listing
      { dateFrom := some (dayOf (now - daysUs days)), dateTo := some (dayOf now) } projectId db =
        periodListing days projectId now db := by
    unfold HistoryRepository.listing periodListing HistoryRepository.periodWindow
      HistoryRepository.between
    congr 1
    refine List.filter_congr fun r _ ↦ ?_
    simp only [HistoryRepository.selects, truthy, Option.filter_none, Option.all_none,
      Option.all_some, Bool.and_true]
    rw [Bool.and_assoc, Bool.and_comm]
  have hitems : (HistoryRepository.getHistory 1 1000
      { dateFrom := some (dayOf (now - daysUs days)), dateTo := some (dayOf now) } projectId
      db).items = (periodListing days projectId now db).take 100 := by
    rw [HistoryRepository.items_getHistory, hlisting]
    rfl
  simp only [getFailureReasons, hitems]
  rfl

/-- The report is about those of the first hundred rows that have one of three statuses. -/
theorem failuresCounted_report {report : FailureReasons} {items : List HistoryRow}
    (hreport : report =
      { reasons := (reasonCounts items).insertionSort fun x y ↦ y.2 ≤ x.2
        totalFailures := Counts.total (reasonCounts items)
        periodDays := days }) :
    FailuresCounted report
      (items.filter fun r ↦ r.values.status ∈ [.failed, .conflict, .timeout]) := by
  have hsorted : report.reasons.Perm (reasonCounts items) := by
    rw [hreport]
    exact List.perm_insertionSort _ _
  have hnodup : (Counts.names (reasonCounts items)).Nodup := by
    rw [reasonCounts_eq]
    exact Counts.nodup_tally _
  have htotal : Counts.total (reasonCounts items) =
      (items.filter fun r ↦ r.values.status ∈ [.failed, .conflict, .timeout]).length := by
    rw [reasonCounts_eq, Counts.total_tally, List.length_map]
  refine ⟨by rw [hreport, htotal], ?_, ?_, fun reason ↦ ?_⟩
  · rw [(hsorted.map Prod.snd).sum_eq]
    exact htotal
  · exact (hsorted.map Prod.fst).nodup_iff.mpr hnodup
  · have hnames : (Counts.names report.reasons).Nodup :=
      (hsorted.map Prod.fst).nodup_iff.mpr hnodup
    rw [Counts.countOf_perm hsorted hnames, reasonCounts_eq, Counts.countOf_tally, List.count,
      List.countP_map]
    exact List.countP_congr fun r _ ↦ by simp

theorem sumCase_eq_countP (statuses : List HistoryStatus) (rows : List HistoryRow) :
    sumCase statuses rows = rows.countP fun r ↦ r.values.status ∈ statuses := by
  induction rows with
  | nil => rfl
  | cons r rows ih =>
      rw [sumCase_cons, List.countP_cons, ih]
      simp only [decide_eq_true_eq]
      exact Nat.add_comm _ _

theorem sumCase_eq_zero {statuses : List HistoryStatus} {rows : List HistoryRow}
    (h : sumCase statuses rows = 0) : ∀ r ∈ rows, r.values.status ∉ statuses := by
  intro r hr hmem
  rw [sumCase_eq_countP, List.countP_eq_zero] at h
  exact h r hr (decide_eq_true hmem)

theorem mem_badStatuses_iff (status : HistoryStatus) :
    status ∈ [HistoryStatus.failed, .conflict, .timeout, .mergeFailed] ↔
      status ∈ [HistoryStatus.failed, .conflict, .timeout] ∨ status = .mergeFailed := by
  simp only [List.mem_cons, List.not_mem_nil, or_false, or_assoc]

/-- What is counted are all rows of the period that ended badly, when no merge failed and none
of the others is beyond the first hundred. -/
theorem counted_perm_failureRows
    (hmerge : ∀ r ∈ periodListing days projectId now db, r.values.status ≠ .mergeFailed)
    (hlate : ∀ r ∈ (periodListing days projectId now db).drop 100,
      r.values.status ∉ [HistoryStatus.failed, .conflict, .timeout]) :
    (((periodListing days projectId now db).take 100).filter fun r ↦
      r.values.status ∈ [.failed, .conflict, .timeout]).Perm
        (failureRows days projectId now db) := by
  have hrows : (failureRows days projectId now db).Perm
      ((periodListing days projectId now db).filter fun r ↦
        r.values.status ∈ [.failed, .conflict, .timeout]) := by
    refine (periodListing_perm.symm.filter _).trans (List.Perm.of_eq ?_)
    refine List.filter_congr fun r hr ↦ decide_eq_decide.mpr ?_
    rw [mem_badStatuses_iff, or_iff_left (hmerge r hr)]
  have hdrop : ((periodListing days projectId now db).drop 100).filter
      (fun r ↦ decide (r.values.status ∈ [HistoryStatus.failed, .conflict, .timeout])) = [] := by
    refine List.filter_eq_nil_iff.mpr fun r hr ↦ ?_
    rw [decide_eq_true_eq]
    exact hlate r hr
  refine List.Perm.trans (List.Perm.of_eq ?_) hrows.symm
  rw [← List.take_append_drop 100 (periodListing days projectId now db), List.filter_append, hdrop,
    List.append_nil, List.take_append_drop]

/-- No row is missed when the totals agree. -/
theorem no_row_missed
    (htotal : (((periodListing days projectId now db).take 100).filter fun r ↦
      r.values.status ∈ [.failed, .conflict, .timeout]).length =
        (failureRows days projectId now db).length) :
    (∀ r ∈ periodListing days projectId now db, r.values.status ≠ .mergeFailed) ∧
      ∀ r ∈ (periodListing days projectId now db).drop 100,
        r.values.status ∉ [HistoryStatus.failed, .conflict, .timeout] := by
  have hsplit (rows : List HistoryRow) :
      sumCase [.failed, .conflict, .timeout, .mergeFailed] rows =
        sumCase [.failed, .conflict, .timeout] rows + sumCase [.mergeFailed] rows :=
    @sumCase_append [.failed, .conflict, .timeout] [.mergeFailed] (by decide) rows
  have hrows : (failureRows days projectId now db).length =
      sumCase [.failed, .conflict, .timeout, .mergeFailed]
          ((periodListing days projectId now db).take 100) +
        sumCase [.failed, .conflict, .timeout, .mergeFailed]
          ((periodListing days projectId now db).drop 100) := by
    rw [sumCase_eq_countP, sumCase_eq_countP, ← List.countP_append, List.take_append_drop,
      periodListing_perm.countP_eq, List.countP_eq_length_filter]
    rfl
  rw [← List.countP_eq_length_filter, ← sumCase_eq_countP, hrows, hsplit, hsplit] at htotal
  have hfirst : sumCase [.mergeFailed] ((periodListing days projectId now db).take 100) = 0 := by
    omega
  have hlater : sumCase [.mergeFailed] ((periodListing days projectId now db).drop 100) = 0 := by
    omega
  refine ⟨fun r hr hstatus ↦ ?_, sumCase_eq_zero (by omega)⟩
  rw [← List.take_append_drop 100 (periodListing days projectId now db)] at hr
  rcases List.mem_append.mp hr with hr | hr
  · exact sumCase_eq_zero hfirst r hr (List.mem_singleton.mpr hstatus)
  · exact sumCase_eq_zero hlater r hr (List.mem_singleton.mpr hstatus)

end FailureReasons

/-- The report is complete exactly when no merge of the period failed and no other failure is
older than the hundred rows that finished last. -/
theorem failureReasons_complete_iff (days projectId : ℕ) (now : ℤ) (db : Database) :
    FailuresCounted (getFailureReasons days projectId now db)
        (failureRows days projectId now db) ↔
      (∀ r ∈ periodListing days projectId now db, r.values.status ≠ .mergeFailed) ∧
        ∀ r ∈ (periodListing days projectId now db).drop 100,
          r.values.status ∉ [HistoryStatus.failed, .conflict, .timeout] := by
  have hreport : FailuresCounted (getFailureReasons days projectId now db)
      (((periodListing days projectId now db).take 100).filter fun r ↦
        r.values.status ∈ [.failed, .conflict, .timeout]) :=
    failuresCounted_report getFailureReasons_eq
  constructor
  · exact fun h ↦ no_row_missed (hreport.total.symm.trans h.total)
  · rintro ⟨hmerge, hlate⟩
    have hperm := counted_perm_failureRows hmerge hlate
    exact ⟨hreport.total.trans hperm.length_eq, hreport.sum.trans hperm.length_eq, hreport.once,
      fun reason ↦ (hreport.counts reason).trans (hperm.countP_eq _)⟩

/-- Of a hundred and one failures of one day, one is not counted. -/
theorem failures_beyond_the_clamp :
    ¬ ∀ (days projectId : ℕ) (now : ℤ) (db : Database),
        FailuresCounted (getFailureReasons days projectId now db)
          (failureRows days projectId now db) := by
  intro hclaim
  have hfailed : (failureRows 1 1 1000 (failedTable 101)).length = 101 := by decide +kernel
  have hcounted : (getFailureReasons 1 1 1000 (failedTable 101)).totalFailures ≤ 100 := by
    rw [(failuresCounted_report getFailureReasons_eq).total]
    exact (List.length_filter_le _ _).trans (List.length_take_le _ _)
  have htotal := (hclaim 1 1 1000 (failedTable 101)).total
  omega

end MergeQueue
