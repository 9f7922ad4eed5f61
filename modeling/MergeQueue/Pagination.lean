import MergeQueue.GitLabClient
import MergeQueue.Lib.PyInt
import MergeQueue.Lib.PyJson

/-!
# Reading a list page by page

The server decides with a header whether another page follows.  A caller that needs the
whole list takes nothing but the next page in order, and is told when the end was not
reached; other callers take what there is.
-/

namespace MergeQueue

/-- What ends a call: a `GitLabAPIError`, or another exception, by the name of its class. -/
inductive FetchError
  | gitlab (error : GitLabError)
  | other (exception : String)
  deriving DecidableEq, Repr

/-- A response: what `response.json()` gives or raises, and the `x-next-page` header. -/
structure PageResponse where
  json : Except FetchError PyJson.Value
  nextPage : Option String

/-- How `_request` ends when it is called with the number `n` and asks for a page. -/
abbrev PageServer := ℕ → ℕ → Except FetchError PageResponse

/-- What `list.extend` takes from a value: the elements of a list, the characters of a string, the
keys of a dictionary.  Other values are not iterable. -/
def iterItems : PyJson.Value → Except FetchError (List PyJson.Value)
  | .list items => .ok items
  | .str s => .ok (s.map fun c ↦ .str [c])
  | .dict members => .ok ((members.map Prod.fst).eraseDups.map .str)
  | .null | .bool _ | .int _ | .float _ => .error (.other "TypeError")

/-- A page that was read, with its header. -/
structure Page where
  items : List PyJson.Value
  nextPage : Option String

namespace Page

/-- The page shows that there is no further one. -/
def showsEnd (p : Page) (perPage : ℕ) : Prop :=
  p.nextPage = some "" ∨ (p.nextPage = none ∧ p.items.length < perPage)

end Page

/-- Requests a page and reads its items. -/
def readPage (server : PageServer) (n page : ℕ) : Except FetchError Page := do
  let response ← server n page
  let value ← response.json
  let items ← iterItems value
  .ok { items, nextPage := response.nextPage }

def incompleteDiscovery (message : String) : FetchError :=
  .gitlab { kind := .api, message := "Incomplete label discovery: " ++ message }

/-- The page that the header names, unless the header cannot be followed. -/
def paginationNextPage (header : String) (page : ℕ) (requireComplete : Bool) :
    Except FetchError (Option ℕ) :=
  match pyInt header with
  | none =>
      if requireComplete then .error (incompleteDiscovery "invalid x-next-page header")
      else .ok none
  | some nextPage =>
      if nextPage ≤ page then
        if requireComplete then .error (incompleteDiscovery "non-advancing x-next-page header")
        else .ok none
      else if requireComplete ∧ nextPage ≠ page + 1 then
        .error (incompleteDiscovery "skipped pagination page")
      else .ok (some nextPage.toNat)

/-- The variables of the loop that reads the pages. -/
structure PageLoop where
  allItems : List PyJson.Value := []
  page : ℕ := 1
  fetchedPages : ℕ := 0
  nextPage : String := ""

section GetAllPages

variable (server : PageServer) (perPage : ℕ) (requireComplete : Bool)

/-- The header to follow.  A missing header on a full page is no evidence of the end. -/
def headerToFollow (answer : Page) (page : ℕ) : String :=
  if requireComplete ∧ answer.nextPage = none ∧ perPage ≤ answer.items.length then
    toString (page + 1)
  else answer.nextPage.getD ""

/-- Reads the pages that are left to read, and tells which were requested. -/
def fetchPages : ℕ → PageLoop → Except FetchError PageLoop × List ℕ
  | 0, loop => (.ok loop, [])
  | left + 1, loop =>
      match readPage server loop.fetchedPages loop.page with
      | .error e => (.error e, [loop.page])
      | .ok answer =>
          let nextPage := headerToFollow perPage requireComplete answer loop.page
          let fetched : PageLoop :=
            { loop with
              allItems := loop.allItems ++ answer.items
              fetchedPages := loop.fetchedPages + 1
              nextPage }
          if nextPage = "" then (.ok fetched, [loop.page])
          else
            match paginationNextPage nextPage loop.page requireComplete with
            | .error e => (.error e, [loop.page])
            | .ok none => (.ok fetched, [loop.page])
            | .ok (some page) =>
                let (out, requests) := fetchPages left { fetched with page }
                (out, loop.page :: requests)

/-- All items, and the pages that were requested for them. -/
def getAllPages (maxPages : ℕ) : Except FetchError (List PyJson.Value) × List ℕ :=
  match fetchPages server perPage requireComplete maxPages {} with
  | (.error e, requests) => (.error e, requests)
  | (.ok loop, requests) =>
      if maxPages ≤ loop.fetchedPages ∧ loop.nextPage ≠ "" ∧ requireComplete then
        (.error (incompleteDiscovery "pagination safety cap reached"), requests)
      else (.ok loop.allItems, requests)

end GetAllPages

/-! ## The number of requests -/

section Requests

variable {server : PageServer} {perPage : ℕ} {requireComplete : Bool}

theorem length_fetchPages_le (left : ℕ) (loop : PageLoop) :
    (fetchPages server perPage requireComplete left loop).2.length ≤ left := by
  induction left generalizing loop with
  | zero => exact le_rfl
  | succ left ih =>
      unfold fetchPages
      cases readPage server loop.fetchedPages loop.page with
      | error e => simp
      | ok answer =>
          simp only
          split_ifs
          · simp
          · split
            · simp
            · simp
            · simpa using ih _

theorem getAllPages_requests (maxPages : ℕ) :
    (getAllPages server perPage requireComplete maxPages).2 =
      (fetchPages server perPage requireComplete maxPages {}).2 := by
  unfold getAllPages
  split
  · next h => rw [h]
  · next h =>
      split_ifs
      · rw [h]
      · rw [h]

end Requests

/-! ## Without the need for the whole list -/

section BestEffort

variable {server : PageServer} {perPage : ℕ}

/-- No header raises. -/
theorem paginationNextPage_bestEffort (header : String) (page : ℕ) :
    ∃ next, paginationNextPage header page false = .ok next := by
  unfold paginationNextPage
  split
  · exact ⟨_, rfl⟩
  · simp only [Bool.false_eq_true, false_and, if_false]
    split_ifs
    · exact ⟨_, rfl⟩
    · exact ⟨_, rfl⟩

theorem fetchPages_bestEffort {left : ℕ} {loop : PageLoop} {e : FetchError}
    (h : (fetchPages server perPage false left loop).1 = .error e) :
    ∃ n page, readPage server n page = .error e := by
  induction left generalizing loop with
  | zero => cases h
  | succ left ih =>
      unfold fetchPages at h
      cases hanswer : readPage server loop.fetchedPages loop.page with
      | error e' =>
          rw [hanswer] at h
          cases h
          exact ⟨_, _, hanswer⟩
      | ok answer =>
          rw [hanswer] at h
          simp only at h
          split_ifs at h
          obtain ⟨next, hnext⟩ := paginationNextPage_bestEffort
            (headerToFollow perPage false answer loop.page) loop.page
          rw [hnext] at h
          cases next with
          | none => cases h
          | some page => exact ih h

end BestEffort

/-! ## The whole list -/

section Complete

variable {server : PageServer} {perPage : ℕ}

/-- The loop has read these pages, one after the other from the first. -/
structure HasRead (server : PageServer) (pages : List Page) (loop : PageLoop) : Prop where
  fetched : loop.fetchedPages = pages.length
  items : loop.allItems = pages.flatMap Page.items
  answers : ∀ i answer, pages[i]? = some answer → readPage server i (i + 1) = .ok answer

theorem hasRead_append {pages : List Page} {loop : PageLoop} (h : HasRead server pages loop)
    {answer : Page} (hanswer : readPage server pages.length (pages.length + 1) = .ok answer)
    (page : ℕ) (nextPage : String) :
    HasRead server (pages ++ [answer])
      { allItems := loop.allItems ++ answer.items
        page
        fetchedPages := loop.fetchedPages + 1
        nextPage } where
  fetched := by simp [h.fetched]
  items := by simp [h.items]
  answers i answer' hi := by
    rcases lt_trichotomy i pages.length with hlt | rfl | hgt
    · rw [List.getElem?_append_left hlt] at hi
      exact h.answers i answer' hi
    · rw [List.getElem?_concat_length] at hi
      cases hi
      exact hanswer
    · rw [List.getElem?_eq_none (by simp; omega)] at hi
      cases hi

/-- Where the whole list is needed, only the next page is followed. -/
theorem paginationNextPage_complete {header : String} {page : ℕ} {next : Option ℕ}
    (h : paginationNextPage header page true = .ok next) : next = some (page + 1) := by
  unfold paginationNextPage at h
  split at h
  · cases h
  · next nextPage _ =>
      simp only [if_true, true_and] at h
      split_ifs at h with hadvances hskips
      cases h
      have hnext : nextPage = page + 1 := not_not.mp hskips
      rw [hnext]
      rfl

/-- No header is followed only where the page shows the end. -/
theorem showsEnd_of_headerToFollow {answer : Page} {page : ℕ}
    (h : headerToFollow perPage true answer page = "") : answer.showsEnd perPage := by
  unfold headerToFollow at h
  split_ifs at h with hfull
  · exact absurd h Nat.repr_ne_empty
  · cases hheader : answer.nextPage with
    | none =>
        refine Or.inr ⟨hheader, Nat.lt_of_not_le fun hlong ↦ hfull ⟨rfl, hheader, hlong⟩⟩
    | some header =>
        rw [hheader] at h
        exact Or.inl (hheader.trans (congrArg some h))

/-- The pages that are read follow those that were read, until one shows the end. -/
theorem fetchPages_complete {left : ℕ} {pages : List Page} {loop loop' : PageLoop}
    {requests : List ℕ} (hread : HasRead server pages loop)
    (hpage : loop.page = pages.length + 1)
    (h : fetchPages server perPage true left loop = (.ok loop', requests)) :
    ∃ more, HasRead server (pages ++ more) loop' ∧ more.length ≤ left ∧
      requests = List.range' (pages.length + 1) more.length ∧
      (left ≠ 0 → (∃ last ∈ more.getLast?, last.showsEnd perPage) ∨
        (more.length = left ∧ loop'.nextPage ≠ "")) := by
  induction left generalizing pages loop requests with
  | zero =>
      cases h
      exact ⟨[], by simpa using hread, le_rfl, rfl, fun hzero ↦ absurd rfl hzero⟩
  | succ left ih =>
      unfold fetchPages at h
      cases hanswer : readPage server loop.fetchedPages loop.page with
      | error e =>
          rw [hanswer] at h
          cases h
      | ok answer =>
          rw [hanswer] at h
          rw [hread.fetched, hpage] at hanswer
          simp only at h
          split_ifs at h with hnext
          · cases h
            exact ⟨[answer], hasRead_append hread hanswer _ _, by simp, by simp [hpage],
              fun _ ↦ Or.inl ⟨answer, rfl, showsEnd_of_headerToFollow hnext⟩⟩
          · cases hfollow : paginationNextPage (headerToFollow perPage true answer loop.page)
              loop.page true with
            | error e =>
                rw [hfollow] at h
                cases h
            | ok next =>
                rw [hfollow] at h
                obtain rfl := paginationNextPage_complete hfollow
                simp only at h
                obtain ⟨hrest, hrequests⟩ := Prod.mk.inj h
                have hnextRead := hasRead_append hread hanswer (pages.length + 1 + 1)
                  (headerToFollow perPage true answer loop.page)
                rw [hpage] at hrest hrequests hnextRead
                obtain ⟨more, hmore, hlength, hmoreRequests, hend⟩ :=
                  ih hnextRead (by simp) (Prod.ext hrest rfl)
                have hpages : pages ++ [answer] ++ more = pages ++ (answer :: more) := by simp
                refine ⟨answer :: more, hpages ▸ hmore, Nat.succ_le_succ hlength, ?_, fun _ ↦ ?_⟩
                · have hlength' : (pages ++ [answer]).length = pages.length + 1 := by simp
                  rw [hlength'] at hmoreRequests
                  rw [← hrequests, List.length_cons, List.range'_succ]
                  exact congrArg _ hmoreRequests
                · cases hleft : left with
                  | zero =>
                      -- The last page that may be read is not the last one there is.
                      subst hleft
                      have hnil : more = [] := List.length_eq_zero_iff.mp (Nat.le_zero.mp hlength)
                      cases hrest
                      exact Or.inr ⟨by rw [hnil, List.length_singleton], hpage ▸ hnext⟩
                  | succ left' =>
                      rcases hend (by omega) with ⟨last, hlast, hshows⟩ | ⟨hfull, hopen⟩
                      · refine Or.inl ⟨last, ?_, hshows⟩
                        rw [List.getLast?_cons, Option.mem_def.mp hlast]
                        rfl
                      · exact Or.inr ⟨by rw [List.length_cons, hfull, hleft], hopen⟩

end Complete

/-! ## What is raised -/

section Errors

variable {server : PageServer} {perPage : ℕ}

theorem paginationNextPage_error {header : String} {page : ℕ} {requireComplete : Bool}
    {e : FetchError} (h : paginationNextPage header page requireComplete = .error e) :
    ∃ error, e = .gitlab error := by
  unfold paginationNextPage at h
  split at h
  · split_ifs at h
    cases h
    exact ⟨_, rfl⟩
  · split_ifs at h
    · cases h
      exact ⟨_, rfl⟩
    · cases h
      exact ⟨_, rfl⟩

/-- A call that fails raises what a request or the reading of its body raised, or a
`GitLabAPIError`. -/
theorem fetchPages_error {requireComplete : Bool} {left : ℕ} {loop : PageLoop} {e : FetchError}
    (h : (fetchPages server perPage requireComplete left loop).1 = .error e) :
    (∃ error, e = .gitlab error) ∨ ∃ n page, readPage server n page = .error e := by
  induction left generalizing loop with
  | zero => cases h
  | succ left ih =>
      unfold fetchPages at h
      cases hanswer : readPage server loop.fetchedPages loop.page with
      | error e' =>
          rw [hanswer] at h
          cases h
          exact Or.inr ⟨_, _, hanswer⟩
      | ok answer =>
          rw [hanswer] at h
          simp only at h
          split_ifs at h
          split at h
          · next hfollow =>
              cases h
              exact Or.inl (paginationNextPage_error hfollow)
          · cases h
          · exact ih h

end Errors

/-- A list that is needed as a whole is all pages in order up to one that shows the end, or an
error is raised: a `GitLabAPIError`, or what a request or the reading of its body raised.  No more
pages than the cap are requested, and a caller that takes what there is gets an error only where
a page could not be read. -/
theorem getAllPages_complete_or_error (server : PageServer) (perPage maxPages : ℕ) :
    (∀ items, (getAllPages server perPage true maxPages).1 = .ok items →
      ∃ pages : List Page, pages.length ≤ maxPages ∧
        (∀ i answer, pages[i]? = some answer → readPage server i (i + 1) = .ok answer) ∧
        (getAllPages server perPage true maxPages).2 = List.range' 1 pages.length ∧
        items = pages.flatMap Page.items ∧
        (0 < maxPages → ∃ last ∈ pages.getLast?, last.showsEnd perPage)) ∧
      (∀ e, (getAllPages server perPage true maxPages).1 = .error e →
        (∃ error, e = .gitlab error) ∨ ∃ n page, readPage server n page = .error e) ∧
      (∀ requireComplete, (getAllPages server perPage requireComplete maxPages).2.length ≤
        maxPages) ∧
      ∀ e, (getAllPages server perPage false maxPages).1 = .error e →
        ∃ n page, readPage server n page = .error e := by
  refine ⟨fun items hitems ↦ ?_, fun e he ↦ ?_, fun requireComplete ↦ ?_, fun e he ↦ ?_⟩
  · rw [getAllPages_requests]
    unfold getAllPages at hitems
    split at hitems
    · cases hitems
    · next loop requests hloop =>
        split_ifs at hitems with hcapped
        cases hitems
        have hstart : HasRead server [] ({} : PageLoop) := ⟨rfl, rfl, fun i answer h ↦ by simp at h⟩
        obtain ⟨pages, hread, hlength, hrequests, hend⟩ := fetchPages_complete hstart rfl hloop
        refine ⟨pages, hlength, hread.answers, ?_, hread.items, fun hmax ↦ ?_⟩
        · rw [hloop, hrequests]
          rfl
        · rcases hend hmax.ne' with hlast | ⟨hfull, hopen⟩
          · exact hlast
          · have hfetched : loop.fetchedPages = maxPages := hread.fetched.trans hfull
            exact absurd ⟨hfetched.ge, hopen, rfl⟩ hcapped
  · unfold getAllPages at he
    split at he
    · next e' requests herror =>
        cases he
        exact fetchPages_error (congrArg Prod.fst herror)
    · split at he
      · cases he
        exact Or.inl ⟨_, rfl⟩
      · cases he
  · rw [getAllPages_requests]
    exact length_fetchPages_le maxPages {}
  · unfold getAllPages at he
    split at he
    · next e' requests herror =>
        cases he
        exact fetchPages_bestEffort (congrArg Prod.fst herror)
    · split at he
      · next hcapped => exact absurd hcapped.2.2 Bool.false_ne_true
      · cases he

/-- A server that cannot be reached. -/
def unreachable : PageServer := fun _ _ ↦ .error (.other "httpx.ConnectError")

/-- The exception of the transport is passed on, and it is no `GitLabAPIError`; where no page may be
requested, nothing shows the end of the list. -/
theorem getAllPages_raises_transport_error :
    (getAllPages unreachable 100 true 50).1 = .error (.other "httpx.ConnectError") ∧
    (∀ error, FetchError.other "httpx.ConnectError" ≠ .gitlab error) ∧
    (getAllPages unreachable 100 true 0).1 = .ok [] :=
  ⟨rfl, fun _ ↦ nofun, rfl⟩

/-- Two pages, the second one without a header and not full. -/
def twoPages : PageServer := fun _ page ↦
  .ok (if page = 1 then { json := .ok (.list [.int 1, .int 2]), nextPage := some "2" }
    else { json := .ok (.list [.int 3]), nextPage := none })

example : (getAllPages twoPages 2 true 50).2 = [1, 2] := by decide +kernel

end MergeQueue
