import Mathlib.Algebra.Order.Group.Nat
import Mathlib.Data.List.Basic
import Mathlib.Data.List.Count
import Mathlib.Data.List.Infix
import Mathlib.Tactic.Common

/-!
# The pinned comment of the bot

The bot keeps one comment on a merge request and finds it by a signature in its text.  It
looks only at the first page of the notes, the newest ones, while others go on writing.
Whether a note carries the signature is all that the search depends on, so the notes are
followed as a list of flags.
-/

namespace MergeQueue

def botCommentSignature : String := "<!-- merge-queue-bot -->"

/-- A text with the signature, in a note that is not written by the system. -/
def carriesSignature (body : String) (system : Bool) : Bool :=
  decide (botCommentSignature.toList <:+: body.toList) && !system

structure Note where
  id : ℕ
  body : String
  system : Bool := false
  deriving DecidableEq, Repr

def Note.carries (note : Note) : Bool := carriesSignature note.body note.system

/-- The notes of a merge request, the newest first; every note gets a new identity. -/
structure Discussion where
  notes : List Note
  nextId : ℕ
  ordered : notes.Pairwise fun a b ↦ b.id < a.id
  below : ∀ note ∈ notes, note.id < nextId

/-- What somebody else, or the system, writes. -/
structure Remark where
  body : String
  system : Bool := false
  deriving DecidableEq, Repr

def Remark.carries (remark : Remark) : Bool := carriesSignature remark.body remark.system

namespace Discussion

def empty : Discussion where
  notes := []
  nextId := 1
  ordered := List.Pairwise.nil
  below := by simp

def create (body : String) (system : Bool) (d : Discussion) : Discussion where
  notes := { id := d.nextId, body, system } :: d.notes
  nextId := d.nextId + 1
  ordered := List.pairwise_cons.mpr ⟨d.below, d.ordered⟩
  below note hnote := by
    rcases List.mem_cons.mp hnote with rfl | hold
    · exact Nat.lt_succ_self _
    · exact Nat.lt_succ_of_lt (d.below note hold)

/-- The note with a new body. -/
def rewritten (id : ℕ) (body : String) (note : Note) : Note :=
  if note.id = id then { note with body } else note

@[simp] theorem rewritten_id (id : ℕ) (body : String) (note : Note) :
    (rewritten id body note).id = note.id := by
  unfold rewritten
  split_ifs
  · rfl
  · rfl

def update (id : ℕ) (body : String) (d : Discussion) : Discussion where
  notes := d.notes.map (rewritten id body)
  nextId := d.nextId
  ordered := by
    rw [List.pairwise_map]
    exact d.ordered.imp fun hlt ↦ by simpa using hlt
  below := by
    intro note hnote
    obtain ⟨old, hold, rfl⟩ := List.mem_map.mp hnote
    rw [rewritten_id]
    exact d.below old hold

/-- Others write, one after the other. -/
def write (remarks : List Remark) (d : Discussion) : Discussion :=
  remarks.foldl (fun d remark ↦ d.create remark.body remark.system) d

/-- The answer to a request for the notes that names no page: the twenty newest. -/
def getList (d : Discussion) : List Note := d.notes.take 20

end Discussion

/-! ## The calls -/

/-- A call, with what others write before it lists the notes and between that and its own
writing. -/
structure PinCall where
  before : List Remark := []
  during : List Remark := []
  body : String
  deriving DecidableEq, Repr

def findBotComment (listed : List Note) : Option Note := listed.find? Note.carries

/-- The text with the signature. -/
def pinnedBody (body : String) : String :=
  if botCommentSignature.toList <:+: body.toList then body
  else botCommentSignature ++ "\n" ++ body

def addOrUpdatePinnedComment (d : Discussion) (call : PinCall) : Discussion :=
  let d := d.write call.before
  match findBotComment d.getList with
  | some note => (d.write call.during).update note.id (pinnedBody call.body)
  | none => (d.write call.during).create (pinnedBody call.body) false

/-- The discussion after the calls, and after what others write then. -/
def afterCalls (calls : List PinCall) (after : List Remark) : Discussion :=
  (calls.foldl addOrUpdatePinnedComment .empty).write after

theorem carriesSignature_pinnedBody (body : String) :
    carriesSignature (pinnedBody body) false = true := by
  unfold carriesSignature pinnedBody
  simp only [Bool.not_false, Bool.and_true, decide_eq_true_eq]
  split_ifs with hbody
  · exact hbody
  · rw [String.toList_append, String.toList_append, List.append_assoc]
    exact List.infix_append [] _ _

/-! ## The flags of the notes -/

namespace Discussion

/-- Which notes carry the signature, the newest first. -/
def flags (d : Discussion) : List Bool := d.notes.map Note.carries

theorem flags_create (body : String) (system : Bool) (d : Discussion) :
    (d.create body system).flags = carriesSignature body system :: d.flags := rfl

theorem flags_write (remarks : List Remark) (d : Discussion) :
    (d.write remarks).flags = (remarks.map Remark.carries).reverse ++ d.flags := by
  induction remarks generalizing d with
  | nil => rfl
  | cons remark remarks ih =>
      have hfirst : (d.write (remark :: remarks)) =
          (d.create remark.body remark.system).write remarks := rfl
      rw [hfirst, ih, flags_create, List.map_cons, List.reverse_cons, List.append_assoc]
      rfl

theorem mem_write {note : Note} {d : Discussion} (h : note ∈ d.notes) (remarks : List Remark) :
    note ∈ (d.write remarks).notes := by
  induction remarks generalizing d with
  | nil => exact h
  | cons remark remarks ih =>
      have hcreated : note ∈ (d.create remark.body remark.system).notes := List.mem_cons_of_mem _ h
      exact ih hcreated

/-- Two notes of one identity are the same note. -/
theorem eq_of_id {d : Discussion} {a b : Note} (ha : a ∈ d.notes) (hb : b ∈ d.notes)
    (h : a.id = b.id) : a = b := by
  have hforth : d.notes.Pairwise fun a b : Note ↦ a.id = b.id → a = b :=
    d.ordered.imp fun hlt hid ↦ absurd hid (Nat.ne_of_gt hlt)
  have hback : d.notes.Pairwise (flip fun a b : Note ↦ a.id = b.id → a = b) :=
    d.ordered.imp fun hlt hid ↦ absurd hid (Nat.ne_of_lt hlt)
  exact List.Pairwise.forall_of_forall_of_flip (fun _ _ _ ↦ rfl) hforth hback ha hb h

/-- A comment of the bot that is updated still carries the signature. -/
theorem flags_update {note : Note} {d : Discussion} (hnote : note ∈ d.notes)
    (hcarries : note.carries = true) (body : String) :
    (d.update note.id (pinnedBody body)).flags = d.flags := by
  unfold flags update
  rw [List.map_map]
  refine List.map_congr_left fun other hother ↦ ?_
  by_cases hid : other.id = note.id
  · obtain rfl := eq_of_id hother hnote hid
    have hsystem : other.system = false := by
      unfold Note.carries carriesSignature at hcarries
      rw [Bool.and_eq_true, Bool.not_eq_true'] at hcarries
      exact hcarries.2
    have hrewritten : rewritten other.id (pinnedBody body) other =
        { other with body := pinnedBody body } := if_pos rfl
    rw [Function.comp_apply, hrewritten, hcarries, Note.carries, hsystem]
    exact carriesSignature_pinnedBody body
  · have hrewritten : rewritten note.id (pinnedBody body) other = other := if_neg hid
    rw [Function.comp_apply, hrewritten]

end Discussion

namespace PinCall

variable (call : PinCall) (flags : List Bool)

/-- The flags when the call lists the notes. -/
def seen : List Bool := (call.before.map Remark.carries).reverse ++ flags

/-- The call finds a note to update. -/
def finds : Bool := ((call.seen flags).take 20).any id

/-- The flags when the call has written. -/
def flagsAfter : List Bool :=
  let written := (call.during.map Remark.carries).reverse ++ call.seen flags
  if call.finds flags then written else true :: written

end PinCall

/-- A call acts on the flags alone. -/
theorem flags_addOrUpdatePinnedComment (d : Discussion) (call : PinCall) :
    (addOrUpdatePinnedComment d call).flags = call.flagsAfter d.flags := by
  have hseen : (d.write call.before).flags = call.seen d.flags := Discussion.flags_write _ _
  have hwritten : ((d.write call.before).write call.during).flags =
      (call.during.map Remark.carries).reverse ++ call.seen d.flags := by
    rw [Discussion.flags_write, hseen]
  have hlisted : (d.write call.before).getList.map Note.carries = (call.seen d.flags).take 20 := by
    rw [← hseen, Discussion.flags, Discussion.getList, List.map_take]
  have hfinds : call.finds d.flags = (d.write call.before).getList.any Note.carries := by
    rw [PinCall.finds, ← hlisted, List.any_map]
    rfl
  unfold addOrUpdatePinnedComment PinCall.flagsAfter
  simp only [hfinds, findBotComment]
  cases hfound : (d.write call.before).getList.find? Note.carries with
  | none =>
      have hnone : (d.write call.before).getList.any Note.carries = false := by
        rw [List.any_eq_false]
        exact fun note hnote ↦ List.find?_eq_none.mp hfound note hnote
      rw [hnone, if_neg Bool.false_ne_true]
      exact congrArg₂ List.cons (carriesSignature_pinnedBody _) hwritten
  | some note =>
      have hcarries := List.find?_some hfound
      have hmem := List.mem_of_find?_eq_some hfound
      have hsome : (d.write call.before).getList.any Note.carries = true :=
        List.any_eq_true.mpr ⟨note, hmem, hcarries⟩
      rw [hsome, if_pos rfl]
      refine (Discussion.flags_update ?_ hcarries _).trans hwritten
      exact Discussion.mem_write (List.mem_of_mem_take hmem) _

/-! ## Counting the comments -/

/-- How often the calls create a comment. -/
def created : List PinCall → List Bool → ℕ
  | [], _ => 0
  | call :: calls, flags =>
      (if call.finds flags then 0 else 1) + created calls (call.flagsAfter flags)

/-- How many of the remarks carry the signature. -/
def foreign (calls : List PinCall) : ℕ :=
  (calls.flatMap fun call ↦ call.before ++ call.during).countP Remark.carries

theorem foreign_cons (call : PinCall) (calls : List PinCall) :
    foreign (call :: calls) =
      call.before.countP Remark.carries + call.during.countP Remark.carries + foreign calls := by
  simp [foreign, Nat.add_assoc]

theorem count_flags_of_remarks (remarks : List Remark) :
    (remarks.map Remark.carries).reverse.count true = remarks.countP Remark.carries := by
  rw [List.count_reverse, List.count, List.countP_map]
  exact List.countP_congr fun remark _ ↦ by simp

theorem count_flagsAfter (call : PinCall) (flags : List Bool) :
    (call.flagsAfter flags).count true = flags.count true + call.before.countP Remark.carries +
      call.during.countP Remark.carries + if call.finds flags then 0 else 1 := by
  unfold PinCall.flagsAfter
  split_ifs with hfinds
  · rw [List.count_append, PinCall.seen, List.count_append, count_flags_of_remarks,
      count_flags_of_remarks]
    omega
  · rw [List.count_cons_self, List.count_append, PinCall.seen, List.count_append,
      count_flags_of_remarks, count_flags_of_remarks]
    omega

theorem count_foldl_flagsAfter (calls : List PinCall) (flags : List Bool) :
    (calls.foldl (fun flags call ↦ call.flagsAfter flags) flags).count true =
      flags.count true + foreign calls + created calls flags := by
  induction calls generalizing flags with
  | nil => simp [foreign, created]
  | cons call calls ih =>
      rw [List.foldl_cons, ih, count_flagsAfter, foreign_cons, created]
      omega

theorem flags_foldl (calls : List PinCall) (d : Discussion) :
    (calls.foldl addOrUpdatePinnedComment d).flags =
      calls.foldl (fun flags call ↦ call.flagsAfter flags) d.flags := by
  induction calls generalizing d with
  | nil => rfl
  | cons call calls ih =>
      rw [List.foldl_cons, ih, flags_addOrUpdatePinnedComment, List.foldl_cons]

/-- The comments with the signature are those that others wrote and those that were created. -/
theorem count_afterCalls (calls : List PinCall) (after : List Remark) :
    (afterCalls calls after).notes.countP Note.carries =
      foreign calls + after.countP Remark.carries + created calls [] := by
  have hcount : (afterCalls calls after).notes.countP Note.carries =
      (afterCalls calls after).flags.count true := by
    rw [Discussion.flags, List.count, List.countP_map]
    exact List.countP_congr fun note _ ↦ by simp
  have hempty : Discussion.empty.flags = [] := rfl
  rw [hcount, afterCalls, Discussion.flags_write, List.count_append, count_flags_of_remarks,
    flags_foldl, count_foldl_flagsAfter, hempty, List.count_nil]
  omega

/-! ## Staying in view -/

/-- How many notes others write from the first of these calls to the listing of the last. -/
def newerAtLast : List PinCall → ℕ
  | [] => 0
  | call :: calls =>
      call.before.length + if calls = [] then 0 else call.during.length + newerAtLast calls

theorem any_take_iff {newer older : List Bool} (h : ∀ flag ∈ newer, flag = false) :
    ((newer ++ true :: older).take 20).any id = true ↔ newer.length < 20 := by
  constructor
  · intro hany
    by_contra hlong
    rw [List.take_append_of_le_length (Nat.le_of_not_lt hlong)] at hany
    obtain ⟨flag, hflag, htrue⟩ := List.any_eq_true.mp hany
    rw [h flag (List.mem_of_mem_take hflag)] at htrue
    cases htrue
  · intro hshort
    refine List.any_eq_true.mpr ⟨true, ?_, rfl⟩
    obtain ⟨more, hmore⟩ := Nat.exists_eq_add_of_lt hshort
    rw [List.take_append, List.take_of_length_le hshort.le]
    have hleft : 20 - newer.length = more + 1 := by omega
    rw [hleft, List.take_succ_cons]
    simp

theorem flags_false {remarks : List Remark} (h : remarks.countP Remark.carries = 0) :
    ∀ flag ∈ (remarks.map Remark.carries).reverse, flag = false := by
  intro flag hflag
  obtain ⟨remark, hremark, rfl⟩ := List.mem_map.mp (List.mem_reverse.mp hflag)
  exact Bool.eq_false_iff.mpr (List.countP_eq_zero.mp h remark hremark)

theorem forall_mem_append_false {xs ys : List Bool} (hx : ∀ flag ∈ xs, flag = false)
    (hy : ∀ flag ∈ ys, flag = false) : ∀ flag ∈ xs ++ ys, flag = false :=
  List.forall_mem_append.mpr ⟨hx, hy⟩

/-- The comment is found by all calls if it is in view of the last one. -/
theorem created_eq_zero_iff (calls : List PinCall) (hforeign : foreign calls = 0)
    {newer older : List Bool} (hnewer : ∀ flag ∈ newer, flag = false) :
    created calls (newer ++ true :: older) = 0 ↔
      calls = [] ∨ newer.length + newerAtLast calls < 20 := by
  induction calls generalizing newer with
  | nil => simp [created]
  | cons call calls ih =>
      rw [foreign_cons] at hforeign
      have hbefore := @flags_false call.before (by omega)
      have hduring := @flags_false call.during (by omega)
      have hseen : call.seen (newer ++ true :: older) =
          ((call.before.map Remark.carries).reverse ++ newer) ++ true :: older :=
        (List.append_assoc _ _ _).symm
      have hfinds : call.finds (newer ++ true :: older) = true ↔
          call.before.length + newer.length < 20 := by
        rw [PinCall.finds, hseen, any_take_iff (forall_mem_append_false hbefore hnewer)]
        simp
      rw [created, newerAtLast]
      by_cases hview : call.before.length + newer.length < 20
      · have hafter : call.flagsAfter (newer ++ true :: older) =
            ((call.during.map Remark.carries).reverse ++
              ((call.before.map Remark.carries).reverse ++ newer)) ++ true :: older := by
          unfold PinCall.flagsAfter
          rw [if_pos (hfinds.mpr hview), hseen]
          simp only [List.append_assoc]
        have hall := forall_mem_append_false hduring (forall_mem_append_false hbefore hnewer)
        have hrest := ih (by omega) hall
        rw [if_pos (hfinds.mpr hview), hafter, Nat.zero_add, hrest]
        by_cases hlast : calls = []
        · simp only [hlast, true_or, if_true, true_iff]
          exact Or.inr (by omega)
        · simp only [hlast, false_or, if_false, List.length_append, List.length_reverse,
            List.length_map, List.cons_ne_nil]
          omega
      · rw [if_neg (mt hfinds.mp hview)]
        refine iff_of_false (by omega) ?_
        rintro (hnil | hless)
        · cases hnil
        · omega

/-- The comment stays among the twenty newest notes until the last call lists them: the one
that the first call creates, if nobody else has written the signature, or else the only one
that somebody wrote, before the first call looked for it. -/
def StaysInView (first : PinCall) (calls : List PinCall) (after : List Remark) : Prop :=
  (foreign (first :: calls) + after.countP Remark.carries = 0 ∧ newerAtLast calls < 20) ∨
    (foreign (first :: calls) + after.countP Remark.carries = 1 ∧
      ∃ newer carrier older, first.before.reverse = newer ++ carrier :: older ∧
        carrier.carries = true ∧
        newer.length + (if calls = [] then 0 else first.during.length + newerAtLast calls) < 20)

section First

variable {first : PinCall} {calls : List PinCall}

theorem seen_nil (call : PinCall) :
    call.seen [] = call.before.reverse.map Remark.carries := by
  rw [PinCall.seen, List.append_nil, List.map_reverse]

/-- The first call finds a note that somebody else has written. -/
theorem finds_nil_iff : first.finds [] = true ↔ ∃ newer carrier older,
    first.before.reverse = newer ++ carrier :: older ∧ carrier.carries = true ∧
      newer.length < 20 := by
  rw [PinCall.finds, seen_nil, ← List.map_take, List.any_map, List.any_eq_true]
  constructor
  · rintro ⟨carrier, hmem, hcarries⟩
    obtain ⟨newer, older, hsplit⟩ := List.append_of_mem hmem
    refine ⟨newer, carrier, older ++ first.before.reverse.drop 20, ?_, hcarries, ?_⟩
    · have hwhole := List.take_append_drop 20 first.before.reverse
      rw [hsplit, List.append_assoc, List.cons_append] at hwhole
      exact hwhole.symm
    · have hlength := congrArg List.length hsplit
      rw [List.length_take, List.length_append, List.length_cons] at hlength
      omega
  · rintro ⟨newer, carrier, older, hsplit, hcarries, hless⟩
    refine ⟨carrier, ?_, hcarries⟩
    rw [hsplit, List.take_append, List.take_of_length_le hless.le]
    obtain ⟨more, hmore⟩ := Nat.exists_eq_add_of_lt hless
    have hleft : 20 - newer.length = more + 1 := by omega
    rw [hleft, List.take_succ_cons]
    simp

/-- A comment that was there before the first call is the only one as long as it is in view. -/
theorem created_of_found {newer older : List Remark} {carrier : Remark}
    (hsplit : first.before.reverse = newer ++ carrier :: older) (hcarries : carrier.carries = true)
    (hless : newer.length < 20) (hforeign : foreign (first :: calls) ≤ 1) :
    created (first :: calls) [] = 0 ↔
      newer.length + (if calls = [] then 0 else first.during.length + newerAtLast calls) < 20 := by
  have hbefore : first.before.countP Remark.carries =
      newer.countP Remark.carries + 1 + older.countP Remark.carries := by
    rw [← List.countP_reverse, hsplit, List.countP_append, List.countP_cons_of_pos hcarries]
    omega
  rw [foreign_cons] at hforeign
  have hnewer : ∀ flag ∈ newer.map Remark.carries, flag = false := by
    intro flag hflag
    obtain ⟨remark, hremark, rfl⟩ := List.mem_map.mp hflag
    have hnone : newer.countP Remark.carries = 0 := by omega
    exact Bool.eq_false_iff.mpr (List.countP_eq_zero.mp hnone remark hremark)
  have hduring := @flags_false first.during (by omega)
  have hfinds : first.finds [] = true :=
    finds_nil_iff.mpr ⟨newer, carrier, older, hsplit, hcarries, hless⟩
  have hafter : first.flagsAfter [] =
      ((first.during.map Remark.carries).reverse ++ newer.map Remark.carries) ++
        true :: older.map Remark.carries := by
    unfold PinCall.flagsAfter
    rw [if_pos hfinds, seen_nil, hsplit, List.map_append, List.map_cons, hcarries]
    exact (List.append_assoc _ _ _).symm
  rw [created, if_pos hfinds, hafter, Nat.zero_add,
    created_eq_zero_iff calls (by omega) (forall_mem_append_false hduring hnewer)]
  by_cases hlast : calls = []
  · simpa [hlast] using hless
  · simp only [hlast, false_or, if_false, List.length_append, List.length_reverse, List.length_map]
    omega

/-- Where the first call finds nothing, it creates the comment. -/
theorem created_of_not_found (hnone : ¬ first.finds [] = true) (hforeign : foreign calls = 0) :
    created (first :: calls) [] = 1 ↔ newerAtLast calls < 20 := by
  have hafter : first.flagsAfter [] =
      [] ++ true :: ((first.during.map Remark.carries).reverse ++ first.seen []) := by
    unfold PinCall.flagsAfter
    rw [if_neg hnone]
    rfl
  have hrest := @created_eq_zero_iff calls hforeign []
    ((first.during.map Remark.carries).reverse ++ first.seen []) (by simp)
  rw [created, if_neg hnone, hafter]
  rw [List.length_nil, Nat.zero_add] at hrest
  have hcreated : 1 + created calls ([] ++ true ::
      ((first.during.map Remark.carries).reverse ++ first.seen [])) = 1 ↔
        created calls ([] ++ true ::
          ((first.during.map Remark.carries).reverse ++ first.seen [])) = 0 := by omega
  rw [hcreated, hrest]
  constructor
  · rintro (rfl | hless)
    · decide
    · exact hless
  · exact Or.inr

end First

/-- There is exactly one comment with the signature exactly when it stays in view. -/
theorem one_pinned_comment_iff (first : PinCall) (calls : List PinCall) (after : List Remark) :
    (afterCalls (first :: calls) after).notes.countP Note.carries = 1 ↔
      StaysInView first calls after := by
  rw [count_afterCalls]
  unfold StaysInView
  by_cases hfinds : first.finds [] = true
  · obtain ⟨newer, carrier, older, hsplit, hcarries, hless⟩ := finds_nil_iff.mp hfinds
    have hone : 1 ≤ foreign (first :: calls) := by
      have hmem : carrier ∈ first.before := by
        rw [← List.mem_reverse, hsplit]
        simp
      have hpos := List.countP_pos_iff.mpr ⟨carrier, hmem, hcarries⟩
      rw [foreign_cons]
      omega
    constructor
    · intro hcount
      refine Or.inr ⟨by omega, newer, carrier, older, hsplit, hcarries, ?_⟩
      exact (created_of_found hsplit hcarries hless (by omega)).mp (by omega)
    · rintro (⟨hzero, -⟩ | ⟨htotal, newer', carrier', older', hsplit', hcarries', hview⟩)
      · omega
      · have hcreated := (@created_of_found _ calls _ _ _ hsplit' hcarries' (by omega)
          (by omega)).mpr hview
        omega
  · constructor
    · intro hcount
      have hsome : 1 ≤ created (first :: calls) [] := by
        rw [created, if_neg hfinds]
        omega
      have hrest := foreign_cons first calls
      exact Or.inl ⟨by omega, (created_of_not_found hfinds (by omega)).mp (by omega)⟩
    · rintro (⟨hzero, hview⟩ | ⟨-, newer, carrier, older, hsplit, hcarries, hview⟩)
      · have hrest := foreign_cons first calls
        have hcreated := (@created_of_not_found _ calls hfinds (by omega)).mpr hview
        omega
      · exact absurd (finds_nil_iff.mpr ⟨newer, carrier, older, hsplit, hcarries, by omega⟩) hfinds

/-- Twenty remarks hide the comment from the second call, which creates another one. -/
theorem second_pinned_comment :
    ¬ ∀ (first : PinCall) (calls : List PinCall) (after : List Remark),
        (afterCalls (first :: calls) after).notes.countP Note.carries = 1 := by
  intro hclaim
  have hcount := hclaim { body := "queued" }
    [{ before := List.replicate 20 { body := "ok" }, body := "merged" }] []
  revert hcount
  decide +kernel

end MergeQueue
