import MergeQueue.QueueCompletion
import MergeQueue.QueueRuns

/-!
# What a completion asks for

Finishing a lifecycle asks for the comment that was frozen, for the progress of its own
row and for its archival with the frozen values, beside plain operations.
-/

namespace MergeQueue

open Interleave (Program)
open Interleave.Program (Leaves Yields)

@[simp] theorem CompletionPayload.continues_self (payload : CompletionPayload) :
    payload.continues payload = true := by simp [continues]

theorem CompletionPayload.continues_trans {a b c : CompletionPayload}
    (hab : a.continues b = true) (hbc : b.continues c = true) : a.continues c = true := by
  simp only [continues, Bool.and_eq_true, decide_eq_true_eq] at hab hbc ⊢
  obtain ⟨⟨⟨⟨h₁, h₂⟩, h₃⟩, h₄⟩, h₅⟩ := hab
  rw [h₁, h₂, h₃, h₄, h₅]
  exact hbc

/-- What the completion of `item` with the frozen outcome `frozen` asks for. -/
inductive Op.Finishing (settings : Settings) (item : QueueItem) (frozen : CompletionPayload) :
    Op → Prop
  | plain {op : Op} (h : op.plain = true) : Finishing settings item frozen op
  | comment : Finishing settings item frozen
      (.gitlab (.addOrUpdatePinnedComment item.mrIid
        { status := .outcome frozen.request.notificationStatus
          context := frozen.request.context }))
  | progress {payload : CompletionPayload} (h : payload.continues frozen = true) :
      Finishing settings item frozen
        (.db (.saveCompletionProgress settings.gitlabProjectId item.queueId payload))
  | archive {current : QueueItem} {payload : CompletionPayload}
      (hid : current.queueId = item.queueId) (h : payload.continues frozen = true) :
      Finishing settings item frozen
        (.db (.finalizeCompletion settings.gitlabProjectId current payload))

/-- The updates that a completion makes of its record keep `R`. -/
structure CompletionPayload.Progressive (R : CompletionPayload → Prop) : Prop where
  commentSent : ∀ {payload}, R payload → R { payload with commentSent := true }
  labelsRemoved : ∀ {payload}, R payload → R { payload with labelsRemoved := true }
  operations : ∀ {payload} operations, R payload → R { payload with labelOperations := operations }
  events : ∀ {payload} events, R payload →
    R { payload with labelEvents := payload.labelEvents ++ events }

/-- `permits` allows what the completion of `item` asks for with records that keep `R`. -/
structure Op.Carries (settings : Settings) (item : QueueItem) (R : CompletionPayload → Prop)
    (permits : Op → Prop) : Prop where
  tends : ∀ {op}, op.tends = true → permits op
  comment : ∀ {payload}, R payload →
    permits (.gitlab (.addOrUpdatePinnedComment item.mrIid
      { status := .outcome payload.request.notificationStatus
        context := payload.request.context }))
  progress : ∀ {payload}, R payload →
    permits (.db (.saveCompletionProgress settings.gitlabProjectId item.queueId payload))
  archive : ∀ {current : QueueItem} {payload}, current.queueId = item.queueId → R payload →
    permits (.db (.finalizeCompletion settings.gitlabProjectId current payload))

/-- `permits` allows what the completion of `item` asks for before it archives the row. -/
structure Op.Records (settings : Settings) (item : QueueItem) (R : CompletionPayload → Prop)
    (permits : Op → Prop) : Prop where
  tends : ∀ {op}, op.tends = true → permits op
  comment : ∀ {payload}, R payload →
    permits (.gitlab (.addOrUpdatePinnedComment item.mrIid
      { status := .outcome payload.request.notificationStatus
        context := payload.request.context }))
  progress : ∀ {payload}, R payload →
    permits (.db (.saveCompletionProgress settings.gitlabProjectId item.queueId payload))

theorem Op.Carries.records {settings : Settings} {item : QueueItem}
    {R : CompletionPayload → Prop} {permits : Op → Prop}
    (h : Op.Carries settings item R permits) : Op.Records settings item R permits where
  tends := h.tends
  comment := h.comment
  progress := h.progress

namespace QueueCompletion

section Carrying

variable {settings : Settings} {item : QueueItem} {payload : CompletionPayload}
  {R : CompletionPayload → Prop} {permits : Op → Prop}

theorem yields_deliverComment (hR : CompletionPayload.Progressive R)
    (hP : Op.Records settings item R permits) (h : R payload) :
    (deliverComment settings item payload).Yields permits R := by
  unfold deliverComment
  split_ifs
  · exact Yields.ret h
  · have hsent := hR.commentSent h
    refine Yields.after ?_ fun _ ↦ Yields.after (Prog.leaves_await (hP.progress hsent)) fun _ ↦
      Yields.ret hsent
    refine Leaves.mono (MRNotifier.notify_outcome_leaves _ _ _) fun op hop ↦ ?_
    rcases hop with htends | rfl
    · exact hP.tends htends
    · exact hP.comment h

theorem yields_recordLabelEvent (hR : CompletionPayload.Progressive R)
    (hP : Op.Records settings item R permits) (h : R payload) (eventAt : Option ℤ) :
    (recordLabelEvent settings item payload eventAt).Yields permits R := by
  have hrecorded := hR.events (eventAt.map LabelEvent.at).toList h
  exact Yields.after (Prog.leaves_await (hP.progress hrecorded)) fun _ ↦ Yields.ret hrecorded

theorem yields_labelOperation (hR : CompletionPayload.Progressive R)
    (hP : Op.Records settings item R permits) (h : R payload) (action : LabelAction)
    (triggers : List String) :
    (labelOperation settings item payload action triggers).Yields permits
      fun out ↦ R out.2.2 := by
  unfold labelOperation
  split
  · exact Yields.ret h
  · refine Yields.after (MRNotifier.tends_completionActor.mono fun _ ↦ hP.tends) fun actor ↦ ?_
    refine Yields.after (Prog.leaves_await (hP.tends rfl)) fun uuid ↦ ?_
    exact Yields.after (Prog.leaves_await (hP.progress (hR.operations _ h))) fun _ ↦
      Yields.ret (hR.operations _ h)

theorem yields_mutateLabels (hR : CompletionPayload.Progressive R)
    (hP : Op.Records settings item R permits) (h : R payload) (action : LabelAction)
    (triggers : List String) :
    (mutateLabels settings item payload action triggers).Yields permits fun out ↦ R out.2 := by
  refine (yields_labelOperation hR hP h action triggers).bind fun out hout ↦ ?_
  have hdone (operations : List LabelOperation) (events : List LabelEvent) :
      R { out.2.2 with
          labelOperations := operations
          labelEvents := out.2.2.labelEvents ++ events } :=
    hR.events events (hR.operations operations hout)
  cases action with
  | remove =>
      exact Yields.after ((MRNotifier.tends_removeQueueLabel _ _ _).mono fun _ ↦ hP.tends) fun _ ↦
        Yields.ret (hdone _ _)
  | restore =>
      exact Yields.after ((MRNotifier.tends_restoreQueueLabels _ _ _).mono fun _ ↦ hP.tends)
        fun _ ↦ Yields.ret (hdone _ _)

theorem yields_cleanup (hR : CompletionPayload.Progressive R)
    (hP : Op.Records settings item R permits) (h : R payload) :
    (cleanup settings item payload).Yields permits R := by
  unfold cleanup
  split_ifs
  · refine (yields_mutateLabels hR hP h _ _).bind fun out hout ↦ ?_
    exact yields_recordLabelEvent hR hP (hR.labelsRemoved hout) _
  · exact Yields.ret h

theorem yields_settleRequeue (hR : CompletionPayload.Progressive R)
    (hP : Op.Records settings item R permits) (h : R payload) (request : Option Requeue) :
    (settleRequeue settings item payload request).Yields permits R := by
  unfold settleRequeue
  split
  · exact Yields.ret h
  · split_ifs
    · exact (yields_mutateLabels hR hP h _ _).bind fun out hout ↦
        yields_recordLabelEvent hR hP hout _
    · split
      · exact Yields.throw _
      · exact (yields_mutateLabels hR hP h _ _).bind fun out hout ↦
          yields_recordLabelEvent hR hP hout _

theorem tends_afterCompletion (payload : CompletionPayload) :
    (afterCompletion settings payload).Tends := by
  unfold afterCompletion
  split
  · exact (QueuePositionNotifier.tends_notifyAffectedMrsAfterCompletion _ _).bind fun _ ↦
      tends_broadcast settings
  · exact tends_broadcast settings

theorem leaves_archive (hR : CompletionPayload.Progressive R)
    (hP : Op.Carries settings item R permits) {current : QueueItem}
    (hcurrent : current.queueId = item.queueId) (h : R payload) :
    Leaves permits (archive settings item current payload) := by
  have hyields : (archive settings item current payload).Yields permits fun _ ↦ True := by
    refine (yields_settleRequeue hR hP.records h current.requeueRequest).bind
      fun payload hpayload ↦ ?_
    refine Yields.after (Prog.leaves_await (hP.archive hcurrent hpayload)) fun done ↦ ?_
    cases done with
    | false => exact Yields.ret trivial
    | true =>
        intro inv
        exact (((tends_afterCompletion payload).mono fun _ ↦ hP.tends) inv).weaken (fun _ h ↦ h)
          fun _ _ h ↦ ⟨trivial, h⟩
  exact hyields.leaves

/-- Finishing a lifecycle carries on the record that it was given, whatever is answered. -/
theorem leaves_finish_of (hR : CompletionPayload.Progressive R)
    (hP : Op.Carries settings item R permits) (hpending : item.pendingCompletion = some payload)
    (h : R payload) : Leaves permits (finish settings item) := by
  have hyields : (finish settings item).Yields permits fun _ ↦ True := by
    simp only [finish, hpending]
    refine (yields_deliverComment hR hP.records h).bind fun payload hpayload ↦ ?_
    refine (yields_cleanup hR hP.records hpayload).bind fun payload hpayload ↦ ?_
    refine Yields.after (Prog.leaves_await (hP.tends rfl)) fun current ↦ ?_
    cases current with
    | none => exact Yields.ret trivial
    | some current =>
        simp only
        split_ifs with hcurrent
        · intro inv
          exact ((leaves_archive hR hP hcurrent hpayload) inv).weaken (fun _ h ↦ h)
            fun _ _ h ↦ ⟨trivial, h⟩
        · exact Yields.ret trivial
  exact hyields.leaves

end Carrying

section Freezing

variable {settings : Settings} {item : QueueItem} {frozen : CompletionPayload}

theorem progressive_continues (frozen : CompletionPayload) :
    CompletionPayload.Progressive fun payload ↦ payload.continues frozen = true where
  commentSent h := h
  labelsRemoved h := h
  operations _ h := h
  events _ h := h

theorem carries_finishing :
    Op.Carries settings item (fun payload ↦ payload.continues frozen = true)
      (Op.Finishing settings item frozen) where
  tends h := .plain (Op.plain_of_tends h)
  comment h := by
    rw [CompletionPayload.request_of_continues h]
    exact .comment
  progress := .progress
  archive := .archive

/-- Finishing a lifecycle carries its frozen outcome through, whatever is answered. -/
theorem leaves_finish (hfrozen : item.pendingCompletion = some frozen) :
    Leaves (Op.Finishing settings item frozen) (finish settings item) :=
  leaves_finish_of (progressive_continues frozen) carries_finishing hfrozen frozen.continues_self

end Freezing

end QueueCompletion

end MergeQueue
