import Kuintessence.Agent.Frames

namespace Kuintessence.Agent

open Prog

def Event.submission : Event → Option (List Uuid)
  | .submitted _ body => some body
  | _ => none

def Event.start : Event → Option (Uuid × List SubTask)
  | .started subTask rows => some (subTask, rows)
  | _ => none

def State.submissions (s : State) : List (List Uuid) := s.trace.filterMap Event.submission

def State.starts (s : State) : List (Uuid × List SubTask) := s.trace.filterMap Event.start

def State.rowsOf (s : State) (task : Uuid) : List SubTask :=
  s.subTasks.filter fun x => x.parentId = task

def State.isFull (s : State) : Bool := s.maxTasksCount ≠ 0 ∧ s.tasksCount = s.maxTasksCount

def State.isSchedulable (s : State) (task : Uuid) : Bool :=
  (Rows.find Task.id task s.tasks).any fun x => x.status = .queuing ∨ x.status = .running

def waitingOf (rows : List SubTask) : List Uuid := (rows.filter SubTask.isWaiting).map SubTask.id

def Before (submissions : List (List Uuid)) (a b : Uuid) : Prop :=
  ∀ ids ∈ submissions, a ∈ ids → b ∈ ids → [a, b].Sublist ids

instance (submissions : List (List Uuid)) (a b : Uuid) : Decidable (Before submissions a b) :=
  inferInstanceAs (Decidable (∀ ids ∈ submissions, a ∈ ids → b ∈ ids → [a, b].Sublist ids))

def AfterAll (submissions : List (List Uuid)) (start : Uuid × List SubTask) : Prop :=
  ∀ ids ∈ submissions, ∀ a, [a, start.1].Sublist ids →
    ∃ r ∈ start.2, r.id = a ∧ r.status = .completed

instance (submissions : List (List Uuid)) (start : Uuid × List SubTask) :
    Decidable (AfterAll submissions start) :=
  decidable_of_iff (∀ ids ∈ submissions, ∀ a ∈ ids, [a, start.1].Sublist ids →
    ∃ r ∈ start.2, r.id = a ∧ r.status = .completed)
    ⟨fun h ids hids a ha => h ids hids a (ha.subset (by simp)) ha,
      fun h ids hids a _ ha => h ids hids a ha⟩

def SubTask.Known (row : SubTask) : Prop := row.status ≠ .reported ∧ row.status ≠ .unknown

structure Sound (s : State) : Prop where
  nodup : (s.subTasks.map SubTask.id).Nodup
  known : ∀ r ∈ s.subTasks, r.Known
  fresh : ∀ r ∈ s.subTasks, r.id < s.nextId
  bodies : ∀ ids ∈ s.submissions, ids.Nodup ∧ ∀ i ∈ ids, i < s.nextId
  together : ∀ ids ∈ s.submissions, ∀ r ∈ s.subTasks, ∀ x ∈ s.subTasks,
    r.id ∈ ids → x.id ∈ ids → r.parentId = x.parentId
  order : (waitingOf s.subTasks).Pairwise (Before s.submissions)
  begun : ∀ p ∈ s.starts, p.1 < s.nextId
  started : ∀ p ∈ s.starts, AfterAll s.submissions p

structure Kept (s t : State) : Prop where
  nextId : t.nextId = s.nextId
  rows : ∀ r ∈ t.subTasks, ∃ x ∈ s.subTasks, x.id = r.id ∧ x.parentId = r.parentId
  nodup : (t.subTasks.map SubTask.id).Nodup
  known : ∀ r ∈ t.subTasks, r.Known
  submissions : t.submissions = s.submissions
  starts : t.starts = s.starts

theorem Sound.kept {s t : State} (hs : Sound s) (h : Kept s t)
    (horder : (waitingOf t.subTasks).Pairwise (Before s.submissions)) : Sound t where
  nodup := h.nodup
  known := h.known
  fresh := by
    intro r hr
    obtain ⟨x, hx, hid, -⟩ := h.rows r hr
    rw [← hid, h.nextId]
    exact hs.fresh x hx
  bodies := by
    rw [h.submissions, h.nextId]
    exact hs.bodies
  together := by
    rw [h.submissions]
    intro ids hids r hr x hx hrid hxid
    obtain ⟨r', hr', hrid', hrp⟩ := h.rows r hr
    obtain ⟨x', hx', hxid', hxp⟩ := h.rows x hx
    rw [← hrp, ← hxp]
    exact hs.together ids hids r' hr' x' hx' (hrid' ▸ hrid) (hxid' ▸ hxid)
  order := h.submissions ▸ horder
  begun := by
    rw [h.starts, h.nextId]
    exact hs.begun
  started := by
    rw [h.starts, h.submissions]
    exact hs.started

structure Ordered (s t : State) : Prop extends Kept s t where
  subset : ∀ a ∈ waitingOf t.subTasks, a ∈ waitingOf s.subTasks
  order : (waitingOf t.subTasks).Pairwise (Before s.submissions)

theorem Sound.ordered {s t : State} (hs : Sound s) (h : Ordered s t) : Sound t :=
  hs.kept h.toKept h.order

theorem Sound.refl {s : State} (hs : Sound s) : Ordered s s where
  nextId := rfl
  rows := fun r hr => ⟨r, hr, rfl, rfl⟩
  nodup := hs.nodup
  known := hs.known
  submissions := rfl
  starts := rfl
  subset := fun _ ha => ha
  order := hs.order

theorem starts_append_quiet {es : List Event} (h : ∀ e ∈ es, e.isMark = false) :
    es.filterMap Event.submission = [] ∧ es.filterMap Event.start = [] := by
  constructor
  · refine List.filterMap_eq_nil_iff.mpr fun e he => ?_
    have hmark := h e he
    cases e <;> first | rfl | cases hmark
  · refine List.filterMap_eq_nil_iff.mpr fun e he => ?_
    have hmark := h e he
    cases e <;> first | rfl | cases hmark

theorem trace_append {s t : State} {es : List Event} (ht : t.trace = s.trace ++ es)
    (h : es.filterMap Event.submission = [] ∧ es.filterMap Event.start = []) :
    t.submissions = s.submissions ∧ t.starts = s.starts := by
  rw [State.submissions, State.starts, ht, List.filterMap_append, List.filterMap_append, h.1, h.2,
    List.append_nil, List.append_nil]
  exact ⟨rfl, rfl⟩

theorem quiet_ordered (s : State) : Quiet (Ordered s) where
  files := fun _ _ h => { h with }
  calls := by
    intro t n es h hes
    obtain ⟨hsubs, hstarts⟩ := trace_append (s := t)
      (t := { t with calls := n, trace := t.trace ++ es }) rfl (starts_append_quiet hes)
    exact { h with submissions := hsubs.trans h.submissions, starts := hstarts.trans h.starts }

theorem waitingOf_append (rows rows' : List SubTask) :
    waitingOf (rows ++ rows') = waitingOf rows ++ waitingOf rows' := by
  rw [waitingOf, List.filter_append, List.map_append]
  rfl

theorem waitingOf_sublist {rows rows' : List SubTask} (h : rows.Sublist rows') :
    (waitingOf rows).Sublist (waitingOf rows') := (h.filter _).map _

theorem mem_waitingOf {rows : List SubTask} {a : Uuid} :
    a ∈ waitingOf rows ↔ ∃ r ∈ rows, r.isWaiting = true ∧ r.id = a := by
  simp [waitingOf, and_assoc]

theorem Kept.write {s t : State} {row : SubTask} (h : Kept s t)
    (hrow : ∃ x ∈ s.subTasks, x.id = row.id ∧ x.parentId = row.parentId) (hknown : row.Known) :
    Kept s (t.putSubTask row) where
  nextId := h.nextId
  rows := by
    intro r hr
    obtain ⟨hmem, -⟩ | rfl := (Rows.mem_put h.nodup).mp hr
    · exact h.rows r hmem
    · exact hrow
  nodup := Rows.nodup_put h.nodup row
  known := by
    intro r hr
    obtain ⟨hmem, -⟩ | rfl := (Rows.mem_put h.nodup).mp hr
    · exact h.known r hmem
    · exact hknown
  submissions := h.submissions
  starts := h.starts

theorem waitingOf_put (rows : List SubTask) (row : SubTask) :
    waitingOf (Rows.put SubTask.id row rows) =
      waitingOf (rows.eraseP fun x => x.id = row.id) ++ waitingOf [row] :=
  waitingOf_append _ _

-- Where a waiting row goes to the end, all that still wait must come before it.
def Last (s : State) (id : Uuid) : Prop :=
  id ∈ waitingOf s.subTasks ∧ ∀ a ∈ waitingOf s.subTasks, a ≠ id → Before s.submissions a id

theorem Ordered.write {s t : State} {row : SubTask} (h : Ordered s t)
    (hrow : ∃ x ∈ s.subTasks, x.id = row.id ∧ x.parentId = row.parentId) (hknown : row.Known)
    (hlast : row.isWaiting = true → Last s row.id) : Ordered s (t.putSubTask row) := by
  have hsub : (waitingOf (t.subTasks.eraseP fun x => x.id = row.id)).Sublist
      (waitingOf t.subTasks) := waitingOf_sublist List.eraseP_sublist
  have hsingle {a : Uuid} (ha : a ∈ waitingOf [row]) : row.isWaiting = true ∧ a = row.id := by
    obtain ⟨r, hr, hw, rfl⟩ := mem_waitingOf.mp ha
    obtain rfl := List.mem_singleton.mp hr
    exact ⟨hw, rfl⟩
  refine { h.toKept.write hrow hknown with subset := ?_, order := ?_ }
  · intro a ha
    obtain hold | hnew := List.mem_append.mp (waitingOf_put t.subTasks row ▸ ha)
    · exact h.subset a (hsub.subset hold)
    · obtain ⟨hw, rfl⟩ := hsingle hnew
      exact (hlast hw).1
  · change (waitingOf (Rows.put SubTask.id row t.subTasks)).Pairwise _
    rw [waitingOf_put, List.pairwise_append]
    refine ⟨h.order.sublist hsub, ?_, ?_⟩
    · exact ((List.pairwise_singleton _ row).sublist List.filter_sublist).map _ fun _ _ h => h
    · intro a ha b hb
      obtain ⟨hw, rfl⟩ := hsingle hb
      obtain ⟨r, hr, -, rfl⟩ := mem_waitingOf.mp ha
      rw [Rows.erase_eq_filter h.nodup] at hr
      exact (hlast hw).2 r.id (h.subset _ (hsub.subset ha)) (by simpa using (List.mem_filter.mp hr).2)

theorem rewrites_ordered {s : State} {id : Uuid} {f : SubTask → SubTask}
    (hid : ∀ row, (f row).id = row.id) (hparent : ∀ row, (f row).parentId = row.parentId)
    (hknown : ∀ row, row.Known → (f row).Known)
    (hlast : ∀ row, Reads (Ordered s) id row → (f row).isWaiting = true → Last s id) :
    Rewrites (Ordered s) id f := by
  rintro row ⟨u, hu, hmem, rfl⟩ t ht -
  obtain ⟨x, hx, hxid, hxp⟩ := hu.rows row hmem
  refine ht.write ⟨x, hx, hxid.trans (hid row).symm, hxp.trans (hparent row).symm⟩
    (hknown row (hu.known row hmem)) fun hw => ?_
  rw [hid]
  exact hlast row ⟨u, hu, hmem, rfl⟩ hw

theorem rewrites_status {s : State} {id : Uuid} {f : SubTask → SubTask} (status : TaskStatus)
    (hid : ∀ row, (f row).id = row.id) (hparent : ∀ row, (f row).parentId = row.parentId)
    (hstatus : ∀ row, (f row).status = status)
    (h : status = .running ∨ status = .completing ∨ status = .completed ∨ status = .failed) :
    Rewrites (Ordered s) id f := by
  refine rewrites_ordered hid hparent (fun row _ => ?_) fun row _ hw => ?_
  · rw [SubTask.Known, hstatus]
    obtain rfl | rfl | rfl | rfl := h <;> decide
  · rw [SubTask.isWaiting, hstatus] at hw
    obtain rfl | rfl | rfl | rfl := h <;> cases hw

theorem rewrites_keeping {s : State} {id : Uuid} {f : SubTask → SubTask}
    (hlast : id ∈ waitingOf s.subTasks → Last s id) (hid : ∀ row, (f row).id = row.id)
    (hparent : ∀ row, (f row).parentId = row.parentId)
    (hstatus : ∀ row, (f row).status = row.status) : Rewrites (Ordered s) id f := by
  refine rewrites_ordered hid hparent (fun row hrow => ?_) ?_
  · rwa [SubTask.Known, hstatus]
  · rintro row ⟨t, ht, hmem, rfl⟩ hw
    rw [SubTask.isWaiting, hstatus] at hw
    exact hlast (ht.subset _ (mem_waitingOf.mpr ⟨row, hmem, hw, rfl⟩))

theorem erasable_ordered (s : State) (id : Uuid) : Erasable (Ordered s) id := by
  intro t ht
  have hsub : (t.dropSubTask id).subTasks.Sublist t.subTasks := List.eraseP_sublist
  exact
    { ht with
      rows := fun r hr => ht.rows r (hsub.subset hr)
      nodup := ht.nodup.sublist (hsub.map SubTask.id)
      known := fun r hr => ht.known r (hsub.subset hr)
      subset := fun a ha => ht.subset a ((waitingOf_sublist hsub).subset ha)
      order := ht.order.sublist (waitingOf_sublist hsub) }

section Background

variable (s : State)

theorem refreshStatus_ordered (id : Uuid) :
    Preserves (Ordered s) (RunJob.refreshStatus id) fun _ => True :=
  RunJob.preserves_refreshStatus (quiet_ordered s)
    (fun _ => rewrites_status .completing (fun _ => rfl) (fun _ => rfl) (fun _ => rfl) (by simp))
    fun _ _ => rewrites_status .failed (fun _ => rfl) (fun _ => rfl) (fun _ => rfl) (by simp)

theorem refreshAllStatus_ordered :
    Preserves (Ordered s) RunJob.refreshAllStatus fun _ => True := by
  have hread : Preserves (Ordered s) (op SubTasks.getAllRefreshableTask) fun _ => True :=
    preserves_atom fun _ _ ht => ⟨ht, trivial⟩
  exact hread.bind fun _ _ => Preserves.each fun task _ => refreshStatus_ordered s task.id

theorem failJob_ordered (id : Uuid) (reason : String) :
    Preserves (Ordered s) (RunJob.failJob id reason) fun _ => True :=
  RunJob.preserves_failJob (quiet_ordered s)
    (rewrites_status .failed (fun _ => rfl) (fun _ => rfl) (fun _ => rfl) (by simp))

theorem completeDeployment_ordered (id : Uuid) :
    Preserves (Ordered s) (DeploySoftware.completeSubTask id) fun _ => True :=
  DeploySoftware.preserves_completeSubTask (quiet_ordered s)
    (rewrites_status .completed (fun _ => rfl) (fun _ => rfl) (fun _ => rfl) (by simp))

theorem failDeployment_ordered (id : Uuid) :
    Preserves (Ordered s) (DeploySoftware.failSubTask id) fun _ => True :=
  DeploySoftware.preserves_failSubTask (quiet_ordered s)
    (rewrites_status .failed (fun _ => rfl) (fun _ => rfl) (fun _ => rfl) (by simp))

theorem runSubTask_ordered {id : Uuid} (h : id ∈ waitingOf s.subTasks → Last s id) :
    Preserves (Ordered s) (DeploySoftware.runSubTask id) fun _ => True :=
  DeploySoftware.preserves_runSubTask (quiet_ordered s) fun _ =>
    rewrites_keeping h (fun _ => rfl) (fun _ => rfl) fun _ => rfl

theorem internalRunJob_ordered {id : Uuid} (h : id ∈ waitingOf s.subTasks → Last s id) :
    Preserves (Ordered s) (RunJob.internalRunJob id) fun _ => True :=
  RunJob.preserves_internalRunJob (quiet_ordered s)
    (fun _ => rewrites_keeping h (fun _ => rfl) (fun _ => rfl) fun _ => rfl)
    fun _ => rewrites_status .failed (fun _ => rfl) (fun _ => rfl) (fun _ => rfl) (by simp)

end Background

section Starting

def Idle (s : State) (id : Uuid) (t : State) : Prop :=
  Ordered s t ∧ id ∉ waitingOf t.subTasks

theorem quiet_idle (s : State) (id : Uuid) : Quiet (Idle s id) where
  files := fun t files h => ⟨(quiet_ordered s).files t files h.1, h.2⟩
  calls := fun t n es h hes => ⟨(quiet_ordered s).calls t n es h.1 hes, h.2⟩

theorem Ordered.write_idle {s t : State} {row : SubTask} (h : Ordered s t)
    (hrow : ∃ x ∈ s.subTasks, x.id = row.id ∧ x.parentId = row.parentId) (hknown : row.Known)
    (hidle : row.isWaiting = false) : Idle s row.id (t.putSubTask row) := by
  refine ⟨h.write hrow hknown fun hw => ?_, fun hmem => ?_⟩
  · rw [hidle] at hw
    cases hw
  · obtain ⟨r, hr, hw, hid⟩ := mem_waitingOf.mp hmem
    obtain ⟨-, hne⟩ | rfl := (Rows.mem_put h.nodup).mp hr
    · exact hne hid
    · rw [hidle] at hw
      cases hw

theorem rewrites_idle {s : State} {id : Uuid} {f : SubTask → SubTask}
    (hid : ∀ row, (f row).id = row.id) (hparent : ∀ row, (f row).parentId = row.parentId)
    (hknown : ∀ row, row.Known → (f row).Known)
    (hwaits : ∀ row, row.isWaiting = false → (f row).isWaiting = false) :
    Rewrites (Idle s id) id f := by
  rintro row ⟨u, hu, hmem, rfl⟩ t ht -
  obtain ⟨x, hx, hxid, hxp⟩ := hu.1.rows row hmem
  have hrow : row.isWaiting = false := by
    by_contra hw
    exact hu.2 (mem_waitingOf.mpr ⟨row, hmem, by simpa using hw, rfl⟩)
  have hput := ht.1.write_idle ⟨x, hx, hxid.trans (hid row).symm, hxp.trans (hparent row).symm⟩
    (hknown row (hu.1.known row hmem)) (hwaits row hrow)
  rwa [hid] at hput

theorem internalRunJob_idle (s : State) (id : Uuid) :
    Preserves (Idle s id) (RunJob.internalRunJob id) fun _ => True := by
  refine RunJob.preserves_internalRunJob (quiet_idle s id) (fun jobId => ?_) fun reason => ?_
  · exact rewrites_idle (fun _ => rfl) (fun _ => rfl) (fun _ h => h) fun _ h => h
  · refine rewrites_idle (fun _ => rfl) (fun _ => rfl) (fun _ _ => ?_) fun _ _ => rfl
    exact ⟨by simp, by simp⟩

theorem enqueueJob_ordered (s : State) (id : Uuid) :
    Preserves (Ordered s) (RunJob.enqueueSubTask id) fun _ => True := by
  have hrun : Rewrites (Ordered s) id fun row => { row with status := .running } :=
    rewrites_status .running (fun _ => rfl) (fun _ => rfl) (fun _ => rfl) (by simp)
  refine preserves_getSubTask.bind fun task htask => preserves_findFilesByTask.bind fun files _ => ?_
  refine Preserves.ite (fun _ => ?_) fun _ => ?_
  · obtain ⟨u, hu, hmem, rfl⟩ := htask
    have hrest := (preserves_saveChanged (quiet_idle s task.id)).bind fun _ _ =>
      internalRunJob_idle s task.id
    intro env t ht
    rw [exec_bind, Effect.wp_bind]
    change Effect.wp (SubTasks.update _) env _ _ t
    simp only [SubTasks.update, Effect.wp_bind, Effect.wp_get, Effect.wp_lift, Effect.wp_modify]
    refine ⟨fun rows hrows => ?_, fun _ => ht⟩
    rw [Outcome.okOr_ok_iff, Rows.replace, Option.ite_none_right_eq_some] at hrows
    obtain ⟨-, heq⟩ := hrows
    cases heq
    have hidle : Idle s task.id (t.putSubTask { task with status := .running }) :=
      ht.write_idle (hu.rows task hmem) ⟨by simp, by simp⟩ rfl
    exact Effect.wp_mono (hrest env _ hidle) (fun _ _ h => ⟨h.1.1, h.2⟩) fun _ h => h.1
  · exact (RunJob.preserves_downloads (quiet_ordered s) _ _).bind fun _ _ =>
      (preserves_updateSubTask (hrun task htask)).bind fun _ _ =>
        preserves_saveChanged (quiet_ordered s)

theorem continueJob_ordered {s : State} {id : Uuid} (h : Last s id) :
    Preserves (Ordered s) (RunJob.continueSubTask id) fun _ => True := by
  refine RunJob.preserves_continueSubTask (quiet_ordered s) ?_
  refine rewrites_ordered (fun _ => rfl) (fun _ => rfl) (fun _ _ => ?_) fun _ _ _ => h
  exact ⟨by simp, by simp⟩

theorem enqueueDeployment_ordered (s : State) (id : Uuid) :
    Preserves (Ordered s) (DeploySoftware.enqueueSubTask id) fun _ => True :=
  DeploySoftware.preserves_enqueueSubTask (quiet_ordered s)
    (rewrites_status .running (fun _ => rfl) (fun _ => rfl) (fun _ => rfl) (by simp))

theorem enqueueCollection_ordered (s : State) (id : Uuid) :
    Preserves (Ordered s) (Collection.enqueueSubTask id) fun _ => True :=
  Collection.preserves_enqueueSubTask (quiet_ordered s)
    (rewrites_status .completed (fun _ => rfl) (fun _ => rfl) (fun _ => rfl) (by simp))
    fun _ => rewrites_status .failed (fun _ => rfl) (fun _ => rfl) (fun _ => rfl) (by simp)

theorem enqueue_ordered (s : State) (id : Uuid) {type : TaskDisplayType} {service : SubTaskService}
    (h : subTaskServices type = some service) :
    Preserves (Ordered s) (service.enqueueSubTask id) fun _ => True := by
  cases type with
  | softwareDeployment => cases h; exact enqueueDeployment_ordered s id
  | usecaseExecution => cases h; exact enqueueJob_ordered s id
  | collectedOut => cases h; exact enqueueCollection_ordered s id
  | unknown => cases h

theorem continue_ordered {s : State} {id : Uuid} {type : TaskDisplayType}
    {service : SubTaskService} (h : subTaskServices type = some service)
    (hlast : type = .usecaseExecution → Last s id) :
    Preserves (Ordered s) (service.continueSubTask id) fun _ => True := by
  cases type with
  | softwareDeployment => cases h; exact enqueueDeployment_ordered s id
  | usecaseExecution => cases h; exact continueJob_ordered (hlast rfl)
  | collectedOut => cases h; exact preserves_pure trivial
  | unknown => cases h

end Starting

section Scheduling

structure Alike (s t : State) : Prop where
  subTasks : t.subTasks = s.subTasks
  nextId : t.nextId = s.nextId
  submissions : t.submissions = s.submissions
  starts : t.starts = s.starts
  tasksCount : t.tasksCount = s.tasksCount
  maxTasksCount : t.maxTasksCount = s.maxTasksCount

theorem Alike.refl (s : State) : Alike s s := ⟨rfl, rfl, rfl, rfl, rfl, rfl⟩

theorem Sound.congr {s t : State} (hs : Sound s) (hsub : t.subTasks = s.subTasks)
    (hid : t.nextId = s.nextId) (hsubs : t.submissions = s.submissions)
    (hstarts : t.starts = s.starts) : Sound t :=
  hs.kept ⟨hid, fun r hr => ⟨r, hsub ▸ hr, rfl, rfl⟩, hsub ▸ hs.nodup, hsub ▸ hs.known, hsubs,
    hstarts⟩ (hsub ▸ hs.order)

theorem Sound.alike {s t : State} (hs : Sound s) (h : Alike s t) : Sound t :=
  hs.congr h.subTasks h.nextId h.submissions h.starts

theorem quiet_alike (s : State) : Quiet (Alike s) where
  files := fun _ _ h => { h with }
  calls := by
    intro t n es h hes
    obtain ⟨hsubs, hstarts⟩ := trace_append (s := t)
      (t := { t with calls := n, trace := t.trace ++ es }) rfl (starts_append_quiet hes)
    exact { h with submissions := hsubs.trans h.submissions, starts := hstarts.trans h.starts }

theorem updateTask_alike (s : State) (task : Task) :
    Preserves (Alike s) (op (Tasks.update task)) fun _ => True := by
  refine preserves_atom fun env t ht => ?_
  simp only [Tasks.update, Effect.wp_bind, Effect.wp_read, Effect.wp_get, Effect.wp_lift,
    Effect.wp_modify]
  exact ⟨fun tasks _ => ⟨{ ht with }, trivial⟩, fun _ => ht⟩

theorem reportStarted_alike (s : State) (id : Uuid) :
    Preserves (Alike s) (TaskReport.reportStartedTask id) fun _ => True := by
  refine preserves_atom fun env t ht => ?_
  unfold Effect.wp call
  cases env.fails t.calls with
  | some e => exact { ht with }
  | none =>
    refine ⟨?_, trivial⟩
    obtain ⟨hsubs, hstarts⟩ := trace_append (s := t)
      (t := { t with calls := t.calls + 1, trace := t.trace ++ [.reported .start id "" none] })
      rfl ⟨rfl, rfl⟩
    exact { ht with submissions := hsubs.trans ht.submissions, starts := hstarts.trans ht.starts }

theorem makeRunning_alike (s : State) (task : Task) :
    Preserves (Alike s) (TaskScheduler.makeRunning task) fun _ => True := by
  refine Preserves.ite (fun _ => ?_) fun _ => Preserves.ite (fun _ => preserves_pure trivial)
    fun _ => preserves_fail _
  exact (updateTask_alike s _).bind fun _ _ => preserves_saveChanged (quiet_alike s)

theorem wp_getTask {env : Env} {s : State} {id : Uuid} :
    Effect.wp (Tasks.getById id) env (fun task t => t = s ∧ task.body = s.rowsOf id ∧
      ∃ x, Rows.find Task.id id s.tasks = some x ∧ task.id = x.id ∧ task.status = x.status)
      (fun t => t = s) s := by
  simp only [Tasks.getById, Effect.wp_bind, Effect.wp_get, Effect.wp_lift, Effect.wp_pure]
  refine ⟨fun x hx => ⟨trivial, rfl, x, ?_, rfl, rfl⟩, fun _ => trivial⟩
  rwa [Outcome.okOr_ok_iff] at hx

-- The next sub-task may start, and moving it to the end keeps the order.
def Dispatchable (s : State) (q : Uuid) : Prop :=
  s.isFull = false → (s.rowsOf q).any SubTask.isBusy = false →
    ∀ b, (s.rowsOf q).find? SubTask.isWaiting = some b →
      (∀ ids ∈ s.submissions, ∀ a, [a, b.id].Sublist ids →
        ∃ r ∈ s.subTasks, r.id = a ∧ r.status ≠ .failed) ∧
      (b.status = .suspended → TaskDisplayType.from b.taskType = .usecaseExecution → Last s b.id)

instance (s : State) (id : Uuid) : Decidable (Last s id) :=
  inferInstanceAs (Decidable (id ∈ waitingOf s.subTasks ∧
    ∀ a ∈ waitingOf s.subTasks, a ≠ id → Before s.submissions a id))

instance (s : State) (q : Uuid) : Decidable (Dispatchable s q) :=
  decidable_of_iff (¬s.isFull = false ∨ ¬(s.rowsOf q).any SubTask.isBusy = false ∨
    ∀ b ∈ (s.rowsOf q).find? SubTask.isWaiting,
      (∀ ids ∈ s.submissions, ∀ a ∈ ids, ¬[a, b.id].Sublist ids ∨
        ∃ r ∈ s.subTasks, r.id = a ∧ r.status ≠ .failed) ∧
      (¬b.status = .suspended ∨ ¬TaskDisplayType.from b.taskType = .usecaseExecution ∨
        Last s b.id))
    (by
      simp only [← imp_iff_not_or]
      refine imp_congr_right fun _ => imp_congr_right fun _ => forall_congr' fun b =>
        imp_congr_right fun _ => and_congr_left fun _ => forall₂_congr fun ids _ => ?_
      exact ⟨fun h a ha => h a (ha.subset (by simp)) ha, fun h a _ ha => h a ha⟩)

theorem Dispatchable.alike {s t : State} {q : Uuid} (h : Dispatchable s q) (ha : Alike s t) :
    Dispatchable t q := by
  unfold Dispatchable State.isFull State.rowsOf Last at *
  rw [ha.subTasks, ha.submissions, ha.tasksCount, ha.maxTasksCount]
  exact h

theorem not_sublist_swap {ids : List Uuid} (h : ids.Nodup) {a b : Uuid}
    (hab : [a, b].Sublist ids) (hba : [b, a].Sublist ids) : False := by
  induction ids with
  | nil => cases hab
  | cons x ids ih =>
    rw [List.nodup_cons] at h
    cases hab with
    | cons _ hab =>
      cases hba with
      | cons _ hba => exact ih h.2 hab hba
      | cons_cons _ _ => exact h.1 (hab.subset (by simp))
    | cons_cons _ hb =>
      cases hba with
      | cons _ hba => exact h.1 (hba.subset (by simp))
      | cons_cons _ _ => exact h.1 (hb.subset (by simp))

theorem filter_of_find? {α : Type} {p : α → Bool} {xs : List α} {b : α}
    (h : xs.find? p = some b) : ∃ rest, xs.filter p = b :: rest := by
  obtain ⟨hb, pre, post, rfl, hpre⟩ := List.find?_eq_some_iff_append.mp h
  have hnil : pre.filter p = [] := List.filter_eq_nil_iff.mpr fun x hx => by simpa using hpre x hx
  exact ⟨post.filter p, by rw [List.filter_append, hnil, List.filter_cons_of_pos hb]; rfl⟩

theorem Sound.after {s : State} {q : Uuid} (hs : Sound s) {b : SubTask}
    (hbusy : (s.rowsOf q).any SubTask.isBusy = false)
    (hb : (s.rowsOf q).find? SubTask.isWaiting = some b)
    (hleft : ∀ ids ∈ s.submissions, ∀ a, [a, b.id].Sublist ids →
      ∃ r ∈ s.subTasks, r.id = a ∧ r.status ≠ .failed) :
    AfterAll s.submissions (b.id, s.subTasks) := by
  intro ids hids a hab
  obtain ⟨r, hr, rfl, hfailed⟩ := hleft ids hids a hab
  refine ⟨r, hr, rfl, ?_⟩
  have hbrows : b ∈ s.rowsOf q := List.mem_of_find?_eq_some hb
  obtain ⟨hbmem, hbq⟩ := List.mem_filter.mp hbrows
  have hrids : r.id ∈ ids := hab.subset (by simp)
  have hbids : b.id ∈ ids := hab.subset (by simp)
  have hrq : r.parentId = q := by
    rw [hs.together ids hids r hr b hbmem hrids hbids]
    simpa using hbq
  have hrrows : r ∈ s.rowsOf q := List.mem_filter.mpr ⟨hr, by simpa using hrq⟩
  have hidle : r.isBusy = false := by simpa using List.any_eq_false.mp hbusy r hrrows
  have hwaits : r.isWaiting = false := by
    by_contra hw
    rw [Bool.not_eq_false] at hw
    have hnodup := (hs.bodies ids hids).1
    obtain ⟨rest, hrest⟩ := filter_of_find? hb
    have hr : r ∈ b :: rest := hrest ▸ List.mem_filter.mpr ⟨hrrows, hw⟩
    obtain rfl | hr := List.mem_cons.mp hr
    · exact absurd (hnodup.sublist hab) (by simp)
    have hpair : [b, r].Sublist ((s.rowsOf q).filter SubTask.isWaiting) :=
      hrest ▸ (List.singleton_sublist.mpr hr).cons_cons b
    have hwait : [b.id, r.id].Sublist (waitingOf s.subTasks) :=
      (hpair.trans (List.filter_sublist.filter _)).map SubTask.id
    have hbefore := (List.pairwise_pair.mp (hs.order.sublist hwait)) ids hids hbids hrids
    exact not_sublist_swap hnodup hab hbefore
  have hknown := hs.known r hr
  cases hstatus : r.status <;>
    simp_all [SubTask.isBusy, SubTask.isWaiting, SubTask.Known]

theorem startSubTask_sound {s : State} (hs : Sound s) {b : SubTask} {service : SubTaskService}
    (hservice : subTaskServices (.from b.taskType) = some service) (hfresh : b.id < s.nextId)
    (hafter : AfterAll s.submissions (b.id, s.subTasks))
    (hlast : b.status = .suspended → TaskDisplayType.from b.taskType = .usecaseExecution →
      Last s b.id) (env : Env) :
    Effect.wp (exec (TaskScheduler.startSubTask b service)) env (fun _ => Sound) Sound s := by
  let t : State := { s with trace := s.trace ++ [.started b.id s.subTasks] }
  have hsubs : t.submissions = s.submissions := by
    simp [t, State.submissions, Event.submission]
  have hstarts : t.starts = s.starts ++ [(b.id, s.subTasks)] := by
    simp [t, State.starts, Event.start]
  have ht : Sound t :=
    { nodup := hs.nodup
      known := hs.known
      fresh := hs.fresh
      bodies := hsubs ▸ hs.bodies
      together := hsubs ▸ hs.together
      order := hsubs ▸ hs.order
      begun := by
        intro p hp
        obtain hold | hnew := List.mem_append.mp (hstarts ▸ hp)
        · exact hs.begun p hold
        · obtain rfl := List.mem_singleton.mp hnew
          exact hfresh
      started := by
        intro p hp
        rw [hsubs]
        obtain hold | hnew := List.mem_append.mp (hstarts ▸ hp)
        · exact hs.started p hold
        · obtain rfl := List.mem_singleton.mp hnew
          exact hafter }
  have hlast' (hsusp : b.status = .suspended)
      (htype : TaskDisplayType.from b.taskType = .usecaseExecution) : Last t b.id :=
    ⟨(hlast hsusp htype).1, hsubs ▸ (hlast hsusp htype).2⟩
  have hrun {p : Op Unit} (hp : Preserves (Ordered t) p fun _ => True) :
      Effect.wp (exec p) env (fun _ => Sound) Sound t :=
    Effect.wp_mono (hp env t ht.refl) (fun _ _ h => ht.ordered h.1) fun _ h => ht.ordered h
  simp only [TaskScheduler.startSubTask, op, exec_bind, exec_atom, Effect.wp_bind, Effect.wp_modify]
  change Effect.wp _ env (fun _ => Sound) Sound t
  split
  · exact hrun (enqueue_ordered t b.id hservice)
  · next hsusp => exact hrun (continue_ordered hservice (hlast' hsusp))
  · exact ht

theorem dispatch_sound {s : State} (hs : Sound s) {b : SubTask} (hmem : b ∈ s.subTasks)
    (hstart : s.isFull = false → AfterAll s.submissions (b.id, s.subTasks) ∧
      (b.status = .suspended → TaskDisplayType.from b.taskType = .usecaseExecution → Last s b.id))
    (env : Env) :
    Effect.wp (exec (TaskScheduler.dispatch b)) env (fun _ => Sound) Sound s := by
  simp only [TaskScheduler.dispatch, TaskScheduler.loadTasksCount, op, exec_bind, exec_atom,
    Effect.wp_bind, Effect.wp_get, Effect.wp_pure]
  split
  · exact hs
  · next hfull =>
    obtain ⟨hafter, hlast⟩ := hstart (by simpa [State.isFull] using hfull)
    simp only [exec_bind, exec_done, Effect.wp_bind, Effect.wp_lift,
      TaskScheduler.storeTasksCount, exec_atom, Effect.wp_modify]
    refine ⟨fun count _ => ⟨fun service hservice => ?_, fun _ => ?_⟩, fun _ => hs⟩
    all_goals
      let t : State := { s with tasksCount := count, trace := s.trace ++ [.dispatched b.id] }
      obtain ⟨hsubs, hstarts⟩ := trace_append (s := s) (t := t) rfl ⟨rfl, rfl⟩
      have ht : Sound t := hs.congr rfl rfl hsubs hstarts
    · rw [Outcome.okOr_ok_iff] at hservice
      refine startSubTask_sound ht hservice (hs.fresh b hmem) ?_ (fun hsusp htype => ?_) env
      · rw [hsubs]
        exact hafter
      · refine ⟨(hlast hsusp htype).1, ?_⟩
        rw [hsubs]
        exact (hlast hsusp htype).2
    · exact ht

theorem scheduleNextTaskById_sound {s : State} (hs : Sound s) {q : Uuid}
    (hq : s.isSchedulable q = true → Dispatchable s q) (env : Env) :
    Effect.wp (exec (TaskScheduler.scheduleNextTaskById q)) env (fun _ => Sound) Sound s := by
  simp only [TaskScheduler.scheduleNextTaskById, op, exec_bind, exec_atom, Effect.wp_bind]
  refine Effect.wp_mono wp_getTask ?_ fun t ht => ht ▸ hs
  rintro task t ⟨rfl, hbody, x, hx, hid, hstatus⟩
  by_cases hsched : t.isSchedulable q = true
  · refine Effect.wp_mono (makeRunning_alike t task env t (.refl t)) ?_ fun u hu => hs.alike hu
    rintro - u ⟨hu, -⟩
    refine Effect.wp_mono (reportStarted_alike t q env u hu) ?_ fun v hv => hs.alike hv
    rintro - v ⟨hv, -⟩
    have hsound := hs.alike hv
    have hrows : task.body = v.rowsOf q := by rw [hbody, State.rowsOf, State.rowsOf, hv.subTasks]
    rw [hrows]
    split
    · exact hsound
    · next hbusy =>
      rw [Bool.not_eq_true] at hbusy
      simp only [exec_bind, exec_done, Effect.wp_bind, Effect.wp_lift]
      refine ⟨fun b hb => ?_, fun _ => hsound⟩
      rw [Outcome.okOr_ok_iff] at hb
      have hmem : b ∈ v.subTasks := List.mem_of_mem_filter (List.mem_of_find?_eq_some hb)
      refine dispatch_sound hsound hmem (fun hfull => ?_) env
      obtain ⟨hleft, hlast⟩ := ((hq hsched).alike hv) hfull hbusy b hb
      exact ⟨hsound.after hbusy hb hleft, hlast⟩
  · have hother : task.status ≠ .queuing ∧ task.status ≠ .running := by
      rw [hstatus]
      simpa [State.isSchedulable, hx] using hsched
    rw [TaskScheduler.makeRunning, if_neg hother.1, if_neg hother.2]
    exact hs

end Scheduling

end Kuintessence.Agent
