import Kuintessence.Agent.Ordering

namespace Kuintessence.Agent

open Prog

namespace KafkaMessageQueue

theorem le_fileInfos (next : Uuid) (files : List Dto.FileInfo) :
    next ≤ (fileInfos next files).2 := by
  induction files generalizing next with
  | nil => exact Nat.le_refl next
  | cons file files ih =>
    have hfile : next ≤ (fileInfo next file).2 := by
      cases file with
      | input path isPackage form => cases form <;> simp [fileInfo]
      | output id path isPackage optional => simp [fileInfo]
    exact Nat.le_trans hfile (ih _)

theorem subTask_spec (parentId next : Uuid) (body : Dto.TaskBody) :
    (subTask parentId next body).1.id = next ∧
      (subTask parentId next body).1.parentId = parentId ∧
      next < (subTask parentId next body).2 := by
  cases body with
  | softwareDeployment facility command => simp [subTask]
  | usecaseExecution name facility arguments environments stdIn files requirements =>
    exact ⟨rfl, rfl, Nat.lt_of_lt_of_le (Nat.lt_succ_self next) (le_fileInfos (next + 1) files)⟩
  | collectedOut collectFrom rule collectTo optional => simp [subTask]

theorem subTasks_spec (parentId next : Uuid) (body : List Dto.TaskBody) :
    next ≤ (subTasks parentId next body).2 ∧
      ((subTasks parentId next body).1.map SubTask.id).Pairwise (· < ·) ∧
      ∀ r ∈ (subTasks parentId next body).1,
        r.parentId = parentId ∧ next ≤ r.id ∧ r.id < (subTasks parentId next body).2 := by
  induction body generalizing next with
  | nil => simp [subTasks]
  | cons body rest ih =>
    obtain ⟨hid, hparent, hlt⟩ := subTask_spec parentId next body
    obtain ⟨hle, hincr, hrows⟩ := ih (subTask parentId next body).2
    simp only [subTasks, List.map_cons, List.pairwise_cons, List.mem_cons, forall_eq_or_imp,
      List.mem_map, forall_exists_index, and_imp, forall_apply_eq_imp_iff₂]
    rw [hid, hparent]
    refine ⟨Nat.le_trans (Nat.le_of_lt hlt) hle, ⟨fun r hr => ?_, hincr⟩, ⟨rfl, Nat.le_refl next, ?_⟩, fun r hr => ?_⟩
    · exact Nat.lt_of_lt_of_le hlt (hrows r hr).2.1
    · exact Nat.lt_of_lt_of_le hlt hle
    · exact ⟨(hrows r hr).1, Nat.le_trans (Nat.le_of_lt hlt) (hrows r hr).2.1, (hrows r hr).2.2⟩

end KafkaMessageQueue

theorem put_eq_append {rows : List SubTask} {row : SubTask} (h : ∀ r ∈ rows, r.id ≠ row.id) :
    Rows.put SubTask.id row rows = rows ++ [row] := by
  rw [Rows.put, List.eraseP_of_forall_not fun r hr => by simpa using h r hr]

theorem foldl_insert (body : List SubTask) (s : State)
    (hnew : ∀ row ∈ body, ∀ r ∈ s.subTasks, r.id ≠ row.id) (hnodup : (body.map SubTask.id).Nodup) :
    ∃ files, body.foldl SubTasks.insert s =
      { s with subTasks := s.subTasks ++ body, taskFiles := files } := by
  induction body generalizing s with
  | nil => exact ⟨s.taskFiles, by simp⟩
  | cons row body ih =>
    rw [List.map_cons, List.nodup_cons] at hnodup
    have hput : (SubTasks.insert s row).subTasks = s.subTasks ++ [row] :=
      put_eq_append fun r hr => hnew row List.mem_cons_self r hr
    have hrest : ∀ x ∈ body, ∀ r ∈ (SubTasks.insert s row).subTasks, r.id ≠ x.id := by
      intro x hx r hr
      rw [hput, List.mem_append, List.mem_singleton] at hr
      obtain hr | rfl := hr
      · exact hnew x (List.mem_cons_of_mem row hx) r hr
      · exact fun heq => hnodup.1 (heq ▸ List.mem_map_of_mem hx)
    obtain ⟨files, hfiles⟩ := ih (SubTasks.insert s row) hrest hnodup.2
    refine ⟨files, ?_⟩
    rw [List.foldl_cons, hfiles, hput, List.append_assoc, List.singleton_append]
    rfl

-- The state after a task's sub-tasks were stored behind the others.
structure Stored (s : State) (task : Uuid) (body : List SubTask) (t : State) : Prop where
  subTasks : t.subTasks = s.subTasks ++ body
  submissions : t.submissions = s.submissions ++ [body.map SubTask.id]
  starts : t.starts = s.starts
  tasksCount : t.tasksCount = s.tasksCount
  maxTasksCount : t.maxTasksCount = s.maxTasksCount
  parents : ∀ r ∈ body, r.parentId = task
  queuing : ∀ r ∈ body, r.status = .queuing
  old : s.nextId ≤ t.nextId
  new : ∀ r ∈ body, s.nextId ≤ r.id ∧ r.id < t.nextId
  nodup : (body.map SubTask.id).Nodup

section Stored

variable {s t : State} {task : Uuid} {body : List SubTask}

theorem Stored.waiting (h : Stored s task body t) :
    waitingOf t.subTasks = waitingOf s.subTasks ++ body.map SubTask.id := by
  have hall : body.filter SubTask.isWaiting = body :=
    List.filter_eq_self.mpr fun r hr => by simp [SubTask.isWaiting, h.queuing r hr]
  rw [h.subTasks, waitingOf_append, waitingOf, waitingOf, hall]

theorem Stored.not_mem (h : Stored s task body t) {i : Uuid} (hi : i < s.nextId) :
    i ∉ body.map SubTask.id := by
  intro hmem
  obtain ⟨r, hr, rfl⟩ := List.mem_map.mp hmem
  exact Nat.not_lt.mpr (h.new r hr).1 hi

theorem Stored.before_old (h : Stored s task body t) {a b : Uuid} (hb : b < s.nextId)
    (hab : Before s.submissions a b) : Before t.submissions a b := by
  intro ids hids ha hbids
  rw [h.submissions, List.mem_append, List.mem_singleton] at hids
  obtain hids | rfl := hids
  · exact hab ids hids ha hbids
  · exact absurd hbids (h.not_mem hb)

theorem Stored.before_new (h : Stored s task body t) (hs : Sound s) {a b : Uuid}
    (ha : a < s.nextId) (hb : b ∈ body.map SubTask.id) :
    Before t.submissions a b ∧ Before t.submissions b a := by
  have hnone : ∀ ids ∈ t.submissions, a ∈ ids → b ∉ ids := by
    intro ids hids haids hbids
    rw [h.submissions, List.mem_append, List.mem_singleton] at hids
    obtain hids | rfl := hids
    · exact h.not_mem ((hs.bodies ids hids).2 b hbids) hb
    · exact h.not_mem ha haids
  exact ⟨fun ids hids haids hbids => absurd hbids (hnone ids hids haids),
    fun ids hids hbids haids => absurd hbids (hnone ids hids haids)⟩

theorem Sound.stored (hs : Sound s) (h : Stored s task body t) : Sound t where
  nodup := by
    rw [h.subTasks, List.map_append, List.nodup_append]
    refine ⟨hs.nodup, h.nodup, ?_⟩
    rintro a ha b hb rfl
    obtain ⟨r, hr, rfl⟩ := List.mem_map.mp ha
    exact h.not_mem (hs.fresh r hr) hb
  known := by
    intro r hr
    obtain hr | hr := List.mem_append.mp (h.subTasks ▸ hr)
    · exact hs.known r hr
    · rw [SubTask.Known, h.queuing r hr]
      decide
  fresh := by
    intro r hr
    obtain hr | hr := List.mem_append.mp (h.subTasks ▸ hr)
    · exact Nat.lt_of_lt_of_le (hs.fresh r hr) h.old
    · exact (h.new r hr).2
  bodies := by
    intro ids hids
    rw [h.submissions, List.mem_append, List.mem_singleton] at hids
    obtain hids | rfl := hids
    · exact ⟨(hs.bodies ids hids).1, fun i hi =>
        Nat.lt_of_lt_of_le ((hs.bodies ids hids).2 i hi) h.old⟩
    · refine ⟨h.nodup, fun i hi => ?_⟩
      obtain ⟨r, hr, rfl⟩ := List.mem_map.mp hi
      exact (h.new r hr).2
  together := by
    intro ids hids r hr x hx hrid hxid
    rw [h.submissions, List.mem_append, List.mem_singleton] at hids
    rw [h.subTasks, List.mem_append] at hr hx
    obtain hids | rfl := hids
    · have hold {y : SubTask} (hy : y ∈ s.subTasks ∨ y ∈ body) (hyid : y.id ∈ ids) :
          y ∈ s.subTasks := by
        refine hy.resolve_right fun hbody => ?_
        exact h.not_mem ((hs.bodies ids hids).2 _ hyid) (List.mem_map_of_mem hbody)
      exact hs.together ids hids r (hold hr hrid) x (hold hx hxid) hrid hxid
    · have hnew {y : SubTask} (hy : y ∈ s.subTasks ∨ y ∈ body)
          (hyid : y.id ∈ body.map SubTask.id) : y ∈ body :=
        hy.resolve_left fun hold => h.not_mem (hs.fresh y hold) hyid
      rw [h.parents r (hnew hr hrid), h.parents x (hnew hx hxid)]
  order := by
    rw [h.waiting, List.pairwise_append]
    refine ⟨hs.order.imp_of_mem fun _ hb hab => ?_, ?_, fun a ha b hb => ?_⟩
    · obtain ⟨r, hr, -, rfl⟩ := mem_waitingOf.mp hb
      exact h.before_old (hs.fresh r hr) hab
    · rw [List.pairwise_iff_forall_sublist]
      intro a b hab ids hids ha hb
      rw [h.submissions, List.mem_append, List.mem_singleton] at hids
      obtain hids | rfl := hids
      · exact absurd (hab.subset (by simp)) (h.not_mem ((hs.bodies ids hids).2 a ha))
      · exact hab
    · obtain ⟨r, hr, -, rfl⟩ := mem_waitingOf.mp ha
      exact (h.before_new hs (hs.fresh r hr) hb).1
  begun := by
    rw [h.starts]
    exact fun p hp => Nat.lt_of_lt_of_le (hs.begun p hp) h.old
  started := by
    rw [h.starts]
    intro p hp ids hids a ha
    rw [h.submissions, List.mem_append, List.mem_singleton] at hids
    obtain hids | rfl := hids
    · exact hs.started p hp ids hids a ha
    · exact absurd (ha.subset (by simp)) (h.not_mem (hs.begun p hp))

theorem Dispatchable.stored (hd : Dispatchable s task) (hs : Sound s) (h : Stored s task body t) :
    Dispatchable t task := by
  have hbody : body.filter (fun x => x.parentId = task) = body :=
    List.filter_eq_self.mpr fun r hr => by simpa using h.parents r hr
  have hrows : t.rowsOf task = s.rowsOf task ++ body := by
    rw [State.rowsOf, h.subTasks, List.filter_append, hbody]
    rfl
  intro hfull hbusy b hb
  rw [hrows, List.any_append, Bool.or_eq_false_iff] at hbusy
  rw [State.isFull, h.tasksCount, h.maxTasksCount] at hfull
  rw [hrows, List.find?_append, Option.or_eq_some_iff] at hb
  obtain hold | ⟨hnone, hnew⟩ := hb
  · obtain ⟨hleft, hlast⟩ := hd hfull hbusy.1 b hold
    have hbmem : b ∈ s.subTasks := List.mem_of_mem_filter (List.mem_of_find?_eq_some hold)
    have hfresh := hs.fresh b hbmem
    refine ⟨fun ids hids a ha => ?_, fun hsusp htype => ?_⟩
    · rw [h.submissions, List.mem_append, List.mem_singleton] at hids
      obtain hids | rfl := hids
      · obtain ⟨r, hr, hra⟩ := hleft ids hids a ha
        exact ⟨r, h.subTasks ▸ List.mem_append_left body hr, hra⟩
      · exact absurd (ha.subset (by simp)) (h.not_mem hfresh)
    · obtain ⟨hwait, hbefore⟩ := hlast hsusp htype
      rw [Last, h.waiting]
      refine ⟨List.mem_append_left _ hwait, fun a ha hne => ?_⟩
      obtain ha | ha := List.mem_append.mp ha
      · exact h.before_old hfresh (hbefore a ha hne)
      · exact (h.before_new hs hfresh ha).2
  · have hbmem : b ∈ body := List.mem_of_find?_eq_some hnew
    refine ⟨fun ids hids a ha => ?_, fun hsusp => ?_⟩
    · rw [h.submissions, List.mem_append, List.mem_singleton] at hids
      obtain hids | rfl := hids
      · exact absurd (List.mem_map_of_mem hbmem)
          (h.not_mem ((hs.bodies ids hids).2 _ (ha.subset (by simp))))
      · cases body with
        | nil => cases hbmem
        | cons row rest =>
          have hfirst : row = b := by
            have hwait : row.isWaiting = true := by
              simp [SubTask.isWaiting, h.queuing row List.mem_cons_self]
            rw [List.find?_cons_of_pos hwait] at hnew
            exact Option.some.inj hnew
          subst hfirst
          exfalso
          have hmem : a ∈ row.id :: rest.map SubTask.id := ha.subset (by simp)
          obtain rfl | hrest := List.mem_cons.mp hmem
          · exact absurd (h.nodup.sublist ha) (by simp)
          · exact not_sublist_swap h.nodup ha ((List.singleton_sublist.mpr hrest).cons_cons _)
    · rw [h.queuing b hbmem] at hsusp
      cases hsusp

end Stored

section Messages

def enqueued (body : List SubTask) : List SubTask := body.map fun x => { x with status := .queuing }

theorem enqueued_ids (body : List SubTask) :
    (enqueued body).map SubTask.id = body.map SubTask.id := by
  rw [enqueued, List.map_map]
  rfl

theorem drawn_spec (message : Dto.Task) (next : Uuid) :
    let drawn := KafkaMessageQueue.subTasks message.id next message.body
    (∀ row ∈ enqueued drawn.1, row.parentId = message.id ∧ row.status = .queuing ∧
      next ≤ row.id ∧ row.id < drawn.2) ∧
    ((enqueued drawn.1).map SubTask.id).Nodup ∧ next ≤ drawn.2 := by
  intro drawn
  obtain ⟨hle, hincr, hrows⟩ := KafkaMessageQueue.subTasks_spec message.id next message.body
  refine ⟨fun row hrow => ?_, ?_, hle⟩
  · obtain ⟨r, hr, rfl⟩ := List.mem_map.mp hrow
    obtain ⟨hparent, hlow, hhigh⟩ := hrows r hr
    exact ⟨hparent, rfl, hlow, hhigh⟩
  · rw [enqueued_ids]
    exact hincr.imp fun h => Nat.ne_of_lt h

theorem stored_insert {s : State} (env : Env) (hs : Sound s) (message : Dto.Task) (task : Task)
    (hbody : task.body = enqueued (KafkaMessageQueue.subTasks message.id s.nextId message.body).1) :
    Effect.wp (do
      Tasks.insert task
      Agent.note (.submitted task.id (task.body.map SubTask.id)) : Act Unit)
      env (fun _ => Stored s message.id task.body) (fun _ => False)
      { s with nextId := (KafkaMessageQueue.subTasks message.id s.nextId message.body).2 } := by
  obtain ⟨hrows, hnodup, hle⟩ := drawn_spec message s.nextId
  generalize KafkaMessageQueue.subTasks message.id s.nextId message.body = drawn at hle hnodup hrows hbody ⊢
  rw [← hbody] at hrows hnodup
  obtain ⟨files, hfiles⟩ := foldl_insert task.body { s with nextId := drawn.2 }
    (fun row hrow r hr heq => Nat.not_lt.mpr (hrows row hrow).2.2.1 (heq ▸ hs.fresh r hr)) hnodup
  simp only [Tasks.insert, Agent.note, Effect.wp_bind, Effect.wp_modify]
  rw [hfiles]
  exact
    { subTasks := rfl
      submissions := by simp [State.submissions, Event.submission]
      starts := by simp [State.starts, Event.start]
      tasksCount := rfl
      maxTasksCount := rfl
      parents := fun row hrow => (hrows row hrow).1
      queuing := fun row hrow => (hrows row hrow).2.1
      old := hle
      new := fun row hrow => (hrows row hrow).2.2
      nodup := hnodup }

theorem wp_drawBody {message : Dto.Task} {env : Env} {s : State}
    {Q : List SubTask → State → Prop} {E : State → Prop} :
    Effect.wp (KafkaMessageQueue.drawBody message) env Q E s ↔
      Q (KafkaMessageQueue.subTasks message.id s.nextId message.body).1
        { s with nextId := (KafkaMessageQueue.subTasks message.id s.nextId message.body).2 } :=
  Iff.rfl

theorem start_sound {s : State} (hs : Sound s) {message : Dto.Task}
    (hcommand : message.command = .start) (hd : Dispatchable s message.id) (env : Env) :
    Effect.wp (exec (KafkaMessageQueue.receive message)) env (fun _ => Sound) Sound s := by
  rw [KafkaMessageQueue.receive, hcommand]
  simp only [op, exec_bind, exec_atom, Effect.wp_bind, Effect.wp_read, Effect.wp_pure,
    TaskScheduler.enqueueTask]
  rw [wp_drawBody]
  have hinsert := stored_insert env hs message
    { id := message.id, status := .queuing, updateTime := env.now,
      body := enqueued (KafkaMessageQueue.subTasks message.id s.nextId message.body).1 } rfl
  rw [Effect.wp_bind] at hinsert
  refine Effect.wp_mono hinsert (fun _ u hu => ?_) fun _ h => h.elim
  refine Effect.wp_mono hu ?_ fun _ h => h.elim
  rintro - t ht
  have hsound := hs.stored ht
  have hsave := preserves_saveChanged (quiet_alike t) env t (.refl t)
  refine Effect.wp_mono hsave ?_ fun u hu => hsound.alike hu
  rintro - u ⟨hu, -⟩
  exact scheduleNextTaskById_sound (hsound.alike hu)
    (fun _ => (hd.stored hs ht).alike hu) env

end Messages

end Kuintessence.Agent
