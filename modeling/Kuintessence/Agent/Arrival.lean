import Kuintessence.Agent.Finality
import Kuintessence.Agent.Records

namespace Kuintessence.Agent

open Prog

theorem KafkaMessageQueue.length_subTasks (parentId next : Uuid) (body : List Dto.TaskBody) :
    (subTasks parentId next body).1.length = body.length := by
  induction body generalizing next with
  | nil => rfl
  | cons body rest ih =>
    rw [subTasks, List.length_cons, List.length_cons, ih]

-- The state after a task that is to start was stored with its sub-tasks.
structure Entered (s : State) (message : Dto.Task) (body : List SubTask) (t : State) : Prop where
  tasks : ∃ task : Task, task.id = message.id ∧ task.status = .queuing ∧
    t.tasks = Rows.put Task.id task s.tasks
  subTasks : t.subTasks = s.subTasks ++ body
  rows : ∀ r ∈ body, r.parentId = message.id ∧ r.status = .queuing ∧
    s.nextId ≤ r.id ∧ r.id < t.nextId
  nodup : (body.map SubTask.id).Nodup
  length : body.length = message.body.length
  nextId : s.nextId ≤ t.nextId
  tasksCount : t.tasksCount = s.tasksCount
  maxTasksCount : t.maxTasksCount = s.maxTasksCount
  calls : t.calls = s.calls
  trace : t.trace = s.trace ++ [.submitted message.id (body.map SubTask.id)]

section Arrival

variable {s t : State} {message : Dto.Task} {body : List SubTask} {env : Env}

theorem Entered.new (h : Entered s message body t) (hs : s.Distinct) {r x : SubTask}
    (hr : r ∈ s.subTasks) (hx : x ∈ body) : r.id ≠ x.id := fun heq =>
  Nat.not_lt.mpr (h.rows x hx).2.2.1 (heq ▸ hs.fresh r hr)

theorem Entered.distinct (h : Entered s message body t) (hs : s.Distinct) : t.Distinct where
  keyed := by
    obtain ⟨task, -, -, htasks⟩ := h.tasks
    rw [State.Keyed, htasks]
    exact Rows.nodup_put hs.keyed task
  nodup := by
    rw [h.subTasks, List.map_append, List.nodup_append]
    refine ⟨hs.nodup, h.nodup, ?_⟩
    rintro a ha b hb rfl
    obtain ⟨r, hr, rfl⟩ := List.mem_map.mp ha
    obtain ⟨x, hx, heq⟩ := List.mem_map.mp hb
    exact h.new hs hr hx heq.symm
  fresh := by
    intro r hr
    rw [h.subTasks] at hr
    obtain hr | hr := List.mem_append.mp hr
    · exact Nat.lt_of_lt_of_le (hs.fresh r hr) h.nextId
    · exact (h.rows r hr).2.2.2

theorem wp_start (hs : s.Distinct) (hcommand : message.command = .start)
    {Q : Unit → State → Prop} {E : State → Prop}
    (h : ∀ body t, Entered s message body t →
      Effect.wp (exec (op saveChanged >>= fun _ =>
        TaskScheduler.scheduleNextTaskById message.id)) env Q E t) :
    Effect.wp (exec (KafkaMessageQueue.receive message)) env Q E s := by
  rw [KafkaMessageQueue.receive, hcommand]
  simp only [op, exec_bind, exec_atom, Effect.wp_bind, Effect.wp_read, Effect.wp_pure,
    TaskScheduler.enqueueTask]
  rw [wp_drawBody]
  obtain ⟨hrows, hnodup, hle⟩ := drawn_spec message s.nextId
  have hlength := KafkaMessageQueue.length_subTasks message.id s.nextId message.body
  generalize KafkaMessageQueue.subTasks message.id s.nextId message.body = drawn
    at hle hnodup hrows hlength ⊢
  obtain ⟨files, hfiles⟩ := foldl_insert (enqueued drawn.1) { s with nextId := drawn.2 }
    (fun row hrow r hr heq =>
      Nat.not_lt.mpr (hrows row hrow).2.2.1 (heq ▸ hs.fresh r hr)) hnodup
  let task : Task :=
    { id := message.id, status := .queuing, body := enqueued drawn.1, updateTime := env.now }
  have hlater := h (enqueued drawn.1)
    { s with
      nextId := drawn.2
      subTasks := s.subTasks ++ enqueued drawn.1
      taskFiles := files
      tasks := Rows.put Task.id task s.tasks
      trace := s.trace ++ [.submitted message.id ((enqueued drawn.1).map SubTask.id)] }
    { tasks := ⟨task, rfl, rfl, rfl⟩
      subTasks := rfl
      rows := hrows
      nodup := hnodup
      length := by rw [enqueued, List.length_map, hlength]
      nextId := hle
      tasksCount := rfl
      maxTasksCount := rfl
      calls := rfl
      trace := rfl }
  rw [exec_bind, Effect.wp_bind] at hlater
  simp only [Tasks.insert, Agent.note, Effect.wp_modify]
  have henqueued : (drawn.1.map fun x => { x with status := .queuing }) = enqueued drawn.1 := rfl
  rw [henqueued, hfiles]
  exact hlater

theorem State.Distinct.of_eq (hs : s.Distinct) (htasks : t.tasks = s.tasks)
    (hsubTasks : t.subTasks = s.subTasks) (hnext : t.nextId = s.nextId) : t.Distinct where
  keyed := by
    rw [State.Keyed, htasks]
    exact hs.keyed
  nodup := hsubTasks ▸ hs.nodup
  fresh := by
    rw [hsubTasks, hnext]
    exact hs.fresh

theorem State.Distinct.putTask (hs : s.Distinct) (task : Task) : (s.putTask task).Distinct :=
  { hs with keyed := Rows.nodup_put hs.keyed task }

theorem State.Distinct.putSubTask (hs : s.Distinct) {row : SubTask}
    (hold : ∃ x ∈ s.subTasks, x.id = row.id) : (s.putSubTask row).Distinct where
  keyed := hs.keyed
  nodup := Rows.nodup_put hs.nodup row
  fresh := by
    intro r hr
    obtain ⟨x, hx, hid⟩ := hold
    obtain ⟨hr, -⟩ | rfl := (Rows.mem_put hs.nodup).mp hr
    · exact hs.fresh r hr
    · exact hid ▸ hs.fresh x hx

theorem State.Distinct.dropSubTask (hs : s.Distinct) (id : Uuid) : (s.dropSubTask id).Distinct where
  keyed := hs.keyed
  nodup := hs.nodup.sublist (List.eraseP_sublist.map _)
  fresh := fun r hr => hs.fresh r (List.eraseP_sublist.subset hr)

theorem free_distinct (id : Uuid) : Free State.Distinct id where
  rows := fun _ _ _ _ _ hs hold => hs.putSubTask hold
  events := fun _ _ _ _ hs => hs.of_eq rfl rfl rfl
  files := fun _ _ _ _ _ _ _ _ hs _ => hs.of_eq rfl rfl rfl

theorem governed_distinct : Governed State.Distinct where
  nothing := fun _ _ hs => hs.of_eq rfl rfl rfl
  events := fun _ _ _ _ hs => hs.of_eq rfl rfl rfl
  counts := fun _ _ _ _ hs => hs.of_eq rfl rfl rfl
  reports := fun _ _ _ _ _ _ hs => hs.of_eq rfl rfl rfl
  governs := fun _ =>
    { write := fun _ task _ hs => hs.putTask task
      erase := fun _ hs => { hs with keyed := hs.keyed.sublist (List.eraseP_sublist.map _) }
      free := fun _ _ _ _ _ => free_distinct _
      erasable := fun _ r _ _ _ _ hs => hs.dropSubTask r.id
      starts := fun _ _ _ _ _ _ hs => hs.of_eq rfl rfl rfl }
  free := free_distinct

theorem serve_distinct (hs : s.Distinct) (operation : Operation) :
    Effect.wp (exec operation.serve) env (fun _ => State.Distinct) State.Distinct s := by
  have hgoverned := governed_distinct
  cases hstart : operation.isStart with
  | false =>
    exact Effect.wp_mono ((hgoverned.serve hstart).preserves env s hs) (fun _ _ ht => ht.1)
      fun _ ht => ht
  | true =>
    obtain ⟨message, hcommand, rfl⟩ := Operation.isStart_iff.mp hstart
    refine wp_start hs hcommand fun body t ht => ?_
    have hrest := (upholds_saveChanged hgoverned.nothing).bind fun _ _ =>
      hgoverned.scheduleNextTaskById (hgoverned.governs message.id)
    exact Effect.wp_mono (hrest.preserves env t (ht.distinct hs)) (fun _ _ hu => hu.1)
      fun _ hu => hu

theorem step_distinct (hs : s.Distinct) (turn : Turn) : (step s turn).Distinct :=
  Effect.wp_final.mp (serve_distinct hs turn.operation)

theorem reachable_distinct (maxTasksCount : Nat) (turns : List Turn) :
    (run step (State.initial maxTasksCount) turns).Distinct :=
  run_preserves (I := State.Distinct) (fun _ turn h => step_distinct h turn)
    (distinct_initial maxTasksCount) turns

end Arrival

end Kuintessence.Agent
