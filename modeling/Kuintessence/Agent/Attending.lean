import Kuintessence.Agent.Scheduling

namespace Kuintessence.Agent

open Prog

-- An accepted task that has not ended is either found by the scheduler or under way.
def State.Findable (s : State) : Prop :=
  ∀ task ∈ s.tasks, task.status ≠ .suspended → task.status ≠ .failed → task.status ≠ .completed →
    task.status = .queuing ∨ s.Tracks task.id

def Operation.reported : Operation → Option Uuid
  | .report x _ => some x
  | _ => none

def Operation.releases : Operation → Bool
  | .message m => m.command = .pause ∨ m.command = .delete
  | .report .. => true
  | _ => false

def Operation.brings : Operation → Bool
  | .message m => m.command = .start ∧ m.body ≠ []
  | _ => false

-- The task without which the operation fails.
def State.asked (s : State) : Operation → Option Uuid
  | .message m => if m.command = .continue then some m.id else none
  | .report x _ => (Rows.find SubTask.id x s.subTasks).map SubTask.parentId
  | _ => none

def State.finishes (s : State) (x : Uuid) : Bool :=
  (Rows.find SubTask.id x s.subTasks).any fun row =>
    ((s.seen (.report x .completed)).rowsOf row.parentId).all fun r => r.status = .completed

-- The calls that are made before the scheduler looks for a sub-task.
def State.lead (s : State) : Operation → Nat
  | .message m =>
    match m.command with
    | .start => 1
    | .pause => pauseCalls (s.rowsOf m.id) + 2
    | .delete => pauseCalls (s.rowsOf m.id) + 1
    | .continue => 2
  | .report x .completed => if s.finishes x then 3 else 1
  | .report _ .failed => 2
  | _ => 0

-- The calls that are made from there to the dispatch.
def State.takes (s : State) (q : Uuid) : Operation → Nat
  | .message _ => 2
  | _ => (Rows.find Task.id q s.tasks).elim 2 fun x => passCalls x.status

-- The operation ends before the scheduler is called.
def Halted (s : State) (turn : Turn) : Prop :=
  (turn.operation.releases = true ∧ s.tasksCount = 0) ∨
    (∃ p ∈ s.asked turn.operation, Rows.find Task.id p s.tasks = none) ∨
    Blocked turn.env s (s.lead turn.operation)

-- A sub-task of the task other than the one reported is under way.
def State.Tracked (s : State) (operation : Operation) (q : Uuid) : Prop :=
  ∃ r ∈ s.rowsOf q, r.id ∈ outstanding s.trace ∧ operation.reported ≠ some r.id

-- The scheduler gets as far as the dispatch.
structure Served (s : State) (turn : Turn) (q : Uuid) : Prop where
  clear : ¬Blocked turn.env s (s.lead turn.operation + s.takes q turn.operation)
  idle : ∀ r ∈ (s.seen turn.operation).rowsOf q, r.isBusy = false
  waiting : turn.operation.brings = true ∨
    ∃ r ∈ (s.seen turn.operation).rowsOf q, r.isWaiting = true
  room : (s.seen turn.operation).isFull = false
  counts : (s.seen turn.operation).tasksCount + 1 < 2 ^ 32

structure Attended (s : State) (turn : Turn) : Prop where
  parks : ∀ p ∈ s.parks turn.operation, s.isRunning p = true → 0 < s.tasksCount →
    ¬Blocked turn.env s (pauseCalls (s.rowsOf p))
  target : ∀ q ∈ s.target turn.operation,
    Halted s turn ∨ s.Tracked turn.operation q ∨ Served s turn q

section Conditions

variable {s t : State} {turn : Turn} {env : Env} {q : Uuid} {n m : Nat}

theorem Blocked.shift (h : Blocked env t m) (hcalls : t.calls = s.calls + n) :
    Blocked env s (n + m) := by
  obtain ⟨k, hlt, hk⟩ := h
  rw [hcalls, Nat.add_assoc] at hk
  exact ⟨n + k, Nat.add_lt_add_left hlt n, hk⟩

theorem Served.dispatching (h : Served s turn q) (hbrings : turn.operation.brings = false)
    (hrows : t.rowsOf q = (s.seen turn.operation).rowsOf q)
    (hcalls : t.calls = s.calls + s.lead turn.operation)
    (hcount : t.tasksCount = (s.seen turn.operation).tasksCount)
    (hmax : t.maxTasksCount = (s.seen turn.operation).maxTasksCount) :
    Dispatching turn.env t q (s.takes q turn.operation) where
  clear := fun hblocked => h.clear (hblocked.shift hcalls)
  idle := hrows ▸ h.idle
  waiting := by
    rw [hrows]
    exact h.waiting.resolve_left (by simp [hbrings])
  room := by
    rw [State.isFull, hcount, hmax]
    exact h.room
  counts := hcount ▸ h.counts

theorem Dispatching.mono (h : Dispatching env s q m) (hle : n ≤ m) : Dispatching env s q n :=
  { h with clear := fun hblocked => h.clear (hblocked.mono hle) }

theorem passCalls_le (status : TaskStatus) : passCalls status ≤ 2 := by
  unfold passCalls
  split <;> omega

theorem not_blocked_zero : ¬Blocked env s 0 := fun ⟨_, hlt, _⟩ => Nat.not_lt_zero _ hlt

theorem not_blocked_succ (h : ¬Blocked env s n) (hcalls : t.calls = s.calls + n)
    (hfine : env.fails t.calls = none) : ¬Blocked env s (n + 1) := by
  intro hblocked
  obtain hblocked | hlast := blocked_succ.mp hblocked
  · exact h hblocked
  · rw [← hcalls, hfine] at hlast
    cases hlast

theorem State.Tracked.tracks {operation : Operation} (h : s.Tracked operation q) : s.Tracks q := by
  obtain ⟨r, hr, hmem, -⟩ := h
  exact ⟨r, (mem_rowsOf.mp hr).1, (mem_rowsOf.mp hr).2, hmem⟩

theorem Attended.ready (h : Attended s turn) (hq : s.target turn.operation = some q)
    (hhalt : ¬Halted s turn) (hbrings : turn.operation.brings = false)
    (hrows : t.rowsOf q = (s.seen turn.operation).rowsOf q)
    (hcalls : t.calls = s.calls + s.lead turn.operation)
    (hcount : t.tasksCount = (s.seen turn.operation).tasksCount)
    (hmax : t.maxTasksCount = (s.seen turn.operation).maxTasksCount)
    (htracks : s.Tracked turn.operation q → t.Tracks q) :
    t.Tracks q ∨ Dispatching turn.env t q (s.takes q turn.operation) := by
  obtain hout | htracked | hserved := h.target q hq
  · exact absurd hout hhalt
  · exact .inl (htracks htracked)
  · exact .inr (hserved.dispatching hbrings hrows hcalls hcount hmax)

end Conditions

section Messages

variable {parent : Uuid → Uuid} {s : State} {env : Env} {message : Dto.Task}

theorem Entered.held (h : Held parent s) {body : List SubTask} {t : State}
    (ht : Entered s message body t) :
    Held (fun id => if id < s.nextId then parent id else message.id) t := by
  obtain ⟨task, hid, hstatus, htasks⟩ := ht.tasks
  have hout : outstanding t.trace = outstanding s.trace := by
    rw [ht.trace]
    exact outstanding_plain rfl s.trace
  have hput : t.tasks = (s.putTask task).tasks := htasks
  refine ⟨ht.distinct h.distinct, fun r hr => ?_, fun x hx => ?_, fun q hq _ => ?_⟩
  · rw [ht.subTasks] at hr
    obtain hr | hr := List.mem_append.mp hr
    · rw [if_pos (h.distinct.fresh r hr)]
      exact h.parents r hr
    · rw [if_neg (Nat.not_lt.mpr (ht.rows r hr).2.2.1)]
      exact (ht.rows r hr).1
  · rw [hput] at hx
    exact (h.putTask (.inl (by simp [Task.isResting, hstatus]))).known x hx
  · have hrest : task.isResting = true := by simp [Task.isResting, hstatus]
    obtain ⟨x, hx, hxq, hrun⟩ := hq.resolve_left id
    obtain ⟨r, hr, hparent, hmem⟩ := (h.putTask (.inl hrest)).tracks q
      (.inr ⟨x, hput ▸ hx, hxq, hrun⟩) trivial
    refine ⟨r, ?_, hparent, hout ▸ hmem⟩
    rw [ht.subTasks]
    exact List.mem_append_left body hr

def HeldAfter (env : Env) (s : State) (m : Op Unit) : Prop :=
  Effect.wp (exec m) env (fun _ t => ∃ parent, Held parent t) (fun t => ∃ parent, Held parent t) s

theorem HeldAfter.of_wp (parent : Uuid → Uuid) {m : Op Unit}
    (h : Effect.wp (exec m) env (fun _ => Held parent) (Held parent) s) : HeldAfter env s m :=
  Effect.wp_mono h (fun _ _ ht => ⟨parent, ht⟩) fun _ ht => ⟨parent, ht⟩

theorem start_held (h : Held parent s) (hcommand : message.command = .start)
    (hok : Attended s ⟨env, .message message⟩) :
    HeldAfter env s (KafkaMessageQueue.receive message) := by
  refine wp_start h.distinct hcommand fun body t ht => ?_
  have hheld := ht.held h
  rw [exec_bind, Effect.wp_bind]
  refine wp_callOnce _ _ (fun hfine => ?_) fun _ => ⟨_, hheld.of_same rfl rfl rfl rfl⟩
  have hclear : ¬Blocked env s 1 := not_blocked_succ not_blocked_zero ht.calls hfine
  let v : State := { t with calls := t.calls + 1, trace := t.trace ++ [] }
  have hsame : outstanding v.trace = outstanding t.trace := congrArg outstanding (List.append_nil _)
  have hout : outstanding v.trace = outstanding s.trace := by
    rw [hsame, ht.trace]
    exact outstanding_plain rfl s.trace
  have hv := hheld.of_same (t := v) rfl rfl rfl hsame
  refine HeldAfter.of_wp _ (wp_scheduleTask (HeldOn.but hv message.id) fun x _ _ => ?_)
  have hrows : ∀ r, r ∈ v.rowsOf message.id ↔ r ∈ s.rowsOf message.id ∨ r ∈ body := by
    intro r
    have hbody : r ∈ body → r.parentId = message.id := fun hr => (ht.rows r hr).1
    rw [mem_rowsOf, mem_rowsOf, show v.subTasks = s.subTasks ++ body from ht.subTasks,
      List.mem_append, or_and_right, and_iff_left_of_imp hbody]
  have htarget := hok.target message.id (by simp [State.target, hcommand])
  obtain hhalt | ⟨r, hr, hmem, -⟩ | hserved := htarget
  · obtain ⟨hreleases, -⟩ | ⟨p, hp, -⟩ | hblocked := hhalt
    · simp [Operation.releases, hcommand] at hreleases
    · simp [State.asked, hcommand] at hp
    · simp only [State.lead, hcommand] at hblocked
      exact absurd hblocked hclear
  · refine .inl ⟨r, ?_, (mem_rowsOf.mp hr).2, hout.symm ▸ hmem⟩
    exact (mem_rowsOf.mp ((hrows r).mpr (.inl hr))).1
  · refine .inr (Dispatching.mono ?_ (passCalls_le x.status))
    have hcalls : v.calls = s.calls + 1 := congrArg (· + 1) ht.calls
    have hseen : s.seen (.message message) = s := by simp only [State.seen, hcommand]
    have hlead : s.lead (.message message) = 1 := by simp only [State.lead, hcommand]
    obtain ⟨hnot, hidle, hwaiting, hroom, hcounts⟩ := hserved
    rw [hlead] at hnot
    rw [hseen] at hidle hwaiting hroom hcounts
    refine ⟨fun hblocked => hnot (hblocked.shift hcalls), fun r hr => ?_, ?_, ?_, ?_⟩
    · obtain hr | hr := (hrows r).mp hr
      · exact hidle r hr
      · simp [SubTask.isBusy, (ht.rows r hr).2.1]
    · obtain hbrings | ⟨r, hr, hwait⟩ := hwaiting
      · have hne : message.body ≠ [] := by simpa [Operation.brings, hcommand] using hbrings
        obtain ⟨r, hr⟩ : ∃ r, r ∈ body := List.exists_mem_of_ne_nil body fun hnil => hne <| by
          rw [← List.length_eq_zero_iff, ← ht.length, hnil, List.length_nil]
        exact ⟨r, (hrows r).mpr (.inr hr), by simp [SubTask.isWaiting, (ht.rows r hr).2.1]⟩
      · exact ⟨r, (hrows r).mpr (.inl hr), hwait⟩
    · rw [State.isFull, show v.maxTasksCount = s.maxTasksCount from ht.maxTasksCount,
        show v.tasksCount = s.tasksCount from ht.tasksCount]
      exact hroom
    · rw [show v.tasksCount = s.tasksCount from ht.tasksCount]
      exact hcounts

theorem continue_held (h : Held parent s) (hcommand : message.command = .continue)
    (hok : Attended s ⟨env, .message message⟩) :
    HeldAfter env s (KafkaMessageQueue.receive message) := by
  rw [KafkaMessageQueue.receive, hcommand]
  change HeldAfter env s (TaskScheduler.continueTask message.id)
  rw [HeldAfter, TaskScheduler.continueTask, exec_bind, Effect.wp_bind]
  refine wp_findTask (fun x hx => ?_) fun _ => ⟨parent, h⟩
  let queued : Task := { x with body := s.rowsOf message.id, status := .queuing }
  let saved : Task := { queued with updateTime := env.now }
  have hxid : x.id = message.id := Rows.key_of_find hx
  have hold : ∃ y ∈ s.tasks, y.id = queued.id := ⟨x, List.mem_of_find?_eq_some hx, rfl⟩
  let u : State := s.putTask saved
  have hu : Held parent u := h.putTask (.inl rfl)
  rw [exec_bind, Effect.wp_bind]
  refine wp_updateTask hold ?_
  change Effect.wp (exec (op saveChanged >>= fun _ => TaskReport.reportResumedTask message.id >>=
    fun _ => TaskScheduler.scheduleNextTaskById x.id)) env _ _ u
  rw [exec_bind, Effect.wp_bind]
  refine wp_callOnce _ _ (fun hone => ?_) fun _ => ⟨parent, hu.of_same rfl rfl rfl rfl⟩
  let v : State := { u with calls := s.calls + 1, trace := s.trace ++ [] }
  have hsame : outstanding v.trace = outstanding s.trace := congrArg outstanding (List.append_nil _)
  have hv : Held parent v := hu.of_same rfl rfl rfl hsame
  rw [exec_bind, Effect.wp_bind]
  change Effect.wp (exec (TaskReport.reportResumedTask message.id)) env _ _ v
  refine wp_callOnce _ _ (fun htwo => ?_) fun _ => ⟨parent, hv.of_same rfl rfl rfl rfl⟩
  let w : State := { v with
    calls := v.calls + 1, trace := v.trace ++ [.reported .continued message.id "" none] }
  have hout : outstanding w.trace = outstanding v.trace := outstanding_plain rfl v.trace
  have hw : Held parent w := hv.of_same rfl rfl rfl hout
  have hclear : ¬Blocked env s 1 := not_blocked_succ not_blocked_zero rfl hone
  rw [hxid]
  refine HeldAfter.of_wp _ (wp_scheduleTask (HeldOn.but hw message.id) fun y _ _ => ?_)
  have hhalt : ¬Halted s ⟨env, .message message⟩ := by
    rintro (⟨hreleases, -⟩ | ⟨p, hp, hnone⟩ | hblocked)
    · simp [Operation.releases, hcommand] at hreleases
    · simp only [State.asked, hcommand, if_true, Option.mem_some_iff] at hp
      rw [← hp, hx] at hnone
      cases hnone
    · simp only [State.lead, hcommand] at hblocked
      exact not_blocked_succ hclear rfl htwo hblocked
  have hseen : s.seen (.message message) = s := by simp only [State.seen, hcommand]
  have hlead : s.lead (.message message) = 2 := by simp only [State.lead, hcommand]
  have htarget : s.target (.message message) = some message.id := by simp [State.target, hcommand]
  have hbrings : Operation.brings (.message message) = false := by simp [Operation.brings, hcommand]
  have hrows : w.rowsOf message.id = (s.seen (.message message)).rowsOf message.id := by
    rw [hseen]
    rfl
  have hcalls : w.calls = s.calls + s.lead (.message message) := by rw [hlead]
  have htracks (htracked : s.Tracked (.message message) message.id) : w.Tracks message.id :=
    htracked.tracks.of_eq rfl (hout.trans hsame)
  have hready := hok.ready htarget hhalt hbrings hrows hcalls (by rw [hseen]; rfl)
    (by rw [hseen]; rfl) htracks
  exact hready.imp_right fun hd => hd.mono (passCalls_le y.status)

end Messages

-- After the counter was released, with `n` calls made.
structure Released (s : State) (env : Env) (operation : Operation) (p : Uuid) (n : Nat) (t : State) :
    Prop where
  pos : 0 < s.tasksCount
  calls : t.calls = s.calls + n
  clear : ¬Blocked env s n
  tasks : t.tasks = s.tasks
  subTasks : t.subTasks = (s.seen operation).subTasks
  tasksCount : t.tasksCount = (s.seen operation).tasksCount
  maxTasksCount : t.maxTasksCount = (s.seen operation).maxTasksCount
  tracks : ∀ q, q ≠ p → s.Tracked operation q → t.Tracks q

-- After the task, no longer running, was saved as well.
structure Freed (s : State) (env : Env) (operation : Operation) (p : Uuid) (n : Nat) (t : State) :
    Prop where
  pos : 0 < s.tasksCount
  calls : t.calls = s.calls + n
  clear : ¬Blocked env s n
  tasks : ∃ task : Task, task.id = p ∧ task.isResting = true ∧ task.status ≠ .queuing ∧
    t.tasks = Rows.put Task.id task s.tasks
  subTasks : t.subTasks = (s.seen operation).subTasks
  tasksCount : t.tasksCount = (s.seen operation).tasksCount
  maxTasksCount : t.maxTasksCount = (s.seen operation).maxTasksCount
  tracks : ∀ q, q ≠ p → s.Tracked operation q → t.Tracks q

section Next

variable {parent : Uuid → Uuid} {s t : State} {env : Env} {operation : Operation} {p : Uuid}
  {n : Nat}

theorem Freed.wp_call (h : Freed s env operation p n t) (ht : Held parent t) {α : Type}
    (answer : Env → Nat → α) {events : List Event} (hevents : ∀ e ∈ events, e.isAccounted = false)
    {Q : α → State → Prop}
    (hQ : ∀ a u, Freed s env operation p (n + 1) u → Held parent u → Q a u) :
    Effect.wp (exec (op (call answer events))) env Q (Held parent) t := by
  refine wp_callOnce _ _ (fun hfine => ?_) fun _ => ht.of_same rfl rfl rfl rfl
  have hout := outstanding_append_plain t.trace hevents
  refine hQ _ _ { h with
    calls := congrArg (· + 1) h.calls
    clear := not_blocked_succ h.clear h.calls hfine
    tracks := fun q hq hs => (h.tracks q hq hs).of_eq rfl hout } (ht.of_same rfl rfl rfl hout)

theorem Freed.next (h : Freed s env operation p (s.lead operation) t) (ht : Held parent t)
    (hs : s.Distinct) (hok : Attended s ⟨env, operation⟩) (htarget : s.target operation = s.nextBut p)
    (hasked : ∀ a ∈ s.asked operation, Rows.find Task.id a s.tasks ≠ none)
    (hbrings : operation.brings = false) :
    Effect.wp (exec TaskScheduler.scheduleNextTask) env (fun _ => Held parent) (Held parent) t := by
  refine wp_scheduleNext ht fun x hx => ?_
  obtain ⟨task, hid, -, hstatus, htasks⟩ := h.tasks
  have hqueuing : x.status = .queuing := by simpa using List.find?_some hx
  have hnext : s.target operation = some x.id := by
    rw [htarget, ← hid, ← nextQueuing_put htasks hstatus, State.nextQueuing, hx]
    rfl
  have hmem := List.mem_of_find?_eq_some hx
  rw [htasks] at hmem
  obtain ⟨hmem, hne⟩ | rfl := (Rows.mem_put hs.keyed).mp hmem
  · have hhalt : ¬Halted s ⟨env, operation⟩ := by
      rintro (⟨-, hzero⟩ | ⟨a, ha, hnone⟩ | hblocked)
      · exact Nat.ne_of_gt h.pos hzero
      · exact hasked a ha hnone
      · exact h.clear hblocked
    have hrows : t.rowsOf x.id = (s.seen operation).rowsOf x.id := by
      rw [State.rowsOf, h.subTasks]
      rfl
    have hready := hok.ready hnext hhalt hbrings hrows h.calls h.tasksCount h.maxTasksCount
      (h.tracks x.id (hid ▸ hne))
    have hfind : Rows.find Task.id x.id s.tasks = some x := Rows.find_of_mem hs.keyed hmem
    have htakes : s.takes x.id operation = 2 := by
      unfold State.takes
      split
      · rfl
      · rw [hfind]
        simp [passCalls, hqueuing]
    rw [htakes] at hready
    exact hready
  · exact absurd hqueuing hstatus

theorem wp_finish (h : Released s env operation p n t) (ht : HeldBut parent p t) {task : Task}
    (hid : task.id = p) (hstored : ∃ x ∈ s.tasks, x.id = p) {status : TaskStatus}
    (hrest : ({ task with status := status } : Task).isResting = true) (hstatus : status ≠ .queuing)
    {k : Op Unit} {Q : Unit → State → Prop}
    (hk : ∀ u, Freed s env operation p (n + 1) u → Held parent u →
      Effect.wp (exec k) env Q (Held parent) u) :
    Effect.wp (exec (do
      op (Tasks.update { task with status := status })
      op saveChanged
      k : Op Unit)) env Q (Held parent) t := by
  let ended : Task := { task with status := status }
  let saved : Task := { ended with updateTime := env.now }
  have hold : ∃ y ∈ t.tasks, y.id = ended.id := by
    obtain ⟨x, hx, hxid⟩ := hstored
    exact ⟨x, h.tasks ▸ hx, hxid.trans hid.symm⟩
  have hfull : Held parent (t.putTask saved) := ht.rest hid hrest
  rw [exec_bind, Effect.wp_bind]
  refine wp_updateTask hold ?_
  change Effect.wp (exec (op saveChanged >>= fun _ => k)) env _ _ (t.putTask saved)
  rw [exec_bind, Effect.wp_bind]
  refine wp_callOnce _ _ (fun hfine => ?_) fun _ => hfull.of_same rfl rfl rfl rfl
  have hsame : outstanding ((t.putTask saved).trace ++ []) = outstanding t.trace :=
    congrArg outstanding (List.append_nil _)
  refine hk _
    { pos := h.pos
      calls := congrArg (· + 1) h.calls
      clear := not_blocked_succ h.clear h.calls hfine
      tasks := ⟨saved, hid, hrest, hstatus, congrArg (Rows.put Task.id saved) h.tasks⟩
      subTasks := h.subTasks
      tasksCount := h.tasksCount
      maxTasksCount := h.maxTasksCount
      tracks := fun q hq hs => (h.tracks q hq hs).of_eq rfl hsame }
    (hfull.of_same rfl rfl rfl hsame)

theorem HeldOn.watching (h : Held parent s) (p : Uuid) :
    HeldOn parent s.Tracks (fun x => x ≠ p) s :=
  { h with tracks := fun q hq _ => hq.elim id fun hrun => h.tracks q (.inr hrun) trivial }

theorem HeldOn.rowParent (h : Held parent s) {r : SubTask} (hr : r ∈ s.rowsOf p) :
    parent r.id = p :=
  (h.parents r (mem_rowsOf.mp hr).1).symm.trans (mem_rowsOf.mp hr).2

theorem wp_suspend (h : Held parent s) {task : Task} (hid : task.id = p)
    (hstored : ∃ x ∈ s.tasks, x.id = p) (hbody : task.body = s.rowsOf p)
    (hclear : 0 < s.tasksCount → ¬Blocked env s (pauseCalls (s.rowsOf p)))
    (hseen : s.seen operation = s.freed p) {k : Op Unit} {Q : Unit → State → Prop}
    (hk : ∀ t, Freed s env operation p (pauseCalls (s.rowsOf p) + 1) t → Held parent t →
      Effect.wp (exec k) env Q (Held parent) t) :
    Effect.wp (exec (do
      TaskScheduler.releaseTasksCount (.paused (task.body.map SubTask.id))
      TaskScheduler.pauseSubTasks task.body
      op (Tasks.update { task with status := .suspended })
      op saveChanged
      k : Op Unit)) env Q (Held parent) s := by
  rw [exec_bind, Effect.wp_bind]
  refine wp_releaseTasksCount (fun hpos => ?_) h
  let w : State := { s with
    tasksCount := s.tasksCount - 1
    trace := s.trace ++ [.paused (task.body.map SubTask.id)] }
  have hparent : ∀ row ∈ task.body, parent row.id = p := fun row hr =>
    HeldOn.rowParent h (hbody ▸ hr)
  have hw : HeldOn parent s.Tracks (fun x => x ≠ p) w := by
    refine (HeldOn.watching h p).leave (spares_paused fun x hx => ?_) rfl rfl rfl rfl
    obtain ⟨row, hrow, rfl⟩ := List.mem_map.mp hx
    exact hparent row hrow
  change Effect.wp (exec _) env _ _ w
  rw [exec_bind, Effect.wp_bind]
  have hpark : Effect.wp (exec (TaskScheduler.pauseSubTasks task.body)) env
      (fun _ => Passed env w (parked (s.rowsOf p) s.subTasks) (pauseCalls (s.rowsOf p)))
      (fun u => Blocked env w (pauseCalls (s.rowsOf p)) ∧
        ∃ pre, pre <+: s.rowsOf p ∧ Like w (parked pre s.subTasks) u) w := by
    rw [hbody]
    exact wp_pauseSubTasks hw.distinct.nodup List.filter_sublist
  have hpause := Effect.wp_and hpark ((pauseSubTasks_held hparent).preserves env w hw)
  refine Effect.wp_mono hpause ?_ fun t ht => absurd ht.1.1 (hclear hpos)
  rintro _ t ⟨hpassed, ht, -⟩
  refine wp_finish ?_ (ht.mono (fun _ => False.elim) fun _ => id) hid hstored rfl
    (by simp) hk
  exact
    { pos := hpos
      calls := hpassed.calls
      clear := hclear hpos
      tasks := hpassed.tasks
      subTasks := by
        rw [hseen]
        exact hpassed.subTasks
      tasksCount := by
        rw [hseen]
        exact hpassed.tasksCount
      maxTasksCount := by
        rw [hseen]
        exact hpassed.maxTasksCount
      tracks := fun q hq hs => ht.tracks q (.inl hs.tracks) hq }

theorem seen_pause {message : Dto.Task} (h : message.command = .pause ∨ message.command = .delete) :
    s.seen (.message message) = s.freed message.id := by
  obtain h | h := h <;> simp only [State.seen, h] <;> rfl

theorem emits_plain {watch on : Uuid → Prop} {e : Event} (he : e.isAccounted = false) :
    Emits (HeldOn parent watch on) [e] := fun t _ h =>
  h.of_same rfl rfl rfl (outstanding_plain he t.trace)

theorem not_runs_of_status {x : Task} (hs : s.Distinct) (hx : Rows.find Task.id p s.tasks = some x)
    (hstatus : x.status ≠ .running) : ¬s.runs p := by
  rintro ⟨y, hy, hyp, hrun⟩
  have heq : y = x := Rows.eq_of_key hs.keyed hy (List.mem_of_find?_eq_some hx)
    (hyp.trans (Rows.key_of_find hx).symm)
  exact hstatus (heq ▸ hrun)

def Stays (tasks : List Task) (s : State) : Prop := s.tasks = tasks

theorem pauseSubTasks_stays (tasks : List Task) (body : List SubTask) :
    Upholds (Stays tasks) (TaskScheduler.pauseSubTasks body) fun _ => True :=
  upholds_pauseRows ⟨fun _ _ ht => ht, fun _ _ _ _ ht => ht⟩ fun _ _ =>
    ⟨fun _ _ ht => ht, fun _ _ _ ht _ => ht, fun _ _ ht => ht⟩

theorem deleteSubTasks_stays (tasks : List Task) (body : List SubTask) :
    Upholds (Stays tasks) (TaskScheduler.deleteSubTasks body) fun _ => True :=
  upholds_deleteRows ⟨fun _ _ ht => ht, fun _ _ _ _ ht => ht⟩ fun _ _ =>
    ⟨fun _ _ ht => ht, fun _ ht => ht, fun _ _ ht => ht⟩

theorem HeldOn.still (h : HeldBut parent p t) (hnot : ¬s.runs p) (hstays : Stays s.tasks t) :
    Held parent t := by
  refine HeldOn.full h fun hrun => absurd ?_ hnot
  rwa [State.runs, hstays] at hrun

-- Pausing a task that is not running.
theorem pauseResting_held (h : Held parent s) {task : Task} (hid : task.id = p)
    (hstored : ∃ x ∈ s.tasks, x.id = p) (hnot : ¬s.runs p) (hbody : task.body = s.rowsOf p) :
    Effect.wp (exec (do
      TaskScheduler.pauseSubTasks task.body
      op (Tasks.update { task with status := .suspended })
      TaskReport.reportPausedTask p
      op saveChanged : Op Unit)) env (fun _ => Held parent) (Held parent) s := by
  have hparent : ∀ row ∈ task.body, parent row.id = p := fun row hr =>
    HeldOn.rowParent h (hbody ▸ hr)
  rw [exec_bind, Effect.wp_bind]
  refine Effect.wp_mono (Effect.wp_and
    ((pauseSubTasks_stays s.tasks task.body).preserves env s rfl)
    ((pauseSubTasks_held hparent).preserves env s (HeldOn.but h p))) ?_
    fun t ht => HeldOn.still ht.2 hnot ht.1
  rintro _ t ⟨⟨hstays, -⟩, ht, -⟩
  let parked : Task := { task with status := .suspended }
  have hold : ∃ y ∈ t.tasks, y.id = parked.id := by
    obtain ⟨x, hx, hxid⟩ := hstored
    exact ⟨x, hstays ▸ hx, hxid.trans hid.symm⟩
  have hrest : Upholds (Held parent) (TaskReport.reportPausedTask p >>= fun _ => op saveChanged)
      fun _ => True :=
    (upholds_call (plain_held parent _ _).nothing _ (emits_plain rfl)).bind fun _ _ =>
      upholds_saveChanged (plain_held parent _ _).nothing
  rw [exec_bind, Effect.wp_bind]
  refine wp_updateTask hold ?_
  exact Effect.wp_mono (hrest.preserves env _ (ht.rest hid rfl)) (fun _ _ hu => hu.1)
    fun _ hu => hu

theorem pause_held {message : Dto.Task} (h : Held parent s) (hcommand : message.command = .pause)
    (hok : Attended s ⟨env, .message message⟩) :
    HeldAfter env s (KafkaMessageQueue.receive message) := by
  rw [KafkaMessageQueue.receive, hcommand]
  change HeldAfter env s (TaskScheduler.pauseTask message.id)
  refine HeldAfter.of_wp parent ?_
  rw [TaskScheduler.pauseTask, exec_bind, Effect.wp_bind]
  refine wp_findTask (fun x hx => ?_) fun _ => h
  let task : Task := { x with body := s.rowsOf message.id }
  have hxid : x.id = message.id := Rows.key_of_find hx
  have hid : task.id = message.id := hxid
  have hstored : ∃ y ∈ s.tasks, y.id = message.id := ⟨x, List.mem_of_find?_eq_some hx, hxid⟩
  split
  · next hqueuing =>
    change x.status = .queuing at hqueuing
    have hnot := not_runs_of_status h.distinct hx (by rw [hqueuing]; simp)
    exact pauseResting_held h hid hstored hnot rfl
  · next hrunning =>
    change x.status = .running at hrunning
    have hrun : s.isRunning message.id = true := isRunning_of_status hx rfl hrunning
    have hsched : s.isSchedulable message.id = true := isSchedulable_of_status hx rfl (.inr hrunning)
    have hparks : s.parks (.message message) = some message.id := by
      simp only [State.parks, hcommand, hsched, if_true]
    have htarget : s.target (.message message) = s.nextBut message.id := by
      simp only [State.target, hcommand, hrun, if_true]
    have hasked : ∀ a ∈ s.asked (.message message), Rows.find Task.id a s.tasks ≠ none := by
      simp [State.asked, hcommand]
    have hlead : s.lead (.message message) = pauseCalls (s.rowsOf message.id) + 1 + 1 := by
      simp only [State.lead, hcommand]
    refine wp_suspend h hid hstored rfl (fun hpos => hok.parks message.id hparks hrun hpos)
      (seen_pause (.inl hcommand)) fun t hfreed ht => ?_
    rw [exec_bind, Effect.wp_bind]
    refine hfreed.wp_call ht _ (by simp [Event.isAccounted]) fun _ u hu hheld => ?_
    rw [← hlead] at hu
    exact hu.next hheld h.distinct hok htarget hasked (by simp [Operation.brings, hcommand])
  · exact h

-- While others are scheduled the task is left alone.
def Asleep (p : Uuid) (s : State) : Prop :=
  ∀ x ∈ s.tasks, x.id = p → x.isResting = true ∧ x.status ≠ .queuing

theorem scheduleNextTask_asleep (p : Uuid) :
    Upholds (Asleep p) TaskScheduler.scheduleNextTask fun _ => True := by
  have hlenient : Lenient (Asleep p) :=
    { nothing := fun _ _ h => h
      events := fun _ _ _ _ h => h
      counts := fun _ _ _ _ h => h
      reports := fun _ _ _ _ _ _ h => h }
  have hfree (id : Uuid) : Free (Asleep p) id :=
    ⟨fun _ _ _ _ _ h _ => h, fun _ _ _ _ h => h, fun _ _ _ _ _ _ _ _ h _ => h⟩
  refine upholds_scheduleNextTask fun s q hs hnext => hlenient.scheduleNextTaskById ?_
  have hne : q ≠ p := by
    rintro rfl
    obtain ⟨x, hx, hid⟩ := Option.map_eq_some_iff.mp hnext
    have hqueuing : x.status = .queuing := by simpa using List.find?_some hx
    exact (hs x (List.mem_of_find?_eq_some hx) hid).2 hqueuing
  refine ⟨fun t task hid ht x hx hxp => ?_, fun t ht x hx => ht x (List.eraseP_sublist.subset hx),
    fun _ _ _ _ _ => hfree _, fun _ _ _ _ _ _ h => h, fun _ _ _ _ _ _ h => h⟩
  obtain hx | hx := List.mem_append.mp hx
  · exact ht x (List.eraseP_sublist.subset hx) hxp
  · rw [List.mem_singleton.mp hx] at hxp
    exact absurd (hid.symm.trans hxp) hne

theorem Asleep.not_runs (h : Asleep p s) : ¬s.runs p := fun ⟨x, hx, hid, hrun⟩ =>
  not_running_of_resting (h x hx hid).1 hrun

theorem Freed.asleep (h : Freed s env operation p n t) (hs : s.Distinct) : Asleep p t := by
  obtain ⟨task, hid, hrest, hstatus, htasks⟩ := h.tasks
  intro x hx hxp
  rw [htasks] at hx
  obtain ⟨-, hne⟩ | rfl := (Rows.mem_put hs.keyed).mp hx
  · exact absurd (hxp.trans hid.symm) hne
  · exact ⟨hrest, hstatus⟩

theorem wp_dropHeld (h : Held parent s) (hnot : ¬s.runs p) {body : List SubTask}
    (hbody : ∀ row ∈ body, parent row.id = p) (isInternal : Bool) :
    Effect.wp (exec (do
      TaskScheduler.deleteSubTasks body
      op (Tasks.deleteById p)
      Prog.when (isInternal = false) (TaskReport.reportDeletedTask p)
      op saveChanged : Op Unit)) env (fun _ t => Held parent t ∧ t.tasks.Sublist s.tasks)
      (fun t => Held parent t ∧ t.tasks.Sublist s.tasks) s := by
  have hplain := plain_held parent (fun _ => False) fun _ => True
  rw [exec_bind, Effect.wp_bind]
  refine Effect.wp_mono (Effect.wp_and
    ((deleteSubTasks_stays s.tasks body).preserves env s rfl)
    ((deleteSubTasks_held hbody).preserves env s (HeldOn.but h p))) ?_
    fun t ht => ⟨HeldOn.still ht.2 hnot ht.1, ht.1 ▸ .refl _⟩
  rintro _ t ⟨⟨hstays, -⟩, ht, -⟩
  have hsub : t.tasks.Sublist s.tasks := hstays ▸ .refl _
  have hrest : Upholds (fun u => Held parent u ∧ u.tasks.Sublist s.tasks)
      (Prog.when (isInternal = false) (TaskReport.reportDeletedTask p) >>= fun _ => op saveChanged)
      fun _ => True := by
    have hnothing : Emits (fun u => Held parent u ∧ u.tasks.Sublist s.tasks) [] :=
      fun u n hu => ⟨hplain.nothing u n hu.1, hu.2⟩
    refine Upholds.bind (Upholds.when fun _ => ?_) fun _ _ => upholds_saveChanged hnothing
    exact upholds_call hnothing _ fun u n hu => ⟨emits_plain rfl u n hu.1, hu.2⟩
  rw [exec_bind, Effect.wp_bind]
  change Effect.wp (Tasks.deleteById p) env _ _ t
  simp only [Tasks.deleteById, Effect.wp_bind, Effect.wp_get, Effect.wp_lift, Effect.wp_modify]
  refine ⟨fun tasks htasks => ?_, fun _ => ⟨HeldOn.still ht hnot hstays, hsub⟩⟩
  rw [Outcome.okOr_ok_iff, Rows.remove, Option.ite_none_right_eq_some] at htasks
  obtain ⟨-, heq⟩ := htasks
  cases heq
  have hgone : ¬(t.dropTask p).runs p := by
    rintro ⟨x, hx, hid, -⟩
    change x ∈ t.tasks.eraseP fun y => y.id = p at hx
    rw [Rows.erase_eq_filter ht.distinct.keyed] at hx
    simp [hid] at hx
  have hu : Held parent (t.dropTask p) :=
    HeldOn.full (ht.dropTask p) fun hrun => absurd hrun hgone
  exact Effect.wp_mono (hrest.preserves env _ ⟨hu, List.eraseP_sublist.trans hsub⟩)
    (fun _ _ hv => hv.1) fun _ hv => hv

theorem wp_deleteResting (h : Held parent s) (hnot : ¬s.runs p) (isInternal : Bool) :
    Effect.wp (exec (TaskScheduler.deleteTask p isInternal)) env
      (fun _ t => Held parent t ∧ t.tasks.Sublist s.tasks)
      (fun t => Held parent t ∧ t.tasks.Sublist s.tasks) s := by
  rw [TaskScheduler.deleteTask, exec_bind, Effect.wp_bind]
  refine wp_findTask (fun x hx => ?_) fun _ => ⟨h, .refl _⟩
  have hstatus : x.status ≠ .running := fun hrun =>
    hnot ⟨x, List.mem_of_find?_eq_some hx, Rows.key_of_find hx, hrun⟩
  rw [TaskScheduler.suspendRunning, Prog.when, if_neg hstatus]
  exact wp_dropHeld h hnot (fun row hr => HeldOn.rowParent h hr) isInternal

theorem delete_held {message : Dto.Task} (h : Held parent s) (hcommand : message.command = .delete)
    (hok : Attended s ⟨env, .message message⟩) :
    HeldAfter env s (KafkaMessageQueue.receive message) := by
  rw [KafkaMessageQueue.receive, hcommand]
  change HeldAfter env s (TaskScheduler.deleteTask message.id false)
  refine HeldAfter.of_wp parent ?_
  by_cases hrunning : s.runs message.id
  · rw [TaskScheduler.deleteTask, exec_bind, Effect.wp_bind]
    refine wp_findTask (fun x hx => ?_) fun _ => h
    have hxid : x.id = message.id := Rows.key_of_find hx
    obtain ⟨y, hy, hyid, hrun⟩ := hrunning
    have hxy : y = x := Rows.eq_of_key h.distinct.keyed hy (List.mem_of_find?_eq_some hx)
      (hyid.trans hxid.symm)
    rw [hxy] at hrun
    let task : Task := { x with body := s.rowsOf message.id }
    have hid : task.id = message.id := hxid
    have hstored : ∃ y ∈ s.tasks, y.id = message.id := ⟨x, List.mem_of_find?_eq_some hx, hxid⟩
    have hisRun : s.isRunning message.id = true := isRunning_of_status hx rfl hrun
    have hparks : s.parks (.message message) = some message.id := by
      simp only [State.parks, hcommand, hisRun, if_true]
    have htarget : s.target (.message message) = s.nextBut message.id := by
      simp only [State.target, hcommand, hisRun, if_true]
    have hasked : ∀ a ∈ s.asked (.message message), Rows.find Task.id a s.tasks ≠ none := by
      simp [State.asked, hcommand]
    have hlead : s.lead (.message message) = pauseCalls (s.rowsOf message.id) + 1 := by
      simp only [State.lead, hcommand]
    rw [exec_bind, Effect.wp_bind, TaskScheduler.suspendRunning, Prog.when, if_pos hrun]
    refine wp_suspend h hid hstored rfl (fun hpos => hok.parks message.id hparks hisRun hpos)
      (seen_pause (.inr hcommand)) fun t hfreed ht => ?_
    rw [← hlead] at hfreed
    have hasleep : Asleep message.id t := hfreed.asleep h.distinct
    refine Effect.wp_mono (Effect.wp_and (hfreed.next ht h.distinct hok htarget hasked
      (by simp [Operation.brings, hcommand]))
      ((scheduleNextTask_asleep message.id).preserves env t hasleep)) ?_ fun _ hu => hu.1
    rintro _ u ⟨hu, hstill, -⟩
    exact Effect.wp_mono (wp_dropHeld hu hstill.not_runs
      (fun row hr => HeldOn.rowParent h hr) false) (fun _ _ hv => hv.1) fun _ hv => hv.1
  · exact Effect.wp_mono (wp_deleteResting h hrunning false) (fun _ _ ht => ht.1) fun _ ht => ht.1

theorem deleteAllCompleted_held (h : Held parent s) :
    HeldAfter env s TaskScheduler.deleteAllCompletedTasks := by
  refine HeldAfter.of_wp parent ?_
  rw [TaskScheduler.deleteAllCompletedTasks, exec_bind, Effect.wp_bind]
  change Effect.wp (exec (Prog.each (fun task =>
    Prog.when (task.status = .completed ∧ task.updateTime > env.now - 2 * 60 * 60)
      (TaskScheduler.deleteTask task.id true)) s.tasks)) env _ _ s
  rw [exec_each]
  refine Effect.wp_mono (Effect.wp_each
    (fun _ t => Held parent t ∧ t.tasks.Sublist s.tasks) s.tasks (fun pre task post hsplit t ht => ?_)
    ⟨h, .refl _⟩) (fun _ _ ht => ht.1) fun _ ht => ht
  unfold Prog.when
  split
  · next hdone =>
    have hmem : task ∈ s.tasks := by simp [hsplit]
    have hnot : ¬t.runs task.id := by
      rintro ⟨x, hx, hid, hrun⟩
      rw [Rows.eq_of_key h.distinct.keyed (ht.2.subset hx) hmem hid, hdone.1] at hrun
      cases hrun
    exact Effect.wp_mono (wp_deleteResting ht.1 hnot true)
      (fun _ _ hu => ⟨hu.1, hu.2.trans ht.2⟩) fun _ hu => hu.1
  · exact ht

theorem fail_held {x : Uuid} (h : Held parent s) (hok : Attended s ⟨env, .report x .failed⟩) :
    HeldAfter env s (TaskScheduler.failSubTask x) := by
  refine HeldAfter.of_wp parent ?_
  rw [TaskScheduler.failSubTask, exec_bind, Effect.wp_bind]
  refine wp_releaseTasksCount (fun hpos => ?_) h
  let w : State := { s with tasksCount := s.tasksCount - 1, trace := s.trace ++ [.failed x] }
  have hout : outstanding w.trace = (outstanding s.trace).filter fun y => y ≠ x :=
    outstanding_append s.trace _
  have hw : HeldOn parent s.Tracks (fun y => y ≠ parent x) w :=
    (HeldOn.watching h (parent x)).leave spares_failed rfl rfl rfl rfl
  have hbut : HeldBut parent (parent x) w := hw.mono (fun _ => False.elim) fun _ => id
  change Effect.wp (exec _) env _ _ w
  rw [exec_bind, Effect.wp_bind]
  refine wp_getRow (fun row hrow => ?_) fun hnone => ?_
  · have hmem := List.mem_of_find?_eq_some hrow
    have hrowId : row.id = x := Rows.key_of_find hrow
    have hparent : row.parentId = parent x := hrowId ▸ h.parents row hmem
    rw [exec_bind, Effect.wp_bind]
    have hgone (hnone : Rows.find Task.id row.parentId w.tasks = none) : Held parent w := by
      refine HeldOn.full hbut ?_
      rintro ⟨z, hz, hzid, -⟩
      exact absurd (hzid.trans hparent.symm) (Rows.find_eq_none_iff.mp hnone z hz)
    refine wp_findTask (fun y hy => ?_) hgone
    let task : Task := { y with body := w.rowsOf row.parentId }
    have hid : task.id = parent x := (Rows.key_of_find hy).trans hparent
    have hstored : ∃ z ∈ s.tasks, z.id = parent x := ⟨y, List.mem_of_find?_eq_some hy, hid⟩
    have hreleased : Released s env (.report x .failed) (parent x) 0 w :=
      { pos := hpos
        calls := rfl
        clear := not_blocked_zero
        tasks := rfl
        subTasks := rfl
        tasksCount := rfl
        maxTasksCount := rfl
        tracks := fun q hq hs => hw.tracks q (.inl hs.tracks) hq }
    have htarget : s.target (.report x .failed) = s.nextBut (parent x) := by
      simp only [State.target, show Rows.find SubTask.id x s.subTasks = some row from hrow,
        Option.bind_some, hparent]
    have hasked : ∀ a ∈ s.asked (.report x .failed), Rows.find Task.id a s.tasks ≠ none := by
      intro a ha hnone
      simp only [State.asked, show Rows.find SubTask.id x s.subTasks = some row from hrow,
        Option.map_some, Option.mem_some_iff] at ha
      rw [← ha, show Rows.find Task.id row.parentId s.tasks = some y from hy] at hnone
      cases hnone
    refine wp_finish hreleased hbut hid hstored rfl (by simp) fun u hu hheld => ?_
    rw [exec_bind, Effect.wp_bind]
    refine hu.wp_call hheld _ (by simp [Event.isAccounted]) fun _ v hv hheld => ?_
    exact hv.next hheld h.distinct hok htarget hasked rfl
  · refine HeldOn.full hbut fun hrun => ?_
    obtain ⟨r, hr, hparent, hmem⟩ := h.tracks (parent x) (.inr hrun) trivial
    refine ⟨r, hr, hparent, ?_⟩
    rw [hout]
    exact List.mem_filter.mpr ⟨hmem, decide_eq_true (Rows.find_eq_none_iff.mp hnone r hr)⟩

theorem complete_held {x : Uuid} (h : Held parent s) (hok : Attended s ⟨env, .report x .completed⟩) :
    HeldAfter env s (TaskScheduler.completeSubTask x) := by
  refine HeldAfter.of_wp parent ?_
  rw [TaskScheduler.completeSubTask, exec_bind, Effect.wp_bind]
  refine wp_getRow (fun row hrow => ?_) fun _ => h
  have hmem := List.mem_of_find?_eq_some hrow
  have hrowId : row.id = x := Rows.key_of_find hrow
  let p : Uuid := row.parentId
  have hp : p = parent x := hrowId ▸ h.parents row hmem
  let s₁ : State := s.putSubTask row.complete
  have hs₁ : Held parent s₁ := h.putSubTask (h.parents row hmem) ⟨row, hmem, rfl⟩
  have hold : ∃ y ∈ s.subTasks, y.id = ({ row with status := .completed } : SubTask).id :=
    ⟨row, hmem, rfl⟩
  rw [exec_bind, Effect.wp_bind]
  refine wp_updateRow hold ?_
  rw [exec_bind, Effect.wp_bind]
  refine wp_callOnce _ _ (fun hfine => ?_) fun _ => hs₁.of_same rfl rfl rfl rfl
  let s₂ : State := { s₁ with calls := s.calls + 1, trace := s.trace ++ [] }
  have hsame : outstanding s₂.trace = outstanding s.trace := congrArg outstanding (List.append_nil _)
  have hs₂ : Held parent s₂ := hs₁.of_same rfl rfl rfl hsame
  change Effect.wp (exec _) env _ _ s₂
  rw [exec_bind, Effect.wp_bind]
  refine wp_releaseTasksCount (fun hpos => ?_) hs₂
  let w : State := { s₂ with tasksCount := s.tasksCount - 1, trace := s₂.trace ++ [.finished x] }
  have hout : outstanding w.trace = (outstanding s₂.trace).filter fun y => y ≠ x :=
    outstanding_append s₂.trace _
  have hbut : HeldBut parent p w := by
    refine (HeldOn.but hs₂ p).leave ?_ rfl rfl rfl rfl
    rw [hp]
    exact spares_finished
  have hseen : s.seen (.report x .completed) = { s₁ with tasksCount := s.tasksCount - 1 } := by
    simp only [State.seen, hrow]
    rfl
  have htracks (q : Uuid) (hq : s.Tracked (.report x .completed) q) : w.Tracks q := by
    obtain ⟨r, hr, hmem', hne⟩ := hq
    have hrx : r.id ≠ x := fun heq => hne (by rw [heq]; rfl)
    refine ⟨r, (Rows.mem_put h.distinct.nodup).mpr (.inl ⟨(mem_rowsOf.mp hr).1, ?_⟩),
      (mem_rowsOf.mp hr).2, ?_⟩
    · exact fun heq => hrx (heq.trans hrowId)
    · rw [hout, hsame]
      exact List.mem_filter.mpr ⟨hmem', decide_eq_true hrx⟩
  have hclear : ¬Blocked env s 1 := not_blocked_succ not_blocked_zero rfl hfine
  change Effect.wp (exec _) env _ _ w
  rw [exec_bind, Effect.wp_bind]
  have hgone (hnone : Rows.find Task.id p w.tasks = none) : Held parent w := by
    refine HeldOn.full hbut ?_
    rintro ⟨z, hz, hzid, -⟩
    exact absurd hzid (Rows.find_eq_none_iff.mp hnone z hz)
  refine wp_findTask (fun y hy => ?_) hgone
  have hasked : ∀ a ∈ s.asked (.report x .completed), Rows.find Task.id a s.tasks ≠ none := by
    intro a ha hnone
    simp only [State.asked, hrow, Option.map_some, Option.mem_some_iff] at ha
    rw [← ha, show Rows.find Task.id row.parentId s.tasks = some y from hy] at hnone
    cases hnone
  have hrow' : Rows.find SubTask.id x s.subTasks = some row := hrow
  have hall : (((s.seen (.report x .completed)).rowsOf row.parentId).all fun r =>
      r.status = .completed) = ((w.rowsOf p).all fun r => r.status = .completed) := by
    rw [hseen]
    rfl
  have hfinishes : s.finishes x = ((w.rowsOf p).all fun r => r.status = .completed) := by
    rw [State.finishes, hrow', Option.any_some, hall]
  split
  · next hdone =>
    change ((w.rowsOf p).all fun r => r.status = .completed) = true at hdone
    rw [hdone] at hfinishes hall
    have htarget : s.target (.report x .completed) = s.nextBut p := by
      rw [State.target, hrow', Option.bind_some, hall, if_pos rfl]
    have hlead : s.lead (.report x .completed) = 1 + 1 + 1 := by
      rw [State.lead, hfinishes, if_pos rfl]
    have hreleased : Released s env (.report x .completed) p 1 w := by
      refine ⟨hpos, rfl, hclear, rfl, ?_, ?_, ?_, fun q _ hq => htracks q hq⟩ <;> rw [hseen]
    let task : Task := { y with body := w.rowsOf p }
    have hyid : y.id = p := Rows.key_of_find hy
    have hid : task.id = p := hyid
    refine wp_finish hreleased hbut hid ⟨y, List.mem_of_find?_eq_some hy, hid⟩ rfl (by simp)
      fun u hu hheld => ?_
    rw [exec_bind, Effect.wp_bind, TaskReport.reportCompletedTask, exec_bind, Effect.wp_bind]
    refine wp_findTask (fun z _ => ?_) fun _ => hheld
    refine hu.wp_call hheld _ (by simp [Event.isAccounted]) fun _ v hv hheld => ?_
    rw [← hlead] at hv
    exact hv.next hheld h.distinct hok htarget hasked rfl
  · next hdone =>
    change ¬((w.rowsOf p).all fun r => r.status = .completed) = true at hdone
    rw [Bool.not_eq_true] at hdone
    rw [hdone] at hfinishes hall
    refine wp_scheduleTask hbut fun z hz hstatus => ?_
    have hsched : s.isSchedulable p = true := isSchedulable_of_status hz rfl hstatus
    have htarget : s.target (.report x .completed) = some p := by
      rw [State.target, hrow', Option.bind_some, hall, if_neg (by simp), if_pos hsched]
    have hlead : s.lead (.report x .completed) = 1 := by
      rw [State.lead, hfinishes, if_neg (by simp)]
    have hhalt : ¬Halted s ⟨env, .report x .completed⟩ := by
      rintro (⟨-, hzero⟩ | ⟨a, ha, hnone⟩ | hblocked)
      · exact Nat.ne_of_gt hpos hzero
      · exact hasked a ha hnone
      · rw [show s.lead (.report x .completed) = 1 from hlead] at hblocked
        exact hclear hblocked
    have htakes : s.takes p (.report x .completed) = passCalls z.status := by
      change (Rows.find Task.id p s.tasks).elim 2 (fun x => passCalls x.status) = _
      rw [show Rows.find Task.id p s.tasks = some z from hz, Option.elim_some]
    rw [← htakes]
    exact hok.ready htarget hhalt rfl (by rw [hseen]; rfl) (by rw [hlead]) (by rw [hseen])
      (by rw [hseen]) (htracks p)

theorem not_halted_idle (h₀ : operation.releases = false) (h₁ : s.asked operation = none)
    (h₂ : s.lead operation = 0) : ¬Halted s ⟨env, operation⟩ := by
  rintro (⟨hreleases, -⟩ | ⟨a, ha, -⟩ | hblocked)
  · rw [show operation.releases = false from h₀] at hreleases
    cases hreleases
  · rw [show s.asked operation = none from h₁] at ha
    cases ha
  · rw [show s.lead operation = 0 from h₂] at hblocked
    exact not_blocked_zero hblocked

theorem scheduleNext_held (h : Held parent s) (hok : Attended s ⟨env, .scheduleNextTask⟩) :
    HeldAfter env s TaskScheduler.scheduleNextTask := by
  refine HeldAfter.of_wp parent (wp_scheduleNext h fun x hx => ?_)
  have hqueuing : x.status = .queuing := by simpa using List.find?_some hx
  have hfind : Rows.find Task.id x.id s.tasks = some x :=
    Rows.find_of_mem h.distinct.keyed (List.mem_of_find?_eq_some hx)
  have htarget : s.target .scheduleNextTask = some x.id := by
    rw [State.target, State.nextQueuing, hx]
    rfl
  have htakes : s.takes x.id .scheduleNextTask = 2 := by
    change (Rows.find Task.id x.id s.tasks).elim 2 (fun x => passCalls x.status) = _
    rw [hfind, Option.elim_some, passCalls, if_pos hqueuing]
  rw [← htakes]
  exact hok.ready htarget (not_halted_idle rfl rfl rfl) rfl rfl rfl rfl rfl fun ht => ht.tracks

theorem scheduleById_held {q : Uuid} (h : Held parent s)
    (hok : Attended s ⟨env, .scheduleNextTaskById q⟩) :
    HeldAfter env s (TaskScheduler.scheduleNextTaskById q) := by
  refine HeldAfter.of_wp parent (wp_scheduleTask (HeldOn.but h q) fun x hx hstatus => ?_)
  have hsched : s.isSchedulable q = true := isSchedulable_of_status hx rfl hstatus
  have htarget : s.target (.scheduleNextTaskById q) = some q := by
    rw [State.target, if_pos hsched]
  have htakes : s.takes q (.scheduleNextTaskById q) = passCalls x.status := by
    change (Rows.find Task.id q s.tasks).elim 2 (fun x => passCalls x.status) = _
    rw [hx, Option.elim_some]
  rw [← htakes]
  exact hok.ready htarget (not_halted_idle rfl rfl rfl) rfl rfl rfl rfl rfl fun ht => ht.tracks

theorem serve_held (h : Held parent s) (hok : Attended s ⟨env, operation⟩) :
    HeldAfter env s operation.serve := by
  cases hscheduling : operation.isScheduling with
  | false =>
    have hserve : Upholds (Held parent) operation.serve fun _ => True :=
      upholds_serveSubTask (plain_held parent _ _) (free_held parent _ _) hscheduling
    exact HeldAfter.of_wp parent (Effect.wp_mono (hserve.preserves env s h) (fun _ _ ht => ht.1)
      fun _ ht => ht)
  | true =>
    cases operation with
    | message message =>
      change HeldAfter env s (KafkaMessageQueue.receive message)
      cases hcommand : message.command with
      | start => exact start_held h hcommand hok
      | pause => exact pause_held h hcommand hok
      | «continue» => exact continue_held h hcommand hok
      | delete => exact delete_held h hcommand hok
    | report x status =>
      cases status with
      | completed => exact complete_held h hok
      | failed => exact fail_held h hok
    | scheduleNextTask => exact scheduleNext_held h hok
    | scheduleNextTaskById q => exact scheduleById_held h hok
    | deleteAllCompletedTasks => exact deleteAllCompleted_held h
    | refreshAllStatus => cases hscheduling
    | runJob => cases hscheduling
    | completeJob => cases hscheduling
    | failJob => cases hscheduling
    | runSubTask => cases hscheduling
    | completeDeployment => cases hscheduling
    | failDeployment => cases hscheduling

theorem HeldOn.findable (h : Held parent s) : s.Findable := by
  intro task htask hsuspended hfailed hcompleted
  obtain hrest | hrun := h.known task htask
  · refine .inl ?_
    simpa [Task.isResting, hsuspended, hfailed, hcompleted] using hrest
  · exact .inr (h.tracks task.id (.inr ⟨task, htask, rfl, hrun⟩) trivial)

theorem held_initial (maxTasksCount : Nat) : Held id (State.initial maxTasksCount) :=
  ⟨distinct_initial maxTasksCount, fun _ h => (nomatch h), fun _ h => (nomatch h),
    fun _ hq _ => by
      obtain ⟨x, hx, -⟩ := hq.resolve_left id
      cases hx⟩

end Next

instance (s : State) (turn : Turn) : Decidable (Halted s turn) :=
  inferInstanceAs (Decidable ((turn.operation.releases = true ∧ s.tasksCount = 0) ∨
    (∃ p ∈ s.asked turn.operation, Rows.find Task.id p s.tasks = none) ∨
    Blocked turn.env s (s.lead turn.operation)))

instance (s : State) (operation : Operation) (q : Uuid) : Decidable (s.Tracked operation q) :=
  inferInstanceAs (Decidable (∃ r ∈ s.rowsOf q,
    r.id ∈ outstanding s.trace ∧ operation.reported ≠ some r.id))

instance (s : State) (q : Uuid) : Decidable (s.Tracks q) :=
  inferInstanceAs (Decidable (∃ r ∈ s.subTasks, r.parentId = q ∧ r.id ∈ outstanding s.trace))

instance (s : State) : Decidable s.Findable :=
  inferInstanceAs (Decidable (∀ task ∈ s.tasks, task.status ≠ .suspended →
    task.status ≠ .failed → task.status ≠ .completed →
      task.status = .queuing ∨ s.Tracks task.id))

instance (s : State) (turn : Turn) (q : Uuid) : Decidable (Served s turn q) :=
  decidable_of_iff (¬Blocked turn.env s (s.lead turn.operation + s.takes q turn.operation) ∧
      (∀ r ∈ (s.seen turn.operation).rowsOf q, r.isBusy = false) ∧
      (turn.operation.brings = true ∨
        ∃ r ∈ (s.seen turn.operation).rowsOf q, r.isWaiting = true) ∧
      (s.seen turn.operation).isFull = false ∧
      (s.seen turn.operation).tasksCount + 1 < 2 ^ 32)
    ⟨fun ⟨h₁, h₂, h₃, h₄, h₅⟩ => ⟨h₁, h₂, h₃, h₄, h₅⟩,
      fun ⟨h₁, h₂, h₃, h₄, h₅⟩ => ⟨h₁, h₂, h₃, h₄, h₅⟩⟩

instance (s : State) (turn : Turn) : Decidable (Attended s turn) :=
  decidable_of_iff ((∀ p ∈ s.parks turn.operation, s.isRunning p = true → 0 < s.tasksCount →
      ¬Blocked turn.env s (pauseCalls (s.rowsOf p))) ∧
      ∀ q ∈ s.target turn.operation,
        Halted s turn ∨ s.Tracked turn.operation q ∨ Served s turn q)
    ⟨fun ⟨h₁, h₂⟩ => ⟨h₁, h₂⟩, fun ⟨h₁, h₂⟩ => ⟨h₁, h₂⟩⟩

end Kuintessence.Agent
