import Kuintessence.Agent.Records
import Kuintessence.Agent.Resuming

namespace Kuintessence.Agent

open Prog

def Event.tells (id : Uuid) : Event → Bool
  | .subTaskReport x _ => x = id
  | .upload command => command.taskFile.any fun file => file.relatedTaskBody = id
  | _ => false

def State.filesOf (s : State) (id : Uuid) : List File :=
  s.taskFiles.filter fun file => file.relatedTaskBody = id

-- The sub-task, its files, its reports and its uploads are the same in both states.
structure AlikeFor (id : Uuid) (s t : State) : Prop where
  row : Rows.find SubTask.id id t.subTasks = Rows.find SubTask.id id s.subTasks
  files : t.filesOf id = s.filesOf id
  trace : t.trace.filter (Event.tells id) = s.trace.filter (Event.tells id)

-- What one refresh writes.
structure Writes where
  row : Option SubTask := none
  files : List File := []
  events : List Event := []
  calls : Nat

def State.after (s : State) (w : Writes) : State :=
  { s with
    subTasks := (w.row.map fun row => Rows.put SubTask.id row s.subTasks).getD s.subTasks
    taskFiles := w.files.foldl (fun rows file => Rows.put File.id file rows) s.taskFiles
    calls := s.calls + w.calls
    trace := s.trace ++ w.events }

namespace RunJob

-- The calls made for a sub-task are answered by an environment of its own.
def among (id : Uuid) (m : Op Unit) : Effect (Uuid → Env) State String Unit := fun envs s =>
  exec m (envs id) { s with calls := 0 }

def refreshAllStatusAmong : Effect (Uuid → Env) State String Unit := do
  let s ← .get
  Effect.each (fun task => among task.id (refreshStatus task.id)) s.refreshable

def replied : Option String → Outcome String Unit
  | some e => .err e
  | none => .ok ()

def upload (parentId : Uuid) (file : File) : Event :=
  .upload ⟨file.id, parentId, .start, some file⟩

def uploading (file : File) : File := { file with status := .uploading }

def failing (env : Env) (n : Nat) (row : SubTask) : Outcome String Unit × Writes :=
  let row := { row with failedReason := exitReason (env.job n) }
  match env.fails (n + 1) with
  | some e => (.err e, { row := some row, calls := 2 })
  | none => (.ok (), { row := some row, events := [.subTaskReport row.id .failed], calls := 2 })

def completing (env : Env) (n : Nat) (row : SubTask) (outs : List File) :
    Outcome String Unit × Writes :=
  match env.fails (n + 1) with
  | some e => (.err e, { row := some row, calls := 2 })
  | none =>
    if outs.length = 0 then
      (.ok (), { row := some row, events := [.subTaskReport row.id .completed], calls := 2 })
    else
      (replied (env.fails (n + 2)),
        { row := some row
          files := outs.map uploading
          events := outs.map (upload row.parentId)
          calls := 3 })

-- A refresh as a function of the sub-task, its files and the answers it gets.
def refreshed (env : Env) (n : Nat) (row : SubTask) (files : List File) :
    Outcome String Unit × Writes :=
  match env.fails n with
  | some e => (.err e, { calls := 1 })
  | none =>
    let job := env.job n
    let task := { row with resourceUsed := some job.resourceUsed, status := statusOf job.state }
    if task.status = .running then (.ok (), { calls := 1 })
    else if task.status = .failed then failing env n task
    else completing env n task (files.filter fun x => x.fileType = .OUT)

section

variable {env : Env} {s : State} {id : Uuid} {row : SubTask}

theorem getById_of_find (hrow : Rows.find SubTask.id id s.subTasks = some row) :
    SubTasks.getById id env s = (.ok row, s) := by
  change (Outcome.okOr _ (Rows.find SubTask.id id s.subTasks), s) = _
  rw [hrow, Outcome.okOr]

theorem call_ok {α : Type} {answer : Env → Nat → α} {events : List Event}
    (h : env.fails s.calls = none) : call answer events env s = (.ok (answer env s.calls),
      { s with calls := s.calls + 1, trace := s.trace ++ events }) := by
  rw [call, h]

theorem call_err {α : Type} {answer : Env → Nat → α} {events : List Event} {e : String}
    (h : env.fails s.calls = some e) :
    call answer events env s = (.err e, { s with calls := s.calls + 1 }) := by
  rw [call, h]

theorem update_row {s : State} (row : SubTask) (hrow : ∃ x ∈ s.subTasks, x.id = row.id) :
    SubTasks.update row env s = (.ok (), s.putSubTask row) := by
  have hany : s.subTasks.any (fun y => y.id = row.id) = true := by
    obtain ⟨x, hx, hid⟩ := hrow
    exact List.any_eq_true.mpr ⟨x, hx, decide_eq_true hid⟩
  have hreplace : (Effect.lift (.okOr "No Such id" (Rows.replace SubTask.id row s.subTasks)) :
      Act (List SubTask)) env s = (.ok (Rows.put SubTask.id row s.subTasks), s) := by
    rw [Effect.lift, Rows.replace, if_pos hany, Outcome.okOr]
  exact Effect.bind_of_ok hreplace _

theorem update_file {s : State} (file : File) (hfile : ∃ x ∈ s.taskFiles, x.id = file.id) :
    TaskFiles.update file env s = (.ok (), s.putFile file) := by
  have hany : s.taskFiles.any (fun y => y.id = file.id) = true := by
    obtain ⟨x, hx, hid⟩ := hfile
    exact List.any_eq_true.mpr ⟨x, hx, decide_eq_true hid⟩
  have hreplace : (Effect.lift (.okOr "No Such id" (Rows.replace File.id file s.taskFiles)) :
      Act (List File)) env s = (.ok (Rows.put File.id file s.taskFiles), s) := by
    rw [Effect.lift, Rows.replace, if_pos hany, Outcome.okOr]
  exact Effect.bind_of_ok hreplace _

theorem save_ok (h : env.fails s.calls = none) :
    saveChanged env s = (.ok (), { s with calls := s.calls + 1 }) := by
  rw [saveChanged, call_ok h, List.append_nil]

theorem save_err {e : String} (h : env.fails s.calls = some e) :
    saveChanged env s = (.err e, { s with calls := s.calls + 1 }) := call_err h

-- The puts keep the keys, so every later put finds its row.
theorem mem_put_key {α : Type} {key : α → Uuid} {rows : List α} (h : (rows.map key).Nodup)
    {x : α} (hx : ∃ y ∈ rows, key y = key x) {k : Uuid} :
    (∃ y ∈ Rows.put key x rows, key y = k) ↔ ∃ y ∈ rows, key y = k := by
  have hmap := Rows.mem_map_put h (f := key) (b := k) (by
    obtain ⟨y, hy, hkey⟩ := hx
    exact ⟨y, hy, hkey, hkey⟩)
  simpa only [List.mem_map] using hmap

theorem exec_uploads {s : State} (env : Env) (parentId : Uuid) {outs : List File} (hs : (s.taskFiles.map File.id).Nodup)
    (houts : ∀ file ∈ outs, ∃ x ∈ s.taskFiles, x.id = file.id) :
    Effect.each (fun file => exec (do
      send (.upload ⟨file.id, parentId, .start, some file⟩)
      op (TaskFiles.update { file with status := .uploading }))) outs env s =
      (.ok (), s.after
        { files := outs.map uploading, events := outs.map (upload parentId), calls := 0 }) := by
  induction outs generalizing s with
  | nil =>
    simp [Effect.each, State.after]
    rfl
  | cons file outs ih =>
    have hfile := houts file List.mem_cons_self
    let t : State := { s with trace := s.trace ++ [upload parentId file] }
    have hone : exec (do
        send (.upload ⟨file.id, parentId, .start, some file⟩)
        op (TaskFiles.update { file with status := .uploading })) env s =
        (.ok (), t.putFile (uploading file)) := by
      rw [exec_bind]
      exact update_file (s := t) (uploading file) hfile
    rw [Effect.each, Effect.bind_of_ok hone]
    have hrest := ih (s := t.putFile (uploading file)) (Rows.nodup_put hs (uploading file))
      fun x hx => (mem_put_key (x := uploading file) hs hfile).mpr
        (houts x (List.mem_cons_of_mem file hx))
    rw [hrest]
    simp [State.after, State.putFile, t]

theorem mem_of_filesOf {t : State} {file : File} (h : file ∈ t.filesOf id) : file ∈ t.taskFiles :=
  (List.mem_filter.mp h).1

theorem completes (hrow : ∃ x ∈ s.subTasks, x.id = row.id) (hid : row.id = id) (hs : s.Unique) :
    (do
      SubTasks.update row
      saveChanged
      let files ← TaskFiles.findFilesByTask id
      let files := files.filter fun x => x.fileType = .OUT
      if files.length = 0 then exec (internalCompleteJob id)
      else do
        Effect.each (fun file => exec (do
          send (.upload ⟨file.id, row.parentId, .start, some file⟩)
          op (TaskFiles.update { file with status := .uploading }))) files
        saveChanged : Act Unit) env { s with calls := s.calls + 1 } =
    ((completing env s.calls row ((s.filesOf id).filter fun x => x.fileType = .OUT)).1,
      s.after (completing env s.calls row ((s.filesOf id).filter fun x => x.fileType = .OUT)).2) := by
  let t : State := { s with calls := s.calls + 1 }
  rw [Effect.bind_of_ok (update_row (s := t) row hrow), completing]
  cases hsave : env.fails (s.calls + 1) with
  | some e =>
    rw [Effect.bind_of_err (save_err (s := t.putSubTask row) hsave)]
    simp [State.after, State.putSubTask, t]
  | none =>
    let u : State := { t.putSubTask row with calls := s.calls + 2 }
    have hu : saveChanged env (t.putSubTask row) = (.ok (), u) := save_ok hsave
    have hfiles : TaskFiles.findFilesByTask id env u = (.ok (s.filesOf id), u) := rfl
    rw [Effect.bind_of_ok hu, Effect.bind_of_ok hfiles]
    by_cases hnone : ((s.filesOf id).filter fun x => x.fileType = .OUT).length = 0
    · have hnil := List.eq_nil_of_length_eq_zero hnone
      rw [if_pos hnone, if_pos hnone, internalCompleteJob, exec_bind]
      rw [show exec (op (TaskFiles.findFilesByTask id)) = TaskFiles.findFilesByTask id from rfl,
        Effect.bind_of_ok hfiles, hnil, if_pos (by simp)]
      simp [State.after, State.putSubTask, t, u, hid]
      rfl
    · have houts : ∀ file ∈ (s.filesOf id).filter fun x => x.fileType = .OUT,
          ∃ x ∈ u.taskFiles, x.id = file.id := fun file hfile =>
        ⟨file, mem_of_filesOf (List.mem_filter.mp hfile).1, rfl⟩
      have huploads := exec_uploads (s := u) env row.parentId hs.taskFiles houts
      rw [if_neg hnone, if_neg hnone, Effect.bind_of_ok huploads]
      cases hlast : env.fails (s.calls + 2) with
      | some e =>
        refine (save_err (s := u.after _) hlast).trans ?_
        simp [State.after, State.putSubTask, t, u, replied]
      | none =>
        refine (save_ok (s := u.after _) hlast).trans ?_
        simp [State.after, State.putSubTask, t, u, replied]

theorem fails_task (hrow : ∃ x ∈ s.subTasks, x.id = row.id) :
    (do
      SubTasks.update { row with failedReason := exitReason (env.job s.calls) }
      saveChanged
      exec (send (.subTaskReport row.id .failed)) : Act Unit) env { s with calls := s.calls + 1 } =
    ((failing env s.calls row).1, s.after (failing env s.calls row).2) := by
  let t : State := { s with calls := s.calls + 1 }
  let row' : SubTask := { row with failedReason := exitReason (env.job s.calls) }
  rw [Effect.bind_of_ok (update_row (s := t) row' hrow), failing]
  cases hsave : env.fails (s.calls + 1) with
  | some e =>
    rw [Effect.bind_of_err (save_err (s := t.putSubTask row') hsave)]
    simp [State.after, State.putSubTask, t, row']
  | none =>
    rw [Effect.bind_of_ok (save_ok (s := t.putSubTask row') hsave)]
    simp [State.after, State.putSubTask, t, row']
    rfl

theorem exec_refreshStatus (hrow : Rows.find SubTask.id id s.subTasks = some row)
    (hs : s.Unique) : exec (refreshStatus id) env s =
      ((refreshed env s.calls row (s.filesOf id)).1,
        s.after (refreshed env s.calls row (s.filesOf id)).2) := by
  have hid : row.id = id := Rows.key_of_find hrow
  have hmem : ∃ x ∈ s.subTasks, x.id = row.id := ⟨row, List.mem_of_find?_eq_some hrow, rfl⟩
  rw [refreshStatus, exec_bind]
  rw [show exec (op (SubTasks.getById id)) = SubTasks.getById id from rfl,
    Effect.bind_of_ok (getById_of_find hrow), exec_bind, refreshed]
  rw [show exec (op (call (fun env n => env.job n) [])) = call (fun env n => env.job n) [] from rfl]
  cases hjob : env.fails s.calls with
  | some e =>
    rw [Effect.bind_of_err (call_err hjob)]
    simp [State.after]
  | none =>
    let task : SubTask := { row with
      resourceUsed := some (env.job s.calls).resourceUsed
      status := statusOf (env.job s.calls).state }
    have htask : ∃ x ∈ s.subTasks, x.id = task.id := hmem
    rw [Effect.bind_of_ok (call_ok hjob), List.append_nil]
    by_cases hrunning : statusOf (env.job s.calls).state = .running
    · rw [if_pos hrunning, if_pos hrunning]
      simp [State.after]
      rfl
    rw [if_neg hrunning, if_neg hrunning]
    by_cases hfailed : statusOf (env.job s.calls).state = .failed
    · rw [if_pos hfailed, if_pos hfailed, ← hid]
      simp only [exec_bind]
      exact fails_task htask
    · rw [if_neg hfailed, if_neg hfailed]
      simp only [exec_bind, exec_each, apply_ite exec]
      exact completes htask hid hs

end

end RunJob

-- The writes are about the sub-task alone, and every file among them has its row.
structure Writes.Own (w : Writes) (id : Uuid) (files : List File) : Prop where
  row : ∀ row ∈ w.row, row.id = id
  files : ∀ file ∈ w.files, file.relatedTaskBody = id ∧ ∃ x ∈ files, x.id = file.id
  events : ∀ e ∈ w.events, ∀ j, e.tells j = true → j = id

section Frame

variable {s t : State} {w : Writes} {id j : Uuid}

theorem AlikeFor.refl (id : Uuid) (s : State) : AlikeFor id s s := ⟨rfl, rfl, rfl⟩

theorem AlikeFor.symm (h : AlikeFor id s t) : AlikeFor id t s :=
  ⟨h.row.symm, h.files.symm, h.trace.symm⟩

theorem AlikeFor.trans {u : State} (h : AlikeFor id s t) (h' : AlikeFor id t u) : AlikeFor id s u :=
  ⟨h'.row.trans h.row, h'.files.trans h.files, h'.trace.trans h.trace⟩

def putFiles (files rows : List File) : List File :=
  files.foldl (fun rows file => Rows.put File.id file rows) rows

theorem putFiles_own {files rows : List File} (h : (rows.map File.id).Nodup)
    (hown : ∀ file ∈ files, file.relatedTaskBody = id) :
    (putFiles files rows).filter (fun file => file.relatedTaskBody = id) =
      putFiles files (rows.filter fun file => file.relatedTaskBody = id) := by
  induction files generalizing rows with
  | nil => rfl
  | cons file files ih =>
    have hfile : decide (file.relatedTaskBody = id) = true :=
      decide_eq_true (hown file List.mem_cons_self)
    change (putFiles files (Rows.put File.id file rows)).filter _ = _
    rw [ih (Rows.nodup_put h file) fun x hx => hown x (List.mem_cons_of_mem file hx),
      Rows.filter_put h hfile]
    rfl

theorem putFiles_other {files rows : List File} (hj : j ≠ id) (h : (rows.map File.id).Nodup)
    (hown : ∀ file ∈ files, file.relatedTaskBody = id ∧
      ∀ x ∈ rows, x.id = file.id → x.relatedTaskBody = id) :
    (putFiles files rows).filter (fun file => file.relatedTaskBody = j) =
      rows.filter fun file => file.relatedTaskBody = j := by
  induction files generalizing rows with
  | nil => rfl
  | cons file files ih =>
    obtain ⟨hfile, hrows⟩ := hown file List.mem_cons_self
    have hnot : ∀ x : File, x.relatedTaskBody = id → decide (x.relatedTaskBody = j) = false := by
      intro x hx
      exact decide_eq_false fun heq => hj (heq.symm.trans hx)
    change (putFiles files (Rows.put File.id file rows)).filter _ = _
    rw [ih (Rows.nodup_put h file), Rows.filter_put_other h (hnot file hfile) fun x hx hid =>
      hnot x (hrows x hx hid)]
    intro x hx
    refine ⟨(hown x (List.mem_cons_of_mem file hx)).1, fun y hy hid => ?_⟩
    obtain ⟨hy, -⟩ | rfl := (Rows.mem_put h).mp hy
    · exact (hown x (List.mem_cons_of_mem file hx)).2 y hy hid
    · exact hfile

theorem State.Unique.after (hs : s.Unique) (w : Writes) : (s.after w).Unique where
  tasks := hs.tasks
  subTasks := by
    rw [State.after]
    cases w.row with
    | none => exact hs.subTasks
    | some row => exact Rows.nodup_put hs.subTasks row
  taskFiles := Rows.nodup_puts hs.taskFiles w.files

theorem filter_tells (hown : ∀ e ∈ w.events, ∀ j, e.tells j = true → j = id) (hj : j ≠ id) :
    w.events.filter (Event.tells j) = [] :=
  List.filter_eq_nil_iff.mpr fun e he htells => hj (hown e he j htells)

theorem after_other (hs : s.Unique) (hown : w.Own id (s.filesOf id)) (hj : j ≠ id) :
    AlikeFor j s (s.after w) where
  row := by
    rw [State.after]
    cases hrow : w.row with
    | none => rfl
    | some row =>
      have hid : row.id = id := hown.row row hrow
      change Rows.find SubTask.id j (Rows.put SubTask.id row s.subTasks) = _
      rw [Rows.find_put hs.subTasks, if_neg fun heq => hj (heq.symm.trans hid)]
  files := putFiles_other hj hs.taskFiles fun file hfile => by
    obtain ⟨hrelated, x, hx, hid⟩ := hown.files file hfile
    refine ⟨hrelated, fun y hy hkey => ?_⟩
    obtain ⟨hx, hbody⟩ := List.mem_filter.mp hx
    rw [Rows.eq_of_key hs.taskFiles hy hx (hkey.trans hid.symm)]
    exact of_decide_eq_true hbody
  trace := by
    change (s.trace ++ w.events).filter _ = _
    rw [List.filter_append, filter_tells hown.events hj, List.append_nil]

theorem after_twin (hs : s.Unique) (ht : t.Unique) (h : AlikeFor id s t)
    (hown : w.Own id (s.filesOf id)) : AlikeFor id (s.after w) (t.after w) where
  row := by
    rw [State.after, State.after]
    cases hrow : w.row with
    | none => exact h.row
    | some row =>
      change Rows.find SubTask.id id (Rows.put SubTask.id row t.subTasks) =
        Rows.find SubTask.id id (Rows.put SubTask.id row s.subTasks)
      rw [Rows.find_put hs.subTasks, Rows.find_put ht.subTasks, h.row]
  files := by
    have hrelated : ∀ file ∈ w.files, file.relatedTaskBody = id := fun file hfile =>
      (hown.files file hfile).1
    exact (putFiles_own ht.taskFiles hrelated).trans
      ((congrArg (putFiles w.files) h.files).trans (putFiles_own hs.taskFiles hrelated).symm)
  trace := by
    change (t.trace ++ w.events).filter _ = (s.trace ++ w.events).filter _
    rw [List.filter_append, List.filter_append, h.trace]

end Frame

namespace RunJob

section

variable {env : Env} {s t : State} {n : Nat} {row : SubTask} {id : Uuid}

theorem tells_report (status : SubTaskStatus) :
    ∀ e ∈ [Event.subTaskReport row.id status], ∀ j, e.tells j = true → j = row.id := by
  intro e he j htells
  rw [List.mem_singleton.mp he] at htells
  exact (of_decide_eq_true htells).symm

variable (row) in
theorem failing_own (files : List File) : (failing env n row).2.Own row.id files := by
  rw [failing]
  cases env.fails (n + 1) with
  | some e => exact ⟨by simp, by simp, by simp⟩
  | none => exact ⟨by simp, by simp, tells_report .failed⟩

variable (row) in
theorem completing_own {files outs : List File}
    (houts : ∀ file ∈ outs, file ∈ files ∧ file.relatedTaskBody = row.id) :
    (completing env n row outs).2.Own row.id files := by
  rw [completing]
  cases env.fails (n + 1) with
  | some e => exact ⟨by simp, by simp, by simp⟩
  | none =>
    change (if outs.length = 0 then _ else _ : Outcome String Unit × Writes).2.Own row.id files
    split
    · exact ⟨by simp, by simp, tells_report .completed⟩
    · refine ⟨by simp, ?_, ?_⟩
      · intro file hfile
        obtain ⟨x, hx, rfl⟩ := List.mem_map.mp hfile
        exact ⟨(houts x hx).2, x, (houts x hx).1, rfl⟩
      · intro e he j htells
        obtain ⟨x, hx, rfl⟩ := List.mem_map.mp he
        exact (of_decide_eq_true htells).symm.trans (houts x hx).2

theorem refreshed_own (s : State) : (refreshed env n row (s.filesOf row.id)).2.Own row.id
    (s.filesOf row.id) := by
  rw [refreshed]
  cases env.fails n with
  | some e => exact ⟨by simp, by simp, by simp⟩
  | none =>
    let task : SubTask := { row with
      resourceUsed := some (env.job n).resourceUsed
      status := statusOf (env.job n).state }
    change (if _ then _ else if _ then failing env n task else completing env n task _).2.Own _ _
    split
    · exact ⟨by simp, by simp, by simp⟩
    split
    · exact failing_own task _
    · refine completing_own task fun file hfile => ?_
      obtain ⟨hfile, -⟩ := List.mem_filter.mp hfile
      exact ⟨hfile, of_decide_eq_true (List.mem_filter.mp hfile).2⟩

theorem failing_row : (failing env n row).2.row =
    some { row with failedReason := exitReason (env.job n) } := by
  unfold failing
  split <;> rfl

theorem completing_row {outs : List File} : (completing env n row outs).2.row = some row := by
  unfold completing
  split
  · rfl
  · split <;> rfl

-- A refresh whose job is over leaves another status in the row.
theorem refreshed_quiet (hok : (refreshed env n row (s.filesOf row.id)).1 = .ok ()) :
    (statusOf (env.job n).state = .running ∧
      (refreshed env n row (s.filesOf row.id)).2 = { calls := 1 }) ∨
    (statusOf (env.job n).state ≠ .running ∧
      ∃ row', (refreshed env n row (s.filesOf row.id)).2.row = some row' ∧
        row'.status = statusOf (env.job n).state) := by
  rw [refreshed] at hok ⊢
  cases hfail : env.fails n with
  | some e =>
    rw [hfail] at hok
    cases hok
  | none =>
    by_cases hrunning : statusOf (env.job n).state = .running
    · exact .inl ⟨hrunning, by simp [hrunning]⟩
    · refine .inr ⟨hrunning, ?_⟩
      simp only [hrunning, if_false]
      split
      · exact ⟨_, failing_row, rfl⟩
      · exact ⟨_, completing_row, rfl⟩

def alone (envs : Uuid → Env) (s : State) (id : Uuid) : Outcome String Unit × State :=
  among id (refreshStatus id) envs s

variable {envs : Uuid → Env}

theorem alone_eq (hrow : Rows.find SubTask.id id s.subTasks = some row) (hs : s.Unique) :
    alone envs s id = ((refreshed (envs id) 0 row (s.filesOf id)).1,
      ({ s with calls := 0 } : State).after (refreshed (envs id) 0 row (s.filesOf id)).2) :=
  exec_refreshStatus (s := { s with calls := 0 }) hrow ⟨hs.tasks, hs.subTasks, hs.taskFiles⟩

variable (envs) in
theorem alone_unique (hrow : ∃ row, Rows.find SubTask.id id s.subTasks = some row)
    (hs : s.Unique) : (alone envs s id).2.Unique := by
  obtain ⟨row, hrow⟩ := hrow
  rw [alone_eq hrow hs]
  exact State.Unique.after (s := { s with calls := 0 }) ⟨hs.tasks, hs.subTasks, hs.taskFiles⟩ _

variable (envs) in
theorem alone_other {j : Uuid} (hrow : ∃ row, Rows.find SubTask.id id s.subTasks = some row)
    (hs : s.Unique) (hj : j ≠ id) : AlikeFor j s (alone envs s id).2 := by
  obtain ⟨row, hrow⟩ := hrow
  obtain rfl : row.id = id := Rows.key_of_find hrow
  rw [alone_eq hrow hs]
  exact (⟨rfl, rfl, rfl⟩ : AlikeFor j s { s with calls := 0 }).trans
    (after_other (s := { s with calls := 0 }) ⟨hs.tasks, hs.subTasks, hs.taskFiles⟩ (refreshed_own s) hj)

variable (envs) in
theorem alone_twin (hrow : ∃ row, Rows.find SubTask.id id s.subTasks = some row)
    (hs : s.Unique) (ht : t.Unique) (h : AlikeFor id s t) :
    (alone envs t id).1 = (alone envs s id).1 ∧
      AlikeFor id (alone envs s id).2 (alone envs t id).2 := by
  obtain ⟨row, hrow⟩ := hrow
  obtain rfl : row.id = id := Rows.key_of_find hrow
  rw [alone_eq hrow hs, alone_eq (h.row.trans hrow) ht, h.files]
  exact ⟨rfl, after_twin (s := { s with calls := 0 }) (t := { t with calls := 0 })
    ⟨hs.tasks, hs.subTasks, hs.taskFiles⟩ ⟨ht.tasks, ht.subTasks, ht.taskFiles⟩ ⟨h.row, h.files, h.trace⟩
    (refreshed_own s)⟩

theorem alone_quiet (hrow : Rows.find SubTask.id id s.subTasks = some row)
    (hrunning : row.status = .running) (hs : s.Unique) (hok : (alone envs s id).1 = .ok ()) :
    AlikeFor id s (alone envs s id).2 ↔ statusOf ((envs id).job 0).state = .running := by
  obtain rfl : row.id = id := Rows.key_of_find hrow
  rw [alone_eq hrow hs] at hok ⊢
  obtain ⟨hjob, hwrites⟩ | ⟨hjob, row', hrow', hstatus⟩ := refreshed_quiet hok
  · rw [hwrites]
    exact ⟨fun _ => hjob, fun _ => ⟨rfl, rfl, by simp [State.after]⟩⟩
  · refine ⟨fun h => absurd ?_ hjob, fun h => absurd h hjob⟩
    have hid : row'.id = row.id := (refreshed_own s).row row' hrow'
    have hfound := h.row
    rw [State.after, hrow', hrow] at hfound
    change Rows.find SubTask.id row.id (Rows.put SubTask.id row' s.subTasks) = _ at hfound
    rw [Rows.find_put hs.subTasks, if_pos hid] at hfound
    cases hfound
    exact hstatus.symm.trans hrunning

def loop (envs : Uuid → Env) (s : State) (tasks : List SubTask) : Outcome String Unit × State :=
  Effect.each (fun task => among task.id (refreshStatus task.id)) tasks envs s

theorem loop_ok {x : SubTask} {tasks : List SubTask} (h : (alone envs s x.id).1 = .ok ()) :
    loop envs s (x :: tasks) = loop envs (alone envs s x.id).2 tasks :=
  Effect.each_of_ok (f := fun task : SubTask => among task.id (refreshStatus task.id)) h tasks

theorem loop_lost {x : SubTask} {tasks : List SubTask} (h : (alone envs s x.id).1 ≠ .ok ()) :
    loop envs s (x :: tasks) = alone envs s x.id :=
  Effect.each_of_not_ok (f := fun task : SubTask => among task.id (refreshStatus task.id)) h tasks

theorem found_of_alike (h : AlikeFor id s t)
    (hrow : ∃ row, Rows.find SubTask.id id s.subTasks = some row) :
    ∃ row, Rows.find SubTask.id id t.subTasks = some row := by
  rw [h.row]
  exact hrow

variable (envs) in
theorem loop_other {tasks : List SubTask} (hs : s.Unique)
    (hrows : ∀ x ∈ tasks, ∃ row, Rows.find SubTask.id x.id s.subTasks = some row)
    (hnodup : (tasks.map SubTask.id).Nodup) (hid : ∀ x ∈ tasks, id ≠ x.id) :
    AlikeFor id s (loop envs s tasks).2 := by
  induction tasks generalizing s with
  | nil => exact .refl id s
  | cons x tasks ih =>
    obtain ⟨hx, hnodup⟩ := List.nodup_cons.mp hnodup
    have hrow := hrows x List.mem_cons_self
    have hone := alone_other envs hrow hs (hid x List.mem_cons_self)
    by_cases hok : (alone envs s x.id).1 = .ok ()
    · rw [loop_ok hok]
      refine hone.trans (ih (alone_unique envs hrow hs) (fun y hy => ?_) hnodup fun y hy =>
        hid y (List.mem_cons_of_mem x hy))
      have hne : y.id ≠ x.id := fun heq => hx (heq ▸ List.mem_map_of_mem hy)
      exact found_of_alike (alone_other envs hrow hs hne) (hrows y (List.mem_cons_of_mem x hy))
    · rw [loop_lost hok]
      exact hone

variable (envs) in
-- The induction is on the sub-tasks still to come; none of them was touched since `s`.
theorem loop_isolates_iff {tasks : List SubTask} (hs : s.Unique) (ht : t.Unique)
    (hrows : ∀ x ∈ tasks, ∃ row, Rows.find SubTask.id x.id s.subTasks = some row)
    (halike : ∀ x ∈ tasks, AlikeFor x.id s t) (hnodup : (tasks.map SubTask.id).Nodup) :
    (∀ x ∈ tasks, (alone envs s x.id).1 = .ok () →
      AlikeFor x.id (alone envs s x.id).2 (loop envs t tasks).2) ↔
    tasks.Pairwise fun x y => (alone envs s x.id).1 ≠ .ok () → (alone envs s y.id).1 = .ok () →
      AlikeFor y.id s (alone envs s y.id).2 := by
  induction tasks generalizing t with
  | nil => simp
  | cons x tasks ih =>
    obtain ⟨hx, hnodup⟩ := List.nodup_cons.mp hnodup
    have hrow := hrows x List.mem_cons_self
    have hlike := halike x List.mem_cons_self
    have hrow' := found_of_alike hlike hrow
    have hne : ∀ y ∈ tasks, y.id ≠ x.id := fun y hy heq => hx (heq ▸ List.mem_map_of_mem hy)
    have hrest : ∀ y ∈ tasks, AlikeFor y.id s (alone envs t x.id).2 := fun y hy =>
      (halike y (List.mem_cons_of_mem x hy)).trans (alone_other envs hrow' ht (hne y hy))
    obtain ⟨hsame, htwin⟩ := alone_twin envs hrow hs ht hlike
    rw [List.forall_mem_cons, List.pairwise_cons]
    by_cases hok : (alone envs s x.id).1 = .ok ()
    · have hunique := alone_unique envs hrow' ht
      have hrows' : ∀ y ∈ tasks, ∃ row, Rows.find SubTask.id y.id s.subTasks = some row :=
        fun y hy => hrows y (List.mem_cons_of_mem x hy)
      rw [loop_ok (hsame.trans hok), ih hunique hrows' hrest hnodup]
      have hlater := loop_other envs hunique
        (fun y hy => found_of_alike (hrest y hy) (hrows' y hy)) hnodup fun y hy => (hne y hy).symm
      exact ⟨fun h => ⟨fun y _ hlost => absurd hok hlost, h.2⟩,
        fun h => ⟨fun _ => htwin.trans hlater, h.2⟩⟩
    · rw [loop_lost fun h => hok (hsame.symm.trans h)]
      constructor
      · rintro ⟨-, h⟩
        have hquiet : ∀ y ∈ tasks, (alone envs s y.id).1 = .ok () →
            AlikeFor y.id s (alone envs s y.id).2 := fun y hy hy' =>
          (hrest y hy).trans (h y hy hy').symm
        exact ⟨fun y hy _ => hquiet y hy,
          List.pairwise_of_forall_mem_list fun _ _ y hy _ => hquiet y hy⟩
      · rintro ⟨h, -⟩
        exact ⟨fun h' => absurd h' hok, fun y hy hy' => (h y hy hok hy').symm.trans (hrest y hy)⟩

theorem refreshAllStatus_isolates_iff (envs : Uuid → Env) (s : State) (hs : s.Unique) :
    (∀ x ∈ s.refreshable, (alone envs s x.id).1 = .ok () →
      AlikeFor x.id (alone envs s x.id).2 (refreshAllStatusAmong envs s).2) ↔
    s.refreshable.Pairwise fun x y => (alone envs s x.id).1 ≠ .ok () →
      (alone envs s y.id).1 = .ok () → statusOf ((envs y.id).job 0).state = .running := by
  have hrow : ∀ x ∈ s.refreshable, Rows.find SubTask.id x.id s.subTasks = some x := fun x hx =>
    Rows.find_of_mem hs.subTasks (List.mem_filter.mp hx).1
  have hiff := loop_isolates_iff envs (t := s) hs hs
    (fun x hx => ⟨x, hrow x hx⟩) (fun x _ => .refl x.id s)
    (hs.subTasks.sublist (List.filter_sublist.map SubTask.id))
  refine hiff.trans (List.Pairwise.iff_of_mem fun hx hy => ?_)
  refine imp_congr_right fun _ => imp_congr_ctx Iff.rfl fun hok => ?_
  have hrunning := of_decide_eq_true (List.mem_filter.mp hy).2
  exact alone_quiet (hrow _ hy) hrunning.2 hs hok

theorem loop_congr {envs' : Uuid → Env} {tasks : List SubTask}
    (h : ∀ x ∈ tasks, envs x.id = envs' x.id) : loop envs s tasks = loop envs' s tasks := by
  induction tasks generalizing s with
  | nil => rfl
  | cons x tasks ih =>
    have hone : alone envs s x.id = alone envs' s x.id := by
      rw [alone, among, h x List.mem_cons_self]
      rfl
    by_cases hok : (alone envs s x.id).1 = .ok ()
    · rw [loop_ok hok, loop_ok (hone ▸ hok), hone]
      exact ih fun y hy => h y (List.mem_cons_of_mem x hy)
    · rw [loop_lost hok, loop_lost (hone ▸ hok), hone]

def delayed (env : Env) (n : Nat) : Env :=
  { env with fails := fun k => env.fails (n + k), job := fun k => env.job (n + k) }

theorem refreshed_delayed (files : List File) :
    refreshed (delayed env n) 0 row files = refreshed env n row files := rfl

variable (env) in
-- The answers that the loop gets one after the other, dealt out to the sub-tasks.
theorem refreshAll_deals {tasks : List SubTask} (hs : s.Unique)
    (hrows : ∀ x ∈ tasks, ∃ row, Rows.find SubTask.id x.id s.subTasks = some row)
    (hnodup : (tasks.map SubTask.id).Nodup) (n : Nat) : ∃ envs m,
      Effect.each (fun task => exec (refreshStatus task.id)) tasks env { s with calls := n } =
        ((loop envs s tasks).1, { (loop envs s tasks).2 with calls := m }) := by
  induction tasks generalizing s n with
  | nil => exact ⟨fun _ => env, n, rfl⟩
  | cons x tasks ih =>
    obtain ⟨hx, hnodup⟩ := List.nodup_cons.mp hnodup
    obtain ⟨row, hrow⟩ := hrows x List.mem_cons_self
    have hne : ∀ y ∈ tasks, y.id ≠ x.id := fun y hy heq => hx (heq ▸ List.mem_map_of_mem hy)
    let w := refreshed env n row (s.filesOf x.id)
    have hexec : exec (refreshStatus x.id) env { s with calls := n } =
        (w.1, ({ s with calls := n } : State).after w.2) :=
      exec_refreshStatus (s := { s with calls := n }) hrow ⟨hs.tasks, hs.subTasks, hs.taskFiles⟩
    have halone : ∀ envs : Uuid → Env, envs x.id = delayed env n →
        alone envs s x.id = (w.1, ({ s with calls := 0 } : State).after w.2) := by
      intro envs henv
      rw [alone_eq hrow hs, henv, refreshed_delayed]
    by_cases hout : w.1 = .ok ()
    · let t := ({ s with calls := 0 } : State).after w.2
      have ht : t.Unique :=
        State.Unique.after (s := { s with calls := 0 }) ⟨hs.tasks, hs.subTasks, hs.taskFiles⟩ w.2
      have hrows' : ∀ y ∈ tasks, ∃ row, Rows.find SubTask.id y.id t.subTasks = some row := by
        intro y hy
        have hother := alone_other (fun _ => delayed env n) ⟨row, hrow⟩ hs (hne y hy)
        rw [halone _ rfl] at hother
        exact found_of_alike hother (hrows y (List.mem_cons_of_mem x hy))
      obtain ⟨envs, m, hrest⟩ := ih ht hrows' hnodup (n + w.2.calls)
      let envs' : Uuid → Env := fun id => if id = x.id then delayed env n else envs id
      have hself : envs' x.id = delayed env n := if_pos rfl
      have hloop : loop envs' s (x :: tasks) = loop envs t tasks := by
        rw [loop_ok (by rw [halone envs' hself, hout]), halone envs' hself]
        exact loop_congr fun y hy => if_neg (hne y hy)
      refine ⟨envs', m, ?_⟩
      rw [Effect.each_of_ok (by rw [hexec, hout]), hexec, hloop]
      exact hrest
    · have hlost := halone (fun _ => delayed env n) rfl
      refine ⟨fun _ => delayed env n, n + w.2.calls, ?_⟩
      rw [Effect.each_of_not_ok (by rw [hexec]; exact hout), hexec,
        loop_lost (by rw [hlost]; exact hout), hlost]
      rfl

theorem refreshAllStatus_deals (hs : s.Unique) (env : Env) : ∃ envs m,
    exec refreshAllStatus env s =
      ((refreshAllStatusAmong envs s).1, { (refreshAllStatusAmong envs s).2 with calls := m }) := by
  have hrows : ∀ x ∈ s.refreshable, ∃ row, Rows.find SubTask.id x.id s.subTasks = some row :=
    fun x hx => ⟨x, Rows.find_of_mem hs.subTasks (List.mem_filter.mp hx).1⟩
  have hdeals := refreshAll_deals env hs hrows
    (hs.subTasks.sublist (List.filter_sublist.map SubTask.id)) s.calls
  obtain ⟨envs, m, h⟩ := hdeals
  refine ⟨envs, m, Eq.trans ?_ h⟩
  rw [refreshAllStatus, exec_bind]
  simp only [exec_each]
  rfl

end

def submitted (id : Uuid) : SubTask :=
  { id := id, parentId := 7, status := .running, jobId := toString id }

def crowded : State := { State.initial 0 with subTasks := [submitted 1, submitted 2] }

-- The scheduler does not know the job of the sub-task `lost`.
def knowing (lost : Uuid) (id : Uuid) : Env :=
  if id = lost then { sampleEnv with fails := fun _ => some "No such id" } else sampleEnv

theorem refreshAllStatus_isolates_last :
    AlikeFor (submitted 1).id (alone (knowing 2) crowded (submitted 1).id).2
      (refreshAllStatusAmong (knowing 2) crowded).2 :=
  (refreshAllStatus_isolates_iff (knowing 2) crowded
    ⟨by decide +kernel, by decide +kernel, by decide +kernel⟩).mpr (by decide +kernel) (submitted 1)
    (by decide +kernel) (by decide +kernel)

theorem refreshAllStatus_starves : ¬∀ envs s, s.Unique → ∀ x ∈ s.refreshable,
    (alone envs s x.id).1 = .ok () →
      AlikeFor x.id (alone envs s x.id).2 (refreshAllStatusAmong envs s).2 := by
  intro h
  have halike := h (knowing 1) crowded ⟨by decide +kernel, by decide +kernel, by decide +kernel⟩
    (submitted 2) (by decide +kernel) (by decide +kernel)
  exact absurd halike.row (by decide +kernel)

end RunJob

end Kuintessence.Agent
