import Kuintessence.Agent.TaskRows
import Kuintessence.Lib.Run

namespace Kuintessence.Agent

open Prog

structure State.Unique (s : State) : Prop where
  tasks : (s.tasks.map Task.id).Nodup
  subTasks : (s.subTasks.map SubTask.id).Nodup
  taskFiles : (s.taskFiles.map File.id).Nodup

theorem State.Unique.of_eq {s t : State} (h : s.Unique) (htasks : t.tasks = s.tasks)
    (hsubTasks : t.subTasks = s.subTasks) (hfiles : t.taskFiles = s.taskFiles) : t.Unique :=
  ⟨htasks ▸ h.tasks, hsubTasks ▸ h.subTasks, hfiles ▸ h.taskFiles⟩

theorem State.Unique.putTask {s : State} (h : s.Unique) (task : Task) : (s.putTask task).Unique :=
  { h with tasks := Rows.nodup_put h.tasks task }

theorem State.Unique.dropTask {s : State} (h : s.Unique) (id : Uuid) : (s.dropTask id).Unique :=
  { h with tasks := h.tasks.sublist (List.eraseP_sublist.map _) }

theorem State.Unique.putSubTask {s : State} (h : s.Unique) (row : SubTask) :
    (s.putSubTask row).Unique :=
  { h with subTasks := Rows.nodup_put h.subTasks row }

theorem State.Unique.dropSubTask {s : State} (h : s.Unique) (id : Uuid) :
    (s.dropSubTask id).Unique :=
  { h with subTasks := h.subTasks.sublist (List.eraseP_sublist.map _) }

theorem State.Unique.putFile {s : State} (h : s.Unique) (file : File) : (s.putFile file).Unique :=
  { h with taskFiles := Rows.nodup_put h.taskFiles file }

theorem State.Unique.insert {s : State} (h : s.Unique) (row : SubTask) :
    (SubTasks.insert s row).Unique where
  tasks := h.tasks
  subTasks := Rows.nodup_put h.subTasks row
  taskFiles := Rows.nodup_puts h.taskFiles _

theorem universal_unique : Universal State.Unique where
  nothing := fun _ _ h => h.of_eq rfl rfl rfl
  events := fun _ _ _ _ h => h.of_eq rfl rfl rfl
  counts := fun _ _ _ _ h => h.of_eq rfl rfl rfl
  reports := fun _ _ _ _ _ _ h => h.of_eq rfl rfl rfl
  governs := fun q =>
    { write := fun _ task _ h => h.putTask task
      erase := fun _ h => h.dropTask q
      free := fun _ _ _ _ _ =>
        { rows := fun _ row _ _ _ h _ => h.putSubTask row
          events := fun _ _ _ _ h => h.of_eq rfl rfl rfl
          files := fun _ _ _ _ _ _ _ _ h _ => h.putFile _ }
      erasable := fun _ r _ _ _ _ h => h.dropSubTask r.id
      starts := fun _ _ _ _ _ _ h => h.of_eq rfl rfl rfl }
  free := fun _ =>
    { rows := fun _ row _ _ _ h _ => h.putSubTask row
      events := fun _ _ _ _ h => h.of_eq rfl rfl rfl
      files := fun _ _ _ _ _ _ _ _ h _ => h.putFile _ }
  insert := fun _ row h => h.insert row
  draws := fun _ _ h => h.of_eq rfl rfl rfl
  submits := fun _ _ _ _ h => h.of_eq rfl rfl rfl

theorem unique_initial (maxTasksCount : Nat) : (State.initial maxTasksCount).Unique :=
  ⟨List.nodup_nil, List.nodup_nil, List.nodup_nil⟩

theorem run_unique (maxTasksCount : Nat) (turns : List Turn) :
    (run step (State.initial maxTasksCount) turns).Unique :=
  run_preserves (I := State.Unique)
    (fun _ turn h => (universal_unique.serve turn.operation).preserves.final h turn.env)
    (unique_initial maxTasksCount) turns

def File.key (file : File) : Uuid × Uuid × FileType := (file.id, file.relatedTaskBody, file.fileType)

-- No file came or went, and each still is an input or output of the same sub-task.
def SameFiles (s t : State) : Prop :=
  ∀ k, k ∈ t.taskFiles.map File.key ↔ k ∈ s.taskFiles.map File.key

section Files

variable {s t u : State}

theorem SameFiles.refl (s : State) : SameFiles s s := fun _ => Iff.rfl

theorem SameFiles.of_eq (h : SameFiles s t) (hu : u.taskFiles = t.taskFiles) : SameFiles s u :=
  fun k => hu ▸ h k

theorem SameFiles.key_eq (hs : s.Unique) (ht : SameFiles s t) (hu : SameFiles s u) {x y : File}
    (hx : x ∈ t.taskFiles) (hy : y ∈ u.taskFiles) (hid : x.id = y.id) : x.key = y.key := by
  obtain ⟨x', hx', hkx⟩ := List.mem_map.mp ((ht _).mp (List.mem_map_of_mem hx))
  obtain ⟨y', hy', hky⟩ := List.mem_map.mp ((hu _).mp (List.mem_map_of_mem hy))
  have hid' : x'.id = y'.id := (congrArg Prod.fst hkx).trans (hid.trans (congrArg Prod.fst hky).symm)
  rw [← hkx, ← hky, Rows.eq_of_key hs.taskFiles hx' hy' hid']

theorem SameFiles.put (hs : s.Unique) (ht : t.Unique) (h : SameFiles s t) (hu : SameFiles s u)
    {x x' : File} (hx : x ∈ u.taskFiles) (hkey : x'.key = x.key)
    (hold : ∃ y ∈ t.taskFiles, y.id = x'.id) : SameFiles s (t.putFile x') := by
  obtain ⟨y, hy, hid⟩ := hold
  have hyx : y.key = x.key := h.key_eq hs hu hy hx (hid.trans (congrArg Prod.fst hkey))
  exact fun k => (Rows.mem_map_put ht.taskFiles ⟨y, hy, hid, hyx.trans hkey.symm⟩).trans (h k)

end Files

section Rows

variable {s : State} {p : Uuid} {row : SubTask}

theorem mem_rowsOf : row ∈ s.rowsOf p ↔ row ∈ s.subTasks ∧ row.parentId = p := by
  simp [State.rowsOf]

theorem rowsOf_put (hs : s.Unique) (hrow : row.parentId ≠ p)
    (hold : ∀ r ∈ s.subTasks, r.id = row.id → r.parentId ≠ p) :
    (s.putSubTask row).rowsOf p = s.rowsOf p := by
  change (Rows.put SubTask.id row s.subTasks).filter _ = s.subTasks.filter _
  rw [Rows.put_eq_filter hs.subTasks, List.filter_append,
    List.filter_cons_of_neg (by simpa using hrow), List.filter_nil, List.append_nil,
    List.filter_filter]
  refine List.filter_congr fun r hr => ?_
  have hne : r.parentId = p → r.id ≠ row.id := fun hp hid => hold r hr hid hp
  simpa using hne

theorem rowsOf_drop (hs : s.Unique) {id : Uuid}
    (hold : ∀ r ∈ s.subTasks, r.id = id → r.parentId ≠ p) :
    (s.dropSubTask id).rowsOf p = s.rowsOf p := by
  change (s.subTasks.eraseP fun x => x.id = id).filter _ = s.subTasks.filter _
  rw [Rows.erase_eq_filter hs.subTasks, List.filter_filter]
  refine List.filter_congr fun r hr => ?_
  have hne : r.parentId = p → r.id ≠ id := fun hp hid => hold r hr hid hp
  simpa using hne

end Rows

end Kuintessence.Agent
