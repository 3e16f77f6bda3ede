import Kuintessence.Agent.Governing

namespace Kuintessence.Agent

open Prog

structure Tabled (I : State → Prop) : Prop where
  congr : ∀ s t, I s → t.tasks = s.tasks → I t
  put : ∀ s task, I s → I { s with tasks := Rows.put Task.id task s.tasks }
  erase : ∀ s id, I s → I { s with tasks := s.tasks.eraseP fun x => x.id = id }

section Tabled

variable {I : State → Prop}

theorem preserves_getTask (id : Uuid) : Preserves I (op (Tasks.getById id)) fun _ => True := by
  refine preserves_atom fun env s hs => ?_
  simp only [Tasks.getById, Effect.wp_bind, Effect.wp_get, Effect.wp_lift, Effect.wp_pure]
  exact ⟨fun _ _ => ⟨hs, trivial⟩, fun _ => hs⟩

variable (hI : Tabled I)

include hI

theorem Tabled.free (id : Uuid) : Free I id where
  rows := fun _ _ _ _ s hs _ => hI.congr s _ hs rfl
  events := fun _ _ s _ hs => hI.congr s _ hs rfl
  files := fun _ _ _ _ _ _ _ s hs _ => hI.congr s _ hs rfl

theorem Tabled.universal : Universal I where
  nothing := fun s _ hs => hI.congr s _ hs rfl
  events := fun _ _ s _ hs => hI.congr s _ hs rfl
  counts := fun s _ _ _ hs => hI.congr s _ hs rfl
  reports := fun _ _ _ _ s _ hs => hI.congr s _ hs rfl
  governs := fun q =>
    { write := fun s task _ hs => hI.put s task hs
      erase := fun s hs => hI.erase s q hs
      free := fun _ _ _ _ _ => hI.free _
      erasable := fun _ _ _ _ _ s hs => hI.congr s _ hs rfl
      starts := fun _ _ _ _ _ s hs => hI.congr s _ hs rfl }
  free := hI.free
  insert := fun s _ hs => hI.congr s _ hs rfl
  draws := fun s _ hs => hI.congr s _ hs rfl
  submits := fun _ _ s _ hs => hI.congr s _ hs rfl

end Tabled

def State.Keyed (s : State) : Prop := (s.tasks.map Task.id).Nodup

theorem tabled_keyed : Tabled State.Keyed where
  congr := fun s t hs ht => by rw [State.Keyed, ht]; exact hs
  put := fun _ task hs => Rows.nodup_put hs task
  erase := fun _ _ hs => hs.sublist (List.eraseP_sublist.map _)

theorem step_keyed {s : State} (hs : s.Keyed) (turn : Turn) : (step s turn).Keyed :=
  (tabled_keyed.universal.serve turn.operation).preserves.final hs turn.env

end Kuintessence.Agent
