import Kuintessence.Agent.Scheduler
import Kuintessence.Lib.Pool

namespace Kuintessence.Agent

open Prog

def Event.account (ids : List Uuid) : Event → List Uuid
  | .dispatched x => ids.insert x
  | .finished x => ids.filter fun y => y ≠ x
  | .failed x => ids.filter fun y => y ≠ x
  | .removed x => ids.filter fun y => y ≠ x
  | .paused xs => ids.filter fun y => y ∉ xs
  | _ => ids

-- The sub-tasks that were dispatched and have not left since.
def outstanding (trace : List Event) : List Uuid := trace.foldl Event.account []

def Event.isAccounted : Event → Bool
  | .dispatched _ | .finished _ | .failed _ | .removed _ | .paused _ => true
  | _ => false

theorem account_of_plain {e : Event} (h : e.isAccounted = false) (ids : List Uuid) :
    e.account ids = ids := by
  cases e <;> first | rfl | cases h

theorem outstanding_append (trace : List Event) (e : Event) :
    outstanding (trace ++ [e]) = e.account (outstanding trace) := by
  rw [outstanding, List.foldl_append]
  rfl

theorem outstanding_append_plain (trace : List Event) {es : List Event}
    (h : ∀ e ∈ es, e.isAccounted = false) : outstanding (trace ++ es) = outstanding trace := by
  induction es generalizing trace with
  | nil => rw [List.append_nil]
  | cons e es ih =>
    rw [List.append_cons, ih _ fun x hx => h x (List.mem_cons_of_mem e hx), outstanding_append,
      account_of_plain (h e List.mem_cons_self)]

theorem nodup_account {ids : List Uuid} (h : ids.Nodup) (e : Event) : (e.account ids).Nodup := by
  cases e with
  | dispatched x => exact h.insert
  | finished x => exact h.filter _
  | failed x => exact h.filter _
  | removed x => exact h.filter _
  | paused xs => exact h.filter _
  | _ => exact h

theorem nodup_outstanding (trace : List Event) : (outstanding trace).Nodup := by
  have main : ∀ ids : List Uuid, ids.Nodup → (trace.foldl Event.account ids).Nodup := by
    induction trace with
    | nil => exact fun ids h => h
    | cons e trace ih => exact fun ids h => ih _ (nodup_account h e)
  exact main [] List.nodup_nil

structure Uncounted (s t : State) : Prop where
  tasksCount : t.tasksCount = s.tasksCount
  maxTasksCount : t.maxTasksCount = s.maxTasksCount
  outstanding : outstanding t.trace = outstanding s.trace

def Event.Counts (max count next : Nat) : Event → Prop
  | .dispatched _ => next = count + 1 ∧ (max = 0 ∨ count ≠ max)
  | .finished _ | .failed _ | .paused _ => next + 1 = count
  | _ => False

-- Every store writes the value just loaded, one up or one down, and no other step counts.
def Paced {α : Type} (max : Nat) (Q : α → Option Nat → Prop) : Option Nat → Op α → Prop
  | loaded, .done o => ∀ a, o = .ok a → Q a loaded
  | _, .step .other act next => (∀ env s, Uncounted s (act env s)) ∧
      ∀ env s, s.maxTasksCount = max → Paced max Q none (next env s)
  | _, .step .load act next => (∀ env s, act env s = s) ∧
      ∀ env s, s.maxTasksCount = max → Paced max Q (some s.tasksCount) (next env s)
  | loaded, .step (.store count event) act next =>
      (∃ c, loaded = some c ∧ event.Counts max c count) ∧
      (∀ env s, act env s = { s with tasksCount := count, trace := s.trace ++ [event] }) ∧
      ∀ env s, s.maxTasksCount = max → Paced max Q none (next env s)
  | _, .step (.note event) act next =>
      (∀ env s, act env s = { s with trace := s.trace ++ [event] }) ∧
      ∀ env s, s.maxTasksCount = max → Paced max Q none (next env s)

def Anyhow {α : Type} : α → Option Nat → Prop := fun _ _ => True

def Steady {α : Type} (max : Nat) (p : Op α) : Prop := ∀ loaded, Paced max Anyhow loaded p

section Rules

variable {α β : Type} {max : Nat} {Q : α → Option Nat → Prop} {R : β → Option Nat → Prop}
  {loaded : Option Nat}

theorem Paced.bind {p : Op α} {f : α → Op β} (hp : Paced max Q loaded p)
    (hf : ∀ a l, Q a l → Paced max R l (f a)) : Paced max R loaded (p >>= f) := by
  change Paced max R loaded (Prog.bind p f)
  induction p generalizing loaded with
  | done o =>
    cases o with
    | ok a => exact hf a loaded (hp a rfl)
    | err e => exact fun _ h => nomatch h
    | panic => exact fun _ h => nomatch h
  | step tag act next ih =>
    cases tag with
    | other => exact ⟨hp.1, fun env s hs => ih env s (hp.2 env s hs)⟩
    | load => exact ⟨hp.1, fun env s hs => ih env s (hp.2 env s hs)⟩
    | store count event => exact ⟨hp.1, hp.2.1, fun env s hs => ih env s (hp.2.2 env s hs)⟩
    | note event => exact ⟨hp.1, fun env s hs => ih env s (hp.2 env s hs)⟩

theorem Steady.bind {p : Op α} {f : α → Op β} (hp : Steady max p) (hf : ∀ a, Steady max (f a)) :
    Steady max (p >>= f) :=
  fun l => (hp l).bind fun a l' _ => hf a l'

theorem steady_done (o : Outcome String α) : Steady max (.done o : Op α) := fun _ _ _ => trivial

theorem steady_pure (a : α) : Steady max (pure a : Op α) := fun _ _ _ => trivial

theorem Steady.attempt {p : Op α} (h : Steady max p) : Steady max (Prog.attempt p) := by
  intro l
  have main : ∀ l, Paced max Anyhow l p → Paced max Anyhow l (Prog.attempt p) := by
    clear h
    induction p with
    | done o =>
      intro l _
      cases o with
      | ok a => exact fun _ _ => trivial
      | err e => exact fun _ _ => trivial
      | panic => exact fun _ h => nomatch h
    | step tag act next ih =>
      intro l hp
      cases tag with
      | other => exact ⟨hp.1, fun env s hs => ih env s none (hp.2 env s hs)⟩
      | load => exact ⟨hp.1, fun env s hs => ih env s _ (hp.2 env s hs)⟩
      | store count event =>
        exact ⟨hp.1, hp.2.1, fun env s hs => ih env s none (hp.2.2 env s hs)⟩
      | note event => exact ⟨hp.1, fun env s hs => ih env s none (hp.2 env s hs)⟩
  exact main l (h l)

theorem Steady.ite {c : Prop} [Decidable c] {p q : Op α} (hp : Steady max p) (hq : Steady max q) :
    Steady max (if c then p else q) := by
  split
  · exact hp
  · exact hq

theorem Steady.when {c : Prop} [Decidable c] {p : Op Unit} (hp : Steady max p) :
    Steady max (Prog.when c p) := hp.ite (steady_pure ())

theorem Steady.each {f : α → Op Unit} (h : ∀ a, Steady max (f a)) (xs : List α) :
    Steady max (Prog.each f xs) := by
  induction xs with
  | nil => exact steady_pure ()
  | cons x xs ih => exact (h x).bind fun _ => ih

-- Where nothing is to be stored, what was loaded does not matter.
theorem Paced.reload {p : Op α} {l : Option Nat} (h : Paced max Anyhow loaded p)
    (hstore : ∀ count event act next, p ≠ .step (.store count event) act next) :
    Paced max Anyhow l p := by
  cases p with
  | done o => exact fun _ _ => trivial
  | step tag act next =>
    cases tag with
    | store count event => exact absurd rfl (hstore count event act next)
    | other => exact h
    | load => exact h
    | note event => exact h

theorem Paced.some {p : Op α} (h : Paced max Anyhow none p) (c : Nat) :
    Paced max Anyhow (some c) p := by
  refine h.reload ?_
  rintro count event act next rfl
  obtain ⟨⟨c, hc, -⟩, -⟩ := h
  cases hc

end Rules

section Atoms

variable {α : Type} {max : Nat}

theorem steady_op {m : Act α} (h : ∀ env s, Uncounted s (m env s).2) : Steady max (op m) :=
  fun _ => ⟨h, fun _ _ _ _ _ => trivial⟩

theorem Uncounted.of_wp {m : Act α} {env : Env} {s : State}
    (h : Effect.wp m env (fun _ t => Uncounted s t) (Uncounted s) s) : Uncounted s (m env s).2 :=
  Effect.wp_final.mp h

theorem Uncounted.refl (s : State) : Uncounted s s := ⟨rfl, rfl, rfl⟩

theorem steady_call (answer : Env → Nat → α) {events : List Event}
    (h : ∀ e ∈ events, e.isAccounted = false) : Steady max (op (call answer events)) := by
  refine steady_op fun env s => ?_
  unfold call
  cases env.fails s.calls with
  | some e => exact ⟨rfl, rfl, rfl⟩
  | none => exact ⟨rfl, rfl, outstanding_append_plain s.trace h⟩

theorem steady_send {event : Event} (h : event.isAccounted = false) : Steady max (send event) :=
  steady_op fun _ s => ⟨rfl, rfl, outstanding_append_plain s.trace (by simpa using h)⟩

theorem steady_read {m : Act α} (h : ∀ env s, (m env s).2 = s) : Steady max (op m) :=
  steady_op fun env s => by
    rw [h]
    exact .refl s

theorem steady_getSubTask (id : Uuid) : Steady max (op (SubTasks.getById id)) :=
  steady_read fun _ _ => rfl

theorem steady_updateSubTask (row : SubTask) : Steady max (op (SubTasks.update row)) := by
  refine steady_op fun env s => .of_wp ?_
  simp only [SubTasks.update, Effect.wp_bind, Effect.wp_get, Effect.wp_lift, Effect.wp_modify]
  exact ⟨fun _ _ => ⟨rfl, rfl, rfl⟩, fun _ => .refl s⟩

theorem steady_deleteSubTask (id : Uuid) : Steady max (op (SubTasks.deleteById id)) := by
  refine steady_op fun env s => .of_wp ?_
  simp only [SubTasks.deleteById, Effect.wp_bind, Effect.wp_get, Effect.wp_lift, Effect.wp_modify]
  exact ⟨fun _ _ => ⟨rfl, rfl, rfl⟩, fun _ => .refl s⟩

theorem steady_updateFile (file : File) : Steady max (op (TaskFiles.update file)) := by
  refine steady_op fun env s => .of_wp ?_
  simp only [TaskFiles.update, Effect.wp_bind, Effect.wp_get, Effect.wp_lift, Effect.wp_modify]
  exact ⟨fun _ _ => ⟨rfl, rfl, rfl⟩, fun _ => .refl s⟩

theorem steady_getTask (id : Uuid) : Steady max (op (Tasks.getById id)) := by
  refine steady_op fun env s => .of_wp ?_
  simp only [Tasks.getById, Effect.wp_bind, Effect.wp_get, Effect.wp_lift, Effect.wp_pure]
  exact ⟨fun _ _ => .refl s, fun _ => .refl s⟩

theorem steady_updateTask (task : Task) : Steady max (op (Tasks.update task)) := by
  refine steady_op fun env s => .of_wp ?_
  simp only [Tasks.update, Effect.wp_bind, Effect.wp_read, Effect.wp_get, Effect.wp_lift,
    Effect.wp_modify]
  exact ⟨fun _ _ => ⟨rfl, rfl, rfl⟩, fun _ => .refl s⟩

theorem steady_deleteTask (id : Uuid) : Steady max (op (Tasks.deleteById id)) := by
  refine steady_op fun env s => .of_wp ?_
  simp only [Tasks.deleteById, Effect.wp_bind, Effect.wp_get, Effect.wp_lift, Effect.wp_modify]
  exact ⟨fun _ _ => ⟨rfl, rfl, rfl⟩, fun _ => .refl s⟩

end Atoms

end Kuintessence.Agent
