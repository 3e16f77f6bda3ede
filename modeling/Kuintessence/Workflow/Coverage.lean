import Kuintessence.Workflow.Spreading

namespace Kuintessence

open Effect StatusReceiver

variable {ids : Nat → Uuid} {env : Env} {w w' : World} {q : Request} {x : Uuid}

def Event.command : Event → Option (Uuid × TaskCommand)
  | .sendTask taskId command _ => some (taskId, command)
  | _ => none

def Event.message : Event → Option TaskResult
  | .nodeStatus result => some result
  | _ => none

-- The commands that an agent has done with when it reports the status.
def TaskResultStatus.answers : TaskResultStatus → List TaskCommand
  | .success => [.start]
  | .failed => [.start]
  | .paused => [.pause]
  | .continued => [.continue]
  | .deleted => [.start, .delete]

-- The orchestrator, the commands outstanding at agents and the result messages in flight.
structure Flight where
  world : World
  commands : List (Uuid × TaskCommand)
  messages : List TaskResult

namespace Flight

variable {f : Flight}

-- `request (.receive result)` takes the message off, `retry` leaves it to be delivered again.
inductive Move where
  | request (q : Request)
  | retry (result : TaskResult)
  | report (result : TaskResult)
  deriving DecidableEq, Repr

def start (ids : Nat → Uuid) (files : Files) : Flight := ⟨.start ids files, [], []⟩

def serve (env : Env) (f : Flight) (q : Request) : Flight :=
  let w := step env f.world q
  let news := w.trace.drop f.world.trace.length
  ⟨w, f.commands ++ news.filterMap Event.command, f.messages ++ news.filterMap Event.message⟩

def take (f : Flight) : Request → Flight
  | .receive result => { f with messages := f.messages.erase result }
  | _ => f

def move (env : Env) (f : Flight) : Move → Flight
  | .request q => (f.take q).serve env q
  | .retry result => f.serve env (.receive result)
  | .report result => { f with
      commands := f.commands.diff (result.status.answers.map fun command => (result.id, command))
      messages := f.messages ++ [result] }

def Covers (f : Flight) (x : Uuid) : Prop :=
  (∃ c ∈ f.commands, c.1 = x) ∨ ∃ m ∈ f.messages, m.id = x

def Covered (f : Flight) : Prop := ∀ x, f.world.db.Running x → f.Covers x

structure Safe (env : Env) (f : Flight) (q : Request) : Prop where
  unsent : ∀ task ∈ q.unsent env f.world, f.Covers task.id
  report : ∀ result, q = .receive result → KeepsRunning env f.world result → f.Covers result.id

def Watched (env : Env) (f : Flight) : Move → Prop
  | .request q => (f.take q).Safe env q
  | .retry result => f.Safe env (.receive result)
  | .report _ => True

theorem Covers.serve (h : f.Covers x) (q : Request) : (f.serve env q).Covers x := by
  rcases h with ⟨c, hc, hid⟩ | ⟨m, hm, hid⟩
  · exact .inl ⟨c, List.mem_append_left _ hc, hid⟩
  · exact .inr ⟨m, List.mem_append_left _ hm, hid⟩

theorem Covers.take (h : f.Covers x) (hq : ∀ result, q = .receive result → x ≠ result.id) :
    (f.take q).Covers x := by
  cases q with
  | receive result =>
    rcases h with hc | ⟨m, hm, rfl⟩
    · exact .inl hc
    · have hne : m ≠ result := fun heq => hq result rfl (congrArg TaskResult.id heq)
      exact .inr ⟨m, (List.mem_erase_of_ne hne).mpr hm, rfl⟩
  | submit user draftId => exact h
  | start user id => exact h
  | pause user id => exact h
  | «continue» user id => exact h
  | terminate user id => exact h

theorem covers_of_notified (h : Notified f.world (step env f.world q) x) : (f.serve env q).Covers x := by
  obtain ⟨news, htrace, e, he, habout⟩ := h
  have hdrop : (step env f.world q).trace.drop f.world.trace.length = news := by
    rw [htrace, List.drop_left]
  unfold Flight.serve
  simp only [hdrop]
  cases e with
  | sendTask taskId command clusterId =>
    refine .inl ⟨(taskId, command), List.mem_append_right _ ?_, Option.some.inj habout⟩
    exact List.mem_filterMap.mpr ⟨_, he, rfl⟩
  | nodeStatus result =>
    refine .inr ⟨result, List.mem_append_right _ ?_, Option.some.inj habout⟩
    exact List.mem_filterMap.mpr ⟨_, he, rfl⟩
  | sendUsecase spec nodes => cases habout
  | operateTask task => cases habout
  | finish flowInstanceId nodes => cases habout
  | bill nodeInstanceId => cases habout

theorem covered_serve (hs : Sound f.world) (hsafe : f.Safe env q)
    (h : ∀ x, f.world.db.Running x → (∀ result, q = .receive result → x ≠ result.id) → f.Covers x) :
    (f.serve env q).Covered := by
  intro x hx
  cases step_runs hs q hx with
  | before hrunning hne => exact (h x hrunning hne).serve q
  | report result hq hid hkeeps =>
    rw [hid]
    exact (hsafe.report result hq hkeeps).serve q
  | notified hnotified => exact covers_of_notified hnotified
  | unsent task htask hid =>
    rw [← hid]
    exact (hsafe.unsent task htask).serve q

theorem take_world (f : Flight) (q : Request) : (f.take q).world = f.world := by
  cases q <;> rfl

theorem covered_report (h : f.Covered) (result : TaskResult) : (f.move env (.report result)).Covered := by
  intro x hx
  by_cases hid : result.id = x
  · exact .inr ⟨result, List.mem_append_right _ (List.mem_singleton_self _), hid⟩
  · rcases h x hx with ⟨c, hc, hcid⟩ | ⟨m, hm, hmid⟩
    · refine .inl ⟨c, List.mem_diff_of_mem hc fun hmem => ?_, hcid⟩
      obtain ⟨command, -, rfl⟩ := List.mem_map.mp hmem
      exact hid hcid
    · exact .inr ⟨m, List.mem_append_left _ hm, hmid⟩

theorem move_sound (hs : Sound f.world) (m : Move) : Sound (f.move env m).world := by
  cases m with
  | request q =>
    change Sound (step env (f.take q).world q)
    rw [take_world]
    exact step_sound hs q
  | retry result => exact step_sound hs (.receive result)
  | report result => exact hs

theorem move_covered (hs : Sound f.world) (h : f.Covered) (m : Move) (hsafe : Watched env f m) :
    (f.move env m).Covered := by
  cases m with
  | request q =>
    have htaken : Sound (f.take q).world := by
      rw [take_world]
      exact hs
    refine covered_serve htaken hsafe fun x hx hne => ?_
    rw [take_world] at hx
    exact (h x hx).take hne
  | retry result => exact covered_serve hs hsafe fun x hx _ => h x hx
  | report result => exact covered_report h result

theorem run_covered {ids : Nat → Uuid} (hids : Function.Injective ids) (files : Files)
    {ms : List Move} (h : Along (move env) (Watched env) (start ids files) ms) :
    (run (move env) (start ids files) ms).Covered :=
  (run_invariant (I := fun f => Sound f.world ∧ f.Covered)
    (fun _ m ⟨hs, hc⟩ hok => ⟨move_sound hs m, move_covered hs hc m hok⟩)
    ⟨start_sound hids files, fun _ ⟨_, hn, _⟩ => absurd hn List.not_mem_nil⟩ h).2

end Flight

section Samples

instance (f : Flight) (x : Uuid) : Decidable (f.Covers x) :=
  inferInstanceAs (Decidable ((∃ c ∈ f.commands, c.1 = x) ∨ ∃ m ∈ f.messages, m.id = x))

instance (env : Env) (w : World) (result : TaskResult) : Decidable (KeepsRunning env w result) :=
  inferInstanceAs (Decidable ((saveReport result).outcome env (w.open none)
    (fun _ _ => result.status = .continued) (fun _ => w.db.Running result.id)))

instance (env : Env) (f : Flight) (q : Request) : Decidable (f.Safe env q) :=
  match q with
  | .receive result => decidable_of_iff
      ((∀ task ∈ (Request.receive result).unsent env f.world, f.Covers task.id) ∧
        (KeepsRunning env f.world result → f.Covers result.id))
      ⟨fun h => ⟨h.1, fun _ heq => Request.receive.inj heq ▸ h.2⟩,
        fun h => ⟨h.unsent, h.report result rfl⟩⟩
  | .start user id => decidable_of_iff
      (∀ task ∈ (Request.start user id).unsent env f.world, f.Covers task.id)
      ⟨fun h => ⟨h, fun _ heq => nomatch heq⟩, fun h => h.unsent⟩
  | .submit _ _ => .isTrue ⟨fun _ h => absurd h List.not_mem_nil, fun _ heq => nomatch heq⟩
  | .pause _ _ => .isTrue ⟨fun _ h => absurd h List.not_mem_nil, fun _ heq => nomatch heq⟩
  | .continue _ _ => .isTrue ⟨fun _ h => absurd h List.not_mem_nil, fun _ heq => nomatch heq⟩
  | .terminate _ _ => .isTrue ⟨fun _ h => absurd h List.not_mem_nil, fun _ heq => nomatch heq⟩

instance (env : Env) (f : Flight) (m : Flight.Move) : Decidable (Flight.Watched env f m) :=
  match m with
  | .request q => inferInstanceAs (Decidable ((f.take q).Safe env q))
  | .retry result => inferInstanceAs (Decidable (f.Safe env (.receive result)))
  | .report _ => .isTrue trivial

def milestone : WorkflowDraft := sampleDraft
  [{ sampleNode 1 (filledSlot "t") none "o" with
    kind := .milestone "reached" "http://host/" "done"
    inputSlots := []
    outputSlots := [] }] []

def flySample (draft : WorkflowDraft) (ms : List Flight.Move) : Flight :=
  run (Flight.move (sampleEnv [draft])) (.start sampleIds sampleFiles) ms

def chainMoves : List Flight.Move :=
  [.request (.submit (some 5) 900), .request (.start (some 5) 100),
    .report { id := 101, status := .success },
    .request (.receive { id := 101, status := .success }),
    .request (.pause (some 5) 100), .request (.continue (some 5) 100)]

def milestoneStarted : Flight :=
  flySample milestone [.request (.submit (some 5) 900), .request (.start (some 5) 100)]

def reached : NodeSpec where
  kind := .milestone "reached" "http://host/" "done"
  id := 101
  name := "stage"
  inputSlots := []
  outputSlots := []
  schedulingStrategy := .auto
  batchStrategies := []

end Samples

end Kuintessence
