import Kuintessence.Agent.Pacing

namespace Kuintessence.Agent

open Prog

abbrev Agents := Pool Access Env State String

def Turn.thread (turn : Turn) : Thread Access Env State String :=
  ⟨turn.env, turn.operation.serve⟩

def Agents.initial (maxTasksCount : Nat) : Agents := ⟨State.initial maxTasksCount, []⟩

def Event.Balanced (ids : List Uuid) : Event → Prop
  | .dispatched x => x ∉ ids
  | .finished x => x ∈ ids
  | .failed x => x ∈ ids
  | .paused xs => (ids.filter fun y => y ∈ xs).length = 1
  | _ => True

def Access.isStore : Access → Bool
  | .store _ _ => true
  | _ => false

def Access.Fits (ids : List Uuid) : Access → Prop
  | .store _ event => event.Balanced ids
  | .note event => event.account ids = ids
  | _ => True

def Agents.storesAt (p : Agents) (i : Nat) : Bool := (p.tag i).any Access.isStore

-- A thread stores the counter while no other one is between its load and its store, and for a
-- sub-task that joins or leaves; what leaves without the counter was not dispatched.
structure BalancedGo (p : Agents) (i : Nat) : Prop where
  alone : p.storesAt i = true → ∀ j < p.threads.length, j ≠ i → p.storesAt j = false
  fits : ∀ access ∈ p.tag i, access.Fits (outstanding p.state.trace)

def Balanced (p : Agents) : Move Turn → Prop
  | .spawn _ => True
  | .go i => BalancedGo p i

instance (ids : List Uuid) (e : Event) : Decidable (e.Balanced ids) :=
  match e with
  | .dispatched x => inferInstanceAs (Decidable (x ∉ ids))
  | .finished x => inferInstanceAs (Decidable (x ∈ ids))
  | .failed x => inferInstanceAs (Decidable (x ∈ ids))
  | .paused xs => inferInstanceAs (Decidable ((ids.filter fun y => y ∈ xs).length = 1))
  | .submitted .. | .started .. | .removed _ | .reported .. | .subTaskReport .. | .download _
  | .upload _ | .deployment _ | .install .. | .submitJob _ | .pauseJob _ | .continueJob _
  | .deleteJob _ | .saveFile .. => .isTrue trivial

instance (ids : List Uuid) (access : Access) : Decidable (access.Fits ids) :=
  match access with
  | .store _ event => inferInstanceAs (Decidable (event.Balanced ids))
  | .note event => inferInstanceAs (Decidable (event.account ids = ids))
  | .other | .load => .isTrue trivial

instance (p : Agents) (i : Nat) : Decidable (BalancedGo p i) :=
  decidable_of_iff ((p.storesAt i = true → ∀ j < p.threads.length, j ≠ i → p.storesAt j = false) ∧
      ∀ access ∈ p.tag i, access.Fits (outstanding p.state.trace))
    ⟨fun h => ⟨h.1, h.2⟩, fun h => ⟨h.alone, h.fits⟩⟩

instance (p : Agents) (move : Move Turn) : Decidable (Balanced p move) :=
  match move with
  | .spawn _ => .isTrue trivial
  | .go i => inferInstanceAs (Decidable (BalancedGo p i))

section Lengths

variable {ids : List Uuid}

theorem length_filter_not (p : Uuid → Prop) [DecidablePred p] :
    (ids.filter fun y => ¬p y).length + (ids.filter fun y => p y).length = ids.length := by
  induction ids with
  | nil => rfl
  | cons x ids ih =>
    by_cases hx : p x
    · simp [hx]
      simp at ih
      omega
    · simp [hx]
      simp at ih
      omega

theorem length_filter_eq (h : ids.Nodup) {x : Uuid} (hx : x ∈ ids) :
    (ids.filter fun y => y = x).length = 1 := by
  have hcount := List.count_eq_one_of_mem h hx
  rwa [List.count, List.countP_eq_length_filter] at hcount

theorem length_account {e : Event} {max count next : Nat} (hids : ids.Nodup)
    (hlength : ids.length = count) (hcounts : e.Counts max count next) (h : e.Balanced ids) :
    (e.account ids).length = next := by
  have hleave {x : Uuid} (hx : x ∈ ids) (hnext : next + 1 = count) :
      (ids.filter fun y => y ≠ x).length = next := by
    have hsplit : _ + (ids.filter fun y => y = x).length = ids.length := length_filter_not _
    rw [length_filter_eq hids hx] at hsplit
    change (ids.filter fun y => ¬y = x).length = next
    omega
  cases e with
  | dispatched x =>
    rw [Event.account, List.length_insert_of_not_mem h, hlength, hcounts.1]
  | finished x => exact hleave h hcounts
  | failed x => exact hleave h hcounts
  | paused xs =>
    have hsplit : _ + (ids.filter fun y => y ∈ xs).length = ids.length := length_filter_not _
    change (ids.filter fun y => y ∈ xs).length = 1 at h
    change next + 1 = count at hcounts
    change (ids.filter fun y => ¬y ∈ xs).length = next
    omega
  | _ => exact hcounts.elim

theorem le_of_counts {e : Event} {max count next : Nat} (hcounts : e.Counts max count next)
    (h : max = 0 ∨ count ≤ max) : max = 0 ∨ next ≤ max := by
  cases e with
  | dispatched x =>
    obtain ⟨rfl, hne⟩ := hcounts
    omega
  | finished x =>
    change next + 1 = count at hcounts
    omega
  | failed x =>
    change next + 1 = count at hcounts
    omega
  | paused xs =>
    change next + 1 = count at hcounts
    omega
  | _ => exact hcounts.elim

end Lengths

structure Counted (max : Nat) (s : State) : Prop where
  limit : s.maxTasksCount = max
  count : s.tasksCount = (outstanding s.trace).length
  bound : max = 0 ∨ s.tasksCount ≤ max

def Poised (max : Nat) (s : State) (p : Op Unit) : Prop := Paced max Anyhow (some s.tasksCount) p

section Moves

variable {max : Nat} {p : Agents}

theorem Counted.uncounted {s t : State} (h : Counted max s) (ht : Uncounted s t) : Counted max t where
  limit := ht.maxTasksCount.trans h.limit
  count := by rw [ht.tasksCount, ht.outstanding, h.count]
  bound := by
    rw [ht.tasksCount]
    exact h.bound

theorem go_counted (h : Pool.Keeps (Counted max) (Poised max) p) {i : Nat}
    (hmove : BalancedGo p i) : Pool.Keeps (Counted max) (Poised max) (p.go i) := by
  refine h.go i fun env tag act next hi hpaced => ?_
  have hstate := h.state
  have htag : p.tag i = some tag := by
    rw [Pool.tag, hi]
  have hfits := hmove.fits tag htag
  cases tag with
  | other =>
    have hact := hpaced.1 env p.state
    refine ⟨hstate.uncounted hact, (hpaced.2 env p.state hstate.limit).some _, fun j x _ _ hx => ?_⟩
    rwa [Poised, hact.tasksCount]
  | load =>
    rw [hpaced.1 env p.state]
    exact ⟨hstate, hpaced.2 env p.state hstate.limit, fun _ _ _ _ hx => hx⟩
  | note event =>
    rw [hpaced.1 env p.state]
    refine ⟨hstate.uncounted ⟨rfl, rfl, ?_⟩, (hpaced.2 env p.state hstate.limit).some _,
      fun _ _ _ _ hx => hx⟩
    rw [outstanding_append]
    exact hfits
  | store count event =>
    obtain ⟨⟨c, hc, hcounts⟩, hact, hnext⟩ := hpaced
    cases hc
    have halone := hmove.alone (by rw [Agents.storesAt, htag]; rfl)
    rw [hact env p.state]
    refine ⟨⟨hstate.limit, ?_, le_of_counts hcounts hstate.bound⟩,
      (hnext env p.state hstate.limit).some _, fun j x hne hj hx => hx.reload ?_⟩
    · rw [outstanding_append]
      exact (length_account (nodup_outstanding _) hstate.count.symm hcounts hfits).symm
    · rintro count' event' act' next' heq
      have hlt : j < p.threads.length := (List.getElem?_eq_some_iff.mp hj).1
      have hstores := halone j hlt hne
      obtain ⟨env', prog'⟩ := x
      cases heq
      rw [Agents.storesAt, Pool.tag, hj] at hstores
      cases hstores

theorem step_counted (h : Pool.Keeps (Counted max) (Poised max) p) {move : Move Turn}
    (hmove : Balanced p move) :
    Pool.Keeps (Counted max) (Poised max) (Pool.step Turn.thread p move) := by
  cases move with
  | spawn turn => exact h.spawn (steady_serve turn.operation _)
  | go i => exact go_counted h hmove

end Moves

def startOf (task : Uuid) : Move Turn := .spawn ⟨sampleEnv, .message ⟨task, sampleBody, .start⟩⟩

end Kuintessence.Agent
