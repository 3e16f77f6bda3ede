import Kuintessence.Lib.Prog
import Kuintessence.Lib.Run

namespace Kuintessence

structure Thread (τ ρ σ ε : Type) where
  env : ρ
  prog : Prog τ ρ σ ε Unit

structure Pool (τ ρ σ ε : Type) where
  state : σ
  threads : List (Thread τ ρ σ ε)

inductive Move (ι : Type) where
  | spawn (job : ι)
  | go (thread : Nat)

namespace Pool

variable {τ ρ σ ε ι : Type}

-- The thread does its next atomic step.
def go (p : Pool τ ρ σ ε) (i : Nat) : Pool τ ρ σ ε :=
  match p.threads[i]? with
  | some ⟨env, .step _ act next⟩ =>
    { state := act env p.state, threads := p.threads.set i ⟨env, next env p.state⟩ }
  | _ => p

def step (start : ι → Thread τ ρ σ ε) (p : Pool τ ρ σ ε) : Move ι → Pool τ ρ σ ε
  | .spawn job => { p with threads := p.threads ++ [start job] }
  | .go i => p.go i

def tag (p : Pool τ ρ σ ε) (i : Nat) : Option τ :=
  match p.threads[i]? with
  | some ⟨_, .step tag _ _⟩ => some tag
  | _ => none

theorem tag_none_of_forall {p : Pool τ ρ σ ε} (h : ∀ i < p.threads.length, p.tag i = none)
    (i : Nat) : p.tag i = none := by
  obtain hlt | hge := Nat.lt_or_ge i p.threads.length
  · exact h i hlt
  · rw [tag, List.getElem?_eq_none_iff.mpr hge]

variable {J : σ → Prop} {T : σ → Prog τ ρ σ ε Unit → Prop} {p : Pool τ ρ σ ε}

structure Keeps (J : σ → Prop) (T : σ → Prog τ ρ σ ε Unit → Prop) (p : Pool τ ρ σ ε) : Prop where
  state : J p.state
  threads : ∀ (i : Nat) (x : Thread τ ρ σ ε), p.threads[i]? = some x → T p.state x.prog

-- The moving thread keeps both parts, and the others stand its change of the state.
theorem Keeps.go (h : Keeps J T p) (i : Nat)
    (hstep : ∀ env tag act next, p.threads[i]? = some ⟨env, .step tag act next⟩ →
      T p.state (.step tag act next) → J (act env p.state) ∧ T (act env p.state) (next env p.state) ∧
        ∀ (j : Nat) (x : Thread τ ρ σ ε), j ≠ i → p.threads[j]? = some x → T p.state x.prog → T (act env p.state) x.prog) :
    Keeps J T (p.go i) := by
  unfold Pool.go
  split
  · next env tag act next hi =>
    obtain ⟨hstate, hnext, hothers⟩ := hstep env tag act next hi (h.threads i _ hi)
    refine ⟨hstate, fun j x hj => ?_⟩
    obtain rfl | hne := eq_or_ne j i
    · have hlt : j < p.threads.length := (List.getElem?_eq_some_iff.mp hi).1
      rw [List.getElem?_set_self hlt] at hj
      cases hj
      exact hnext
    · rw [List.getElem?_set_ne hne.symm] at hj
      exact hothers j x hne hj (h.threads j x hj)
  · exact h

theorem Keeps.spawn (h : Keeps J T p) {x : Thread τ ρ σ ε} (hx : T p.state x.prog) :
    Keeps J T { p with threads := p.threads ++ [x] } := by
  refine ⟨h.state, fun i y hi => ?_⟩
  obtain hlt | hge := Nat.lt_or_ge i p.threads.length
  · rw [List.getElem?_append_left hlt] at hi
    exact h.threads i y hi
  · rw [List.getElem?_append_right hge, List.getElem?_singleton] at hi
    split at hi
    · cases hi
      exact hx
    · cases hi

end Pool

end Kuintessence
