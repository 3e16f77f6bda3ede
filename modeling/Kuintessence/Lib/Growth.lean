import Kuintessence.Lib.Phases

namespace Kuintessence

-- States that only gain: what is known of all states after one stays known.
structure Growth (σ : Type) where
  inv : σ → Prop
  le : σ → σ → Prop
  refl : ∀ s, le s s
  trans : ∀ {s t u}, le s t → le t u → le s u

namespace Growth

variable {σ : Type} (W : Growth σ)

def Known (s : σ) (P : σ → Prop) : Prop := ∀ t, W.inv t → W.le s t → P t

variable {W} {s t : σ} {P P' : σ → Prop}

theorem Known.later (h : W.Known s P) (hle : W.le s t) : W.Known t P :=
  fun u hu htu => h u hu (W.trans hle htu)

theorem Known.mono (h : W.Known s P) (hP : ∀ t, W.inv t → P t → P' t) : W.Known s P' :=
  fun t ht hle => hP t ht (h t ht hle)

end Growth

namespace Prog

variable {τ ρ σ ε α β : Type} (W : Growth σ) (r : ρ)

-- Every step keeps the invariant and gains, whatever the other threads have done since the step
-- before it; `Q` is known of the value from the last step on.
def Grows : Prog τ ρ σ ε α → σ → (α → σ → Prop) → Prop
  | .done o, s, Q => ∀ a, o = .ok a → W.Known s (Q a)
  | .step _ act next, s, Q => ∀ t, W.inv t → W.le s t →
      W.inv (act r t) ∧ W.le t (act r t) ∧ Grows (next r t) (act r t) Q

variable {W r} {p : Prog τ ρ σ ε α} {s t : σ} {Q Q' : α → σ → Prop} {R : β → σ → Prop}

theorem Grows.later (h : Grows W r p s Q) (hle : W.le s t) : Grows W r p t Q := by
  cases p with
  | done o => exact fun a ha => (h a ha).later hle
  | step tag act next => exact fun u hu htu => h u hu (W.trans hle htu)

theorem Grows.mono (h : Grows W r p s Q) (hQ : ∀ a t, W.inv t → W.le s t → Q a t → Q' a t) :
    Grows W r p s Q' := by
  induction p generalizing s with
  | done o => exact fun a ha t ht hle => hQ a t ht hle (h a ha t ht hle)
  | step tag act next ih =>
    intro t ht hle
    obtain ⟨hinv, hgain, hnext⟩ := h t ht hle
    exact ⟨hinv, hgain, ih r t hnext fun a u hu htu =>
      hQ a u hu (W.trans hle (W.trans hgain htu))⟩

theorem grows_pure {a : α} (h : W.Known s (Q a)) : Grows W r (pure a : Prog τ ρ σ ε α) s Q := by
  intro b hb
  cases hb
  exact h

theorem grows_atom {tag : τ} {m : Effect ρ σ ε α}
    (h : ∀ t, W.inv t → W.le s t → W.inv (m r t).2 ∧ W.le t (m r t).2 ∧
      ∀ a, (m r t).1 = .ok a → W.Known (m r t).2 (Q a)) : Grows W r (atom tag m) s Q := h

theorem Grows.bind {f : α → Prog τ ρ σ ε β} (hs : W.inv s) (hp : Grows W r p s Q)
    (hf : ∀ a t, W.inv t → W.le s t → W.Known t (Q a) → Grows W r (f a) t R) :
    Grows W r (p >>= f) s R := by
  change Grows W r (Prog.bind p f) s R
  induction p generalizing s with
  | done o =>
    cases o with
    | ok a => exact hf a s hs (W.refl s) (hp a rfl)
    | err e => exact fun _ h => by cases h
    | panic => exact fun _ h => by cases h
  | step tag act next ih =>
    intro t ht hle
    obtain ⟨hinv, hgain, hnext⟩ := hp t ht hle
    exact ⟨hinv, hgain, ih r t hinv hnext fun a u hu htu =>
      hf a u hu (W.trans hle (W.trans hgain htu))⟩

end Prog

namespace Pool

variable {τ ρ σ ε ι : Type} (start : ι → Thread τ ρ σ ε)

-- The jobs of the threads, in the order of the threads.
def jobs : List (Move ι) → List ι
  | [] => []
  | .spawn job :: moves => job :: jobs moves
  | .go _ :: moves => jobs moves

structure Grown (W : Growth σ) (post : ι → σ → Prop) (js : List ι) (p : Pool τ ρ σ ε) : Prop where
  inv : W.inv p.state
  length : p.threads.length = js.length
  threads : ∀ (i : Nat) (job : ι) (x : Thread τ ρ σ ε), js[i]? = some job → p.threads[i]? = some x →
    Prog.Grows W x.env x.prog p.state fun _ => post job

variable {start} {W : Growth σ} {post : ι → σ → Prop} {js : List ι} {p : Pool τ ρ σ ε}

theorem Grown.spawn (h : Grown W post js p) {job : ι}
    (hjob : ∀ s, W.inv s → Prog.Grows W (start job).env (start job).prog s fun _ => post job) :
    Grown W post (js ++ [job]) (step start p (.spawn job)) := by
  refine ⟨h.inv, ?_, fun i other x hother hx => ?_⟩
  · rw [step, List.length_append, List.length_append, h.length]
    rfl
  · change (p.threads ++ [start job])[i]? = _ at hx
    obtain hlt | hge := Nat.lt_or_ge i js.length
    · rw [List.getElem?_append_left hlt] at hother
      rw [List.getElem?_append_left (h.length ▸ hlt)] at hx
      exact h.threads i other x hother hx
    · rw [List.getElem?_append_right hge, List.getElem?_singleton] at hother
      rw [List.getElem?_append_right (h.length ▸ hge), List.getElem?_singleton, h.length] at hx
      split at hother
      · next hzero =>
        rw [if_pos hzero] at hx
        cases hother
        cases hx
        exact hjob _ h.inv
      · cases hother

theorem Grown.go (h : Grown W post js p) (i : Nat) : Grown W post js (p.go i) := by
  unfold Pool.go
  split
  · next env tag act next hi =>
    have hlt := h.length ▸ (List.getElem?_eq_some_iff.mp hi).1
    obtain ⟨hinv, hgain, hnext⟩ := h.threads i _ _ (List.getElem?_eq_getElem hlt) hi p.state h.inv
      (W.refl _)
    refine ⟨hinv, by rw [List.length_set, h.length], fun j job x hjob hx => ?_⟩
    obtain ⟨rfl, rfl⟩ | ⟨-, hold⟩ := set_cases hx
    · rw [List.getElem?_eq_getElem hlt] at hjob
      cases hjob
      exact hnext
    · exact (h.threads j job x hjob hold).later hgain
  · exact h

theorem Grown.run (h : Grown W post js p) {moves : List (Move ι)}
    (hjobs : ∀ job ∈ jobs moves, ∀ s, W.inv s →
      Prog.Grows W (start job).env (start job).prog s fun _ => post job) : Grown W post (js ++ jobs moves) (Kuintessence.run (step start) p moves) := by
  induction moves generalizing p js with
  | nil =>
    rw [jobs, List.append_nil]
    exact h
  | cons move moves ih =>
    cases move with
    | spawn job =>
      have hnext := ih (h.spawn (hjobs job List.mem_cons_self)) fun other hother =>
        hjobs other (List.mem_cons_of_mem job hother)
      rwa [List.append_assoc, List.singleton_append] at hnext
    | go i => exact ih (h.go i) hjobs

-- A call that has returned left what it promised.
theorem Grown.returned (h : Grown W post js p) {i : Nat} {job : ι} (hjob : js[i]? = some job)
    {env : ρ} (hdone : p.threads[i]? = some ⟨env, .done (.ok ())⟩) : post job p.state :=
  h.threads i job _ hjob hdone () rfl p.state h.inv (W.refl _)

end Pool

end Kuintessence
