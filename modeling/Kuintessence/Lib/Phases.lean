import Kuintessence.Lib.Pool

namespace Kuintessence

-- The phases a thread goes through: the tag of the step that a phase is about to take, and how
-- that step changes the state and the phase.
structure Phases (φ τ ρ σ : Type) where
  allowed : ρ → Prop
  tag : φ → Option τ
  move : φ → σ → σ → φ → Prop

namespace Prog

variable {φ τ ρ σ ε α β : Type} (A : Phases φ τ ρ σ)

def Conforms : Prog τ ρ σ ε α → φ → (Outcome ε α → φ → Prop) → Prop
  | .done o, x, Q => Q o x
  | .step tag act next, x, Q => A.tag x = some tag ∧
      ∀ r, A.allowed r → ∀ s, ∃ y, A.move x s (act r s) y ∧ Conforms (next r s) y Q

-- What the outcome of the first program has to promise for a bind and for an attempt.
def Sequel (f : α → Prog τ ρ σ ε β) (Q : Outcome ε β → φ → Prop) : Outcome ε α → φ → Prop
  | .ok a, y => Conforms A (f a) y Q
  | .err e, y => Q (.err e) y
  | .panic, y => Q .panic y

def Caught (Q : Outcome ε (Except ε α) → φ → Prop) : Outcome ε α → φ → Prop
  | .ok a, y => Q (.ok (.ok a)) y
  | .err e, y => Q (.ok (.error e)) y
  | .panic, y => Q .panic y

variable {A} {x : φ} {Q Q' : Outcome ε α → φ → Prop} {R : Outcome ε β → φ → Prop}

theorem Conforms.mono {p : Prog τ ρ σ ε α} (h : Conforms A p x Q) (hQ : ∀ o y, Q o y → Q' o y) :
    Conforms A p x Q' := by
  induction p generalizing x with
  | done o => exact hQ o x h
  | step tag act next ih =>
    refine ⟨h.1, fun r hr s => ?_⟩
    obtain ⟨y, hmove, hnext⟩ := h.2 r hr s
    exact ⟨y, hmove, ih r s hnext⟩

theorem conforms_pure {a : α} (h : Q (.ok a) x) : Conforms A (pure a : Prog τ ρ σ ε α) x Q := h

theorem conforms_atom {tag : τ} {m : Effect ρ σ ε α} (htag : A.tag x = some tag)
    (h : ∀ r, A.allowed r → ∀ s, ∃ y, A.move x s (m r s).2 y ∧ Q (m r s).1 y) :
    Conforms A (atom tag m) x Q := ⟨htag, h⟩

theorem Conforms.bind {p : Prog τ ρ σ ε α} {f : α → Prog τ ρ σ ε β}
    (h : Conforms A p x (Sequel A f R)) : Conforms A (p >>= f) x R := by
  change Conforms A (Prog.bind p f) x R
  induction p generalizing x with
  | done o =>
    cases o with
    | ok a => exact h
    | err e => exact h
    | panic => exact h
  | step tag act next ih =>
    refine ⟨h.1, fun r hr s => ?_⟩
    obtain ⟨y, hmove, hnext⟩ := h.2 r hr s
    exact ⟨y, hmove, ih r s hnext⟩

theorem Conforms.attempt {p : Prog τ ρ σ ε α} {Q : Outcome ε (Except ε α) → φ → Prop}
    (h : Conforms A p x (Caught Q)) : Conforms A (attempt p) x Q := by
  induction p generalizing x with
  | done o =>
    cases o with
    | ok a => exact h
    | err e => exact h
    | panic => exact h
  | step tag act next ih =>
    refine ⟨h.1, fun r hr s => ?_⟩
    obtain ⟨y, hmove, hnext⟩ := h.2 r hr s
    exact ⟨y, hmove, ih r s hnext⟩

theorem Conforms.ite {c : Prop} [Decidable c] {p q : Prog τ ρ σ ε α} (hp : c → Conforms A p x Q)
    (hq : ¬c → Conforms A q x Q) : Conforms A (if c then p else q) x Q := by
  split
  · next hc => exact hp hc
  · next hc => exact hq hc

end Prog

-- One place of a list decides about one part of what the list yields.
theorem exists_perm_filterMap_set {α β : Type} (f : α → Option β) {l : List α} {i : Nat} {a : α}
    (h : l[i]? = some a) : ∃ rest : List β, (l.filterMap f).Perm ((f a).toList ++ rest) ∧
      ∀ b, ((l.set i b).filterMap f).Perm ((f b).toList ++ rest) := by
  obtain ⟨hi, rfl⟩ := List.getElem?_eq_some_iff.mp h
  have hone (b : α) : (l.take i ++ b :: l.drop (i + 1)).filterMap f =
      (l.take i).filterMap f ++ ((f b).toList ++ (l.drop (i + 1)).filterMap f) := by
    rw [List.filterMap_append, List.filterMap_cons]
    cases f b <;> rfl
  have hperm (b : α) : ((l.take i ++ b :: l.drop (i + 1)).filterMap f).Perm
      ((f b).toList ++ ((l.take i).filterMap f ++ (l.drop (i + 1)).filterMap f)) := by
    rw [hone, ← List.append_assoc, ← List.append_assoc]
    exact List.perm_append_comm.append_right _
  refine ⟨(l.take i).filterMap f ++ (l.drop (i + 1)).filterMap f, ?_, fun b => ?_⟩
  · have hsame : l.take i ++ l[i] :: l.drop (i + 1) = l := by
      rw [List.getElem_cons_drop, List.take_append_drop]
    have hperm' := hperm l[i]
    rw [hsame] at hperm'
    exact hperm'
  · rw [List.set_eq_take_append_cons_drop, if_pos hi]
    exact hperm b

theorem set_cases {α : Type} {l : List α} {i j : Nat} {a b : α} (hj : (l.set i a)[j]? = some b) :
    j = i ∧ b = a ∨ j ≠ i ∧ l[j]? = some b := by
  by_cases hji : j = i
  · subst hji
    obtain ⟨hlt, hb⟩ := List.getElem?_eq_some_iff.mp hj
    rw [List.getElem_set_self] at hb
    exact .inl ⟨rfl, hb.symm⟩
  · rw [List.getElem?_set_ne (Ne.symm hji)] at hj
    exact .inr ⟨hji, hj⟩

-- Any two places of a list, in either order.
def Mutual {α : Type} (R : α → α → Prop) (l : List α) : Prop :=
  ∀ (i j : Nat) (a b : α), i ≠ j → l[i]? = some a → l[j]? = some b → R a b

theorem Mutual.set {α : Type} {R : α → α → Prop} {l : List α} {i : Nat} {a : α} (h : Mutual R l)
    (ha : ∀ (j : Nat) (b : α), j ≠ i → l[j]? = some b → R a b ∧ R b a) : Mutual R (l.set i a) := by
  intro j k b c hjk hj hk
  obtain ⟨rfl, rfl⟩ | ⟨hji, hb⟩ := set_cases hj
  · obtain ⟨rfl, -⟩ | ⟨hki, hc⟩ := set_cases hk
    · exact absurd rfl hjk
    · exact (ha k c hki hc).1
  · obtain ⟨rfl, rfl⟩ | ⟨hki, hc⟩ := set_cases hk
    · exact (ha j b hji hb).2
    · exact h j k b c hjk hb hc

theorem Mutual.concat {α : Type} {R : α → α → Prop} {l : List α} {a : α} (h : Mutual R l)
    (ha : ∀ b ∈ l, R a b ∧ R b a) : Mutual R (l ++ [a]) := by
  have hold {j : Nat} {b : α} (hj : (l ++ [a])[j]? = some b) :
      j = l.length ∧ b = a ∨ l[j]? = some b := by
    obtain hlt | hge := Nat.lt_or_ge j l.length
    · rw [List.getElem?_append_left hlt] at hj
      exact .inr hj
    · rw [List.getElem?_append_right hge, List.getElem?_singleton] at hj
      split at hj
      · cases hj
        exact .inl ⟨by omega, rfl⟩
      · cases hj
  intro j k b c hjk hj hk
  obtain ⟨rfl, rfl⟩ | hb := hold hj
  · obtain ⟨rfl, -⟩ | hc := hold hk
    · exact absurd rfl hjk
    · exact (ha c (List.mem_of_getElem? hc)).1
  · obtain ⟨rfl, rfl⟩ | hc := hold hk
    · exact (ha b (List.mem_of_getElem? hb)).2
    · exact h j k b c hjk hb hc

namespace Pool

variable {φ τ ρ σ ε ι : Type} {A : Phases φ τ ρ σ} {p : Pool τ ρ σ ε} {phases : List φ}

-- Every thread is in its phase; the phase of one that has returned takes no step.
structure Follows (A : Phases φ τ ρ σ) (p : Pool τ ρ σ ε) (phases : List φ) : Prop where
  length : phases.length = p.threads.length
  threads : ∀ (i : Nat) (x : Thread τ ρ σ ε) (y : φ), p.threads[i]? = some x → phases[i]? = some y →
    A.allowed x.env ∧ Prog.Conforms A x.prog y fun _ z => A.tag z = none

theorem Follows.phase (h : Follows A p phases) {i : Nat} {x : Thread τ ρ σ ε}
    (hx : p.threads[i]? = some x) : ∃ y, phases[i]? = some y := by
  have hlt : i < phases.length := h.length ▸ (List.getElem?_eq_some_iff.mp hx).1
  exact ⟨phases[i], List.getElem?_eq_getElem hlt⟩

theorem Follows.tag (h : Follows A p phases) (i : Nat) : p.tag i = (phases[i]?).bind A.tag := by
  cases hx : p.threads[i]? with
  | none =>
    have hnone : phases[i]? = none := by
      rw [List.getElem?_eq_none_iff] at hx ⊢
      exact h.length ▸ hx
    rw [Pool.tag, hx, hnone]
    rfl
  | some x =>
    obtain ⟨y, hy⟩ := h.phase hx
    obtain ⟨-, hconf⟩ := h.threads i x y hx hy
    obtain ⟨env, prog⟩ := x
    rw [Pool.tag, hx, hy]
    cases prog with
    | done o => exact hconf.symm
    | step tag act next => exact hconf.1.symm

-- A thread that goes on does what its phase says, or it has returned.
theorem Follows.go (h : Follows A p phases) (i : Nat) :
    (∃ y z, phases[i]? = some y ∧ A.move y p.state (p.go i).state z ∧
      Follows A (p.go i) (phases.set i z)) ∨ p.go i = p ∧ p.tag i = none := by
  cases hx : p.threads[i]? with
  | none =>
    refine .inr ⟨?_, ?_⟩
    · rw [Pool.go, hx]
    · rw [Pool.tag, hx]
  | some x =>
    obtain ⟨y, hy⟩ := h.phase hx
    obtain ⟨henv, hconf⟩ := h.threads i x y hx hy
    obtain ⟨env, prog⟩ := x
    cases prog with
    | done o =>
      refine .inr ⟨?_, ?_⟩
      · rw [Pool.go, hx]
      · rw [Pool.tag, hx]
    | step tag act next =>
      obtain ⟨-, hstep⟩ := hconf
      obtain ⟨z, hmove, hnext⟩ := hstep env henv p.state
      have hgo : p.go i = ⟨act env p.state, p.threads.set i ⟨env, next env p.state⟩⟩ := by
        rw [Pool.go, hx]
      refine .inl ⟨y, z, hy, by rw [hgo]; exact hmove, ?_⟩
      rw [hgo]
      refine ⟨by rw [List.length_set, List.length_set, h.length], fun j u v hu hv => ?_⟩
      obtain rfl | hne := eq_or_ne i j
      · rw [List.getElem?_set_self (List.getElem?_eq_some_iff.mp hx).1] at hu
        rw [List.getElem?_set_self (List.getElem?_eq_some_iff.mp hy).1] at hv
        cases hu
        cases hv
        exact ⟨henv, hnext⟩
      · rw [List.getElem?_set_ne hne] at hu hv
        exact h.threads j u v hu hv

theorem Follows.spawn (h : Follows A p phases) {x : Thread τ ρ σ ε} {y : φ}
    (henv : A.allowed x.env) (hx : Prog.Conforms A x.prog y fun _ z => A.tag z = none) :
    Follows A { p with threads := p.threads ++ [x] } (phases ++ [y]) := by
  refine ⟨by rw [List.length_append, List.length_append, h.length]; rfl, fun i u v hu hv => ?_⟩
  obtain hlt | hge := Nat.lt_or_ge i p.threads.length
  · rw [List.getElem?_append_left hlt] at hu
    rw [List.getElem?_append_left (h.length ▸ hlt)] at hv
    exact h.threads i u v hu hv
  · rw [List.getElem?_append_right hge, List.getElem?_singleton] at hu
    rw [List.getElem?_append_right (h.length ▸ hge), List.getElem?_singleton, h.length] at hv
    split at hu
    · next hzero =>
      rw [if_pos hzero] at hv
      cases hu
      cases hv
      exact ⟨henv, hx⟩
    · cases hu

end Pool

end Kuintessence
