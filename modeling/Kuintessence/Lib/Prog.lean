import Kuintessence.Lib.Effect

namespace Kuintessence

inductive Prog (τ ρ σ ε α : Type) where
  | done (o : Outcome ε α)
  | step (tag : τ) (act : ρ → σ → σ) (next : ρ → σ → Prog τ ρ σ ε α)

namespace Prog

variable {τ ρ σ ε α β : Type}

def bind : Prog τ ρ σ ε α → (α → Prog τ ρ σ ε β) → Prog τ ρ σ ε β
  | .done (.ok a), f => f a
  | .done (.err e), _ => .done (.err e)
  | .done .panic, _ => .done .panic
  | .step tag act next, f => .step tag act fun r s => (next r s).bind f

instance : Monad (Prog τ ρ σ ε) where
  pure a := .done (.ok a)
  bind := bind

-- One atomic step: `next` sees the state before the step.
def atom (tag : τ) (m : Effect ρ σ ε α) : Prog τ ρ σ ε α :=
  .step tag (fun r s => (m r s).2) fun r s => .done (m r s).1

def when (p : Prop) [Decidable p] (m : Prog τ ρ σ ε Unit) : Prog τ ρ σ ε Unit :=
  if p then m else pure ()

def each (f : α → Prog τ ρ σ ε Unit) : List α → Prog τ ρ σ ε Unit
  | [] => pure ()
  | x :: xs => f x >>= fun _ => each f xs

def attempt : Prog τ ρ σ ε α → Prog τ ρ σ ε (Except ε α)
  | .done (.ok a) => .done (.ok (.ok a))
  | .done (.err e) => .done (.ok (.error e))
  | .done .panic => .done .panic
  | .step tag act next => .step tag act fun r s => (next r s).attempt

def exec : Prog τ ρ σ ε α → Effect ρ σ ε α
  | .done o => Effect.lift o
  | .step _ act next => fun r s => exec (next r s) r (act r s)

@[simp] theorem exec_pure (a : α) : exec (pure a : Prog τ ρ σ ε α) = pure a := rfl

@[simp] theorem exec_done (o : Outcome ε α) :
    exec (.done o : Prog τ ρ σ ε α) = Effect.lift o := rfl

@[simp] theorem exec_atom (tag : τ) (m : Effect ρ σ ε α) : exec (atom tag m) = m := rfl

@[simp] theorem exec_bind (p : Prog τ ρ σ ε α) (f : α → Prog τ ρ σ ε β) :
    exec (p >>= f) = exec p >>= fun a => exec (f a) := by
  change exec (bind p f) = Effect.bind (exec p) fun a => exec (f a)
  induction p with
  | done o =>
    cases o with
    | ok a => rfl
    | err e => rfl
    | panic => rfl
  | step tag act next ih =>
    funext r s
    exact congrFun (congrFun (ih r s) r) (act r s)

@[simp] theorem exec_when (p : Prop) [Decidable p] (m : Prog τ ρ σ ε Unit) :
    exec (when p m) = if p then exec m else pure () := by
  unfold when
  split <;> rfl

@[simp] theorem exec_each (f : α → Prog τ ρ σ ε Unit) (xs : List α) :
    exec (each f xs) = Effect.each (fun x => exec (f x)) xs := by
  induction xs with
  | nil => rfl
  | cons x xs ih =>
    rw [each, exec_bind, ih]
    rfl

@[simp] theorem exec_attempt (p : Prog τ ρ σ ε α) : exec (attempt p) = (exec p).attempt := by
  induction p with
  | done o =>
    cases o with
    | ok a => rfl
    | err e => rfl
    | panic => rfl
  | step tag act next ih =>
    funext r s
    exact congrFun (congrFun (ih r s) r) (act r s)

section Invariant

variable {I : σ → Prop} {Q Q' : α → Prop} {R : β → Prop}

def Preserves (I : σ → Prop) (p : Prog τ ρ σ ε α) (Q : α → Prop) : Prop :=
  ∀ r s, I s → Effect.wp (exec p) r (fun a t => I t ∧ Q a) I s

theorem Preserves.final {p : Prog τ ρ σ ε α} (h : Preserves I p Q) {s : σ} (hs : I s) (r : ρ) :
    I (exec p r s).2 :=
  Effect.wp_final.mp (Effect.wp_mono (h r s hs) (fun _ _ ht => ht.1) fun _ ht => ht)

theorem preserves_pure {a : α} (h : Q a) : Preserves I (pure a : Prog τ ρ σ ε α) Q :=
  fun _ _ hs => ⟨hs, h⟩

theorem preserves_done {o : Outcome ε α} (h : ∀ a, o = .ok a → Q a) :
    Preserves I (.done o : Prog τ ρ σ ε α) Q := by
  intro r s hs
  rw [exec_done, Effect.wp_lift]
  exact ⟨fun a ha => ⟨hs, h a ha⟩, fun _ => hs⟩

theorem preserves_atom {tag : τ} {m : Effect ρ σ ε α}
    (h : ∀ r s, I s → Effect.wp m r (fun a t => I t ∧ Q a) I s) : Preserves I (atom tag m) Q := h

theorem Preserves.bind {p : Prog τ ρ σ ε α} {f : α → Prog τ ρ σ ε β} (hp : Preserves I p Q)
    (hf : ∀ a, Q a → Preserves I (f a) R) : Preserves I (p >>= f) R := by
  intro r s hs
  rw [exec_bind, Effect.wp_bind]
  exact Effect.wp_mono (hp r s hs) (fun a t ht => hf a ht.2 r t ht.1) fun _ ht => ht

theorem Preserves.ite {c : Prop} [Decidable c] {p q : Prog τ ρ σ ε α} (hp : c → Preserves I p Q)
    (hq : ¬c → Preserves I q Q) : Preserves I (if c then p else q) Q := by
  split
  · next hc => exact hp hc
  · next hc => exact hq hc

theorem Preserves.when {p : Prop} [Decidable p] {m : Prog τ ρ σ ε Unit}
    (h : p → Preserves I m fun _ => True) : Preserves I (when p m) fun _ => True := by
  unfold Prog.when
  split
  · next hp => exact h hp
  · exact preserves_pure trivial

theorem Preserves.each {f : α → Prog τ ρ σ ε Unit} {xs : List α}
    (h : ∀ x ∈ xs, Preserves I (f x) fun _ => True) : Preserves I (each f xs) fun _ => True := by
  induction xs with
  | nil => exact preserves_pure trivial
  | cons x xs ih =>
    exact (h x List.mem_cons_self).bind fun _ _ => ih fun y hy => h y (List.mem_cons_of_mem x hy)

theorem Preserves.attempt {p : Prog τ ρ σ ε α} (h : Preserves I p Q) :
    Preserves I (attempt p) fun x => ∀ a, x = .ok a → Q a := by
  intro r s hs
  rw [exec_attempt]
  refine Effect.wp_attempt (h r s hs) ?_ ?_ fun _ ht => ht
  · rintro a t ⟨ht, ha⟩
    refine ⟨ht, fun b hb => ?_⟩
    cases hb
    exact ha
  · intro e t ht
    exact ⟨ht, fun _ hb => nomatch hb⟩

end Invariant

section Interference

variable {I : σ → Prop} {Q Q' : α → Prop} {R : β → Prop}

-- Every step keeps the invariant, whatever was done to the state since the step before it.
def Upholds (I : σ → Prop) : Prog τ ρ σ ε α → (α → Prop) → Prop
  | .done o, Q => ∀ a, o = .ok a → Q a
  | .step _ act next, Q => ∀ r s, I s → I (act r s) ∧ Upholds I (next r s) Q

theorem Upholds.weaken {p : Prog τ ρ σ ε α} (h : Upholds I p Q) (hQ : ∀ a, Q a → Q' a) :
    Upholds I p Q' := by
  induction p with
  | done o => exact fun a ha => hQ a (h a ha)
  | step tag act next ih => exact fun r s hs => ⟨(h r s hs).1, ih r s (h r s hs).2⟩

theorem Upholds.preserves {p : Prog τ ρ σ ε α} (h : Upholds I p Q) : Preserves I p Q := by
  induction p with
  | done o => exact preserves_done h
  | step tag act next ih => exact fun r s hs => ih r s (h r s hs).2 r (act r s) (h r s hs).1

theorem upholds_done {o : Outcome ε α} (h : ∀ a, o = .ok a → Q a) :
    Upholds I (.done o : Prog τ ρ σ ε α) Q := h

theorem upholds_pure {a : α} (h : Q a) : Upholds I (pure a : Prog τ ρ σ ε α) Q := by
  intro b hb
  cases hb
  exact h

theorem upholds_atom {tag : τ} {m : Effect ρ σ ε α}
    (h : ∀ r s, I s → Effect.wp m r (fun a t => I t ∧ Q a) I s) : Upholds I (atom tag m) Q := by
  intro r s hs
  have hm := h r s hs
  obtain ⟨a, ha, hI, hQ⟩ | ⟨hnot, hI⟩ := Effect.wp_run hm
  · refine ⟨hI, fun b hb => ?_⟩
    rw [ha] at hb
    cases hb
    exact hQ
  · exact ⟨hI, fun b hb => absurd hb (hnot b)⟩

theorem Upholds.bind {p : Prog τ ρ σ ε α} {f : α → Prog τ ρ σ ε β} (hp : Upholds I p Q)
    (hf : ∀ a, Q a → Upholds I (f a) R) : Upholds I (p >>= f) R := by
  change Upholds I (Prog.bind p f) R
  induction p with
  | done o =>
    cases o with
    | ok a => exact hf a (hp a rfl)
    | err e => exact fun _ h => nomatch h
    | panic => exact fun _ h => nomatch h
  | step tag act next ih => exact fun r s hs => ⟨(hp r s hs).1, ih r s (hp r s hs).2⟩

theorem Upholds.ite {c : Prop} [Decidable c] {p q : Prog τ ρ σ ε α} (hp : c → Upholds I p Q)
    (hq : ¬c → Upholds I q Q) : Upholds I (if c then p else q) Q := by
  split
  · next hc => exact hp hc
  · next hc => exact hq hc

theorem Upholds.when {c : Prop} [Decidable c] {m : Prog τ ρ σ ε Unit}
    (h : c → Upholds I m fun _ => True) : Upholds I (when c m) fun _ => True :=
  Upholds.ite h fun _ => upholds_pure trivial

theorem Upholds.each {f : α → Prog τ ρ σ ε Unit} {xs : List α}
    (h : ∀ x ∈ xs, Upholds I (f x) fun _ => True) : Upholds I (each f xs) fun _ => True := by
  induction xs with
  | nil => exact upholds_pure trivial
  | cons x xs ih =>
    exact (h x List.mem_cons_self).bind fun _ _ => ih fun y hy => h y (List.mem_cons_of_mem x hy)

theorem Upholds.attempt {p : Prog τ ρ σ ε α} (h : Upholds I p Q) :
    Upholds I (attempt p) fun x => ∀ a, x = .ok a → Q a := by
  induction p with
  | done o =>
    cases o with
    | ok a =>
      refine upholds_done fun x hx b hb => ?_
      cases hx
      cases hb
      exact h a rfl
    | err e =>
      refine upholds_done fun x hx b hb => ?_
      cases hx
      cases hb
    | panic => exact upholds_done fun _ hx => nomatch hx
  | step tag act next ih => exact fun r s hs => ⟨(h r s hs).1, ih r s (h r s hs).2⟩

end Interference

end Prog

end Kuintessence
