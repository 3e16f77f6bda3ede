import Kuintessence.Lib.Effect

namespace Kuintessence

namespace Effect

variable {ρ σ ε α β : Type} {r : ρ} {m : Effect ρ σ ε α} {f : α → Effect ρ σ ε β}

-- The third condition is for the ends without a value; a panic has no error.
def Triple (P : σ → Prop) (r : ρ) (m : Effect ρ σ ε α) (Q : α → σ → Prop)
    (R : Option ε → σ → Prop) : Prop :=
  ∀ s, P s → match m r s with
    | (.ok a, t) => Q a t
    | (.err e, t) => R (some e) t
    | (.panic, t) => R none t

namespace Triple

variable {P P' : σ → Prop} {Q Q' : α → σ → Prop} {U : β → σ → Prop} {R R' : Option ε → σ → Prop}

theorem pure {a : α} (h : ∀ s, P s → Q a s) : Triple P r (Pure.pure a : Effect ρ σ ε α) Q R := h

theorem throw {e : ε} (h : ∀ s, P s → R (some e) s) :
    Triple P r (Effect.throw e : Effect ρ σ ε α) Q R := h

theorem read {Q : ρ → σ → Prop} (h : ∀ s, P s → Q r s) :
    Triple P r (Effect.read : Effect ρ σ ε ρ) Q R := h

theorem get {Q : σ → σ → Prop} (h : ∀ s, P s → Q s s) :
    Triple P r (Effect.get : Effect ρ σ ε σ) Q R := h

theorem modify {g : σ → σ} {Q : Unit → σ → Prop} (h : ∀ s, P s → Q () (g s)) :
    Triple P r (Effect.modify g : Effect ρ σ ε Unit) Q R := h

theorem bind (hm : Triple P r m Q R) (hf : ∀ a, Triple (Q a) r (f a) U R) :
    Triple P r (m >>= f) U R := by
  intro s hs
  have h := hm s hs
  change match Effect.bind m f r s with
    | (.ok b, t) => U b t
    | (.err e, t) => R (some e) t
    | (.panic, t) => R none t
  unfold Effect.bind
  generalize m r s = out at h
  obtain ⟨o, t⟩ := out
  cases o with
  | ok a => exact hf a t h
  | err e => exact h
  | panic => exact h

theorem conseq (h : Triple P r m Q R) (hP : ∀ s, P' s → P s) (hQ : ∀ a t, Q a t → Q' a t)
    (hR : ∀ e t, R e t → R' e t) : Triple P' r m Q' R' := by
  intro s hs
  have ht := h s (hP s hs)
  generalize m r s = out at ht
  obtain ⟨o, t⟩ := out
  cases o with
  | ok a => exact hQ a t ht
  | err e => exact hR (some e) t ht
  | panic => exact hR none t ht

theorem given {p : Prop} (h : p → Triple P r m Q R) : Triple (fun s => P s ∧ p) r m Q R :=
  fun s hs => h hs.2 s hs.1

-- What the error was is known to the code that catches it.
def Caught (Q : α → σ → Prop) (R : Option ε → σ → Prop) : Except ε α → σ → Prop
  | .ok a => Q a
  | .error e => R (some e)

theorem attempt (h : Triple P r m Q R') (hR : ∀ t, R' none t → R none t) :
    Triple P r (Effect.attempt m) (Caught Q R') R := by
  intro s hs
  have ht := h s hs
  unfold Effect.attempt
  generalize m r s = out at ht
  obtain ⟨o, t⟩ := out
  cases o with
  | ok a => exact ht
  | err e => exact ht
  | panic => exact hR t ht

theorem of_ok {s t : σ} {a : α} (h : Triple P r m Q R) (hs : P s) (hrun : m r s = (.ok a, t)) :
    Q a t := by
  have ht := h s hs
  rw [hrun] at ht
  exact ht

theorem final {I : σ → Prop} (h : Triple P r m (fun _ => I) fun _ => I) {s : σ} (hs : P s) :
    I (m r s).2 := by
  have ht := h s hs
  generalize m r s = out at ht
  obtain ⟨o, t⟩ := out
  cases o with
  | ok a => exact ht
  | err e => exact ht
  | panic => exact ht

end Triple

-- The invariant stays, however `m` ends; `V` is what is known of its value from then on.
def Upholds (I : σ → Prop) (r : ρ) (m : Effect ρ σ ε α) (V : α → Prop) : Prop :=
  Triple I r m (fun a t => I t ∧ V a) fun _ => I

namespace Upholds

variable {I : σ → Prop} {V W : α → Prop} {X : β → Prop}

theorem pure {a : α} (h : V a) : Upholds I r (Pure.pure a : Effect ρ σ ε α) V :=
  Triple.pure fun _ hs => ⟨hs, h⟩

theorem throw (e : ε) : Upholds I r (Effect.throw e : Effect ρ σ ε α) V := Triple.throw fun _ hs => hs

theorem read {V : ρ → Prop} (h : V r) : Upholds I r (Effect.read : Effect ρ σ ε ρ) V :=
  Triple.read fun _ hs => ⟨hs, h⟩

theorem get : Upholds I r (Effect.get : Effect ρ σ ε σ) I := Triple.get fun _ hs => ⟨hs, hs⟩

theorem modify {g : σ → σ} (h : ∀ s, I s → I (g s)) :
    Upholds I r (Effect.modify g : Effect ρ σ ε Unit) fun _ => True :=
  Triple.modify fun s hs => ⟨h s hs, trivial⟩

theorem bind (hm : Upholds I r m V) (hf : ∀ a, V a → Upholds I r (f a) X) :
    Upholds I r (m >>= f) X :=
  Triple.bind hm fun a s hs => hf a hs.2 s hs.1

theorem weaken (h : Upholds I r m V) (hV : ∀ a, V a → W a) : Upholds I r m W :=
  Triple.conseq h (fun _ hs => hs) (fun a _ ht => ⟨ht.1, hV a ht.2⟩) fun _ _ ht => ht

theorem attempt (h : Upholds I r m V) :
    Upholds I r (Effect.attempt m) fun x => ∀ a, x = .ok a → V a := by
  refine (Triple.attempt h fun _ ht => ht).conseq (fun _ hs => hs) ?_ fun _ _ ht => ht
  rintro (e | a) t ht
  · exact ⟨ht, fun _ hok => by cases hok⟩
  · refine ⟨ht.1, fun b hb => ?_⟩
    cases hb
    exact ht.2

theorem each {f : α → Effect ρ σ ε Unit} {xs : List α}
    (h : ∀ x ∈ xs, Upholds I r (f x) fun _ => True) : Upholds I r (Effect.each f xs) fun _ => True := by
  induction xs with
  | nil => exact pure trivial
  | cons x xs ih =>
    exact (h x List.mem_cons_self).bind fun _ _ => ih fun y hy => h y (List.mem_cons_of_mem x hy)

theorem mapEach {xs : List α} (h : ∀ x ∈ xs, Upholds I r (f x) X) :
    Upholds I r (Effect.mapEach f xs) fun ys => ∀ y ∈ ys, X y := by
  induction xs with
  | nil => exact pure (List.forall_mem_nil _)
  | cons x xs ih =>
    refine (h x List.mem_cons_self).bind fun y hy => ?_
    refine (ih fun z hz => h z (List.mem_cons_of_mem x hz)).bind fun ys hys => ?_
    exact pure (List.forall_mem_cons.mpr ⟨hy, hys⟩)

theorem of_triple {m : Effect ρ σ ε Unit} (h : Triple I r m (fun _ => I) fun _ => I) :
    Upholds I r m fun _ => True :=
  h.conseq (fun _ hs => hs) (fun _ _ ht => ⟨ht, trivial⟩) fun _ _ ht => ht

-- What is known of the value goes into the condition of the rest.
theorem andThen {U : β → σ → Prop} (hm : Upholds I r m V)
    (hf : ∀ a, V a → Triple I r (f a) U fun _ => I) : Triple I r (m >>= f) U fun _ => I :=
  Triple.bind hm fun a s hs => hf a hs.2 s hs.1

theorem final (h : Upholds I r m V) {s : σ} (hs : I s) : I (m r s).2 :=
  Triple.final (Triple.conseq h (fun _ ht => ht) (fun _ _ ht => ht.1) fun _ _ ht => ht) hs

end Upholds

section Errors

variable {E : ε → Prop}

def Throws (E : ε → Prop) (m : Effect ρ σ ε α) : Prop := ∀ r s e t, m r s = (.err e, t) → E e

theorem throws_pure (a : α) : Throws E (Pure.pure a : Effect ρ σ ε α) := fun _ _ _ _ h => by cases h

theorem throws_read : Throws E (Effect.read : Effect ρ σ ε ρ) := fun _ _ _ _ h => by cases h

theorem throws_get : Throws E (Effect.get : Effect ρ σ ε σ) := fun _ _ _ _ h => by cases h

theorem throws_modify (g : σ → σ) : Throws E (Effect.modify g : Effect ρ σ ε Unit) :=
  fun _ _ _ _ h => by cases h

theorem throws_throw {e : ε} (h : E e) : Throws E (Effect.throw e : Effect ρ σ ε α) := by
  intro r s e' t heq
  cases heq
  exact h

theorem Throws.bind (hm : Throws E m) (hf : ∀ a, Throws E (f a)) : Throws E (m >>= f) := by
  intro r s e u h
  change Effect.bind m f r s = _ at h
  have hm := hm r s
  unfold Effect.bind at h
  generalize m r s = out at h hm
  obtain ⟨o, t⟩ := out
  cases o with
  | ok a => exact hf a r t e u h
  | err e' =>
    cases h
    exact hm e _ rfl
  | panic => cases h

theorem Triple.throws {P : σ → Prop} {Q : α → σ → Prop} {R R' : Option ε → σ → Prop}
    (h : Triple P r m Q R) (hm : Throws E m)
    (hR : ∀ e t, R e t → (∀ x, e = some x → E x) → R' e t) : Triple P r m Q R' := by
  intro s hs
  have ht := h s hs
  have hm := hm r s
  generalize m r s = out at ht hm
  obtain ⟨o, t⟩ := out
  cases o with
  | ok a => exact ht
  | err e =>
    refine hR (some e) t ht fun x hx => ?_
    cases hx
    exact hm e t rfl
  | panic => exact hR none t ht fun x hx => by cases hx

end Errors

end Effect

end Kuintessence
