import Kuintessence.Lib.Outcome

namespace Kuintessence

def Effect (ρ σ ε α : Type) := ρ → σ → Outcome ε α × σ

namespace Effect

variable {ρ σ ε α β : Type}

def bind (m : Effect ρ σ ε α) (f : α → Effect ρ σ ε β) : Effect ρ σ ε β := fun r s =>
  match m r s with
  | (.ok a, t) => f a r t
  | (.err e, t) => (.err e, t)
  | (.panic, t) => (.panic, t)

instance : Monad (Effect ρ σ ε) where
  pure a := fun _ s => (.ok a, s)
  bind := bind

theorem bind_bind {γ : Type} (m : Effect ρ σ ε α) (f : α → Effect ρ σ ε β)
    (g : β → Effect ρ σ ε γ) : bind (bind m f) g = bind m fun a => bind (f a) g := by
  funext r s
  unfold bind
  generalize m r s = out
  obtain ⟨o, t⟩ := out
  cases o <;> rfl

theorem bind_pure (m : Effect ρ σ ε α) : bind m pure = m := by
  funext r s
  unfold bind
  generalize m r s = out
  obtain ⟨o, t⟩ := out
  cases o <;> rfl

instance : LawfulMonad (Effect ρ σ ε) := .mk' _ (fun m => bind_pure m) (fun _ _ => rfl) bind_bind

theorem bind_of_ok {m : Effect ρ σ ε α} {r : ρ} {s t : σ} {a : α} (h : m r s = (.ok a, t))
    (f : α → Effect ρ σ ε β) : (m >>= f) r s = f a r t := by
  change bind m f r s = _
  rw [bind, h]

theorem bind_of_err {m : Effect ρ σ ε α} {r : ρ} {s t : σ} {e : ε} (h : m r s = (.err e, t))
    (f : α → Effect ρ σ ε β) : (m >>= f) r s = (.err e, t) := by
  change bind m f r s = _
  rw [bind, h]

theorem bound_ok_iff {m : Effect ρ σ ε α} {f : α → Effect ρ σ ε β} {r : ρ} {s u : σ} {b : β} :
    (m >>= f) r s = (.ok b, u) ↔ ∃ a t, m r s = (.ok a, t) ∧ f a r t = (.ok b, u) := by
  change bind m f r s = _ ↔ _
  unfold bind
  generalize m r s = out
  obtain ⟨o, t⟩ := out
  cases o with
  | ok a => simp
  | err e => simp
  | panic => simp

def read : Effect ρ σ ε ρ := fun r s => (.ok r, s)

def get : Effect ρ σ ε σ := fun _ s => (.ok s, s)

def modify (f : σ → σ) : Effect ρ σ ε Unit := fun _ s => (.ok (), f s)

def throw (e : ε) : Effect ρ σ ε α := fun _ s => (.err e, s)

def lift (o : Outcome ε α) : Effect ρ σ ε α := fun _ s => (o, s)

def attempt (m : Effect ρ σ ε α) : Effect ρ σ ε (Except ε α) := fun r s =>
  match m r s with
  | (.ok a, t) => (.ok (.ok a), t)
  | (.err e, t) => (.ok (.error e), t)
  | (.panic, t) => (.panic, t)

def each (f : α → Effect ρ σ ε Unit) : List α → Effect ρ σ ε Unit
  | [] => pure ()
  | x :: xs => f x >>= fun _ => each f xs

theorem each_of_ok {f : α → Effect ρ σ ε Unit} {x : α} {r : ρ} {s : σ}
    (h : (f x r s).1 = .ok ()) (xs : List α) : each f (x :: xs) r s = each f xs r (f x r s).2 :=
  bind_of_ok (a := ()) (t := (f x r s).2) (Prod.ext h rfl) _

theorem each_of_not_ok {f : α → Effect ρ σ ε Unit} {x : α} {r : ρ} {s : σ}
    (h : (f x r s).1 ≠ .ok ()) (xs : List α) : each f (x :: xs) r s = f x r s := by
  change bind (f x) (fun _ => each f xs) r s = _
  unfold bind
  generalize f x r s = out at h ⊢
  obtain ⟨o, t⟩ := out
  cases o with
  | ok a => exact absurd rfl h
  | err e => rfl
  | panic => rfl

theorem each_append (f : α → Effect ρ σ ε Unit) (xs ys : List α) :
    each f (xs ++ ys) = each f xs >>= fun _ => each f ys := by
  induction xs with
  | nil => rfl
  | cons x xs ih =>
    rw [List.cons_append, each, ih, each, bind_assoc]

def mapEach (f : α → Effect ρ σ ε β) : List α → Effect ρ σ ε (List β)
  | [] => pure []
  | x :: xs => f x >>= fun b => mapEach f xs >>= fun bs => pure (b :: bs)

section WeakestPrecondition

variable {r : ρ} {s : σ} {Q Q' : α → σ → Prop} {R : β → σ → Prop} {E E' : σ → Prop}

def wp (m : Effect ρ σ ε α) (r : ρ) (Q : α → σ → Prop) (E : σ → Prop) (s : σ) : Prop :=
  match m r s with
  | (.ok a, t) => Q a t
  | (_, t) => E t

@[simp] theorem wp_pure (a : α) : wp (pure a : Effect ρ σ ε α) r Q E s ↔ Q a s := Iff.rfl

@[simp] theorem wp_read {Q : ρ → σ → Prop} : wp (read : Effect ρ σ ε ρ) r Q E s ↔ Q r s := Iff.rfl

@[simp] theorem wp_get {Q : σ → σ → Prop} : wp (get : Effect ρ σ ε σ) r Q E s ↔ Q s s := Iff.rfl

@[simp] theorem wp_modify {Q : Unit → σ → Prop} (f : σ → σ) :
    wp (modify f : Effect ρ σ ε Unit) r Q E s ↔ Q () (f s) := Iff.rfl

@[simp] theorem wp_throw (e : ε) : wp (throw e : Effect ρ σ ε α) r Q E s ↔ E s := Iff.rfl

@[simp] theorem wp_bind (m : Effect ρ σ ε α) (f : α → Effect ρ σ ε β) :
    wp (m >>= f) r R E s ↔ wp m r (fun a t => wp (f a) r R E t) E s := by
  change wp (bind m f) r R E s ↔ _
  unfold wp bind
  generalize m r s = out
  obtain ⟨o, t⟩ := out
  cases o <;> rfl

theorem wp_attempt {m : Effect ρ σ ε α} {Q : Except ε α → σ → Prop} (h : wp m r Q' E' s)
    (hok : ∀ a t, Q' a t → Q (.ok a) t) (herr : ∀ e t, E' t → Q (.error e) t)
    (hE : ∀ t, E' t → E t) : wp (attempt m) r Q E s := by
  unfold wp attempt at *
  generalize m r s = out at h ⊢
  obtain ⟨o, t⟩ := out
  cases o with
  | ok a => exact hok a t h
  | err e => exact herr e t h
  | panic => exact hE t h

theorem wp_lift (o : Outcome ε α) :
    wp (lift o : Effect ρ σ ε α) r Q E s ↔ (∀ a, o = .ok a → Q a s) ∧ ((∀ a, o ≠ .ok a) → E s) := by
  cases o <;> simp [wp, lift]

theorem wp_mono {m : Effect ρ σ ε α} (h : wp m r Q E s) (hQ : ∀ a t, Q a t → Q' a t)
    (hE : ∀ t, E t → E' t) : wp m r Q' E' s := by
  unfold wp at h ⊢
  generalize m r s = out at h ⊢
  obtain ⟨o, t⟩ := out
  cases o with
  | ok a => exact hQ a t h
  | err e => exact hE t h
  | panic => exact hE t h

theorem wp_true (m : Effect ρ σ ε α) : wp m r (fun _ _ => True) (fun _ => True) s := by
  unfold wp
  generalize m r s = out
  obtain ⟨o, t⟩ := out
  cases o <;> trivial

theorem wp_and {m : Effect ρ σ ε α} (h : wp m r Q E s) (h' : wp m r Q' E' s) :
    wp m r (fun a t => Q a t ∧ Q' a t) (fun t => E t ∧ E' t) s := by
  unfold wp at h h' ⊢
  generalize m r s = out at h h' ⊢
  obtain ⟨o, t⟩ := out
  cases o with
  | ok a => exact ⟨h, h'⟩
  | err e => exact ⟨h, h'⟩
  | panic => exact ⟨h, h'⟩

theorem wp_run {m : Effect ρ σ ε α} (h : wp m r Q E s) :
    (∃ a, (m r s).1 = .ok a ∧ Q a (m r s).2) ∨ ((∀ a, (m r s).1 ≠ .ok a) ∧ E (m r s).2) := by
  unfold wp at h
  generalize m r s = out at h ⊢
  obtain ⟨o, t⟩ := out
  cases o with
  | ok a => exact .inl ⟨a, rfl, h⟩
  | err e => exact .inr ⟨by simp, h⟩
  | panic => exact .inr ⟨by simp, h⟩

theorem wp_final {P : σ → Prop} {m : Effect ρ σ ε α} :
    wp m r (fun _ t => P t) P s ↔ P (m r s).2 := by
  unfold wp
  generalize m r s = out
  obtain ⟨o, t⟩ := out
  cases o <;> rfl

theorem wp_result (m : Effect ρ σ ε α) (r : ρ) (s : σ) :
    wp m r (fun a t => m r s = (.ok a, t)) (fun _ => ∀ a, (m r s).1 ≠ .ok a) s := by
  unfold wp
  generalize m r s = out
  obtain ⟨o, t⟩ := out
  cases o <;> simp

theorem wp_of_eq {m : Effect ρ σ ε α} {a : α} {t : σ} (h : m r s = (.ok a, t)) :
    wp m r Q E s ↔ Q a t := by
  unfold wp
  rw [h]

theorem exists_of_wp {m : Effect ρ σ ε α} (h : wp m r Q (fun _ => False) s) :
    ∃ a t, m r s = (.ok a, t) ∧ Q a t := by
  unfold wp at h
  generalize m r s = out at h ⊢
  obtain ⟨o, t⟩ := out
  cases o with
  | ok a => exact ⟨a, t, rfl, h⟩
  | err e => exact h.elim
  | panic => exact h.elim

def outcome {γ : Type} (m : Effect ρ σ ε α) (r : ρ) (s : σ) (ok : α → σ → γ) (lost : σ → γ) : γ :=
  match m r s with
  | (.ok a, t) => ok a t
  | (_, t) => lost t

theorem outcome_of_wp {γ : Type} {P : γ → Prop} {m : Effect ρ σ ε α} {ok : α → σ → γ} {lost : σ → γ}
    (h : wp m r Q E s) (hok : ∀ a t, Q a t → P (ok a t)) (hlost : ∀ t, E t → P (lost t)) :
    P (m.outcome r s ok lost) := by
  unfold wp at h
  unfold outcome
  generalize m r s = out at h ⊢
  obtain ⟨o, t⟩ := out
  cases o with
  | ok a => exact hok a t h
  | err e => exact hlost t h
  | panic => exact hlost t h

theorem outcome_ok {γ : Type} {m : Effect ρ σ ε α} {ok : α → σ → γ} {lost : σ → γ} {a : α} {t : σ}
    (h : m r s = (.ok a, t)) : m.outcome r s ok lost = ok a t := by
  unfold outcome
  rw [h]

theorem outcome_lost {γ : Type} {m : Effect ρ σ ε α} {ok : α → σ → γ} {lost : σ → γ}
    (h : ∀ a, (m r s).1 ≠ .ok a) : m.outcome r s ok lost = lost (m r s).2 := by
  unfold outcome
  generalize m r s = out at h
  obtain ⟨o, t⟩ := out
  cases o with
  | ok a => exact absurd rfl (h a)
  | err e => rfl
  | panic => rfl

instance decidableOutcome {m : Effect ρ σ ε α} {ok : α → σ → Prop} {lost : σ → Prop}
    [∀ a t, Decidable (ok a t)] [∀ t, Decidable (lost t)] : Decidable (m.outcome r s ok lost) :=
  match hm : m r s with
  | (.ok a, t) => decidable_of_iff (ok a t) (by rw [outcome_ok hm])
  | (.err e, t) => decidable_of_iff (lost t) (by rw [outcome, hm])
  | (.panic, t) => decidable_of_iff (lost t) (by rw [outcome, hm])

theorem returns_iff {m : Effect ρ σ ε α} :
    (∃ a, (m r s).1 = .ok a) ↔ wp m r (fun _ _ => True) (fun _ => False) s := by
  unfold wp
  generalize m r s = out
  obtain ⟨o, t⟩ := out
  cases o <;> simp

theorem wp_const_iff {m : Effect ρ σ ε α} {p : Prop} :
    wp m r (fun _ _ => p) (fun _ => False) s ↔
      wp m r (fun _ _ => True) (fun _ => False) s ∧ p := by
  unfold wp
  generalize m r s = out
  obtain ⟨o, t⟩ := out
  cases o <;> simp

theorem returns_mapEach_iff {f : α → Effect ρ σ ε β} {P : α → Prop} {xs : List α}
    (h : ∀ x ∈ xs, ∀ t, wp (f x) r (fun _ _ => True) (fun _ => False) t ↔ P x) (s : σ) :
    wp (mapEach f xs) r (fun _ _ => True) (fun _ => False) s ↔ ∀ x ∈ xs, P x := by
  induction xs generalizing s with
  | nil => simp [mapEach]
  | cons x xs ih =>
    have hxs := ih fun y hy => h y (List.mem_cons_of_mem x hy)
    simp only [mapEach, wp_bind, wp_pure, hxs, List.mem_cons, forall_eq_or_imp]
    rw [wp_const_iff, h x List.mem_cons_self s]

theorem wp_each {f : α → Effect ρ σ ε Unit} {E : σ → Prop} (I : List α → σ → Prop)
    (xs : List α) (step : ∀ pre x post, xs = pre ++ x :: post → ∀ t, I pre t →
      wp (f x) r (fun _ u => I (pre ++ [x]) u) E t) (h : I [] s) :
    wp (each f xs) r (fun _ t => I xs t) E s := by
  have main (post : List α) : ∀ (pre : List α) (t : σ), xs = pre ++ post → I pre t →
      wp (each f post) r (fun _ t => I xs t) E t := by
    induction post with
    | nil =>
      intro pre t hx ht
      simp only [List.append_nil] at hx
      subst hx
      exact ht
    | cons x post ih =>
      intro pre t hx ht
      simp only [each, wp_bind]
      exact wp_mono (step pre x post hx t ht)
        (fun _ u hu => ih (pre ++ [x]) u (by simp [hx]) hu) (fun _ hu => hu)
  exact main xs [] s rfl h

theorem wp_mapEach {f : α → Effect ρ σ ε β} {E : σ → Prop} (I : List α → List β → σ → Prop)
    (xs : List α) (step : ∀ pre x post ys, xs = pre ++ x :: post → ∀ t, I pre ys t →
      wp (f x) r (fun y u => I (pre ++ [x]) (ys ++ [y]) u) E t) (h : I [] [] s) :
    wp (mapEach f xs) r (fun ys t => I xs ys t) E s := by
  have main (post : List α) : ∀ (pre : List α) (ys : List β) (t : σ), xs = pre ++ post →
      I pre ys t → wp (mapEach f post) r (fun zs t => I xs (ys ++ zs) t) E t := by
    induction post with
    | nil =>
      intro pre ys t hx ht
      simp only [List.append_nil] at hx
      subst hx
      simpa [mapEach] using ht
    | cons x post ih =>
      intro pre ys t hx ht
      simp only [mapEach, wp_bind, wp_pure]
      refine wp_mono (step pre x post ys hx t ht) (fun y u hu => ?_) (fun _ hu => hu)
      refine wp_mono (ih (pre ++ [x]) (ys ++ [y]) u (by simp [hx]) hu) (fun zs v hv => ?_)
        (fun _ hv => hv)
      simpa using hv
  simpa using main xs [] [] s rfl h

end WeakestPrecondition

section Panicless

def Panicless (m : Effect ρ σ ε α) : Prop := ∀ r s, (m r s).1 ≠ .panic

theorem panicless_pure (a : α) : Panicless (pure a : Effect ρ σ ε α) := fun _ _ => Outcome.ok_ne_panic a

theorem panicless_read : Panicless (read : Effect ρ σ ε ρ) := fun _ _ => Outcome.ok_ne_panic _

theorem panicless_get : Panicless (get : Effect ρ σ ε σ) := fun _ _ => Outcome.ok_ne_panic _

theorem panicless_modify (f : σ → σ) : Panicless (modify f : Effect ρ σ ε Unit) :=
  fun _ _ => Outcome.ok_ne_panic _

theorem panicless_throw (e : ε) : Panicless (throw e : Effect ρ σ ε α) := fun _ _ => Outcome.err_ne_panic e

theorem Panicless.bind {m : Effect ρ σ ε α} {f : α → Effect ρ σ ε β} (hm : Panicless m)
    (hf : ∀ a, Panicless (f a)) : Panicless (m >>= f) := by
  intro r s
  change (Effect.bind m f r s).1 ≠ _
  have hs := hm r s
  unfold Effect.bind
  generalize m r s = out at hs ⊢
  obtain ⟨o, t⟩ := out
  cases o with
  | ok a => exact hf a r t
  | err e => exact Outcome.err_ne_panic e
  | panic => exact absurd rfl hs

theorem Panicless.wp_attempt {m : Effect ρ σ ε α} {r : ρ} {s : σ} {Q' : α → σ → Prop} {E E' : σ → Prop}
    {Q : Except ε α → σ → Prop} (hm : Panicless m) (h : wp m r Q' E' s)
    (hok : ∀ a t, Q' a t → Q (.ok a) t) (herr : ∀ e t, E' t → Q (.error e) t) :
    wp (attempt m) r Q E s := by
  have hs := hm r s
  unfold wp attempt at *
  generalize m r s = out at hs h ⊢
  obtain ⟨o, t⟩ := out
  cases o with
  | ok a => exact hok a t h
  | err e => exact herr e t h
  | panic => exact absurd rfl hs

theorem Panicless.attempt {m : Effect ρ σ ε α} (hm : Panicless m) : Panicless (attempt m) := by
  intro r s
  have hs := hm r s
  unfold Effect.attempt
  generalize m r s = out at hs ⊢
  obtain ⟨o, t⟩ := out
  cases o with
  | ok a => exact Outcome.ok_ne_panic _
  | err e => exact Outcome.ok_ne_panic _
  | panic => exact absurd rfl hs

theorem Panicless.attempt_cases {m : Effect ρ σ ε α} (hm : Panicless m) (r : ρ) (s : σ) :
    (∃ a t, m r s = (.ok a, t) ∧ Effect.attempt m r s = (.ok (.ok a), t)) ∨
    ((∀ a t, m r s ≠ (.ok a, t)) ∧ ∃ e t, Effect.attempt m r s = (.ok (.error e), t)) := by
  have hs := hm r s
  unfold Effect.attempt
  generalize m r s = out at hs ⊢
  obtain ⟨o, t⟩ := out
  cases o with
  | ok a => exact .inl ⟨a, t, rfl, rfl⟩
  | err e => exact .inr ⟨fun _ _ => nofun, e, t, rfl⟩
  | panic => exact absurd rfl hs

theorem Panicless.each {f : α → Effect ρ σ ε Unit} (h : ∀ a, Panicless (f a)) (xs : List α) :
    Panicless (each f xs) := by
  induction xs with
  | nil => exact panicless_pure ()
  | cons x xs ih => exact (h x).bind fun _ => ih

theorem Panicless.mapEach {f : α → Effect ρ σ ε β} (h : ∀ a, Panicless (f a)) (xs : List α) :
    Panicless (mapEach f xs) := by
  induction xs with
  | nil => exact panicless_pure []
  | cons x xs ih => exact (h x).bind fun b => ih.bind fun bs => panicless_pure (b :: bs)

def Spares (m : Effect ρ σ ε α) (r : ρ) (s : σ) : Prop := (m r s).1 ≠ .panic

variable {r : ρ} {s : σ}

theorem Panicless.spares {m : Effect ρ σ ε α} (h : Panicless m) : Spares m r s := h r s

theorem spares_of_ok {m : Effect ρ σ ε α} {a : α} {t : σ} (h : m r s = (.ok a, t)) :
    Spares m r s := by
  rw [Spares, h]
  exact Outcome.ok_ne_panic a

theorem spares_lift_iff {o : Outcome ε α} :
    Spares (lift o : Effect ρ σ ε α) r s ↔ o ≠ .panic := Iff.rfl

theorem not_spares_panic : ¬Spares (lift .panic : Effect ρ σ ε α) r s := fun h => h rfl

theorem spares_bind_iff {m : Effect ρ σ ε α} {f : α → Effect ρ σ ε β} :
    Spares (m >>= f) r s ↔ Spares m r s ∧ ∀ a t, m r s = (.ok a, t) → Spares (f a) r t := by
  change (Effect.bind m f r s).1 ≠ _ ↔ _
  unfold Spares Effect.bind
  generalize m r s = out
  obtain ⟨o, t⟩ := out
  cases o with
  | ok a => simp
  | err e => simp
  | panic => simp

theorem spares_read_bind_iff {f : ρ → Effect ρ σ ε β} :
    Spares (read >>= f) r s ↔ Spares (f r) r s := Iff.rfl

theorem spares_get_bind_iff {f : σ → Effect ρ σ ε β} :
    Spares (get >>= f) r s ↔ Spares (f s) r s := Iff.rfl

theorem spares_unwrap_bind_iff {o : Option α} {f : α → Effect ρ σ ε β} :
    Spares (lift (.unwrap o) >>= f) r s ↔ ∃ a, o = some a ∧ Spares (f a) r s := by
  cases o with
  | none => exact ⟨fun h => absurd rfl h, fun ⟨_, heq, _⟩ => nomatch heq⟩
  | some a => exact ⟨fun h => ⟨a, rfl, h⟩, fun ⟨_, heq, h⟩ => Option.some.inj heq ▸ h⟩

theorem spares_panicless_bind_iff {m : Effect ρ σ ε α} {f : α → Effect ρ σ ε β} {p : Prop}
    (hm : Panicless m) (hf : ∀ a t, Spares (f a) r t ↔ p) :
    Spares (m >>= f) r s ↔ ((∃ a t, m r s = (.ok a, t)) → p) := by
  simp only [spares_bind_iff, hf, hm.spares, true_and, forall_exists_index]

theorem spares_lift_bind_iff {o : Outcome ε α} {f : α → Effect ρ σ ε β} :
    Spares (lift o >>= f) r s ↔ o ≠ .panic ∧ ∀ a, o = .ok a → Spares (f a) r s := by
  cases o with
  | ok a => simp [spares_bind_iff, spares_lift_iff, lift]
  | err e => simp [spares_bind_iff, spares_lift_iff, lift]
  | panic => simp [spares_bind_iff, spares_lift_iff, lift]

end Panicless

section Frame

structure Frame (σ : Type) where
  rel : σ → σ → Prop
  refl : ∀ s, rel s s
  trans : ∀ {s t u}, rel s t → rel t u → rel s u

variable {F : Frame σ}

def Keeps (F : Frame σ) (m : Effect ρ σ ε α) : Prop := ∀ r s, F.rel s (m r s).2

theorem Keeps.wp {m : Effect ρ σ ε α} (h : Keeps F m) (r : ρ) (s : σ) :
    wp m r (fun _ t => F.rel s t) (F.rel s) s := by
  have hs := h r s
  unfold Effect.wp
  generalize m r s = out at hs ⊢
  obtain ⟨o, t⟩ := out
  cases o <;> exact hs

theorem Keeps.mono {F' : Frame σ} {m : Effect ρ σ ε α} (h : Keeps F m)
    (hrel : ∀ s t, F.rel s t → F'.rel s t) : Keeps F' m := fun r s => hrel s _ (h r s)

theorem keeps_pure (a : α) : Keeps F (pure a : Effect ρ σ ε α) := fun _ s => F.refl s

theorem keeps_read : Keeps F (read : Effect ρ σ ε ρ) := fun _ s => F.refl s

theorem keeps_get : Keeps F (get : Effect ρ σ ε σ) := fun _ s => F.refl s

theorem keeps_throw (e : ε) : Keeps F (throw e : Effect ρ σ ε α) := fun _ s => F.refl s

theorem keeps_lift (o : Outcome ε α) : Keeps F (lift o : Effect ρ σ ε α) := fun _ s => F.refl s

theorem keeps_modify {f : σ → σ} (h : ∀ s, F.rel s (f s)) :
    Keeps F (modify f : Effect ρ σ ε Unit) := fun _ s => h s

theorem Keeps.bind {m : Effect ρ σ ε α} {f : α → Effect ρ σ ε β} (hm : Keeps F m)
    (hf : ∀ a, Keeps F (f a)) : Keeps F (m >>= f) := by
  intro r s
  change F.rel s (Effect.bind m f r s).2
  have hs := hm r s
  unfold Effect.bind
  generalize m r s = out at hs ⊢
  obtain ⟨o, t⟩ := out
  cases o with
  | ok a => exact F.trans hs (hf a r t)
  | err e => exact hs
  | panic => exact hs

theorem Keeps.attempt {m : Effect ρ σ ε α} (h : Keeps F m) : Keeps F (attempt m) := by
  intro r s
  have hs := h r s
  unfold Effect.attempt
  generalize m r s = out at hs ⊢
  obtain ⟨o, t⟩ := out
  cases o <;> exact hs

theorem Keeps.each {f : α → Effect ρ σ ε Unit} (h : ∀ a, Keeps F (f a)) (xs : List α) :
    Keeps F (each f xs) := by
  induction xs with
  | nil => exact keeps_pure ()
  | cons x xs ih => exact (h x).bind fun _ => ih

theorem Keeps.mapEach {f : α → Effect ρ σ ε β} (h : ∀ a, Keeps F (f a)) (xs : List α) :
    Keeps F (mapEach f xs) := by
  induction xs with
  | nil => exact keeps_pure []
  | cons x xs ih => exact (h x).bind fun b => ih.bind fun bs => keeps_pure (b :: bs)

end Frame

end Effect

end Kuintessence
