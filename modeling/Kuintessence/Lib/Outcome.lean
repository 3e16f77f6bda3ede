import Mathlib.Algebra.GroupWithZero.Nat
import Mathlib.Data.List.Basic

namespace Kuintessence

inductive Outcome (ε α : Type) where
  | ok (a : α)
  | err (e : ε)
  | panic
  deriving DecidableEq, Repr

namespace Outcome

variable {ε α β : Type}

def bind : Outcome ε α → (α → Outcome ε β) → Outcome ε β
  | .ok a, f => f a
  | .err e, _ => .err e
  | .panic, _ => .panic

instance : Monad (Outcome ε) where
  pure := .ok
  bind := bind

@[simp] theorem pure_eq (a : α) : (pure a : Outcome ε α) = .ok a := rfl

@[simp] theorem ok_bind (a : α) (f : α → Outcome ε β) : (Outcome.ok a >>= f) = f a := rfl

@[simp] theorem err_bind (e : ε) (f : α → Outcome ε β) :
    (Outcome.err e >>= f) = .err e := rfl

@[simp] theorem panic_bind (f : α → Outcome ε β) :
    ((Outcome.panic : Outcome ε α) >>= f) = .panic := rfl

theorem ok_ne_panic (a : α) : (.ok a : Outcome ε α) ≠ .panic := by
  intro h
  cases h

theorem err_ne_panic (e : ε) : (.err e : Outcome ε α) ≠ .panic := by
  intro h
  cases h

theorem bind_ok_iff {m : Outcome ε α} {f : α → Outcome ε β} {b : β} :
    (m >>= f) = .ok b ↔ ∃ a, m = .ok a ∧ f a = .ok b := by
  cases m with
  | ok a => simp
  | err e => simp
  | panic => simp

theorem bind_panic_iff {m : Outcome ε α} {f : α → Outcome ε β} :
    (m >>= f) = .panic ↔ m = .panic ∨ ∃ a, m = .ok a ∧ f a = .panic := by
  cases m with
  | ok a => simp
  | err e => simp
  | panic => simp

theorem bind_ne_panic {m : Outcome ε α} {f : α → Outcome ε β} (hm : m ≠ .panic)
    (hf : ∀ a, f a ≠ .panic) : (m >>= f) ≠ .panic := by
  intro h
  obtain h | ⟨a, -, h⟩ := bind_panic_iff.mp h
  · exact hm h
  · exact hf a h

def unwrap : Option α → Outcome ε α
  | some a => .ok a
  | none => .panic

-- `?` and `unwrap` on a `Result`.
def ofExcept : Except ε α → Outcome ε α
  | .ok a => .ok a
  | .error e => .err e

def expect : Except ε α → Outcome ε α
  | .ok a => .ok a
  | .error _ => .panic

theorem ofExcept_ok_iff {r : Except ε α} {a : α} : ofExcept r = .ok a ↔ r = .ok a := by
  cases r <;> simp [ofExcept]

theorem ofExcept_ne_panic (r : Except ε α) : ofExcept r ≠ .panic := by
  cases r <;> simp [ofExcept]

theorem expect_ok_iff {r : Except ε α} {a : α} : expect r = .ok a ↔ r = .ok a := by
  cases r <;> simp [expect]

theorem expect_ne_panic_iff {r : Except ε Unit} : expect r ≠ .panic ↔ r = .ok () := by
  cases r <;> simp [expect]

theorem bind_ne_panic_iff {m : Outcome ε α} {f : α → Outcome ε β} :
    (m >>= f) ≠ .panic ↔ m ≠ .panic ∧ ∀ a, m = .ok a → f a ≠ .panic := by
  rw [Ne, bind_panic_iff, not_or, not_exists]
  exact and_congr_right fun _ => forall_congr' fun _ => not_and

theorem then_ok_iff {m : Outcome ε Unit} {f : Unit → Outcome ε β} {b : β} :
    (m >>= f) = .ok b ↔ m = .ok () ∧ f () = .ok b :=
  bind_ok_iff.trans ⟨fun ⟨_, h⟩ => h, fun h => ⟨(), h⟩⟩

theorem then_ne_panic_iff {m : Outcome ε Unit} {f : Unit → Outcome ε β} :
    (m >>= f) ≠ .panic ↔ m ≠ .panic ∧ (m = .ok () → f () ≠ .panic) :=
  bind_ne_panic_iff.trans (and_congr_right fun _ => ⟨fun h => h (), fun h _ => h⟩)

theorem try_ne_panic_iff {r : Except ε Unit} {f : Unit → Outcome ε β} :
    (ofExcept r >>= f) ≠ .panic ↔ (r = .ok () → f () ≠ .panic) := by
  rw [then_ne_panic_iff, and_iff_right (ofExcept_ne_panic r), ofExcept_ok_iff]

def Errorless (o : Outcome ε α) : Prop := ∀ e, o ≠ .err e

theorem errorless_ok (a : α) : Errorless (.ok a : Outcome ε α) := fun _ => nofun

theorem errorless_panic : Errorless (.panic : Outcome ε α) := fun _ => nofun

theorem errorless_unwrap (o : Option α) : Errorless (unwrap o : Outcome ε α) := by
  cases o with
  | some a => exact errorless_ok a
  | none => exact errorless_panic

theorem Errorless.bind {m : Outcome ε α} {f : α → Outcome ε β} (hm : Errorless m)
    (hf : ∀ a, Errorless (f a)) : Errorless (m >>= f) := by
  cases m with
  | ok a => exact hf a
  | err e => exact absurd rfl (hm e)
  | panic => exact errorless_panic

def okOr (e : ε) : Option α → Outcome ε α
  | some a => .ok a
  | none => .err e

def toOption : Outcome ε α → Option α
  | .ok a => some a
  | _ => none

theorem toOption_eq_some_iff {o : Outcome ε α} {a : α} : o.toOption = some a ↔ o = .ok a := by
  cases o <;> simp [toOption]

def guard (p : Bool) (e : ε) : Outcome ε Unit := if p then .ok () else .err e

@[simp] theorem unwrap_ok_iff {o : Option α} {a : α} :
    (unwrap o : Outcome ε α) = .ok a ↔ o = some a := by
  cases o <;> simp [unwrap]

@[simp] theorem unwrap_panic_iff {o : Option α} :
    (unwrap o : Outcome ε α) = .panic ↔ o = none := by
  cases o <;> simp [unwrap]

@[simp] theorem okOr_ok_iff {e : ε} {o : Option α} {a : α} :
    okOr e o = .ok a ↔ o = some a := by
  cases o <;> simp [okOr]

@[simp] theorem okOr_ne_panic (e : ε) (o : Option α) : okOr e o ≠ .panic := by
  cases o <;> simp [okOr]

@[simp] theorem guard_ok_iff {p : Bool} {e : ε} {u : Unit} :
    guard p e = .ok u ↔ p = true := by
  cases p <;> simp [guard]

@[simp] theorem guard_ne_panic (p : Bool) (e : ε) : guard p e ≠ .panic := by
  cases p <;> simp [guard]

def each (f : α → Outcome ε Unit) : List α → Outcome ε Unit
  | [] => .ok ()
  | x :: xs => f x >>= fun _ => each f xs

theorem each_ok_iff {f : α → Outcome ε Unit} {xs : List α} {u : Unit} :
    each f xs = .ok u ↔ ∀ x ∈ xs, f x = .ok () := by
  induction xs with
  | nil => simp [each]
  | cons x xs ih =>
    simp only [each, bind_ok_iff, ih, List.mem_cons, forall_eq_or_imp]
    exact ⟨fun ⟨_, hx, hxs⟩ => ⟨hx, hxs⟩, fun ⟨hx, hxs⟩ => ⟨(), hx, hxs⟩⟩

theorem each_ne_panic {f : α → Outcome ε Unit} {xs : List α} (h : ∀ x ∈ xs, f x ≠ .panic) :
    each f xs ≠ .panic := by
  induction xs with
  | nil => exact ok_ne_panic ()
  | cons x xs ih =>
    exact bind_ne_panic (h x List.mem_cons_self) fun _ =>
      ih fun y hy => h y (List.mem_cons_of_mem x hy)

def First (pass stop : α → Prop) : List α → Prop
  | [] => False
  | x :: xs => stop x ∨ pass x ∧ First pass stop xs

theorem each_panic_iff {f : α → Outcome ε Unit} {pass stop : α → Prop} {xs : List α}
    (hpass : ∀ x ∈ xs, f x = .ok () ↔ pass x) (hstop : ∀ x ∈ xs, f x = .panic ↔ stop x) :
    each f xs = .panic ↔ First pass stop xs := by
  induction xs with
  | nil => simp [each, First]
  | cons x xs ih =>
    have hxs := ih (fun y hy => hpass y (List.mem_cons_of_mem x hy))
      (fun y hy => hstop y (List.mem_cons_of_mem x hy))
    rw [each, bind_panic_iff, First, hstop x List.mem_cons_self, ← hpass x List.mem_cons_self, hxs]
    constructor
    · rintro (h | ⟨_, h, hr⟩)
      · exact .inl h
      · exact .inr ⟨h, hr⟩
    · rintro (h | ⟨h, hr⟩)
      · exact .inl h
      · exact .inr ⟨(), h, hr⟩

def mapEach (f : α → Outcome ε β) : List α → Outcome ε (List β)
  | [] => .ok []
  | x :: xs => f x >>= fun b => mapEach f xs >>= fun bs => .ok (b :: bs)

theorem mapEach_eq_map {f : α → Outcome ε β} {g : α → β} {xs : List α}
    (h : ∀ x ∈ xs, f x = .ok (g x)) : mapEach f xs = .ok (xs.map g) := by
  induction xs with
  | nil => rfl
  | cons x xs ih =>
    rw [mapEach, h x List.mem_cons_self, ok_bind,
      ih fun y hy => h y (List.mem_cons_of_mem x hy), ok_bind, List.map_cons]

theorem mapEach_forall₂ {f : α → Outcome ε β} {xs : List α} {bs : List β}
    (h : mapEach f xs = .ok bs) : List.Forall₂ (fun x b => f x = .ok b) xs bs := by
  induction xs generalizing bs with
  | nil => simp only [mapEach, ok.injEq] at h; subst h; exact .nil
  | cons x xs ih =>
    simp only [mapEach, bind_ok_iff] at h
    obtain ⟨b, hb, bs', hbs, h⟩ := h
    cases h
    exact .cons hb (ih hbs)

theorem mapEach_exists {f : α → Outcome ε β} {P : β → Prop} {Q : α → Prop} {xs : List α}
    {bs : List β} (hf : ∀ x ∈ xs, ∀ b, f x = .ok b → (P b ↔ Q x)) (h : mapEach f xs = .ok bs) :
    (∃ b ∈ bs, P b) ↔ ∃ x ∈ xs, Q x := by
  induction xs generalizing bs with
  | nil =>
    cases h
    simp
  | cons x xs ih =>
    obtain ⟨b, hb, h⟩ := bind_ok_iff.mp h
    obtain ⟨bs', hbs, h⟩ := bind_ok_iff.mp h
    cases h
    rw [List.exists_mem_cons_iff, List.exists_mem_cons_iff, hf x List.mem_cons_self b hb,
      ih (fun y hy => hf y (List.mem_cons_of_mem x hy)) hbs]

theorem mapEach_cons_ok_iff {f : α → Outcome ε β} {x : α} {xs : List α} {bs : List β} :
    mapEach f (x :: xs) = .ok bs ↔ ∃ b bs', f x = .ok b ∧ mapEach f xs = .ok bs' ∧ bs = b :: bs' := by
  rw [mapEach, bind_ok_iff]
  constructor
  · rintro ⟨b, hb, h⟩
    obtain ⟨bs', hbs, h⟩ := bind_ok_iff.mp h
    cases h
    exact ⟨b, bs', hb, hbs, rfl⟩
  · rintro ⟨b, bs', hb, hbs, rfl⟩
    exact ⟨b, hb, bind_ok_iff.mpr ⟨bs', hbs, rfl⟩⟩

theorem mapEach_ok_iff {f : α → Outcome ε β} {xs : List α} {bs : List β} :
    mapEach f xs = .ok bs ↔ List.Forall₂ (fun x b => f x = .ok b) xs bs := by
  refine ⟨mapEach_forall₂, fun h => ?_⟩
  induction h with
  | nil => rfl
  | cons hx _ ih => exact mapEach_cons_ok_iff.mpr ⟨_, _, hx, ih, rfl⟩

theorem mapEach_panic_iff {f : α → Outcome ε β} {pass stop : α → Prop} {xs : List α}
    (hpass : ∀ x ∈ xs, (∃ b, f x = .ok b) ↔ pass x) (hstop : ∀ x ∈ xs, f x = .panic ↔ stop x) :
    mapEach f xs = .panic ↔ First pass stop xs := by
  induction xs with
  | nil => exact ⟨fun h => absurd h (ok_ne_panic []), False.elim⟩
  | cons x xs ih =>
    have hxs := ih (fun y hy => hpass y (List.mem_cons_of_mem x hy))
      fun y hy => hstop y (List.mem_cons_of_mem x hy)
    have hcons (b : β) :
        (mapEach f xs >>= fun bs => .ok (b :: bs)) = .panic ↔ First pass stop xs := by
      rw [bind_panic_iff, hxs]
      exact ⟨fun h => h.resolve_right fun ⟨_, _, h⟩ => ok_ne_panic _ h, .inl⟩
    rw [mapEach, bind_panic_iff, First, hstop x List.mem_cons_self, ← hpass x List.mem_cons_self]
    simp only [hcons, exists_and_right]

theorem mapEach_ne_panic {f : α → Outcome ε β} {xs : List α} (h : ∀ x ∈ xs, f x ≠ .panic) :
    mapEach f xs ≠ .panic := by
  induction xs with
  | nil => exact ok_ne_panic []
  | cons x xs ih =>
    exact bind_ne_panic (h x List.mem_cons_self) fun b =>
      bind_ne_panic (ih fun y hy => h y (List.mem_cons_of_mem x hy)) fun _ => ok_ne_panic _

theorem mapEach_panic_iff_exists {f : α → Outcome ε β} {xs : List α}
    (h : ∀ x ∈ xs, Errorless (f x)) : mapEach f xs = .panic ↔ ∃ x ∈ xs, f x = .panic := by
  induction xs with
  | nil => exact ⟨fun h => absurd h (ok_ne_panic []), fun ⟨_, hx, _⟩ => absurd hx List.not_mem_nil⟩
  | cons x xs ih =>
    have hxs := ih fun y hy => h y (List.mem_cons_of_mem x hy)
    rw [List.exists_mem_cons_iff, ← hxs, mapEach]
    cases hx : f x with
    | ok b =>
      rw [ok_bind, bind_panic_iff, or_iff_right (ok_ne_panic b)]
      exact ⟨fun h => h.resolve_right fun ⟨_, _, h⟩ => ok_ne_panic _ h, .inl⟩
    | err e => exact absurd hx (h x List.mem_cons_self e)
    | panic => exact ⟨fun _ => .inl rfl, fun _ => rfl⟩

theorem mapEach_perm {f : α → Outcome ε β} {xs xs' : List α} {bs : List β} (hperm : xs.Perm xs')
    (h : mapEach f xs = .ok bs) : ∃ bs', mapEach f xs' = .ok bs' ∧ bs.Perm bs' := by
  induction hperm generalizing bs with
  | nil => exact ⟨bs, h, .refl bs⟩
  | cons x _ ih =>
    obtain ⟨b, bs₁, hb, hbs, rfl⟩ := mapEach_cons_ok_iff.mp h
    obtain ⟨bs₂, hbs₂, hperm⟩ := ih hbs
    exact ⟨b :: bs₂, mapEach_cons_ok_iff.mpr ⟨b, bs₂, hb, hbs₂, rfl⟩, hperm.cons b⟩
  | swap x y xs =>
    obtain ⟨b, bs₁, hb, hbs, rfl⟩ := mapEach_cons_ok_iff.mp h
    obtain ⟨c, bs₂, hc, hbs₂, rfl⟩ := mapEach_cons_ok_iff.mp hbs
    have htail := mapEach_cons_ok_iff.mpr ⟨b, bs₂, hb, hbs₂, rfl⟩
    exact ⟨c :: b :: bs₂, mapEach_cons_ok_iff.mpr ⟨c, b :: bs₂, hc, htail, rfl⟩, .swap c b bs₂⟩
  | trans _ _ ih ih' =>
    obtain ⟨bs₁, hbs₁, hperm₁⟩ := ih h
    obtain ⟨bs₂, hbs₂, hperm₂⟩ := ih' hbs₁
    exact ⟨bs₂, hbs₂, hperm₁.trans hperm₂⟩

theorem mapEach_mem {f : α → Outcome ε β} {xs : List α} {bs : List β} (h : mapEach f xs = .ok bs)
    {b : β} (hb : b ∈ bs) : ∃ x ∈ xs, f x = .ok b := by
  induction xs generalizing bs with
  | nil =>
    cases h
    cases hb
  | cons x xs ih =>
    obtain ⟨c, cs, hc, hcs, rfl⟩ := mapEach_cons_ok_iff.mp h
    obtain rfl | hb := List.mem_cons.mp hb
    · exact ⟨x, List.mem_cons_self, hc⟩
    · obtain ⟨y, hy, hfy⟩ := ih hcs hb
      exact ⟨y, List.mem_cons_of_mem x hy, hfy⟩

def foldEach {σ : Type} (f : σ → α → Outcome ε σ) : σ → List α → Outcome ε σ
  | s, [] => .ok s
  | s, x :: xs => f s x >>= fun s => foldEach f s xs

section Folding

variable {σ : Type} {f : σ → α → Outcome ε σ} {s : σ} {xs : List α}

theorem foldEach_ok_iff {pass : α → Prop}
    (hpass : ∀ x ∈ xs, ∀ s, (∃ s', f s x = .ok s') ↔ pass x) :
    (∃ s', foldEach f s xs = .ok s') ↔ ∀ x ∈ xs, pass x := by
  induction xs generalizing s with
  | nil => exact ⟨fun _ _ hx => absurd hx List.not_mem_nil, fun _ => ⟨s, rfl⟩⟩
  | cons x xs ih =>
    have hx := hpass x List.mem_cons_self s
    have ih := fun s => ih (s := s) fun y hy => hpass y (List.mem_cons_of_mem x hy)
    rw [List.forall_mem_cons, ← hx]
    constructor
    · rintro ⟨s', h⟩
      obtain ⟨s₁, hs₁, h⟩ := bind_ok_iff.mp h
      exact ⟨⟨s₁, hs₁⟩, (ih s₁).mp ⟨s', h⟩⟩
    · rintro ⟨⟨s₁, hs₁⟩, hxs⟩
      obtain ⟨s', h⟩ := (ih s₁).mpr hxs
      exact ⟨s', bind_ok_iff.mpr ⟨s₁, hs₁, h⟩⟩

theorem foldEach_panic_iff {pass stop : α → Prop}
    (hpass : ∀ x ∈ xs, ∀ s, (∃ s', f s x = .ok s') ↔ pass x)
    (hstop : ∀ x ∈ xs, ∀ s, f s x = .panic ↔ stop x) :
    foldEach f s xs = .panic ↔ First pass stop xs := by
  induction xs generalizing s with
  | nil => exact ⟨fun h => absurd h (ok_ne_panic s), False.elim⟩
  | cons x xs ih =>
    have hx := hpass x List.mem_cons_self s
    have ih := fun s => ih (s := s) (fun y hy => hpass y (List.mem_cons_of_mem x hy))
      fun y hy => hstop y (List.mem_cons_of_mem x hy)
    rw [foldEach, bind_panic_iff, First, hstop x List.mem_cons_self s, ← hx]
    constructor
    · rintro (h | ⟨s', hs', h⟩)
      · exact .inl h
      · exact .inr ⟨⟨s', hs'⟩, (ih s').mp h⟩
    · rintro (h | ⟨⟨s', hs'⟩, h⟩)
      · exact .inl h
      · exact .inr ⟨s', hs', (ih s').mpr h⟩

theorem foldEach_ne_panic (h : ∀ x ∈ xs, ∀ s, f s x ≠ .panic) : foldEach f s xs ≠ .panic := by
  induction xs generalizing s with
  | nil => exact ok_ne_panic s
  | cons x xs ih =>
    intro hpanic
    obtain hx | ⟨s', -, hxs⟩ := bind_panic_iff.mp hpanic
    · exact h x List.mem_cons_self s hx
    · exact ih (fun y hy => h y (List.mem_cons_of_mem x hy)) hxs

-- What every step keeps, the run keeps.
theorem foldEach_keeps {P : σ → Prop} (hs : P s)
    (hstep : ∀ x ∈ xs, ∀ s s', P s → f s x = .ok s' → P s') {s' : σ}
    (h : foldEach f s xs = .ok s') : P s' := by
  induction xs generalizing s with
  | nil =>
    cases h
    exact hs
  | cons x xs ih =>
    obtain ⟨s₁, hs₁, h⟩ := bind_ok_iff.mp h
    exact ih (hstep x List.mem_cons_self s s₁ hs hs₁)
      (fun y hy => hstep y (List.mem_cons_of_mem x hy)) h

theorem foldEach_append (ys : List α) :
    foldEach f s (xs ++ ys) = foldEach f s xs >>= fun s => foldEach f s ys := by
  induction xs generalizing s with
  | nil => rfl
  | cons x xs ih =>
    rw [List.cons_append, foldEach, foldEach]
    cases f s x with
    | ok s' => exact ih
    | err e => rfl
    | panic => rfl

-- What every step adds to, by the size of its item.
theorem foldEach_sum {p : σ → Nat} {size : α → Nat}
    (hstep : ∀ s x s', f s x = .ok s' → p s' = p s + size x) {s' : σ}
    (h : foldEach f s xs = .ok s') : p s' = p s + (xs.map size).sum := by
  induction xs generalizing s with
  | nil =>
    cases h
    rfl
  | cons x xs ih =>
    obtain ⟨s₁, hs₁, h⟩ := bind_ok_iff.mp h
    rw [ih h, hstep s x s₁ hs₁, List.map_cons, List.sum_cons, Nat.add_assoc]

theorem foldEach_adds {Q : σ → Prop} {A : α → Prop}
    (hstep : ∀ x ∈ xs, ∀ s s', f s x = .ok s' → (Q s' ↔ Q s ∨ A x)) {s' : σ}
    (h : foldEach f s xs = .ok s') : Q s' ↔ Q s ∨ ∃ x ∈ xs, A x := by
  induction xs generalizing s with
  | nil =>
    cases h
    exact ⟨.inl, fun h => h.resolve_right fun ⟨_, hx, _⟩ => absurd hx List.not_mem_nil⟩
  | cons x xs ih =>
    obtain ⟨s₁, hs₁, h⟩ := bind_ok_iff.mp h
    rw [ih (fun y hy => hstep y (List.mem_cons_of_mem x hy)) h,
      hstep x List.mem_cons_self s s₁ hs₁, or_assoc, List.exists_mem_cons_iff]

end Folding

-- Steps that only read their item first: the reading can be done for all of them beforehand.
theorem foldEach_act {σ ω : Type} {f : σ → α → Outcome ε σ} {read : α → Outcome ε ω}
    {act : ω → σ → σ} (hf : ∀ s x, f s x = read x >>= fun w => .ok (act w s)) (s : σ)
    (xs : List α) : foldEach f s xs =
      mapEach read xs >>= fun ws => .ok (ws.foldl (fun s w => act w s) s) := by
  induction xs generalizing s with
  | nil => rfl
  | cons x xs ih =>
    rw [foldEach, mapEach, hf]
    cases read x with
    | err e => rfl
    | panic => rfl
    | ok w =>
      rw [ok_bind, ok_bind, ok_bind, ih]
      cases mapEach read xs with
      | err e => rfl
      | panic => rfl
      | ok ws => rfl

end Outcome

end Kuintessence
