import Mathlib.Data.List.Basic

namespace Kuintessence

variable {σ ι : Type} {step : σ → ι → σ} {ok ok' : σ → ι → Prop} {s : σ}

def run (step : σ → ι → σ) (s : σ) (qs : List ι) : σ := qs.foldl step s

def Along (step : σ → ι → σ) (ok : σ → ι → Prop) : σ → List ι → Prop
  | _, [] => True
  | s, q :: qs => ok s q ∧ Along step ok (step s q) qs

instance decidableAlong [∀ s q, Decidable (ok s q)] (s : σ) (qs : List ι) :
    Decidable (Along step ok s qs) :=
  match qs with
  | [] => .isTrue trivial
  | q :: qs =>
    have : Decidable (Along step ok (step s q) qs) := decidableAlong (step s q) qs
    inferInstanceAs (Decidable (ok s q ∧ Along step ok (step s q) qs))

theorem run_append (step : σ → ι → σ) (s : σ) (qs rs : List ι) :
    run step s (qs ++ rs) = run step (run step s qs) rs := List.foldl_append

theorem along_append {qs rs : List ι} :
    Along step ok s (qs ++ rs) ↔ Along step ok s qs ∧ Along step ok (run step s qs) rs := by
  induction qs generalizing s with
  | nil => exact (and_iff_right trivial).symm
  | cons q qs ih =>
    rw [List.cons_append, Along, Along, ih, and_assoc]
    rfl

theorem Along.of_forall {qs : List ι} (h : ∀ s, ∀ q ∈ qs, ok s q) : Along step ok s qs := by
  induction qs generalizing s with
  | nil => trivial
  | cons q qs ih =>
    exact ⟨h s q List.mem_cons_self, ih fun t r hr => h t r (List.mem_cons_of_mem q hr)⟩

theorem run_invariant {I : σ → Prop} (hstep : ∀ s q, I s → ok s q → I (step s q)) (hs : I s)
    {qs : List ι} (h : Along step ok s qs) : I (run step s qs) := by
  induction qs generalizing s with
  | nil => exact hs
  | cons q qs ih => exact ih (hstep s q hs h.1) h.2

theorem Along.of_invariant {I : σ → Prop} (hstep : ∀ s q, I s → I (step s q))
    (hok : ∀ s q, I s → ok s q) (hs : I s) (qs : List ι) : Along step ok s qs := by
  induction qs generalizing s with
  | nil => trivial
  | cons q qs ih => exact ⟨hok s q hs, ih (hstep s q hs)⟩

def Once (step : σ → ι → σ) (p : σ → ι → Prop) : σ → List ι → Prop
  | _, [] => False
  | s, q :: qs => p s q ∧ Along step (fun t r => ¬p t r) (step s q) qs ∨
      ¬p s q ∧ Once step p (step s q) qs

instance decidableOnce {p : σ → ι → Prop} [∀ s q, Decidable (p s q)] (s : σ) (qs : List ι) :
    Decidable (Once step p s qs) :=
  match qs with
  | [] => .isFalse id
  | q :: qs =>
    have : Decidable (Once step p (step s q) qs) := decidableOnce (step s q) qs
    inferInstanceAs (Decidable (p s q ∧ Along step (fun t r => ¬p t r) (step s q) qs ∨
      ¬p s q ∧ Once step p (step s q) qs))

theorem run_preserves {I : σ → Prop} (hstep : ∀ s q, I s → I (step s q)) (hs : I s)
    (qs : List ι) : I (run step s qs) := by
  induction qs generalizing s with
  | nil => exact hs
  | cons q qs ih => exact ih (hstep s q hs)

section Counts

structure Counts (step : σ → ι → σ) (I : σ → Prop) (p : σ → ι → Prop) (f : σ → Nat) : Prop where
  keeps : ∀ s q, I s → I (step s q)
  hit : ∀ s q, I s → p s q → f (step s q) = f s + 1
  miss : ∀ s q, I s → ¬p s q → f (step s q) = f s

variable {I : σ → Prop} {p : σ → ι → Prop} {f : σ → Nat}

theorem Counts.le_run (h : Counts step I p f) (hs : I s) (qs : List ι) : f s ≤ f (run step s qs) := by
  induction qs generalizing s with
  | nil => exact Nat.le_refl _
  | cons q qs ih =>
    have hrest : f (step s q) ≤ f (run step s (q :: qs)) := ih (h.keeps s q hs)
    by_cases hp : p s q
    · have hone := h.hit s q hs hp
      omega
    · have hsame := h.miss s q hs hp
      omega

theorem Counts.eq_iff (h : Counts step I p f) (hs : I s) (qs : List ι) :
    f (run step s qs) = f s ↔ Along step (fun t r => ¬p t r) s qs := by
  induction qs generalizing s with
  | nil => exact ⟨fun _ => trivial, fun _ => rfl⟩
  | cons q qs ih =>
    have hnext := h.keeps s q hs
    have hrest : f (run step s (q :: qs)) = f (step s q) ↔ _ := ih hnext
    have hle : f (step s q) ≤ f (run step s (q :: qs)) := h.le_run hnext qs
    rw [Along, ← hrest]
    by_cases hp : p s q
    · have hone := h.hit s q hs hp
      constructor
      · intro heq
        omega
      · exact fun hnot => absurd hp hnot.1
    · rw [h.miss s q hs hp]
      exact (and_iff_right hp).symm

theorem Counts.succ_iff (h : Counts step I p f) (hs : I s) (qs : List ι) :
    f (run step s qs) = f s + 1 ↔ Once step p s qs := by
  induction qs generalizing s with
  | nil =>
    constructor
    · intro heq
      change f s = f s + 1 at heq
      omega
    · exact False.elim
  | cons q qs ih =>
    have hnext := h.keeps s q hs
    rw [Once]
    by_cases hp : p s q
    · have hrest : f (run step s (q :: qs)) = f (step s q) ↔ _ := h.eq_iff hnext qs
      rw [h.hit s q hs hp] at hrest
      rw [hrest, and_iff_right hp, or_iff_left fun hnot => hnot.1 hp]
    · have hrest : f (run step s (q :: qs)) = f (step s q) + 1 ↔ _ := ih hnext
      rw [h.miss s q hs hp] at hrest
      rw [hrest, and_iff_right hp, or_iff_right fun hhit => hp hhit.1]

end Counts

end Kuintessence
