import Kuintessence.Lib.HashMap
import Kuintessence.Lib.Outcome
import Mathlib.Data.List.Forall2

namespace Kuintessence

theorem Order.exists_on {α : Type} {l l' : List α} (h : l.Perm l') : ∃ o : Order α, o.on l = l' := by
  classical
  refine ⟨⟨fun x => if x = l then l' else x, fun x => ?_⟩, if_pos rfl⟩
  split
  · next heq => exact heq ▸ h.symm
  · exact .refl x

namespace Outcome

variable {ε α β σ τ : Type} {f : σ → α → Outcome ε σ} {g : τ → β → Outcome ε τ}

-- Two runs side by side.
theorem foldEach_forall₂ {P : α → β → Prop} {R : σ → τ → Prop} {xs : List α} {ys : List β}
    (h : List.Forall₂ P xs ys) (hstep : ∀ x ∈ xs, ∀ y s t s' t', P x y → R s t →
      f s x = .ok s' → g t y = .ok t' → R s' t') {s s' : σ} {t t' : τ} (hR : R s t)
    (hf : foldEach f s xs = .ok s') (hg : foldEach g t ys = .ok t') : R s' t' := by
  induction h generalizing s t with
  | nil =>
    cases hf
    cases hg
    exact hR
  | @cons x y xs ys hP h ih =>
    obtain ⟨s₁, hs₁, hf⟩ := bind_ok_iff.mp hf
    obtain ⟨t₁, ht₁, hg⟩ := bind_ok_iff.mp hg
    have hnext := hstep x List.mem_cons_self y s t s₁ t₁ hP hR hs₁ ht₁
    exact ih (fun x hx => hstep x (List.mem_cons_of_mem _ hx)) hnext hf hg

theorem foldEach_same {g : τ → α → Outcome ε τ} {R : σ → τ → Prop} {xs : List α}
    (hstep : ∀ x ∈ xs, ∀ s t s' t', R s t → f s x = .ok s' → g t x = .ok t' → R s' t')
    {s s' : σ} {t t' : τ} (hR : R s t) (hf : foldEach f s xs = .ok s')
    (hg : foldEach g t xs = .ok t') : R s' t' := by
  refine foldEach_forall₂ (P := Eq) (List.forall₂_same.mpr fun _ _ => rfl) ?_ hR hf hg
  rintro x hx _ s t s' t' rfl
  exact hstep x hx s t s' t'

end Outcome

namespace HashMap

variable {κ ν μ : Type} [LinearOrder κ]

-- Under every key but the skipped ones there are values that belong together, or none.
def Alike (skip : κ → Prop) (R : ν → μ → Prop) (m : HashMap κ ν) (m' : HashMap κ μ) : Prop :=
  ∀ k, ¬skip k → Option.Rel R (m.get k) (m'.get k)

def Matches (R : ν → μ → Prop) : HashMap κ ν → HashMap κ μ → Prop := Alike (fun _ => False) R

variable {skip : κ → Prop} {R : ν → μ → Prop} {m : HashMap κ ν} {m' : HashMap κ μ} {k : κ}

theorem Matches.get (h : Matches R m m') (k : κ) : Option.Rel R (m.get k) (m'.get k) := h k id

theorem Alike.empty : Alike skip R .empty .empty := fun _ _ => .none

theorem Alike.insert (h : Alike skip R m m') {v : ν} {v' : μ} (hv : ¬skip k → R v v') :
    Alike skip R (m.insert k v) (m'.insert k v') := by
  intro i hi
  rw [get_insert, get_insert]
  split
  · next heq => exact .some (hv (heq ▸ hi))
  · exact h i hi

theorem Alike.entry (h : Alike skip R m m') {d : ν} {d' : μ} {f : ν → ν} {f' : μ → μ} (hd : R d d')
    (hf : ∀ v v', R v v' → R (f v) (f' v')) : Alike skip R (m.entry k d f) (m'.entry k d' f') := by
  refine h.insert fun hk => hf _ _ ?_
  have hrel := h k hk
  revert hrel
  generalize m.get k = o
  generalize m'.get k = o'
  rintro (hR | -)
  · exact hR
  · exact hd

theorem Alike.skipped (h : Alike skip R m m') (hk : skip k) (d : ν) (f : ν → ν) :
    Alike skip R (m.entry k d f) m' := by
  intro i hi
  have hne : i ≠ k := by
    rintro rfl
    exact hi hk
  rw [get_entry, if_neg hne]
  exact h i hi

omit [LinearOrder κ] in
theorem forall₂_of_keys {l : List (κ × ν)} {l' : List (κ × μ)} (h : Assoc.keys l = Assoc.keys l')
    (hR : ∀ e ∈ l, ∀ e' ∈ l', e.1 = e'.1 → R e.2 e'.2) :
    List.Forall₂ (fun e e' => e.1 = e'.1 ∧ R e.2 e'.2) l l' := by
  induction l generalizing l' with
  | nil =>
    cases l' with
    | nil => exact .nil
    | cons e' l' => cases h
  | cons e l ih =>
    cases l' with
    | nil => cases h
    | cons e' l' =>
      obtain ⟨hkey, hkeys⟩ := List.cons.inj h
      refine .cons ⟨hkey, hR e List.mem_cons_self e' List.mem_cons_self hkey⟩ (ih hkeys ?_)
      exact fun x hx y hy => hR x (List.mem_cons_of_mem e hx) y (List.mem_cons_of_mem e' hy)

theorem Matches.keys_eq (h : Matches R m m') : Assoc.keys m.entries = Assoc.keys m'.entries := by
  have hperm : (Assoc.keys m.entries).Perm (Assoc.keys m'.entries) := by
    refine (List.perm_ext_iff_of_nodup m.nodup_keys m'.nodup_keys).mpr fun k => ?_
    rw [mem_keys_iff, mem_keys_iff]
    have hrel := h.get k
    revert hrel
    generalize m.get k = o
    generalize m'.get k = o'
    rintro (- | -)
    · exact iff_of_true (Option.some_ne_none _) (Option.some_ne_none _)
    · exact iff_of_false (fun h => h rfl) fun h => h rfl
  refine List.Perm.eq_of_pairwise (fun a b _ _ hab hba => ?_) m.sorted m'.sorted hperm
  exact absurd (hab.trans hba) (lt_irrefl _)

theorem Matches.forall₂ (h : Matches R m m') :
    List.Forall₂ (fun e e' => e.1 = e'.1 ∧ R e.2 e'.2) m.entries m'.entries := by
  refine forall₂_of_keys h.keys_eq fun e he e' he' hkey => ?_
  have hrel := h.get e.1
  rw [mem_entries_iff.mp (show (e.1, e.2) ∈ m.entries from he),
    mem_entries_iff.mp (show (e.1, e'.2) ∈ m'.entries from hkey ▸ he')] at hrel
  cases hrel with
  | some hR => exact hR

-- One map can be gone through in the order of the other.
theorem Matches.exists_iter (h : Matches R m m') (o : Order (κ × μ)) : ∃ o' : Order (κ × ν),
    List.Forall₂ (fun e e' => e.1 = e'.1 ∧ R e.2 e'.2) (m.iter o') (m'.iter o) := by
  have hcomp : Relation.Comp (List.Forall₂ fun e e' => e.1 = e'.1 ∧ R e.2 e'.2) List.Perm
      m.entries (m'.iter o) := ⟨m'.entries, h.forall₂, (o.perm _).symm⟩
  rw [List.forall₂_comp_perm_eq_perm_comp_forall₂] at hcomp
  obtain ⟨l, hperm, hforall⟩ := hcomp
  obtain ⟨o', ho'⟩ := Order.exists_on hperm
  exact ⟨o', by rwa [iter, ho']⟩

end HashMap

end Kuintessence
