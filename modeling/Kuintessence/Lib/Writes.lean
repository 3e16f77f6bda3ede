import Mathlib.Data.List.Forall2

namespace Kuintessence

variable {α β κ ν μ : Type}

theorem find?_of_forall₂ {R : α → β → Prop} {p : α → Bool} {q : β → Bool} {xs : List α}
    {ys : List β} {x : α} (h : List.Forall₂ R xs ys) (hpq : ∀ x y, R x y → q y = p x)
    (hx : xs.find? p = some x) : ∃ y, ys.find? q = some y ∧ R x y := by
  induction h with
  | nil => cases hx
  | @cons a b xs ys hone hrest ih =>
    rw [List.find?_cons] at hx ⊢
    rw [hpq a b hone]
    cases hp : p a with
    | true =>
      rw [hp] at hx
      cases hx
      exact ⟨b, rfl, hone⟩
    | false =>
      rw [hp] at hx
      exact ih hx

variable [DecidableEq κ] {writes : List (κ × ν)} {key : κ} {v : ν}

-- What is under `key` after the writes: the last one wins.
def assigned (writes : List (κ × ν)) (key : κ) : Option ν :=
  (writes.reverse.find? (fun w => w.1 == key)).map Prod.snd

theorem assigned_eq_some : assigned writes key = some v ↔
    writes.reverse.find? (fun w => w.1 == key) = some (key, v) := by
  rw [assigned, Option.map_eq_some_iff]
  constructor
  · rintro ⟨w, hw, rfl⟩
    have hkey := List.find?_some hw
    rw [beq_iff_eq] at hkey
    rw [hw, ← hkey]
  · exact fun h => ⟨_, h, rfl⟩

theorem mem_of_assigned (h : assigned writes key = some v) : (key, v) ∈ writes :=
  List.mem_reverse.mp (List.mem_of_find?_eq_some (assigned_eq_some.mp h))

theorem assigned_append (writes : List (κ × ν)) (key' : κ) (v : ν) : assigned (writes ++ [(key', v)]) key =
    if key' = key then some v else assigned writes key := by
  rw [assigned, List.reverse_append, List.reverse_singleton, List.singleton_append, List.find?_cons]
  by_cases hkey : key' = key
  · simp [hkey]
  · rw [if_neg hkey, beq_false_of_ne hkey, assigned]

theorem assigned_of_alone (h : (key, v) ∈ writes)
    (halone : ∀ w ∈ writes, w.1 = key → w = (key, v)) : assigned writes key = some v := by
  have hsome : (writes.reverse.find? (fun w => w.1 == key)).isSome := by
    rw [List.find?_isSome]
    exact ⟨(key, v), List.mem_reverse.mpr h, beq_self_eq_true key⟩
  obtain ⟨w, hw⟩ := Option.isSome_iff_exists.mp hsome
  have hkey := List.find?_some hw
  rw [beq_iff_eq] at hkey
  rw [assigned, hw, halone w (List.mem_reverse.mp (List.mem_of_find?_eq_some hw)) hkey]
  rfl

theorem assigned_of_forall₂ {R : κ × ν → κ × μ → Prop} {writes' : List (κ × μ)}
    (h : List.Forall₂ R writes writes') (hkeys : ∀ w w', R w w' → w'.1 = w.1)
    (hv : assigned writes key = some v) : ∃ v', assigned writes' key = some v' ∧ R (key, v) (key, v') := by
  have hsame : ∀ w w', R w w' → (w'.1 == key) = (w.1 == key) := fun w w' hw => by
    rw [hkeys w w' hw]
  obtain ⟨⟨key', v'⟩, hfind, hR⟩ := find?_of_forall₂ (List.rel_reverse h) hsame
    (assigned_eq_some.mp hv)
  obtain rfl : key' = key := hkeys _ _ hR
  exact ⟨v', assigned_eq_some.mpr hfind, hR⟩

def Latest (holds : κ → ν → Prop) (writes : List (κ × ν)) : Prop :=
  ∀ key v, assigned writes key = some v → holds key v

theorem Latest.nil (holds : κ → ν → Prop) : Latest holds [] := fun _ _ h => absurd h (by simp [assigned])

theorem Latest.write {holds holds' : κ → ν → Prop} (h : Latest holds writes) (hv : holds' key v)
    (hkeep : ∀ key', key' ≠ key → ∀ v', holds key' v' → holds' key' v') :
    Latest holds' (writes ++ [(key, v)]) := by
  intro key' v' hassigned
  rw [assigned_append] at hassigned
  by_cases hkey : key = key'
  · rw [if_pos hkey] at hassigned
    cases hassigned
    exact hkey ▸ hv
  · rw [if_neg hkey] at hassigned
    exact hkeep key' (Ne.symm hkey) v' (h key' v' hassigned)

end Kuintessence
