import Mathlib.Data.Finset.Card
import Mathlib.Data.Set.Function
import Mathlib.Logic.Relation
import Mathlib.Order.WellFounded

namespace Kuintessence

namespace EdgeList

variable {α β : Type} {E : List (α × α)} {a b : α}

def Edge (E : List (α × α)) (a b : α) : Prop := (a, b) ∈ E

def Path (E : List (α × α)) : α → α → Prop := Relation.TransGen (Edge E)

def Acyclic (E : List (α × α)) : Prop := ∀ a, ¬Path E a a

theorem Path.rank_lt {rank : α → Nat} (h : ∀ e ∈ E, rank e.2 < rank e.1) (hp : Path E a b) :
    rank b < rank a := by
  induction hp with
  | single he => exact h _ he
  | tail _ he ih => exact lt_trans (h _ he) ih

theorem acyclic_of_rank (rank : α → Nat) (h : ∀ e ∈ E, rank e.2 < rank e.1) : Acyclic E := by
  intro a hp
  have hlt := hp.rank_lt h
  omega

theorem Path.head_on_cycle (hp : Path E a a) : ∃ b, Edge E a b ∧ Path E b b := by
  obtain ⟨b, hab, hba⟩ := Relation.TransGen.head'_iff.mp hp
  exact ⟨b, hab, Relation.TransGen.tail' hba hab⟩

theorem exists_rank (h : Acyclic E) (V : Finset α) (hV : ∀ e ∈ E, e.2 ∈ V) :
    ∃ rank : α → Nat, (∀ e ∈ E, rank e.2 < rank e.1) ∧ (∀ a, rank a ≤ V.card) ∧
      ∀ a ∈ V, rank a < V.card := by
  classical
  refine ⟨fun a => (V.filter (Path E a)).card, ?_, ?_, ?_⟩
  · rintro ⟨a, b⟩ he
    have hab : Path E a b := .single he
    apply Finset.card_lt_card
    rw [Finset.ssubset_iff_of_subset]
    · exact ⟨b, Finset.mem_filter.mpr ⟨hV _ he, hab⟩, fun hb => h b (Finset.mem_filter.mp hb).2⟩
    · intro c hc
      obtain ⟨hcV, hbc⟩ := Finset.mem_filter.mp hc
      exact Finset.mem_filter.mpr ⟨hcV, hab.trans hbc⟩
  · intro a
    exact Finset.card_filter_le V _
  · intro a ha
    apply Finset.card_lt_card
    rw [Finset.ssubset_iff_of_subset (Finset.filter_subset _ _)]
    exact ⟨a, ha, fun haa => h a (Finset.mem_filter.mp haa).2⟩

theorem exists_rank_toFinset [DecidableEq α] (h : Acyclic E) :
    ∃ rank : α → Nat, (∀ e ∈ E, rank e.2 < rank e.1) ∧ ∃ bound, ∀ a, rank a ≤ bound := by
  obtain ⟨rank, hrank, hle, _⟩ := exists_rank h (E.map Prod.snd).toFinset
    (fun e he => List.mem_toFinset.mpr (List.mem_map_of_mem he))
  exact ⟨rank, hrank, _, hle⟩

theorem exists_source [DecidableEq α] (h : Acyclic E) {S : α → Prop} (hS : ∃ a, S a) :
    ∃ a, S a ∧ ∀ e ∈ E, e.2 = a → ¬S e.1 := by
  obtain ⟨rank, hrank, bound, hle⟩ := exists_rank_toFinset h
  obtain ⟨a, ha, hmin⟩ := (measure fun a => bound - rank a).wf.has_min {a | S a} hS
  refine ⟨a, ha, fun e he hea hs => hmin e.1 hs ?_⟩
  have hlt := hrank e he
  have hbound := hle e.1
  rw [hea] at hlt
  change bound - rank e.1 < bound - rank a
  omega

theorem acyclic_map [DecidableEq α] (h : Acyclic E) {f : α → β} {V : Set α}
    (hV : ∀ e ∈ E, e.1 ∈ V ∧ e.2 ∈ V) (hf : Set.InjOn f V) :
    Acyclic (E.map (fun e => (f e.1, f e.2))) := by
  classical
  obtain ⟨rank, hrank, _⟩ := exists_rank_toFinset h
  by_cases hne : Nonempty α
  · refine acyclic_of_rank (fun b => rank (Function.invFunOn f V b)) fun e' he' => ?_
    obtain ⟨e, he, rfl⟩ := List.mem_map.mp he'
    obtain ⟨h1, h2⟩ := hV e he
    have e1 : Function.invFunOn f V (f e.1) = e.1 := hf.leftInvOn_invFunOn h1
    have e2 : Function.invFunOn f V (f e.2) = e.2 := hf.leftInvOn_invFunOn h2
    rw [e1, e2]
    exact hrank e he
  · have hE : E = [] := List.eq_nil_iff_forall_not_mem.mpr fun e _ => hne ⟨e.1⟩
    rw [hE]
    exact acyclic_of_rank (fun _ => 0) (by simp)

end EdgeList

end Kuintessence
