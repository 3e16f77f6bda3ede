import Mathlib.Data.List.Perm.Basic

namespace Kuintessence

-- Steps that commute wherever `P` holds can be taken in any order from there.
theorem foldl_perm {σ α : Type} {f : σ → α → σ} {P : σ → Prop} {l l' : List α}
    (h : l.Perm l') (hkeep : ∀ a ∈ l, ∀ s, P s → P (f s a))
    (hcomm : ∀ a ∈ l, ∀ b ∈ l, ∀ s, P s → f (f s a) b = f (f s b) a) {s : σ} (hs : P s) :
    l.foldl f s = l'.foldl f s := by
  induction h generalizing s with
  | nil => rfl
  | cons a h ih =>
    rw [List.foldl_cons, List.foldl_cons]
    refine ih (fun b hb => hkeep b (List.mem_cons_of_mem a hb)) (fun b hb c hc => ?_)
      (hkeep a List.mem_cons_self s hs)
    exact hcomm b (List.mem_cons_of_mem a hb) c (List.mem_cons_of_mem a hc)
  | swap a b l =>
    have hswap := hcomm b List.mem_cons_self a (List.mem_cons_of_mem b List.mem_cons_self) s hs
    exact congrArg (l.foldl f) hswap
  | trans h h' ih ih' =>
    rw [ih hkeep hcomm hs]
    refine ih' (fun b hb => hkeep b (h.mem_iff.mpr hb)) (fun b hb c hc => ?_) hs
    exact hcomm b (h.mem_iff.mpr hb) c (h.mem_iff.mpr hc)

end Kuintessence
