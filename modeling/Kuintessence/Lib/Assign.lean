import Kuintessence.Lib.Assoc

namespace Kuintessence

-- What is read from a store depends on the mentioned names only.
@[ext] structure Reader (κ τ ν : Type) (mentions : τ → List κ) where
  eval : τ → (κ → Option ν) → Option ν
  congr : ∀ t σ σ', (∀ x ∈ mentions t, σ x = σ' x) → eval t σ = eval t σ'

namespace Reader

variable {κ τ ν : Type} [DecidableEq κ] {mentions : τ → List κ} (ev : Reader κ τ ν mentions)

def assign : (κ → Option ν) → List (κ × τ) → Option (κ → Option ν)
  | σ, [] => some σ
  | σ, e :: es => (ev.eval e.2 σ).bind fun v => assign (Function.update σ e.1 (some v)) es

def result (σ : κ → Option ν) (es : List (κ × τ)) (t : τ) : Option ν :=
  (assign ev σ es).bind (ev.eval t)

-- Each name with its value in the store as it is before all assignments.
def settled (σ : κ → Option ν) (es : List (κ × τ)) (x : κ) : Option ν :=
  match Assoc.get es x with
  | some t => ev.eval t σ
  | none => σ x

variable {ev} {σ σ' : κ → Option ν} {es es' : List (κ × τ)} {t : τ}

theorem assign_keeps {P : (κ → Option ν) → Prop} (hσ : P σ)
    (hstep : ∀ e ∈ es, ∀ σ, P σ → ∃ v, ev.eval e.2 σ = some v ∧ P (Function.update σ e.1 (some v))) :
    ∃ σ', ev.assign σ es = some σ' ∧ P σ' := by
  induction es generalizing σ with
  | nil => exact ⟨σ, rfl, hσ⟩
  | cons e es ih =>
    obtain ⟨v, hv, hP⟩ := hstep e List.mem_cons_self σ hσ
    obtain ⟨σ', hσ', hP'⟩ := ih hP fun e' he' => hstep e' (List.mem_cons_of_mem e he')
    exact ⟨σ', by rw [assign, hv, Option.bind_some, hσ'], hP'⟩

theorem assign_stuck {P : (κ → Option ν) → Prop} (hσ : P σ)
    (hstep : ∀ σ v, ∀ e ∈ es, P σ → P (Function.update σ e.1 (some v))) {e : κ × τ} (he : e ∈ es)
    (hstuck : ∀ σ, P σ → ev.eval e.2 σ = none) : ev.assign σ es = none := by
  induction es generalizing σ with
  | nil => cases he
  | cons e' es ih =>
    rw [assign]
    obtain rfl | he := List.mem_cons.mp he
    · rw [hstuck σ hσ, Option.bind_none]
    · refine Option.bind_eq_none_iff.mpr fun v _ => ?_
      exact ih (hstep σ v e' List.mem_cons_self hσ)
        (fun σ v e'' he'' => hstep σ v e'' (List.mem_cons_of_mem e' he'')) he

theorem assign_append (xs ys : List (κ × τ)) :
    ev.assign σ (xs ++ ys) = (ev.assign σ xs).bind fun σ' => ev.assign σ' ys := by
  induction xs generalizing σ with
  | nil => rfl
  | cons e xs ih =>
    rw [List.cons_append, assign, assign, Option.bind_assoc]
    exact Option.bind_congr fun v _ => ih

theorem isSome_update {k : κ} (h : (σ k).isSome) (k' : κ) (v : ν) :
    (Function.update σ k' (some v) k).isSome := by
  by_cases heq : k = k'
  · rw [heq, Function.update_self]
    rfl
  · rw [Function.update_of_ne heq]
    exact h

theorem result_keeps {P : (κ → Option ν) → Prop} (hσ : P σ)
    (hstep : ∀ e ∈ es, ∀ σ, P σ → ∃ v, ev.eval e.2 σ = some v ∧ P (Function.update σ e.1 (some v)))
    {w : ν} (hlast : ∀ σ, P σ → ev.eval t σ = some w) : ev.result σ es t = some w := by
  obtain ⟨σ', hσ', hP⟩ := assign_keeps hσ hstep
  rw [result, hσ', Option.bind_some, hlast σ' hP]

theorem result_cons {e : κ × τ} {v : ν} (h : ev.eval e.2 σ = some v) :
    ev.result σ (e :: es) t = ev.result (Function.update σ e.1 (some v)) es t := by
  rw [result, assign, h, Option.bind_some, result]

theorem result_append (xs ys : List (κ × τ)) :
    ev.result σ (xs ++ ys) t = (ev.assign σ xs).bind fun σ' => ev.result σ' ys t := by
  rw [result, assign_append, Option.bind_assoc]
  rfl

section Free

-- Another entry is mentioned only where both are the text that is evaluated last, which then
-- mentions no third one.
def OrderFree (mentions : τ → List κ) (es : List (κ × τ)) (t : τ) : Prop :=
  ∀ e ∈ es, ∀ e' ∈ es, e.1 ≠ e'.1 → e.1 ∈ mentions e'.2 →
    e.2 = t ∧ e'.2 = t ∧ ∀ e'' ∈ es, e''.1 ≠ e.1 → e''.1 ∉ mentions t

instance [DecidableEq τ] (es : List (κ × τ)) (t : τ) : Decidable (OrderFree mentions es t) :=
  inferInstanceAs (Decidable (∀ e ∈ es, ∀ e' ∈ es, e.1 ≠ e'.1 → e.1 ∈ mentions e'.2 →
    e.2 = t ∧ e'.2 = t ∧ ∀ e'' ∈ es, e''.1 ≠ e.1 → e''.1 ∉ mentions t))

theorem settled_of_not_mem {x : κ} (h : x ∉ Assoc.keys es) : ev.settled σ es x = σ x := by
  rw [settled, Assoc.get_eq_none_iff.mpr h]

theorem settled_of_mem (hes : (Assoc.keys es).Nodup) {e : κ × τ} (he : e ∈ es) :
    ev.settled σ es e.1 = ev.eval e.2 σ := by
  rw [settled, (Assoc.get_eq_some_iff hes).mpr he]

theorem settled_perm (hes : (Assoc.keys es).Nodup) (h : es'.Perm es) (x : κ) :
    ev.settled σ es' x = ev.settled σ es x := by
  have hes' : (Assoc.keys es').Nodup := (h.map Prod.fst).nodup_iff.mpr hes
  by_cases hx : x ∈ Assoc.keys es
  · obtain ⟨e, he, rfl⟩ := List.mem_map.mp hx
    rw [settled_of_mem hes he, settled_of_mem hes' (h.mem_iff.mpr he)]
  · have hx' : x ∉ Assoc.keys es' := fun hin => hx ((h.map Prod.fst).mem_iff.mp hin)
    rw [settled_of_not_mem hx, settled_of_not_mem hx']

-- The store after some of the entries: the others are as they were, and what is evaluated last
-- reads settled values.
structure Underway (ev : Reader κ τ ν mentions) (σ : κ → Option ν) (es done : List (κ × τ)) (t : τ)
    (σ' : κ → Option ν) : Prop where
  fresh : ∀ x, x ∉ Assoc.keys done → σ' x = σ x
  read : ∀ x ∈ mentions t, x ∈ Assoc.keys done → σ' x = ev.settled σ es x
  defined : ∀ e ∈ done, (ev.eval e.2 σ).isSome

theorem Underway.reads (h : Underway ev σ es es' t σ') {x : κ} (hx : x ∈ mentions t)
    (hdone : x ∈ Assoc.keys es → x ∈ Assoc.keys es') : σ' x = ev.settled σ es x := by
  by_cases hin : x ∈ Assoc.keys es'
  · exact h.read x hx hin
  · rw [h.fresh x hin, settled_of_not_mem fun hes => hin (hdone hes)]

theorem Underway.assign {done : List (κ × τ)} (hes : (Assoc.keys es).Nodup)
    (hfree : OrderFree mentions es t) {rest : List (κ × τ)} (hsplit : es = done ++ rest)
    (h : Underway ev σ es done t σ') (w : ν) :
    (ev.assign σ' rest).bind (ev.eval t) = some w ↔
      (∀ e ∈ rest, (ev.eval e.2 σ).isSome) ∧ ev.eval t (ev.settled σ es) = some w := by
  induction rest generalizing done σ' with
  | nil =>
    have heval : ev.eval t σ' = ev.eval t (ev.settled σ es) := by
      refine ev.congr t _ _ fun x hx => h.reads hx fun hin => ?_
      rw [hsplit, List.append_nil] at hin
      exact hin
    rw [Reader.assign, Option.bind_some, heval]
    exact (and_iff_right fun _ he => nomatch he).symm
  | cons e rest ih =>
    have he : e ∈ es := hsplit ▸ List.mem_append_right _ List.mem_cons_self
    have hnot : e.1 ∉ Assoc.keys done := by
      rw [hsplit, Assoc.keys, List.map_append, List.map_cons] at hes
      intro hin
      exact (List.nodup_append.mp hes).2.2 _ hin _ List.mem_cons_self rfl
    have hsplit' : es = (done ++ [e]) ++ rest := by rw [hsplit, List.append_assoc]; rfl
    have hkeys {x : κ} (hx : x ∉ Assoc.keys (done ++ [e])) : x ≠ e.1 ∧ x ∉ Assoc.keys done := by
      rw [Assoc.keys, List.map_append, List.mem_append, not_or] at hx
      exact ⟨fun heq => hx.2 (by simp [heq]), hx.1⟩
    have hnext {v : ν} (hdefined : (ev.eval e.2 σ).isSome)
        (hread : e.1 ∈ mentions t → some v = ev.settled σ es e.1) :
        Underway ev σ es (done ++ [e]) t (Function.update σ' e.1 (some v)) := by
      refine ⟨fun x hx => ?_, fun x hx hin => ?_, fun e' he' => ?_⟩
      · rw [Function.update_of_ne (hkeys hx).1, h.fresh x (hkeys hx).2]
      · by_cases hxe : x = e.1
        · rw [hxe, Function.update_self, hread (hxe ▸ hx)]
        · rw [Function.update_of_ne hxe]
          rw [Assoc.keys, List.map_append, List.mem_append] at hin
          exact h.read x hx (hin.resolve_right (by simpa using hxe))
      · obtain he' | he' := List.mem_append.mp he'
        · exact h.defined e' he'
        · rw [List.mem_singleton.mp he']
          exact hdefined
    rw [Reader.assign, List.forall_mem_cons, and_assoc]
    by_cases hmention : ∃ x ∈ mentions e.2, x ∈ Assoc.keys done
    · -- An earlier entry is mentioned: both are the last text, which reads settled values.
      obtain ⟨x, hx, hin⟩ := hmention
      obtain ⟨e₁, he₁, rfl⟩ := List.mem_map.mp hin
      have hne : e₁.1 ≠ e.1 := fun heq => hnot (heq ▸ hin)
      have hmem₁ : e₁ ∈ es := hsplit ▸ List.mem_append_left _ he₁
      obtain ⟨htext₁, htext, honly⟩ := hfree e₁ hmem₁ e he hne hx
      have hsome : (ev.eval e.2 σ).isSome := by
        rw [htext, ← htext₁]
        exact h.defined e₁ he₁
      have heval : ev.eval e.2 σ' = ev.eval t (ev.settled σ es) := by
        rw [htext]
        refine ev.congr t _ _ fun y hy => h.reads hy fun hyin => ?_
        obtain ⟨e₂, he₂, rfl⟩ := List.mem_map.mp hyin
        by_cases heq : e₂.1 = e₁.1
        · exact heq ▸ hin
        · exact absurd hy (honly e₂ he₂ heq)
      rw [heval, and_iff_right hsome]
      cases hv : ev.eval t (ev.settled σ es) with
      | none => simp
      | some v =>
        have hrest := ih hsplit' (hnext (v := v) hsome fun hin =>
          absurd hin (honly e he hne.symm))
        rw [hv] at hrest
        exact hrest
    · have heval : ev.eval e.2 σ' = ev.eval e.2 σ :=
        ev.congr e.2 _ _ fun x hx => h.fresh x fun hin => hmention ⟨x, hx, hin⟩
      rw [heval]
      cases hv : ev.eval e.2 σ with
      | none => simp
      | some v =>
        rw [Option.bind_some, and_iff_right (Option.isSome_some (a := v))]
        refine ih hsplit' (hnext (by rw [hv]; rfl) fun _ => ?_)
        rw [settled_of_mem hes he, hv]

theorem OrderFree.result_eq_some (hes : (Assoc.keys es).Nodup) (h : OrderFree mentions es t)
    (w : ν) : ev.result σ es t = some w ↔
      (∀ e ∈ es, (ev.eval e.2 σ).isSome) ∧ ev.eval t (ev.settled σ es) = some w := by
  have hstart : Underway ev σ es [] t σ :=
    ⟨fun _ _ => rfl, fun _ _ hin => absurd hin List.not_mem_nil,
      fun _ he => absurd he List.not_mem_nil⟩
  exact hstart.assign hes h rfl w

omit [DecidableEq κ] in
theorem OrderFree.perm (h : OrderFree mentions es t) (hperm : es'.Perm es) :
    OrderFree mentions es' t := by
  intro e he e' he' hne hmention
  obtain ⟨htext, htext', honly⟩ := h e (hperm.mem_iff.mp he) e' (hperm.mem_iff.mp he') hne hmention
  exact ⟨htext, htext', fun e'' he'' => honly e'' (hperm.mem_iff.mp he'')⟩

theorem OrderFree.result_perm (hes : (Assoc.keys es).Nodup) (h : OrderFree mentions es t)
    (hperm : es'.Perm es) : ev.result σ es' t = ev.result σ es t := by
  have hes' : (Assoc.keys es').Nodup := (hperm.map Prod.fst).nodup_iff.mpr hes
  have hsettled : ev.settled σ es' = ev.settled σ es := funext (settled_perm hes hperm)
  refine Option.ext fun w => ?_
  rw [(h.perm hperm).result_eq_some hes', h.result_eq_some hes, hsettled]
  exact and_congr_left' (forall_congr' fun e => by rw [hperm.mem_iff])

end Free

section Bound

variable (v₀ : ν) [DecidableEq τ]

-- Fails on one text while the store is bad for it.
def veto (t : τ) (bad : (κ → Option ν) → Bool)
    (h : ∀ σ σ', (∀ x ∈ mentions t, σ x = σ' x) → bad σ = bad σ') : Reader κ τ ν mentions where
  eval u σ := if u = t ∧ bad σ = true then none else some v₀
  congr u σ σ' hσ := by
    by_cases hu : u = t
    · rw [h σ σ' (hu ▸ hσ)]
    · rw [if_neg fun hbad => hu hbad.1, if_neg fun hbad => hu hbad.1]

variable {v₀} {bad : (κ → Option ν) → Bool}
  {hbad : ∀ σ σ', (∀ x ∈ mentions t, σ x = σ' x) → bad σ = bad σ'} {u : τ}

omit [DecidableEq κ] in
theorem veto_of_ne (hu : u ≠ t) (σ : κ → Option ν) : (veto v₀ t bad hbad).eval u σ = some v₀ :=
  if_neg fun h => hu h.1

omit [DecidableEq κ] in
theorem veto_of_good (h : bad σ = false) (u : τ) : (veto v₀ t bad hbad).eval u σ = some v₀ :=
  if_neg fun h' => by
    rw [h] at h'
    cases h'.2

omit [DecidableEq κ] in
theorem veto_of_bad (h : bad σ = true) : (veto v₀ t bad hbad).eval t σ = none := if_pos ⟨rfl, h⟩

-- Some evaluator tells two orders apart.
def Apart (mentions : τ → List κ) (v₀ : ν) (σ : κ → Option ν) (es : List (κ × τ)) (t : τ) : Prop :=
  ∃ (ev : Reader κ τ ν mentions) (good stuck : List (κ × τ)), good.Perm es ∧ stuck.Perm es ∧
    ev.result σ good t = some v₀ ∧ ev.result σ stuck t = none

section Orders

variable (hes : (Assoc.keys es).Nodup) (hσ : ∀ e ∈ es, σ e.1 = none) {e₁ e₂ : κ × τ}
  (he₁ : e₁ ∈ es) (he₂ : e₂ ∈ es) (hne : e₁.1 ≠ e₂.1) (hmention : e₁.1 ∈ mentions e₂.2)

include he₂ hne in
theorem mem_erase : e₂ ∈ es.erase e₁ :=
  (List.mem_erase_of_ne fun heq => hne (congrArg Prod.fst heq.symm)).mpr he₂

include hes he₁ in
theorem ne_of_mem_erase {e : κ × τ} (he : e ∈ es.erase e₁) : e₁.1 ≠ e.1 := by
  have hperm : es.Perm (e₁ :: es.erase e₁) := List.perm_cons_erase he₁
  have hnodup : ((e₁ :: es.erase e₁).map Prod.fst).Nodup := (hperm.map Prod.fst).nodup_iff.mp hes
  rw [List.map_cons, List.nodup_cons] at hnodup
  intro heq
  exact hnodup.1 (heq ▸ List.mem_map_of_mem he)

include hσ he₁ he₂ hne hmention

-- Fails on the text once what it mentions is there.
theorem apart_of_ne (v₀ : ν) (hes : (Assoc.keys es).Nodup) (htext : e₂.2 ≠ t) :
    Apart mentions v₀ σ es t := by
  let ev : Reader κ τ ν mentions := veto v₀ e₂.2 (fun σ => (σ e₁.1).isSome)
    fun σ σ' h => congrArg Option.isSome (h e₁.1 hmention)
  have hgood {σ : κ → Option ν} (h : σ e₁.1 = none) (u : τ) : ev.eval u σ = some v₀ :=
    veto_of_good (by rw [h]; rfl) u
  have hperm : (e₁ :: es.erase e₁).Perm es := (List.perm_cons_erase he₁).symm
  refine ⟨ev, es.erase e₁ ++ [e₁], e₁ :: es.erase e₁,
    (List.perm_append_singleton _ _).trans hperm, hperm, ?_, ?_⟩
  · have hrest (e : κ × τ) (he : e ∈ es.erase e₁) (σ : κ → Option ν) (h : σ e₁.1 = none) :
        ∃ v, ev.eval e.2 σ = some v ∧ Function.update σ e.1 (some v) e₁.1 = none :=
      ⟨v₀, hgood h _, by rw [Function.update_of_ne (ne_of_mem_erase hes he₁ he), h]⟩
    obtain ⟨σ', hσ', hnone⟩ := assign_keeps (P := fun σ => σ e₁.1 = none) (hσ e₁ he₁) hrest
    rw [result_append, hσ', Option.bind_some, result_cons (hgood hnone _)]
    exact veto_of_ne htext.symm _
  · have hstuck : ev.assign (Function.update σ e₁.1 (some v₀)) (es.erase e₁) = none :=
      assign_stuck (P := fun σ => (σ e₁.1).isSome) (by simp)
        (fun σ v e _ h => isSome_update h e.1 v) (mem_erase he₂ hne) fun σ h => veto_of_bad h
    rw [result_cons (hgood (hσ e₁ he₁) _), result, hstuck, Option.bind_none]

omit hne in
-- Fails on the last text until what it mentions is there.
theorem apart_of_last (v₀ : ν) (htext : e₂.2 = t) (htext₁ : e₁.2 ≠ t) :
    Apart mentions v₀ σ es t := by
  have hmention₁ : e₁.1 ∈ mentions t := htext ▸ hmention
  let ev : Reader κ τ ν mentions := veto v₀ t (fun σ => (σ e₁.1).isNone)
    fun σ σ' h => congrArg Option.isNone (h e₁.1 hmention₁)
  have hgood {σ : κ → Option ν} (h : (σ e₁.1).isSome) (u : τ) : ev.eval u σ = some v₀ :=
    veto_of_good (Option.isNone_eq_false_iff.mpr h) u
  refine ⟨ev, e₁ :: es.erase e₁, e₂ :: es.erase e₂, (List.perm_cons_erase he₁).symm,
    (List.perm_cons_erase he₂).symm, ?_, ?_⟩
  · rw [result_cons (veto_of_ne htext₁ σ)]
    exact result_keeps (P := fun σ => (σ e₁.1).isSome) (by simp)
      (fun e _ σ h => ⟨v₀, hgood h _, isSome_update h e.1 v₀⟩) fun σ h => hgood h t
  · have hstuck : ev.eval e₂.2 σ = none := by
      rw [htext]
      exact veto_of_bad (by rw [hσ e₁ he₁]; rfl)
    rw [result, assign, hstuck, Option.bind_none, Option.bind_none]

-- Fails on the one text of all three between the first and the third.
theorem apart_of_third (v₀ : ν) (htext : e₂.2 = t) {e₃ : κ × τ} (he₃ : e₃ ∈ es)
    (hne₃ : e₃.1 ≠ e₁.1) (hmention₃ : e₃.1 ∈ mentions t) : Apart mentions v₀ σ es t := by
  have hmention₁ : e₁.1 ∈ mentions t := htext ▸ hmention
  let ev : Reader κ τ ν mentions := veto v₀ t (fun σ => (σ e₁.1).isSome && (σ e₃.1).isNone)
    fun σ σ' h => by rw [h e₁.1 hmention₁, h e₃.1 hmention₃]
  have hgood {σ : κ → Option ν} (h : (σ e₃.1).isSome) (u : τ) : ev.eval u σ = some v₀ :=
    veto_of_good (by rw [Option.isNone_eq_false_iff.mpr h, Bool.and_false]) u
  have hstart (u : τ) : ev.eval u σ = some v₀ := veto_of_good (by rw [hσ e₁ he₁]; rfl) u
  have hperm : (e₁ :: e₂ :: (es.erase e₁).erase e₂).Perm es :=
    ((List.perm_cons_erase (mem_erase he₂ hne)).symm.cons e₁).trans (List.perm_cons_erase he₁).symm
  refine ⟨ev, e₃ :: es.erase e₃, e₁ :: e₂ :: (es.erase e₁).erase e₂,
    (List.perm_cons_erase he₃).symm, hperm, ?_, ?_⟩
  · rw [result_cons (hstart _)]
    exact result_keeps (P := fun σ => (σ e₃.1).isSome) (by simp)
      (fun e _ σ h => ⟨v₀, hgood h _, isSome_update h e.1 v₀⟩) fun σ h => hgood h t
  · have hstuck : ev.eval e₂.2 (Function.update σ e₁.1 (some v₀)) = none := by
      rw [htext]
      refine veto_of_bad ?_
      rw [Function.update_self, Function.update_of_ne hne₃, hσ e₃ he₃]
      rfl
    rw [result_cons (hstart _), result, assign, hstuck, Option.bind_none, Option.bind_none]

end Orders

theorem apart_of_not_orderFree (v₀ : ν) (hes : (Assoc.keys es).Nodup) (hσ : ∀ e ∈ es, σ e.1 = none)
    (h : ¬OrderFree mentions es t) : Apart mentions v₀ σ es t := by
  rw [OrderFree] at h
  push Not at h
  obtain ⟨e₁, he₁, e₂, he₂, hne, hmention, honly⟩ := h
  by_cases htext : e₂.2 = t
  · by_cases htext₁ : e₁.2 = t
    · obtain ⟨e₃, he₃, hne₃, hmention₃⟩ := honly htext₁ htext
      exact apart_of_third hσ he₁ he₂ hne hmention v₀ htext he₃ hne₃ hmention₃
    · exact apart_of_last hσ he₁ he₂ hmention v₀ htext htext₁
  · exact apart_of_ne hσ he₁ he₂ hne hmention v₀ hes htext

end Bound

end Reader

end Kuintessence
