import Kuintessence.Engine.Filling
import Mathlib.Data.List.Sections
import Mathlib.Tactic.Ring

namespace Kuintessence

open Effect Outcome

section Combinations

theorem sections_concat {α : Type} (pools : List (List α)) (pool : List α) :
    (pools ++ [pool]).sections.Perm
      (pool.flatMap fun j => pools.sections.map fun values => values ++ [j]) := by
  induction pools with
  | nil =>
    simp only [List.nil_append, List.sections, List.flatMap_singleton, List.map_singleton]
    rw [← List.map_eq_flatMap]
  | cons first pools ih =>
    rw [List.cons_append, List.sections, List.sections]
    refine (ih.flatMap_right _).trans (.of_eq ?_)
    simp only [List.flatMap_assoc, List.flatMap_map, List.map_flatMap, List.map_map]
    rfl

theorem length_sections {α : Type} (pools : List (List α)) :
    pools.sections.length = (pools.map List.length).prod := by
  induction pools with
  | nil => rfl
  | cons pool pools ih =>
    simp only [List.sections, List.length_flatMap, List.length_map, List.map_const',
      List.sum_replicate_nat, ih, List.map_cons, List.prod_cons]
    exact Nat.mul_comm _ _

variable {slots : List (String × List Input)} {slot : String × List Input}

def slotChoices (slot : String × List Input) : List (String × Input) :=
  slot.2.map fun j => (slot.1, j)

def choices (slots : List (String × List Input)) : List (List (String × Input)) :=
  (slots.map slotChoices).sections

structure Product (slots : List (String × List Input)) (combos : List (List (String × Input))) :
    Prop where
  once : combos.Perm (choices slots)
  complete : ∀ combo ∈ combos, combo.map Prod.fst = slots.map Prod.fst
  count : combos.length = (slots.map fun slot => slot.2.length).prod

theorem length_choices (slots : List (String × List Input)) :
    (choices slots).length = (slots.map fun slot => slot.2.length).prod := by
  have hsizes : List.length ∘ slotChoices = fun slot => slot.2.length := by
    funext slot
    exact List.length_map _
  rw [choices, length_sections, List.map_map, hsizes]

theorem choices_complete {combo : List (String × Input)} (h : combo ∈ choices slots) :
    combo.map Prod.fst = slots.map Prod.fst := by
  rw [choices, List.mem_sections, List.forall₂_map_right_iff] at h
  induction h with
  | nil => rfl
  | cons hone _ ih =>
    obtain ⟨j, -, rfl⟩ := List.mem_map.mp hone
    rw [List.map_cons, List.map_cons, ih]

theorem product_of_perm {combos : List (List (String × Input))} (h : combos.Perm (choices slots)) :
    Product slots combos :=
  ⟨h, fun _ hcombo => choices_complete (h.mem_iff.mp hcombo), h.length_eq.trans (length_choices slots)⟩

theorem choices_concat (slots : List (String × List Input)) (slot : String × List Input) :
    (choices (slots ++ [slot])).Perm
      (slot.2.flatMap fun j => (choices slots).map fun combo => combo ++ [(slot.1, j)]) := by
  have h := sections_concat (slots.map slotChoices) (slotChoices slot)
  rw [slotChoices, List.flatMap_map] at h
  rw [choices, List.map_append, List.map_singleton]
  exact h

theorem allPossibleInputs_perm (hne : slots ≠ []) (h : ∀ slot ∈ slots, slot.2 ≠ []) :
    (allPossibleInputs slots).Perm (choices slots) := by
  induction slots using List.reverseRecOn with
  | nil => exact absurd rfl hne
  | append_singleton slots slot ih =>
    rw [allPossibleInputs_concat]
    by_cases hfirst : slots = []
    · subst hfirst
      have hnone : (allPossibleInputs []).isEmpty = true := rfl
      rw [if_pos hnone]
      simp [choices, slotChoices, List.sections, Function.comp_def]
    · have hslots : ∀ s ∈ slots, s.2 ≠ [] := fun s hs => h s (List.mem_append_left _ hs)
      have hsome := allPossibleInputs_ne_nil hfirst hslots
      rw [if_neg (by simpa using hsome)]
      refine .trans ?_ (choices_concat slots slot).symm
      exact List.Perm.flatMap_left _ fun j _ => (ih hfirst hslots).map _

theorem allPossibleInputs_eq_nil_iff (slots : List (String × List Input))
    (slot : String × List Input) :
    allPossibleInputs (slots ++ [slot]) = [] ↔ slot.2 = [] := by
  rw [allPossibleInputs_concat]
  by_cases hempty : allPossibleInputs slots = []
  · rw [if_pos (by simpa using hempty), List.map_eq_nil_iff]
  · rw [if_neg (by simpa using hempty)]
    cases hslot : slot.2 with
    | nil => simp
    | cons j js => simp [hempty]

theorem choices_eq_nil (hslot : slot ∈ slots) (h : slot.2 = []) : choices slots = [] := by
  rw [← List.length_eq_zero_iff, length_choices, List.prod_eq_zero_iff]
  exact List.mem_map.mpr ⟨slot, hslot, by rw [h, List.length_nil]⟩

-- The loop starts afresh whenever it has no combination yet: a list behind an empty one counts as
-- the first.
theorem allPossibleInputs_product_iff (slots : List (String × List Input)) :
    Product slots (allPossibleInputs slots) ↔
      (slots ≠ [] ∧ ∀ slot ∈ slots, slot.2 ≠ []) ∨ ∃ pre last, slots = pre ++ [last] ∧ last.2 = [] := by
  constructor
  · intro h
    cases slots using List.reverseRecOn with
    | nil => exact absurd h.count (by decide)
    | append_singleton pre last =>
      by_cases hall : ∀ slot ∈ pre ++ [last], slot.2 ≠ []
      · exact .inl ⟨by simp, hall⟩
      · simp only [ne_eq, not_forall, not_not] at hall
        obtain ⟨slot, hslot, hnil⟩ := hall
        have honce := h.once
        rw [choices_eq_nil hslot hnil, List.perm_nil, allPossibleInputs_eq_nil_iff] at honce
        exact .inr ⟨pre, last, rfl, honce⟩
  · rintro (⟨hne, hall⟩ | ⟨pre, last, rfl, hnil⟩)
    · exact product_of_perm (allPossibleInputs_perm hne hall)
    · refine product_of_perm (.of_eq ?_)
      rw [(allPossibleInputs_eq_nil_iff pre last).mpr hnil,
        choices_eq_nil (List.mem_append_right pre (List.mem_singleton_self last)) hnil]

theorem combos_after_empty_list :
    ¬Product [("a", []), ("b", [.text 7])] (allPossibleInputs [("a", []), ("b", [.text 7])]) := by
  intro h
  exact absurd h.count (by decide)

end Combinations

section Texts

variable {content regexToMatch : String} {random : Nat → Nat} {texts : List String}
  {start step current : Int32} {n fillCount : Nat} {filler : Filler}

def InI32 (v : Int) : Prop := -2 ^ 31 ≤ v ∧ v < 2 ^ 31

instance (v : Int) : Decidable (InI32 v) := inferInstanceAs (Decidable (_ ∧ _))

def numberAt (start step : Int32) (k : Nat) : Int := start.toInt + k * step.toInt

theorem inI32_toInt (x : Int32) : InI32 x.toInt := ⟨x.le_toInt, x.toInt_lt⟩

theorem numberAt_zero (start step : Int32) : numberAt start step 0 = start.toInt := by
  simp [numberAt]

theorem numberAt_succ (start step : Int32) (k : Nat) :
    numberAt start step (k + 1) = numberAt start step k + step.toInt := by
  simp only [numberAt, Nat.cast_add, Nat.cast_one]
  ring

theorem inI32_between {k : Nat} (h : InI32 (numberAt start step n)) (hk : k ≤ n) :
    InI32 (numberAt start step k) := by
  obtain ⟨hlow, hhigh⟩ := inI32_toInt start
  obtain ⟨hlow', hhigh'⟩ := h
  have hcast : (k : Int) ≤ n := Int.ofNat_le.mpr hk
  have hk0 : (0 : Int) ≤ k := Int.natCast_nonneg k
  unfold InI32 numberAt at *
  rcases Int.le_total 0 step.toInt with hstep | hstep
  · have hle := Int.mul_le_mul_of_nonneg_right hcast hstep
    have hpos := Int.mul_nonneg hk0 hstep
    omega
  · have hle := Int.mul_le_mul_of_nonpos_right hcast hstep
    have hneg := Int.mul_nonpos_of_nonneg_of_nonpos hk0 hstep
    omega

theorem checkedAddI32_ok_iff {a b c : Int32} :
    (checkedAddI32 a b : Anyhow Int32) = .ok c ↔ c = a + b ∧ InI32 (a.toInt + b.toInt) := by
  change (if InI32 (a.toInt + b.toInt) then .ok (a + b) else .panic : Anyhow Int32) = .ok c ↔ _
  by_cases h : InI32 (a.toInt + b.toInt)
  · rw [if_pos h, ok.injEq, eq_comm, and_iff_left h]
  · rw [if_neg h]
    exact ⟨fun hpanic => (nomatch hpanic), fun ⟨_, hin⟩ => absurd hin h⟩

theorem toInt_add_of_inI32 {a b : Int32} (h : InI32 (a.toInt + b.toInt)) :
    (a + b).toInt = a.toInt + b.toInt := by
  obtain ⟨hlow, hhigh⟩ := h
  rw [Int32.toInt_add]
  exact Int.bmod_eq_of_le (by omega) (by omega)

theorem numberAt_next {k : Nat} (h : InI32 (current.toInt + step.toInt)) :
    numberAt (current + step) step k = numberAt current step (k + 1) := by
  rw [numberAt, toInt_add_of_inI32 h, numberAt_succ, numberAt]
  ring

theorem fillAutoNumber_inI32
    (h : (Filler.fillAutoNumber content regexToMatch step n current : Anyhow _) = .ok texts) :
    InI32 (numberAt current step n) := by
  induction n generalizing current texts with
  | zero =>
    rw [numberAt_zero]
    exact inI32_toInt current
  | succ n ih =>
    obtain ⟨next, hnext, h⟩ := bind_ok_iff.mp h
    obtain ⟨rest, hrest, -⟩ := bind_ok_iff.mp h
    obtain ⟨rfl, hin⟩ := checkedAddI32_ok_iff.mp hnext
    rw [← numberAt_next hin]
    exact ih hrest

def numbered (content regexToMatch : String) (start step : Int32) (k : Nat) : String :=
  replace content regexToMatch (toString (numberAt start step k))

theorem fillAutoNumber_eq (h : InI32 (numberAt current step n)) :
    (Filler.fillAutoNumber content regexToMatch step n current : Anyhow _) =
      .ok ((List.range n).map (numbered content regexToMatch current step)) := by
  induction n generalizing current with
  | zero => rfl
  | succ n ih =>
    have hone := inI32_between h (Nat.le_add_left 1 n)
    rw [numberAt_succ, numberAt_zero] at hone
    have hnext := checkedAddI32_ok_iff.mpr ⟨rfl, hone⟩
    have hrest : numbered content regexToMatch (current + step) step =
        fun k => numbered content regexToMatch current step (k + 1) := by
      funext k
      rw [numbered, numberAt_next hone, numbered]
    rw [← numberAt_next hone] at h
    rw [Filler.fillAutoNumber, hnext, ok_bind, ih h, ok_bind, List.range_succ_eq_map, List.map_cons,
      List.map_map, hrest]
    rw [numbered, numberAt_zero]
    rfl

theorem fillEnumeration_ok_iff (content regexToMatch : String) (random : Nat → Nat)
    (items : List String) (n : Nat) :
    (∃ texts, (Filler.fillEnumeration content regexToMatch items random n : Anyhow _) = .ok texts) ↔
      items ≠ [] ∨ n = 0 := by
  induction n with
  | zero => exact ⟨fun _ => .inr rfl, fun _ => ⟨[], rfl⟩⟩
  | succ n ih =>
    constructor
    · rintro ⟨texts, h⟩
      obtain ⟨item, hitem, -⟩ := bind_ok_iff.mp h
      refine .inl fun hnil => ?_
      rw [hnil] at hitem
      exact absurd (unwrap_ok_iff.mp hitem) (by simp)
    · rintro (hitems | hzero)
      · have hlt : random n % items.length < items.length :=
          Nat.mod_lt _ (List.length_pos_iff.mpr hitems)
        obtain ⟨texts, htexts⟩ := ih.mpr (.inl hitems)
        refine ⟨replace content regexToMatch (items[random n % items.length]) :: texts, ?_⟩
        rw [Filler.fillEnumeration, List.getElem?_eq_getElem hlt, unwrap, ok_bind, htexts, ok_bind]
      · exact absurd hzero (Nat.succ_ne_zero n)

def Filler.Fits (fillCount : Nat) : Filler → Prop
  | .autoNumber start step => InI32 (numberAt start step fillCount)
  | .enumeration items => items ≠ [] ∨ fillCount = 0

structure Filler.Fills (filler : Filler) (content regexToMatch : String) (fillCount : Nat)
    (texts : List String) : Prop where
  count : texts.length = fillCount
  numbers : ∀ start step, filler = .autoNumber start step → ∀ k < fillCount,
    InI32 (numberAt start step k) → texts[k]? = some (numbered content regexToMatch start step k)

theorem fillMatchRegex_fills (random : Nat → Nat) (content regexToMatch : String)
    (h : filler.Fits fillCount) :
    ∃ texts, (filler.fillMatchRegex random content regexToMatch fillCount : Anyhow _) = .ok texts ∧
      filler.Fills content regexToMatch fillCount texts := by
  cases filler with
  | autoNumber start step =>
    refine ⟨_, fillAutoNumber_eq h, by simp, ?_⟩
    rintro start step ⟨⟩ k hk -
    simp [hk]
  | enumeration items =>
    obtain ⟨texts, htexts⟩ := (fillEnumeration_ok_iff content regexToMatch random items fillCount).mpr h
    exact ⟨texts, htexts, length_fillEnumeration htexts, fun _ _ heq => by cases heq⟩

theorem fillMatchRegex_fits
    (h : (filler.fillMatchRegex random content regexToMatch fillCount : Anyhow _) = .ok texts) :
    filler.Fits fillCount := by
  cases filler with
  | autoNumber start step => exact fillAutoNumber_inI32 h
  | enumeration items => exact (fillEnumeration_ok_iff _ _ _ _ _).mp ⟨texts, h⟩

-- The number behind the last text is computed too.
theorem fillMatchRegex_fills_iff (filler : Filler) (random : Nat → Nat)
    (content regexToMatch : String) (fillCount : Nat) :
    (∃ texts, (filler.fillMatchRegex random content regexToMatch fillCount : Anyhow _) = .ok texts ∧
      filler.Fills content regexToMatch fillCount texts) ↔ filler.Fits fillCount :=
  ⟨fun ⟨_, htexts, _⟩ => fillMatchRegex_fits htexts, fillMatchRegex_fills random content regexToMatch⟩

theorem last_number_overflows :
    ((Filler.autoNumber 2147483647 1).fillMatchRegex (fun _ => 0) "x" "x" 1 : Anyhow _) = .panic ∧
      InI32 (numberAt 2147483647 1 0) ∧
      ((Filler.enumeration []).fillMatchRegex (fun _ => 0) "x" "x" 1 : Anyhow _) = .panic := by
  decide +kernel

end Texts

end Kuintessence
