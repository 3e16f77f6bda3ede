import Mathlib.Data.List.Nodup
import Mathlib.Data.List.Perm.Basic

namespace Kuintessence

structure Order (α : Type) where
  on : List α → List α
  perm : ∀ l, (on l).Perm l

namespace Order

variable {α : Type}

def asIs (α : Type) : Order α := ⟨id, fun _ => .refl _⟩

def reversed (α : Type) : Order α := ⟨List.reverse, List.reverse_perm⟩

@[simp] theorem mem_on (o : Order α) {l : List α} {a : α} : a ∈ o.on l ↔ a ∈ l :=
  (o.perm l).mem_iff

end Order

namespace Assoc

variable {κ ν : Type}

def keys (m : List (κ × ν)) : List κ := m.map Prod.fst

@[simp] theorem keys_nil : keys ([] : List (κ × ν)) = [] := rfl

@[simp] theorem keys_cons (e : κ × ν) (m : List (κ × ν)) : keys (e :: m) = e.1 :: keys m := rfl

theorem mem_keys_of_mem {m : List (κ × ν)} {k : κ} {v : ν} (h : (k, v) ∈ m) : k ∈ keys m :=
  List.mem_map.mpr ⟨(k, v), h, rfl⟩

theorem nodup_keys_foldl {α : Type} {f : List (κ × ν) → α → List (κ × ν)}
    (hf : ∀ m a, (keys m).Nodup → (keys (f m a)).Nodup) (l : List α) {m : List (κ × ν)}
    (h : (keys m).Nodup) : (keys (l.foldl f m)).Nodup := by
  induction l generalizing m with
  | nil => exact h
  | cons a l ih => exact ih (hf m a h)

theorem mem_keys_on (o : Order (κ × ν)) {m : List (κ × ν)} {k : κ} :
    k ∈ keys (o.on m) ↔ k ∈ keys m := ((o.perm m).map Prod.fst).mem_iff

theorem nodup_keys_on (o : Order (κ × ν)) {m : List (κ × ν)} :
    (keys (o.on m)).Nodup ↔ (keys m).Nodup := ((o.perm m).map Prod.fst).nodup_iff

variable [DecidableEq κ]

def insert : List (κ × ν) → κ → ν → List (κ × ν)
  | [], k, v => [(k, v)]
  | e :: m, k, v => if e.1 = k then (k, v) :: m else e :: insert m k v

def get : List (κ × ν) → κ → Option ν
  | [], _ => none
  | e :: m, k => if e.1 = k then some e.2 else get m k

theorem mem_keys_insert {m : List (κ × ν)} {k k' : κ} {v : ν} :
    k' ∈ keys (insert m k v) ↔ k' ∈ keys m ∨ k' = k := by
  induction m with
  | nil => simp [insert]
  | cons e m ih =>
    by_cases he : e.1 = k
    · subst he
      simp [insert, or_comm]
    · simp [insert, he, ih, or_assoc]

theorem mem_of_mem_insert {m : List (κ × ν)} {k : κ} {v : ν} {e : κ × ν} (h : e ∈ insert m k v) :
    e ∈ m ∨ e = (k, v) := by
  induction m with
  | nil => exact .inr (List.mem_singleton.mp h)
  | cons first m ih =>
    rw [insert] at h
    split at h
    · obtain h | h := List.mem_cons.mp h
      · exact .inr h
      · exact .inl (List.mem_cons_of_mem _ h)
    · obtain h | h := List.mem_cons.mp h
      · exact .inl (h ▸ List.mem_cons_self)
      · exact (ih h).imp_left (List.mem_cons_of_mem _)

theorem keys_insert (m : List (κ × ν)) (k : κ) (v : ν) :
    keys (insert m k v) = if k ∈ keys m then keys m else keys m ++ [k] := by
  induction m with
  | nil => rfl
  | cons e m ih =>
    by_cases he : e.1 = k
    · simp [insert, he]
    · rw [insert, if_neg he, keys_cons, ih]
      by_cases hk : k ∈ keys m
      · simp [hk]
      · simp [hk, Ne.symm he]

theorem nodup_keys_insert {m : List (κ × ν)} (h : (keys m).Nodup) (k : κ) (v : ν) :
    (keys (insert m k v)).Nodup := by
  induction m with
  | nil => simp [insert]
  | cons e m ih =>
    simp only [keys_cons, List.nodup_cons] at h
    by_cases he : e.1 = k
    · subst he
      simpa [insert] using h
    · rw [insert, if_neg he, keys_cons, List.nodup_cons, mem_keys_insert, not_or]
      exact ⟨⟨h.1, he⟩, ih h.2⟩

theorem get_insert (m : List (κ × ν)) (k k' : κ) (v : ν) :
    get (insert m k v) k' = if k' = k then some v else get m k' := by
  induction m with
  | nil => simp [insert, get, eq_comm]
  | cons e m ih =>
    by_cases he : e.1 = k
    · by_cases hk : k' = k
      · simp [insert, get, he, hk]
      · simp [insert, get, he, hk, Ne.symm hk]
    · by_cases hk : k' = k
      · subst hk
        simpa [insert, get, he] using ih
      · by_cases hek : e.1 = k'
        · simp [insert, get, hk, hek]
        · simpa [insert, get, he, hek] using ih

theorem get_eq_some_iff {m : List (κ × ν)} (h : (keys m).Nodup) {k : κ} {v : ν} :
    get m k = some v ↔ (k, v) ∈ m := by
  induction m with
  | nil => simp [get]
  | cons e m ih =>
    simp only [keys_cons, List.nodup_cons] at h
    by_cases he : e.1 = k
    · subst he
      have hnot : (e.1, v) ∉ m := fun hm => h.1 (mem_keys_of_mem hm)
      simp [get, hnot, Prod.ext_iff, eq_comm]
    · simp [get, he, ih h.2, Prod.ext_iff, Ne.symm he]

theorem get_eq_none_iff {m : List (κ × ν)} {k : κ} : get m k = none ↔ k ∉ keys m := by
  induction m with
  | nil => simp [get]
  | cons e m ih =>
    by_cases he : e.1 = k
    · simp [get, he]
    · simp [get, he, ih, Ne.symm he]

theorem mem_of_get {m : List (κ × ν)} {k : κ} {v : ν} (h : get m k = some v) : (k, v) ∈ m := by
  induction m with
  | nil => cases h
  | cons e m ih =>
    rw [get] at h
    split at h
    · next he =>
      cases h
      exact he ▸ List.mem_cons_self
    · exact List.mem_cons_of_mem e (ih h)

theorem get_filter (m : List (κ × ν)) (p : κ → Bool) (k : κ) :
    get (m.filter fun e => p e.1) k = if p k = true then get m k else none := by
  induction m with
  | nil => simp [get]
  | cons e m ih =>
    rw [List.filter_cons]
    by_cases he : p e.1 = true
    · rw [if_pos he, get, get, ih]
      split
      · next hk => rw [← hk, if_pos he]
      · rfl
    · rw [if_neg he, ih, get]
      split
      · next hk =>
        have hne : e.1 ≠ k := fun heq => he (by rw [heq, hk])
        rw [if_neg hne]
      · rfl

-- The one entry whose key passes.
theorem get_of_filter {m : List (κ × ν)} {p : κ → Bool} {k : κ} (h : (keys m).filter p = [k])
    {e : κ × ν} (he : e ∈ m) (hp : p e.1 = true) : get m k = some e.2 := by
  have hk : p k = true := (List.mem_filter.mp (h ▸ List.mem_singleton_self k)).2
  induction m with
  | nil => cases he
  | cons first m ih =>
    rw [keys_cons] at h
    by_cases hfirst : p first.1 = true
    · rw [List.filter_cons_of_pos hfirst, List.cons.injEq] at h
      obtain ⟨hkey, hrest⟩ := h
      rw [get, if_pos hkey]
      obtain rfl | he := List.mem_cons.mp he
      · rfl
      · have hin := List.mem_filter.mpr ⟨mem_keys_of_mem he, hp⟩
        rw [hrest] at hin
        cases hin
    · have hne : first.1 ≠ k := fun heq => hfirst (by rw [heq, hk])
      rw [List.filter_cons_of_neg hfirst] at h
      rw [get, if_neg hne]
      obtain rfl | he := List.mem_cons.mp he
      · exact absurd hp hfirst
      · exact ih h he

def ofList (l : List (κ × ν)) : List (κ × ν) := l.foldl (fun m e => insert m e.1 e.2) []

theorem nodup_keys_ofList (l : List (κ × ν)) : (keys (ofList l)).Nodup :=
  nodup_keys_foldl (fun _ _ h => nodup_keys_insert h _ _) l (by simp)

theorem get_foldl_insert (l m : List (κ × ν)) (k : κ) :
    get (l.foldl (fun m e => insert m e.1 e.2) m) k =
      ((l.reverse.find? (fun e => e.1 == k)).map Prod.snd).or (get m k) := by
  induction l generalizing m with
  | nil => simp
  | cons e l ih =>
    rw [List.foldl_cons, ih, List.reverse_cons, List.find?_append, get_insert]
    cases l.reverse.find? (fun e => e.1 == k) with
    | some e' => simp
    | none =>
      by_cases hk : e.1 = k
      · simp [hk]
      · simp [hk, Ne.symm hk]

theorem get_ofList (l : List (κ × ν)) (k : κ) :
    get (ofList l) k = (l.reverse.find? (fun e => e.1 == k)).map Prod.snd := by
  rw [ofList, get_foldl_insert, get, Option.or_none]

theorem mem_of_mem_ofList {l : List (κ × ν)} {e : κ × ν} (h : e ∈ ofList l) : e ∈ l := by
  have hget : get (ofList l) e.1 = some e.2 := (get_eq_some_iff (nodup_keys_ofList l)).mpr h
  rw [get_ofList, Option.map_eq_some_iff] at hget
  obtain ⟨e', he', heq⟩ := hget
  have hkey := List.find?_some he'
  rw [beq_iff_eq] at hkey
  have hmem := List.mem_reverse.mp (List.mem_of_find?_eq_some he')
  rw [Prod.ext hkey heq] at hmem
  exact hmem

end Assoc

end Kuintessence
