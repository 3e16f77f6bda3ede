import Kuintessence.Lib.Assoc
import Mathlib.Data.List.Sort
import Mathlib.Data.String.Basic

namespace Kuintessence

-- The contents of a hash map, listed by key: maps with the same contents are equal.
structure HashMap (κ ν : Type) [LinearOrder κ] where
  entries : List (κ × ν)
  sorted : (Assoc.keys entries).Pairwise (· < ·)
  deriving DecidableEq

namespace HashMap

variable {κ ν : Type} [LinearOrder κ]

def empty : HashMap κ ν := ⟨[], .nil⟩

def get (m : HashMap κ ν) (k : κ) : Option ν := Assoc.get m.entries k

def put : List (κ × ν) → κ → ν → List (κ × ν)
  | [], k, v => [(k, v)]
  | e :: l, k, v =>
    if k < e.1 then (k, v) :: e :: l
    else if e.1 = k then (k, v) :: l
    else e :: put l k v

theorem mem_keys_put {l : List (κ × ν)} {k k' : κ} {v : ν} (h : k' ∈ Assoc.keys (put l k v)) :
    k' ∈ Assoc.keys l ∨ k' = k := by
  induction l with
  | nil => exact .inr (List.mem_singleton.mp h)
  | cons e l ih =>
    rw [put] at h
    split at h
    · obtain h | h := List.mem_cons.mp h
      · exact .inr h
      · exact .inl h
    · split at h
      · obtain h | h := List.mem_cons.mp h
        · exact .inr h
        · exact .inl (List.mem_cons_of_mem _ h)
      · obtain h | h := List.mem_cons.mp h
        · exact .inl (h ▸ List.mem_cons_self)
        · exact (ih h).imp_left (List.mem_cons_of_mem _)

theorem put_sorted {l : List (κ × ν)} (h : (Assoc.keys l).Pairwise (· < ·)) (k : κ) (v : ν) :
    (Assoc.keys (put l k v)).Pairwise (· < ·) := by
  induction l with
  | nil => exact List.pairwise_singleton _ _
  | cons e l ih =>
    obtain ⟨hfirst, hrest⟩ := List.pairwise_cons.mp h
    rw [put]
    split
    · next hlt =>
      refine List.pairwise_cons.mpr ⟨fun k' hk' => ?_, h⟩
      obtain rfl | hk' := List.mem_cons.mp hk'
      · exact hlt
      · exact hlt.trans (hfirst k' hk')
    · next hge =>
      split
      · next heq =>
        subst heq
        exact h
      · next hne =>
        refine List.pairwise_cons.mpr ⟨fun k' hk' => ?_, ih hrest⟩
        obtain hk' | rfl := mem_keys_put hk'
        · exact hfirst k' hk'
        · exact lt_of_le_of_ne (not_lt.mp hge) hne

def insert (m : HashMap κ ν) (k : κ) (v : ν) : HashMap κ ν :=
  ⟨put m.entries k v, put_sorted m.sorted k v⟩

-- `entry(k).or_insert(d)`, and what is then done to the entry.
def entry (m : HashMap κ ν) (k : κ) (d : ν) (f : ν → ν) : HashMap κ ν :=
  m.insert k (f ((m.get k).getD d))

-- What an iteration over the map goes through.
def iter (o : Order (κ × ν)) (m : HashMap κ ν) : List (κ × ν) := o.on m.entries

-- `sort_by(|a, b| a.0.cmp(&b.0))`.
def sortByKey (l : List (κ × ν)) : List (κ × ν) := l.insertionSort (fun a b => a.1 ≤ b.1)

def ofList (l : List (κ × ν)) : HashMap κ ν := l.foldl (fun m e => m.insert e.1 e.2) empty

section Lookup

variable {m m' : HashMap κ ν} {k k' : κ} {v d : ν} {f : ν → ν}

@[simp] theorem get_empty (k : κ) : (empty : HashMap κ ν).get k = none := rfl

theorem get_cons (l : List (κ × ν)) (e : κ × ν) (k : κ) :
    Assoc.get (e :: l) k = if k = e.1 then some e.2 else Assoc.get l k := by
  rw [Assoc.get]
  by_cases hk : k = e.1
  · rw [if_pos hk.symm, if_pos hk]
  · rw [if_neg (Ne.symm hk), if_neg hk]

theorem get_put (l : List (κ × ν)) (k k' : κ) (v : ν) :
    Assoc.get (put l k v) k' = if k' = k then some v else Assoc.get l k' := by
  induction l with
  | nil => exact get_cons [] (k, v) k'
  | cons e l ih =>
    rw [put]
    split
    · exact get_cons (e :: l) (k, v) k'
    · split
      · next heq =>
        rw [get_cons, get_cons, heq]
        split
        · rfl
        · rfl
      · next hne =>
        rw [get_cons, get_cons, ih]
        by_cases hk : k' = k
        · rw [if_pos hk, if_pos hk, if_neg fun he => hne (he.symm.trans hk)]
        · rw [if_neg hk, if_neg hk]

theorem get_insert (m : HashMap κ ν) (k k' : κ) (v : ν) :
    (m.insert k v).get k' = if k' = k then some v else m.get k' := get_put m.entries k k' v

theorem get_entry (m : HashMap κ ν) (k k' : κ) (d : ν) (f : ν → ν) :
    (m.entry k d f).get k' = if k' = k then some (f ((m.get k).getD d)) else m.get k' :=
  get_insert m k k' _

theorem nodup_keys (m : HashMap κ ν) : (Assoc.keys m.entries).Nodup := m.sorted.imp ne_of_lt

theorem mem_entries_iff : (k, v) ∈ m.entries ↔ m.get k = some v :=
  (Assoc.get_eq_some_iff m.nodup_keys).symm

theorem mem_iter_iff {o : Order (κ × ν)} : (k, v) ∈ m.iter o ↔ m.get k = some v := by
  rw [iter, Order.mem_on, mem_entries_iff]

theorem mem_keys_iff : k ∈ Assoc.keys m.entries ↔ m.get k ≠ none := by
  rw [get, Ne, Assoc.get_eq_none_iff, not_not]

theorem mem_keys_insert : k' ∈ Assoc.keys (m.insert k v).entries ↔
    k' ∈ Assoc.keys m.entries ∨ k' = k := by
  rw [mem_keys_iff, mem_keys_iff, get_insert]
  by_cases hk : k' = k
  · rw [if_pos hk]
    exact ⟨fun _ => .inr hk, fun _ => nofun⟩
  · rw [if_neg hk, or_iff_left hk]

theorem mem_keys_entry : k' ∈ Assoc.keys (m.entry k d f).entries ↔
    k' ∈ Assoc.keys m.entries ∨ k' = k := mem_keys_insert

theorem mem_keys_iter {o : Order (κ × ν)} :
    k ∈ Assoc.keys (m.iter o) ↔ k ∈ Assoc.keys m.entries := Assoc.mem_keys_on o

end Lookup

section Sorting

variable {l l' : List (κ × ν)}

theorem sortByKey_perm (l : List (κ × ν)) : (sortByKey l).Perm l := List.perm_insertionSort _ l

theorem eq_of_sorted (h : l.Perm l') (hl : (Assoc.keys l).Pairwise (· < ·))
    (hl' : (Assoc.keys l').Pairwise (· < ·)) : l = l' := by
  have hof : ∀ {l : List (κ × ν)}, (Assoc.keys l).Pairwise (· < ·) →
      l.Pairwise fun a b => a.1 < b.1 := fun h => List.pairwise_map.mp h
  refine List.Perm.eq_of_pairwise (fun a b _ _ hab hba => ?_) (hof hl) (hof hl') h
  exact absurd (hab.trans hba) (lt_irrefl _)

theorem sortByKey_sorted (h : (Assoc.keys l).Nodup) :
    (Assoc.keys (sortByKey l)).Pairwise (· < ·) := by
  have hle : (sortByKey l).Pairwise fun a b => a.1 ≤ b.1 := List.pairwise_insertionSort _ l
  have hne : (sortByKey l).Pairwise fun a b => a.1 ≠ b.1 :=
    List.pairwise_map.mp (((sortByKey_perm l).map Prod.fst).nodup_iff.mpr h)
  exact List.pairwise_map.mpr ((hle.and hne).imp fun h => lt_of_le_of_ne h.1 h.2)

theorem sortByKey_iter (o : Order (κ × ν)) (m : HashMap κ ν) : sortByKey (m.iter o) = m.entries := by
  have hperm : (m.iter o).Perm m.entries := o.perm _
  have hnodup : (Assoc.keys (m.iter o)).Nodup :=
    (hperm.map Prod.fst).nodup_iff.mpr m.nodup_keys
  exact eq_of_sorted ((sortByKey_perm _).trans hperm) (sortByKey_sorted hnodup) m.sorted

theorem ext_get {m m' : HashMap κ ν} (h : ∀ k, m.get k = m'.get k) : m = m' := by
  have hperm : m.entries.Perm m'.entries := by
    refine (List.perm_ext_iff_of_nodup (.of_map _ m.nodup_keys) (.of_map _ m'.nodup_keys)).mpr
      fun e => ?_
    rw [mem_entries_iff, mem_entries_iff, h]
  have heq := eq_of_sorted hperm m.sorted m'.sorted
  cases m
  cases m'
  cases heq
  rfl

theorem insert_insert (m : HashMap κ ν) {k k' : κ} (h : k ≠ k') (v v' : ν) :
    (m.insert k v).insert k' v' = (m.insert k' v').insert k v := by
  refine ext_get fun i => ?_
  rw [get_insert, get_insert, get_insert, get_insert]
  by_cases hk : i = k
  · rw [if_pos hk, if_neg fun hk' => h (hk.symm.trans hk'), if_pos hk]
  · rw [if_neg hk, if_neg hk]

theorem get_foldl_insert (h : (Assoc.keys l).Nodup) (m : HashMap κ ν) (k : κ) :
    (l.foldl (fun m e => m.insert e.1 e.2) m).get k = (Assoc.get l k).or (m.get k) := by
  induction l generalizing m with
  | nil => rfl
  | cons e l ih =>
    obtain ⟨hfirst, hrest⟩ := List.nodup_cons.mp h
    rw [List.foldl_cons, ih hrest, get_insert, get_cons]
    by_cases hk : k = e.1
    · have hnone : Assoc.get l k = none := Assoc.get_eq_none_iff.mpr (hk ▸ hfirst)
      rw [hnone, if_pos hk, if_pos hk]
      rfl
    · rw [if_neg hk, if_neg hk]

theorem get_ofList (h : (Assoc.keys l).Nodup) (k : κ) : (ofList l).get k = Assoc.get l k := by
  rw [ofList, get_foldl_insert h, get_empty, Option.or_none]

-- Collecting what an iteration makes of the values gives the entries in the map's own order.
theorem ofList_iter {μ : Type} (o : Order (κ × ν)) (m : HashMap κ ν) (f : ν → μ) :
    (ofList ((m.iter o).map fun e => (e.1, f e.2))).entries =
      m.entries.map fun e => (e.1, f e.2) := by
  have hkeys : ∀ l : List (κ × ν), Assoc.keys (l.map fun e => (e.1, f e.2)) = Assoc.keys l := by
    intro l
    rw [Assoc.keys, List.map_map]
    rfl
  have hsorted : (Assoc.keys (m.entries.map fun e => (e.1, f e.2))).Pairwise (· < ·) := by
    rw [hkeys]
    exact m.sorted
  have hperm : ((m.iter o).map fun e => (e.1, f e.2)).Perm
      (m.entries.map fun e => (e.1, f e.2)) := (o.perm _).map _
  have hnodup : (Assoc.keys ((m.iter o).map fun e => (e.1, f e.2))).Nodup :=
    (hperm.map Prod.fst).nodup_iff.mpr (hsorted.imp ne_of_lt)
  have heq : ofList ((m.iter o).map fun e => (e.1, f e.2)) =
      ⟨m.entries.map fun e => (e.1, f e.2), hsorted⟩ := by
    refine ext_get fun k => ?_
    rw [get_ofList hnodup]
    refine Option.ext fun v => ?_
    rw [Assoc.get_eq_some_iff hnodup, ← mem_entries_iff]
    exact hperm.mem_iff
  rw [heq]

end Sorting

end HashMap

end Kuintessence
