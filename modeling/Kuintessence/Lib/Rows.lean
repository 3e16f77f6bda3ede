import Mathlib.Data.List.Nodup

namespace Kuintessence

namespace Rows

variable {α κ : Type} [DecidableEq κ] (key : α → κ)

def find (k : κ) (rows : List α) : Option α := rows.find? fun x => key x = k

def put (x : α) (rows : List α) : List α := rows.eraseP (fun y => key y = key x) ++ [x]

def replace (x : α) (rows : List α) : Option (List α) :=
  if rows.any fun y => key y = key x then some (put key x rows) else none

def remove (k : κ) (rows : List α) : Option (List α) :=
  if rows.any fun y => key y = k then some (rows.eraseP fun y => key y = k) else none

variable {key} {rows : List α}

theorem erase_eq_filter (h : (rows.map key).Nodup) (k : κ) :
    (rows.eraseP fun y => key y = k) = rows.filter fun y => key y ≠ k := by
  induction rows with
  | nil => rfl
  | cons x rows ih =>
    rw [List.map_cons, List.nodup_cons] at h
    by_cases hx : key x = k
    · have hrest : rows.filter (fun y => key y ≠ k) = rows := by
        refine List.filter_eq_self.mpr fun y hy => ?_
        have hne : key y ≠ k := fun heq => h.1 (hx ▸ heq ▸ List.mem_map_of_mem hy)
        simpa using hne
      rw [List.eraseP_cons_of_pos (by simpa using hx), List.filter_cons_of_neg (by simpa using hx),
        hrest]
    · rw [List.eraseP_cons_of_neg (by simpa using hx), List.filter_cons_of_pos (by simpa using hx),
        ih h.2]

theorem put_eq_filter (h : (rows.map key).Nodup) (x : α) :
    put key x rows = (rows.filter fun y => key y ≠ key x) ++ [x] := by
  rw [put, erase_eq_filter h]

theorem mem_put (h : (rows.map key).Nodup) {x y : α} :
    y ∈ put key x rows ↔ (y ∈ rows ∧ key y ≠ key x) ∨ y = x := by
  rw [put_eq_filter h]
  simp

theorem nodup_put (h : (rows.map key).Nodup) (x : α) : ((put key x rows).map key).Nodup := by
  rw [put_eq_filter h, List.map_append, List.nodup_append]
  refine ⟨h.sublist (List.filter_sublist.map key), by simp, ?_⟩
  intro a ha b hb
  simp only [List.map_cons, List.map_nil, List.mem_singleton] at hb
  obtain ⟨y, hy, rfl⟩ := List.mem_map.mp ha
  simpa [hb] using (List.mem_filter.mp hy).2

theorem nodup_puts (h : (rows.map key).Nodup) (xs : List α) :
    ((xs.foldl (fun rows x => put key x rows) rows).map key).Nodup := by
  induction xs generalizing rows with
  | nil => exact h
  | cons x xs ih => exact ih (nodup_put h x)

omit [DecidableEq κ] in
theorem eq_of_key (h : (rows.map key).Nodup) {x y : α} (hx : x ∈ rows) (hy : y ∈ rows)
    (hkey : key x = key y) : x = y :=
  List.inj_on_of_nodup_map h hx hy hkey

theorem key_of_find {k : κ} {x : α} (h : find key k rows = some x) : key x = k := by
  simpa using List.find?_some h

theorem find_eq_none_iff {k : κ} : find key k rows = none ↔ ∀ x ∈ rows, key x ≠ k := by
  simp [find]

theorem find_of_mem (h : (rows.map key).Nodup) {x : α} (hx : x ∈ rows) :
    find key (key x) rows = some x := by
  obtain ⟨y, hy⟩ : ∃ y, find key (key x) rows = some y :=
    Option.isSome_iff_exists.mp (List.find?_isSome.mpr ⟨x, hx, by simp⟩)
  rw [hy, eq_of_key h (List.mem_of_find?_eq_some hy) hx (key_of_find hy)]

theorem find_put (h : (rows.map key).Nodup) {x : α} {k : κ} :
    find key k (put key x rows) = if key x = k then some x else find key k rows := by
  rw [find, put_eq_filter h, List.find?_append]
  by_cases hk : key x = k
  · rw [if_pos hk, List.find?_eq_none.mpr fun y hy => ?_]
    · simp [hk]
    · simpa [← hk] using (List.mem_filter.mp hy).2
  · have hrest : (rows.filter fun y => key y ≠ key x).find? (fun y => key y = k) =
        rows.find? fun y => key y = k := by
      rw [List.find?_filter]
      congr 1
      funext y
      by_cases hy : key y = k
      · simp [hy, Ne.symm hk]
      · simp [hy]
    rw [if_neg hk, hrest, find]
    simp [hk]

theorem filter_put (h : (rows.map key).Nodup) {x : α} {p : α → Bool} (hx : p x = true) :
    (put key x rows).filter p = put key x (rows.filter p) := by
  have hfilter : ((rows.filter p).map key).Nodup := h.sublist (List.filter_sublist.map key)
  rw [put_eq_filter h, put_eq_filter hfilter, List.filter_append, List.filter_singleton, hx,
    cond_true, List.filter_comm]

theorem filter_put_other (h : (rows.map key).Nodup) {x : α} {p : α → Bool} (hx : p x = false)
    (hold : ∀ y ∈ rows, key y = key x → p y = false) :
    (put key x rows).filter p = rows.filter p := by
  rw [put_eq_filter h, List.filter_append, List.filter_singleton, hx, List.filter_filter,
    cond_false, List.append_nil]
  refine List.filter_congr fun y hy => ?_
  by_cases hkey : key y = key x
  · simp [hold y hy hkey]
  · simp [hkey]

-- Where the row that is replaced looks the same, so does the table.
theorem mem_map_put {β : Type} {f : α → β} (h : (rows.map key).Nodup) {x : α}
    (hold : ∃ y ∈ rows, key y = key x ∧ f y = f x) {b : β} :
    b ∈ (put key x rows).map f ↔ b ∈ rows.map f := by
  obtain ⟨y, hy, hkey, hf⟩ := hold
  constructor
  · intro hb
    obtain ⟨z, hz, rfl⟩ := List.mem_map.mp hb
    obtain ⟨hz, -⟩ | rfl := (mem_put h).mp hz
    · exact List.mem_map_of_mem hz
    · exact hf ▸ List.mem_map_of_mem hy
  · intro hb
    obtain ⟨z, hz, rfl⟩ := List.mem_map.mp hb
    by_cases hzx : key z = key x
    · rw [eq_of_key h hz hy (hzx.trans hkey.symm), hf]
      exact List.mem_map_of_mem ((mem_put h).mpr (.inr rfl))
    · exact List.mem_map_of_mem ((mem_put h).mpr (.inl ⟨hz, hzx⟩))

end Rows

end Kuintessence
