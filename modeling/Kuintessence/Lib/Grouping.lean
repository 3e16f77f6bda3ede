import Kuintessence.Lib.HashMap
import Mathlib.Data.List.Dedup

namespace Kuintessence

-- Items are gathered under their keys: the first one of a key sets up the entry.
structure Grouping (ι κ ν : Type) where
  key : ι → κ
  start : ι → ν
  step : ι → ν → ν

namespace Grouping

variable {ι κ τ ν : Type} [LinearOrder κ] (c : Grouping ι κ ν)

def add (m : HashMap κ ν) (x : ι) : HashMap κ ν := m.entry (c.key x) (c.start x) (c.step x)

def gather (m : HashMap κ ν) (items : List ι) : HashMap κ ν := items.foldl c.add m

def onto (o : Option ν) (x : ι) : Option ν := some (c.step x (o.getD (c.start x)))

def run (v : ν) (items : List ι) : ν := items.foldl (fun v x => c.step x v) v

variable {c} {items : List ι} {m : HashMap κ ν}

theorem get_gather (k : κ) : (c.gather m items).get k =
    (items.filter fun x => c.key x = k).foldl c.onto (m.get k) := by
  induction items generalizing m with
  | nil => rfl
  | cons x items ih =>
    rw [gather, List.foldl_cons, ← gather, ih, add, HashMap.get_entry]
    by_cases hk : c.key x = k
    · subst hk
      rw [if_pos rfl, List.filter_cons_of_pos (p := fun y => decide (c.key y = c.key x))
        (decide_eq_true rfl), List.foldl_cons]
      rfl
    · rw [if_neg (Ne.symm hk), List.filter_cons_of_neg (by simpa using hk)]

omit [LinearOrder κ] in
theorem foldl_onto_some (v : ν) : items.foldl c.onto (some v) = some (c.run v items) := by
  induction items generalizing v with
  | nil => rfl
  | cons x items ih => exact ih _

omit [LinearOrder κ] in
theorem foldl_onto_cons (x : ι) :
    (x :: items).foldl c.onto none = some (c.run (c.start x) (x :: items)) :=
  foldl_onto_some _

theorem mem_keys_gather (k : κ) : k ∈ Assoc.keys (c.gather m items).entries ↔
    k ∈ Assoc.keys m.entries ∨ ∃ x ∈ items, c.key x = k := by
  induction items generalizing m with
  | nil => exact ⟨.inl, fun h => h.resolve_right fun ⟨_, hx, _⟩ => absurd hx List.not_mem_nil⟩
  | cons x items ih =>
    rw [gather, List.foldl_cons, ← gather, ih, add, HashMap.mem_keys_entry, or_assoc,
      List.exists_mem_cons_iff, eq_comm]

section Commuting

variable (c) in
-- The two can be gathered in either order.
def Apart (m : HashMap κ ν) (x y : ι) : Prop :=
  c.key x = c.key y → (c.start x = c.start y ∨ c.key x ∈ Assoc.keys m.entries) ∧
    ∀ v, c.step x (c.step y v) = c.step y (c.step x v)

theorem Apart.add {x y : ι} (h : c.Apart m x y) (z : ι) : c.Apart (c.add m z) x y :=
  fun hkey => ⟨(h hkey).1.imp_right fun hmem => HashMap.mem_keys_entry.mpr (.inl hmem), (h hkey).2⟩

theorem add_add {x y : ι} (h : c.Apart m x y) : c.add (c.add m x) y = c.add (c.add m y) x := by
  refine HashMap.ext_get fun k => ?_
  simp only [add, HashMap.get_entry]
  by_cases hkey : c.key x = c.key y
  · obtain ⟨hstart, hstep⟩ := h hkey
    have hbase : (m.get (c.key y)).getD (c.start x) = (m.get (c.key y)).getD (c.start y) := by
      obtain hstart | hmem := hstart
      · rw [hstart]
      · obtain ⟨v, hv⟩ := Option.ne_none_iff_exists'.mp (HashMap.mem_keys_iff.mp hmem)
        rw [← hkey, hv]
        rfl
    rw [if_pos hkey.symm, if_pos hkey, Option.getD_some, Option.getD_some, hkey, hbase, hstep]
    by_cases hk : k = c.key y
    · rw [if_pos hk, if_pos hk]
    · rw [if_neg hk, if_neg hk, if_neg hk, if_neg hk]
  · rw [if_neg (Ne.symm hkey), if_neg hkey]
    by_cases hx : k = c.key x
    · rw [if_pos hx, if_neg (hx ▸ hkey), if_pos hx]
    · rw [if_neg hx, if_neg hx]

theorem gather_add {x : ι} {ys : List ι} (h : ∀ y ∈ ys, c.Apart m x y) :
    c.gather (c.add m x) ys = c.add (c.gather m ys) x := by
  induction ys generalizing m with
  | nil => rfl
  | cons y ys ih =>
    have hrest : ∀ z ∈ ys, c.Apart (c.add m y) x z :=
      fun z hz => (h z (List.mem_cons_of_mem y hz)).add y
    calc c.gather (c.add m x) (y :: ys)
      _ = c.gather (c.add (c.add m x) y) ys := rfl
      _ = c.gather (c.add (c.add m y) x) ys := by rw [add_add (h y List.mem_cons_self)]
      _ = c.add (c.gather m (y :: ys)) x := ih hrest

theorem gather_gather {xs ys : List ι} (h : ∀ x ∈ xs, ∀ y ∈ ys, c.Apart m x y) :
    c.gather (c.gather m xs) ys = c.gather (c.gather m ys) xs := by
  induction xs generalizing m with
  | nil => rfl
  | cons x xs ih =>
    have hrest : ∀ z ∈ xs, ∀ y ∈ ys, c.Apart (c.add m x) z y :=
      fun z hz y hy => (h z (List.mem_cons_of_mem x hz) y hy).add x
    calc c.gather (c.gather m (x :: xs)) ys
      _ = c.gather (c.gather (c.add m x) xs) ys := rfl
      _ = c.gather (c.gather (c.add m x) ys) xs := ih hrest
      _ = c.gather (c.add (c.gather m ys) x) xs := by rw [gather_add (h x List.mem_cons_self)]

end Commuting

section Owned

variable [DecidableEq τ] (c) (tag : ι → τ) (base : τ → ν)

def pairs (items : List ι) : List (κ × τ) := (items.map fun x => (c.key x, tag x)).dedup

def own (items : List ι) (p : κ × τ) : ν :=
  c.run (base p.2) (items.filter fun x => (c.key x, tag x) = p)

-- Every tag has an entry of its own under each of its keys.
def owned (items : List ι) : List (κ × ν) :=
  (c.pairs tag items).map fun p => (p.1, c.own tag base items p)

def Functional (items : List ι) : Prop :=
  ∀ x ∈ items, ∀ y ∈ items, c.key x = c.key y → tag x = tag y

variable {c} {tag} {base}

theorem mem_pairs {p : κ × τ} : p ∈ c.pairs tag items ↔ ∃ x ∈ items, (c.key x, tag x) = p := by
  rw [pairs, List.mem_dedup, List.mem_map]

theorem Functional.filter_eq (h : Functional c tag items) {x : ι} (hx : x ∈ items) :
    (items.filter fun y => (c.key y, tag y) = (c.key x, tag x)) =
      items.filter fun y => c.key y = c.key x := by
  refine List.filter_congr fun y hy => decide_eq_decide.mpr ?_
  rw [Prod.mk.injEq]
  exact ⟨And.left, fun hkey => ⟨hkey, h y hy x hx hkey⟩⟩

theorem Functional.get_gather (h : Functional c tag items)
    (hbase : ∀ x ∈ items, c.start x = base (tag x)) {x : ι} (hx : x ∈ items) :
    (c.gather .empty items).get (c.key x) = some (c.own tag base items (c.key x, tag x)) := by
  rw [Grouping.get_gather, HashMap.get_empty, own, h.filter_eq hx]
  have hmem : x ∈ items.filter fun y => c.key y = c.key x :=
    List.mem_filter.mpr ⟨hx, decide_eq_true rfl⟩
  cases hfilter : items.filter fun y => c.key y = c.key x with
  | nil =>
    rw [hfilter] at hmem
    cases hmem
  | cons y rest =>
    have hy := List.mem_filter.mp (hfilter ▸ List.mem_cons_self (a := y) (l := rest))
    have htag : tag y = tag x := h y hy.1 x hx (of_decide_eq_true hy.2)
    rw [foldl_onto_cons, hbase y hy.1, htag]

theorem Functional.perm_owned (h : Functional c tag items)
    (hbase : ∀ x ∈ items, c.start x = base (tag x)) :
    (c.gather .empty items).entries.Perm (c.owned tag base items) := by
  have hkeys : (Assoc.keys (c.owned tag base items)).Nodup := by
    rw [owned, Assoc.keys, List.map_map]
    refine (List.nodup_dedup _).map_on fun p hp q hq hpq => ?_
    obtain ⟨x, hx, rfl⟩ := mem_pairs.mp hp
    obtain ⟨y, hy, rfl⟩ := mem_pairs.mp hq
    exact Prod.ext hpq (h x hx y hy hpq)
  refine (List.perm_ext_iff_of_nodup (.of_map _ (HashMap.nodup_keys _)) (.of_map _ hkeys)).mpr
    fun e => ?_
  obtain ⟨k, v⟩ := e
  rw [HashMap.mem_entries_iff, owned, List.mem_map]
  constructor
  · intro hget
    have hmem : k ∈ Assoc.keys (c.gather .empty items).entries :=
      Assoc.mem_keys_of_mem (HashMap.mem_entries_iff.mpr hget)
    obtain hmem | ⟨x, hx, rfl⟩ := (mem_keys_gather k).mp hmem
    · cases hmem
    · rw [h.get_gather hbase hx] at hget
      cases hget
      exact ⟨(c.key x, tag x), mem_pairs.mpr ⟨x, hx, rfl⟩, rfl⟩
  · rintro ⟨p, hp, heq⟩
    obtain ⟨x, hx, rfl⟩ := mem_pairs.mp hp
    cases heq
    exact h.get_gather hbase hx

theorem functional_of_length
    (h : (c.gather .empty items).entries.length = (c.pairs tag items).length) :
    Functional c tag items := by
  have hperm : (Assoc.keys (c.gather .empty items).entries).Perm
      ((c.pairs tag items).map Prod.fst).dedup := by
    refine (List.perm_ext_iff_of_nodup (HashMap.nodup_keys _) (List.nodup_dedup _)).mpr fun k => ?_
    rw [mem_keys_gather, List.mem_dedup, List.mem_map]
    constructor
    · rintro (hk | ⟨x, hx, rfl⟩)
      · cases hk
      · exact ⟨(c.key x, tag x), mem_pairs.mpr ⟨x, hx, rfl⟩, rfl⟩
    · rintro ⟨p, hp, rfl⟩
      obtain ⟨x, hx, rfl⟩ := mem_pairs.mp hp
      exact .inr ⟨x, hx, rfl⟩
  have hlen : ((c.pairs tag items).map Prod.fst).dedup.length =
      ((c.pairs tag items).map Prod.fst).length := by
    rw [← hperm.length_eq, Assoc.keys, List.length_map, List.length_map, h]
  have hself := (List.dedup_sublist _).eq_of_length hlen
  have hnodup : ((c.pairs tag items).map Prod.fst).Nodup := hself ▸ List.nodup_dedup _
  intro x hx y hy hkey
  have hpair := List.inj_on_of_nodup_map hnodup (mem_pairs.mpr ⟨x, hx, rfl⟩)
    (mem_pairs.mpr ⟨y, hy, rfl⟩) hkey
  exact (Prod.mk.inj hpair).2

end Owned

end Grouping

end Kuintessence
