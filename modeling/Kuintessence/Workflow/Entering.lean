import Kuintessence.Lib.Machine
import Kuintessence.Model.Schedule

namespace Kuintessence

namespace Entering

-- One more edge to a node, on the counter of 32 bits.
def addEdge (checked : Bool) (adjacencyMap : List (Uuid × Int)) (d : Uuid × Uuid) :
    Outcome String (List (Uuid × Int)) := do
  let adjacency ← i32 checked ((Assoc.get adjacencyMap d.2).getD 0 + 1)
  .ok (Assoc.insert adjacencyMap d.2 adjacency)

def addNodes (nodeIds : List Uuid) (adjacencyMap : List (Uuid × Int)) : List (Uuid × Int) :=
  nodeIds.foldl (fun m id => Assoc.insert m id 0) adjacencyMap

def findEntryNodesIds (checked : Bool) (iter : Order (Uuid × Int)) (nodeIds : List Uuid)
    (nodeDependencies : List (Uuid × Uuid)) : Outcome String (List Uuid) := do
  let adjacencyMap ← Outcome.foldEach (addEdge checked) (addNodes nodeIds []) nodeDependencies
  .ok (((iter.on adjacencyMap).filter fun e => e.2 == 0).map Prod.fst)

structure Counted (nodeIds targets : List Uuid) (m : List (Uuid × Int)) : Prop where
  nodup : (Assoc.keys m).Nodup
  mem : ∀ id, id ∈ Assoc.keys m ↔ id ∈ nodeIds ∨ id ∈ targets
  value : ∀ id n, Assoc.get m id = some n → n = Int.bmod (targets.count id : Int) (2 ^ 32)

-- What the counters can tell apart.
def Countable (checked : Bool) (targets : List Uuid) : Prop :=
  if checked = true then ∀ id, targets.count id < 2 ^ 31
  else ∀ id ∈ targets, ¬ 2 ^ 32 ∣ targets.count id

def Exact (nodeIds : List Uuid) (nodeDependencies : List (Uuid × Uuid))
    (found : Outcome String (List Uuid)) : Prop :=
  ∃ ids, found = .ok ids ∧ ids.Nodup ∧
    ∀ id, id ∈ ids ↔ id ∈ nodeIds ∧ ∀ d ∈ nodeDependencies, d.2 ≠ id

variable {checked : Bool} {nodeIds targets : List Uuid} {m m' : List (Uuid × Int)}
variable {d : Uuid × Uuid} {nodeDependencies : List (Uuid × Uuid)}

theorem counted_nil : Counted [] [] [] where
  nodup := List.nodup_nil
  mem _ := ⟨fun h => absurd h List.not_mem_nil, fun h => absurd (h.elim id id) List.not_mem_nil⟩
  value _ _ h := nomatch h

theorem Counted.node (h : Counted nodeIds [] m) (node : Uuid) :
    Counted (nodeIds ++ [node]) [] (Assoc.insert m node 0) where
  nodup := Assoc.nodup_keys_insert h.nodup node 0
  mem id := by
    rw [Assoc.mem_keys_insert, h.mem, List.mem_append, List.mem_singleton]
    exact or_right_comm
  value id n hn := by
    rw [Assoc.get_insert] at hn
    split at hn
    · cases hn
      exact Int.zero_bmod.symm
    · exact h.value id n hn

theorem Counted.nodes (h : Counted targets [] m) (nodeIds : List Uuid) :
    Counted (targets ++ nodeIds) [] (addNodes nodeIds m) := by
  induction nodeIds generalizing targets m with
  | nil => rwa [List.append_nil]
  | cons node nodeIds ih =>
    have hstep := ih (h.node node)
    rwa [List.append_assoc] at hstep

theorem counted_addNodes (nodeIds : List Uuid) : Counted nodeIds [] (addNodes nodeIds []) :=
  counted_nil.nodes nodeIds

theorem Counted.getD (h : Counted nodeIds targets m) (id : Uuid) :
    (Assoc.get m id).getD 0 = Int.bmod (targets.count id : Int) (2 ^ 32) := by
  cases hget : Assoc.get m id with
  | some n => exact h.value id n hget
  | none =>
    have hnot : id ∉ targets := fun hmem =>
      Assoc.get_eq_none_iff.mp hget ((h.mem id).mpr (.inr hmem))
    rw [List.count_eq_zero_of_not_mem hnot, Option.getD_none]
    exact Int.zero_bmod.symm

theorem Counted.edge (h : Counted nodeIds targets m) (hadd : addEdge checked m d = .ok m') :
    Counted nodeIds (targets ++ [d.2]) m' := by
  obtain ⟨adjacency, hi32, hadd⟩ := Outcome.bind_ok_iff.mp hadd
  cases hadd
  refine ⟨Assoc.nodup_keys_insert h.nodup d.2 adjacency, fun id => ?_, fun id n hn => ?_⟩
  · rw [Assoc.mem_keys_insert, h.mem, List.mem_append, List.mem_singleton, or_assoc]
  · rw [Assoc.get_insert] at hn
    rw [List.count_append, List.count_singleton]
    split at hn
    · next hid =>
      cases hn
      rw [i32_eq_bmod hi32, h.getD, Int.bmod_add_bmod, hid, if_pos (beq_self_eq_true _)]
      rfl
    · next hid =>
      rw [if_neg (by rw [beq_iff_eq]; exact Ne.symm hid)]
      exact h.value id n hn

theorem Counted.edges (h : Counted nodeIds targets m)
    (hrun : Outcome.foldEach (addEdge checked) m nodeDependencies = .ok m') :
    Counted nodeIds (targets ++ nodeDependencies.map Prod.snd) m' := by
  induction nodeDependencies generalizing targets m with
  | nil =>
    cases hrun
    rwa [List.map_nil, List.append_nil]
  | cons d nodeDependencies ih =>
    obtain ⟨m₁, hadd, hrun⟩ := Outcome.bind_ok_iff.mp hrun
    have hrest := ih (h.edge hadd) hrun
    rwa [List.append_assoc] at hrest

theorem Counted.getD_small (h : Counted nodeIds targets m)
    (hsmall : ∀ id, targets.count id < 2 ^ 31) (id : Uuid) :
    (Assoc.get m id).getD 0 = (targets.count id : Int) := by
  have := hsmall id
  rw [h.getD]
  exact Int.bmod_eq_of_le_mul_two (by omega) (by omega)

theorem small_append_iff (hsmall : ∀ id, targets.count id < 2 ^ 31) (target : Uuid) :
    (∀ id, (targets ++ [target]).count id < 2 ^ 31) ↔ targets.count target + 1 < 2 ^ 31 := by
  constructor
  · intro h
    have htarget := h target
    rwa [List.count_append, List.count_singleton_self] at htarget
  · intro h id
    rw [List.count_append, List.count_singleton]
    split
    · next hid =>
      rw [← eq_of_beq hid]
      exact h
    · exact hsmall id

theorem addEdge_ok_iff (h : Counted nodeIds targets m) (hsmall : ∀ id, targets.count id < 2 ^ 31) :
    (∃ m', addEdge true m d = .ok m') ↔ ∀ id, (targets ++ [d.2]).count id < 2 ^ 31 := by
  have hok : (∃ m', addEdge true m d = .ok m') ↔
      ∃ n, (i32 true ((Assoc.get m d.2).getD 0 + 1) : Outcome String Int) = .ok n := by
    constructor
    · rintro ⟨m', hadd⟩
      obtain ⟨n, hn, -⟩ := Outcome.bind_ok_iff.mp hadd
      exact ⟨n, hn⟩
    · rintro ⟨n, hn⟩
      exact ⟨_, Outcome.bind_ok_iff.mpr ⟨n, hn, rfl⟩⟩
  rw [hok, exists_i32_ok_iff, h.getD_small hsmall, small_append_iff hsmall]
  constructor
  · intro h
    have := h rfl
    omega
  · intro h _
    omega

theorem addEdges_ok_iff (h : Counted nodeIds targets m)
    (hsmall : ∀ id, targets.count id < 2 ^ 31) :
    (∃ m', Outcome.foldEach (addEdge true) m nodeDependencies = .ok m') ↔
      ∀ id, (targets ++ nodeDependencies.map Prod.snd).count id < 2 ^ 31 := by
  induction nodeDependencies generalizing targets m with
  | nil =>
    rw [List.map_nil, List.append_nil]
    exact iff_of_true ⟨m, rfl⟩ hsmall
  | cons d nodeDependencies ih =>
    have hsplit : targets ++ (d :: nodeDependencies).map Prod.snd =
        targets ++ [d.2] ++ nodeDependencies.map Prod.snd := by
      rw [List.map_cons, List.append_assoc, List.singleton_append]
    rw [hsplit]
    constructor
    · rintro ⟨m', hrun⟩
      obtain ⟨m₁, hadd, hrun⟩ := Outcome.bind_ok_iff.mp hrun
      exact (ih (h.edge hadd) ((addEdge_ok_iff h hsmall).mp ⟨m₁, hadd⟩)).mp ⟨m', hrun⟩
    · intro hcount
      have hfirst : ∀ id, (targets ++ [d.2]).count id < 2 ^ 31 := fun id =>
        Nat.lt_of_le_of_lt ((List.sublist_append_left _ _).count_le id) (hcount id)
      obtain ⟨m₁, hadd⟩ := (addEdge_ok_iff h hsmall).mpr hfirst
      obtain ⟨m', hrun⟩ := (ih (h.edge hadd) hfirst).mpr hcount
      exact ⟨m', Outcome.bind_ok_iff.mpr ⟨m₁, hadd, hrun⟩⟩

theorem addEdges_unchecked : ∃ m', Outcome.foldEach (addEdge false) m nodeDependencies = .ok m' := by
  have hstep : ∀ d ∈ nodeDependencies, ∀ m, (∃ m', addEdge false m d = .ok m') ↔ True := by
    intro d _ m
    obtain ⟨n, hn⟩ := (@exists_i32_ok_iff String false _).mpr nofun
    exact iff_of_true ⟨_, Outcome.bind_ok_iff.mpr ⟨n, hn, rfl⟩⟩ trivial
  exact (Outcome.foldEach_ok_iff hstep).mpr fun _ _ => trivial

-- The ids whose counter stands at zero in the end.
theorem mem_found_iff (iter : Order (Uuid × Int)) (h : Counted nodeIds targets m) {id : Uuid} :
    id ∈ ((iter.on m).filter fun e => e.2 == 0).map Prod.fst ↔
      (id ∈ nodeIds ∨ id ∈ targets) ∧ 2 ^ 32 ∣ targets.count id := by
  have hdvd : Int.bmod (targets.count id : Int) (2 ^ 32) = 0 ↔ 2 ^ 32 ∣ targets.count id := by
    rw [← Int.dvd_iff_bmod_eq_zero]
    exact Int.natCast_dvd_natCast
  rw [← h.mem, ← hdvd]
  constructor
  · intro hmem
    obtain ⟨⟨id', n⟩, he, rfl⟩ := List.mem_map.mp hmem
    obtain ⟨he, hzero⟩ := List.mem_filter.mp he
    have hin := iter.mem_on.mp he
    have hvalue := h.value id' n ((Assoc.get_eq_some_iff h.nodup).mpr hin)
    exact ⟨Assoc.mem_keys_of_mem hin, hvalue.symm.trans (eq_of_beq hzero)⟩
  · rintro ⟨hkey, hzero⟩
    obtain ⟨⟨id', n⟩, hin, rfl⟩ := List.mem_map.mp hkey
    have hvalue := h.value id' n ((Assoc.get_eq_some_iff h.nodup).mpr hin)
    refine List.mem_map.mpr ⟨(id', n), List.mem_filter.mpr ⟨iter.mem_on.mpr hin, ?_⟩, rfl⟩
    exact beq_iff_eq.mpr (hvalue.trans hzero)

theorem nodup_found (iter : Order (Uuid × Int)) (h : Counted nodeIds targets m) :
    (((iter.on m).filter fun e => e.2 == 0).map Prod.fst).Nodup :=
  ((Assoc.nodup_keys_on iter).mpr h.nodup).sublist ((List.filter_sublist).map Prod.fst)

theorem small_nil (id : Uuid) : ([] : List Uuid).count id < 2 ^ 31 := by
  rw [List.count_nil]
  exact Nat.two_pow_pos 31

theorem countable_true : Countable true targets ↔ ∀ id, targets.count id < 2 ^ 31 := Iff.rfl

theorem countable_false :
    Countable false targets ↔ ∀ id ∈ targets, ¬ 2 ^ 32 ∣ targets.count id := Iff.rfl

theorem Countable.not_dvd (h : Countable checked targets) :
    ∀ id ∈ targets, ¬ 2 ^ 32 ∣ targets.count id := by
  cases checked with
  | false => exact h
  | true =>
    intro id hid hdvd
    have hpos := List.count_pos_iff.mpr hid
    have hlt : targets.count id < 2 ^ 31 := h id
    have := Nat.le_of_dvd hpos hdvd
    omega

theorem exact_found_iff (iter : Order (Uuid × Int))
    (h : Counted nodeIds (nodeDependencies.map Prod.snd) m) :
    Exact nodeIds nodeDependencies
      (.ok (((iter.on m).filter fun e => e.2 == 0).map Prod.fst)) ↔
        ∀ id ∈ nodeDependencies.map Prod.snd,
          ¬ 2 ^ 32 ∣ (nodeDependencies.map Prod.snd).count id := by
  have hnot : ∀ id, (∀ d ∈ nodeDependencies, d.2 ≠ id) ↔ id ∉ nodeDependencies.map Prod.snd := by
    intro id
    rw [List.mem_map, not_exists]
    exact forall_congr' fun d => not_and.symm
  constructor
  · rintro ⟨ids, hids, -, hmem⟩ id htarget hdvd
    cases hids
    have hfound := (mem_found_iff iter h).mpr ⟨.inr htarget, hdvd⟩
    exact (hnot id).mp ((hmem id).mp hfound).2 htarget
  · intro hdvd
    refine ⟨_, rfl, nodup_found iter h, fun id => ?_⟩
    rw [mem_found_iff iter h, hnot]
    by_cases htarget : id ∈ nodeDependencies.map Prod.snd
    · exact iff_of_false (fun hmem => hdvd id htarget hmem.2) fun hmem => hmem.2 htarget
    · rw [List.count_eq_zero_of_not_mem htarget]
      exact ⟨fun hmem => ⟨hmem.1.resolve_right htarget, htarget⟩, fun hmem =>
        ⟨.inl hmem.1, dvd_zero _⟩⟩

theorem addEdge_small (h : Counted nodeIds targets m) (hsmall : ∀ id, targets.count id < 2 ^ 31)
    (hfit : targets.count d.2 + 1 < 2 ^ 31) : addEdge checked m d =
      .ok (Assoc.insert m d.2 ((Assoc.get m d.2).getD 0 + 1)) := by
  have hrange : -2 ^ 31 ≤ (Assoc.get m d.2).getD 0 + 1 ∧ (Assoc.get m d.2).getD 0 + 1 < 2 ^ 31 := by
    rw [h.getD_small hsmall]
    omega
  rw [addEdge, i32_of_range hrange, Outcome.ok_bind]

theorem addEdges_small (h : Counted nodeIds targets m)
    (hsmall : ∀ id, (targets ++ nodeDependencies.map Prod.snd).count id < 2 ^ 31) :
    Outcome.foldEach (addEdge checked) m nodeDependencies = .ok (nodeDependencies.foldl
      (fun m d => Assoc.insert m d.2 ((Assoc.get m d.2).getD 0 + 1)) m) := by
  induction nodeDependencies generalizing targets m with
  | nil => rfl
  | cons d nodeDependencies ih =>
    rw [List.map_cons, ← List.singleton_append, ← List.append_assoc] at hsmall
    have hfirst : ∀ id, (targets ++ [d.2]).count id < 2 ^ 31 := fun id =>
      Nat.lt_of_le_of_lt ((List.sublist_append_left _ _).count_le id) (hsmall id)
    have hbefore : ∀ id, targets.count id < 2 ^ 31 := fun id =>
      Nat.lt_of_le_of_lt ((List.sublist_append_left _ _).count_le id) (hfirst id)
    have hadd := @addEdge_small checked _ _ _ d h hbefore ((small_append_iff hbefore d.2).mp hfirst)
    rw [Outcome.foldEach, hadd, Outcome.ok_bind, ih (h.edge hadd) hsmall, List.foldl_cons]

-- As long as the counters do not overflow, whole numbers count the same.
theorem findEntryNodesIds_eq (iter : Order (Uuid × Int)) (nodeIds : List Uuid)
    (h : ∀ id, (nodeDependencies.map Prod.snd).count id < 2 ^ 31) :
    findEntryNodesIds checked iter nodeIds nodeDependencies =
      .ok (Kuintessence.findEntryNodesIds iter nodeIds nodeDependencies) := by
  rw [findEntryNodesIds, addEdges_small (counted_addNodes nodeIds) h, Outcome.ok_bind,
    Kuintessence.findEntryNodesIds, adjacencyMap, addNodes]

end Entering

end Kuintessence
