import Kuintessence.Lib.Rows
import Kuintessence.Model.Repository

namespace Kuintessence

-- The node instances in the order in which the database lists them.
structure NodeTable where
  rows : List NodeInstance
  keyed : (rows.map NodeInstance.id).Nodup

namespace SeaOrm

def getNodeSubNodeInstances (table : NodeTable) (batchParentId : Uuid) : List NodeInstance :=
  (table.rows.filter fun el => el.batchParentId.isSome).filter fun el =>
    el.batchParentId == some batchParentId

-- The loop over the enumerated sub-nodes: the last match stays.
def nthFrom (subNodeId : Uuid) : Nat → Option Nat → List NodeInstance → Option Nat
  | _, nth, [] => nth
  | i, nth, subNode :: subNodes =>
    nthFrom subNodeId (i + 1) (if subNode.id == subNodeId then some i else nth) subNodes

def getNthOfBatchTasks (table : NodeTable) (subNodeId : Uuid) : Except String Nat :=
  match Rows.find NodeInstance.id subNodeId table.rows with
  | none => .error "No such node!"
  | some row =>
    let batchParentId := row.id
    let subNodes := table.rows.filter fun el => el.batchParentId == some batchParentId
    match nthFrom subNodeId 0 none subNodes with
    | some nth => .ok nth
    | none => .error "No such sub node!"

end SeaOrm

namespace JsonRepository

def getNthOfBatchTasks (table : NodeTable) (subNodeId : Uuid) : Except String Nat :=
  match Rows.find NodeInstance.id subNodeId table.rows with
  | none => .error "No such sub node!"
  | some el =>
    let batchParentId := el.batchParentId
    let subNodes := table.rows.filter fun el => el.batchParentId == batchParentId
    match subNodes.findIdx? fun el => el.id == subNodeId with
    | some nth => .ok nth
    | none => .error "No such sub node!"

end JsonRepository

-- The position of the sub-node in the list of its siblings.
structure Locates (table : NodeTable) (x : NodeInstance) (p : Uuid) (nth : Nat) : Prop where
  listed : (SeaOrm.getNodeSubNodeInstances table p)[nth]? = some x
  seaOrm : SeaOrm.getNthOfBatchTasks table x.id = .ok nth
  json : JsonRepository.getNthOfBatchTasks table x.id = .ok nth

section

variable {table : NodeTable} {x : NodeInstance} {p id : Uuid} {xs before after : List NodeInstance}

theorem siblings_eq (table : NodeTable) (p : Uuid) : SeaOrm.getNodeSubNodeInstances table p =
    table.rows.filter fun el => el.batchParentId == some p := by
  rw [SeaOrm.getNodeSubNodeInstances, List.filter_filter]
  refine List.filter_congr fun el _ => ?_
  cases hparent : el.batchParentId == some p with
  | false => rfl
  | true => rw [eq_of_beq hparent]; rfl

theorem getNodeSubNodeInstances_lists {env : Env} {w : World} (htable : table.rows = w.db.nodes)
    (hcall : env.fails w.calls = false) (p : Uuid) :
    (getNodeSubNodeInstances p env w).1 =
      .ok ((env.rows w.calls).on (SeaOrm.getNodeSubNodeInstances table p)) := by
  rw [siblings_eq, htable, getNodeSubNodeInstances, selectNodes,
    Effect.bind_of_ok (rfl : Effect.read env w = (.ok env, w)), Effect.bind_of_ok (call_ok hcall)]
  rfl

theorem nthFrom_absent (h : ∀ y ∈ xs, y.id ≠ id) (i : Nat) (nth : Option Nat) :
    SeaOrm.nthFrom id i nth xs = nth := by
  induction xs generalizing i with
  | nil => rfl
  | cons y xs ih =>
    rw [SeaOrm.nthFrom, beq_false_of_ne (h y List.mem_cons_self)]
    exact ih (fun z hz => h z (List.mem_cons_of_mem y hz)) (i + 1)

theorem nthFrom_append (hbefore : ∀ y ∈ before, y.id ≠ x.id) (hafter : ∀ y ∈ after, y.id ≠ x.id)
    (i : Nat) : SeaOrm.nthFrom x.id i none (before ++ x :: after) = some (i + before.length) := by
  induction before generalizing i with
  | nil =>
    rw [List.nil_append, SeaOrm.nthFrom, beq_self_eq_true, nthFrom_absent hafter]
    rfl
  | cons y before ih =>
    rw [List.cons_append, SeaOrm.nthFrom, beq_false_of_ne (hbefore y List.mem_cons_self)]
    refine (ih (fun z hz => hbefore z (List.mem_cons_of_mem y hz)) (i + 1)).trans ?_
    rw [List.length_cons, Nat.add_assoc, Nat.add_comm 1]

theorem findIdx_append (hbefore : ∀ y ∈ before, y.id ≠ x.id) :
    (before ++ x :: after).findIdx? (fun el => el.id == x.id) = some before.length := by
  have hnone : before.findIdx? (fun el => el.id == x.id) = none :=
    List.findIdx?_eq_none_iff.mpr fun y hy => beq_false_of_ne (hbefore y hy)
  rw [List.findIdx?_append, hnone]
  simp [List.findIdx?_cons]

-- The siblings around the sub-node; none of them has its id.
theorem siblings_around (hx : x ∈ table.rows) (hp : x.batchParentId = some p) :
    ∃ before after, (table.rows.filter fun el => el.batchParentId == some p) =
      before ++ x :: after ∧ (∀ y ∈ before, y.id ≠ x.id) ∧ ∀ y ∈ after, y.id ≠ x.id := by
  have hmem : x ∈ table.rows.filter fun el => el.batchParentId == some p :=
    List.mem_filter.mpr ⟨hx, by rw [hp]; exact beq_self_eq_true _⟩
  obtain ⟨before, after, hsplit⟩ := List.append_of_mem hmem
  have hnodup : ((before ++ x :: after).map NodeInstance.id).Nodup :=
    hsplit ▸ table.keyed.sublist (List.filter_sublist.map NodeInstance.id)
  rw [List.map_append, List.map_cons, List.nodup_middle, List.nodup_cons, List.mem_append,
    not_or] at hnodup
  exact ⟨before, after, hsplit, fun y hy heq => hnodup.1.1 (heq ▸ List.mem_map_of_mem hy),
    fun y hy heq => hnodup.1.2 (heq ▸ List.mem_map_of_mem hy)⟩

theorem json_locates (hx : x ∈ table.rows) (hp : x.batchParentId = some p) : ∃ nth,
    (SeaOrm.getNodeSubNodeInstances table p)[nth]? = some x ∧
      JsonRepository.getNthOfBatchTasks table x.id = .ok nth := by
  obtain ⟨before, after, hsplit, hbefore, hafter⟩ := siblings_around hx hp
  refine ⟨before.length, ?_, ?_⟩
  · rw [siblings_eq, hsplit]
    simp
  · rw [JsonRepository.getNthOfBatchTasks, Rows.find_of_mem table.keyed hx]
    simp only [hp, hsplit, findIdx_append hbefore]

theorem getNthOfBatchTasks_locates_iff (hx : x ∈ table.rows) (hp : x.batchParentId = some p) :
    (∃ nth, Locates table x p nth) ↔ p = x.id := by
  obtain ⟨before, after, hsplit, hbefore, hafter⟩ := siblings_around hx hp
  obtain ⟨nth, hlisted, hjson⟩ := json_locates hx hp
  constructor
  · rintro ⟨nth', hlocates⟩
    by_contra hne
    have hfound := hlocates.seaOrm
    rw [SeaOrm.getNthOfBatchTasks, Rows.find_of_mem table.keyed hx] at hfound
    have habsent : ∀ y ∈ table.rows.filter fun el => el.batchParentId == some x.id,
        y.id ≠ x.id := by
      intro y hy heq
      obtain ⟨hy, hparent⟩ := List.mem_filter.mp hy
      rw [Rows.eq_of_key table.keyed hy hx heq, hp] at hparent
      exact hne (Option.some.inj (eq_of_beq hparent))
    simp only [nthFrom_absent habsent] at hfound
    cases hfound
  · rintro rfl
    have hsame : nth = before.length := by
      rw [JsonRepository.getNthOfBatchTasks, Rows.find_of_mem table.keyed hx] at hjson
      simp only [hp, hsplit, findIdx_append hbefore] at hjson
      exact (Except.ok.inj hjson).symm
    refine ⟨nth, hlisted, ?_, hjson⟩
    rw [SeaOrm.getNthOfBatchTasks, Rows.find_of_mem table.keyed hx]
    simp only [hsplit, nthFrom_append hbefore hafter, Nat.zero_add, hsame]

end

def subNode (id : Uuid) (batchParentId : Option Uuid) : NodeInstance where
  kind := .noAction
  id := id
  name := ""
  isParent := false
  batchParentId := batchParentId
  flowInstanceId := 0

def selfParent : NodeTable := ⟨[subNode 1 none, subNode 2 (some 3), subNode 3 (some 3)], by decide⟩

theorem getNthOfBatchTasks_locates_selfParent :
    ∃ nth, Locates selfParent (subNode 3 (some 3)) 3 nth :=
  (getNthOfBatchTasks_locates_iff (by decide) rfl).mpr rfl

def batch : NodeTable := ⟨[subNode 1 none, subNode 2 (some 1), subNode 3 (some 1)], by decide⟩

theorem getNthOfBatchTasks_misses : ¬∀ (table : NodeTable) (x : NodeInstance) (p : Uuid),
    x ∈ table.rows → x.batchParentId = some p → ∃ nth, Locates table x p nth := by
  intro h
  obtain ⟨nth, hlocates⟩ := h batch (subNode 3 (some 1)) 1 (by decide) rfl
  exact nomatch hlocates.seaOrm

end Kuintessence
