import Kuintessence.Draft.Validation
import Kuintessence.Instance.Copy
import Kuintessence.Lib.EdgeList
import Mathlib.Algebra.BigOperators.Group.List.Basic
import Mathlib.Data.List.Find

namespace Kuintessence

open Outcome EdgeList

namespace NodeDraft

def strategies (n : NodeDraft) : List BatchStrategy := n.batchStrategies.getD []

def ReliesOnOutputs (n : NodeDraft) : Prop := ∃ b ∈ n.strategies, b.kind = .fromBatchOutputs

end NodeDraft

namespace WorkflowDraftSpec

def feedOf (d : WorkflowDraftSpec) (n : NodeDraft) (b : BatchStrategy) : Option NodeRelation :=
  d.nodeRelations.find? (fun r => r.toId == n.externalId && feeds b.inputSlotDescriptor r)

def batchEdges (d : WorkflowDraftSpec) : List (Uuid × Uuid) :=
  d.nodeDrafts.flatMap fun n => (n.strategies.filter (fun b => b.kind == .fromBatchOutputs)).flatMap
    fun b => (d.feedOf n b).toList.map (fun r => (n.externalId, r.fromId))

def strategySize (d : WorkflowDraftSpec) (size : NodeDraft → Nat) (n : NodeDraft)
    (b : BatchStrategy) : Nat :=
  match b.kind with
  | .originalBatch => ((n.getInputSlot b.inputSlotDescriptor).map NodeInputSlot.items).getD 0
  | .matchRegex _ fillCount _ => fillCount
  | .fromBatchOutputs => (((d.feedOf n b).bind (fun r => d.named r.fromId)).map size).getD 0

def size (d : WorkflowDraftSpec) : Nat → NodeDraft → Nat
  | 0, _ => 1
  | fuel + 1, n => (n.strategies.map (d.strategySize (d.size fuel) n)).prod

structure Countable (d : WorkflowDraftSpec) : Prop where
  current : d.nodeDrafts.Pairwise (fun n m => n.ReliesOnOutputs → m.externalId ≠ n.externalId)
  fed : ∀ n ∈ d.nodeDrafts, ∀ b ∈ n.strategies, b.kind = .fromBatchOutputs →
    FedHere d n b.inputSlotDescriptor
  acyclic : Acyclic d.batchEdges
  bounded : ∀ n ∈ d.nodeDrafts, ∀ bs, bs <+: n.strategies →
    (bs.map (d.strategySize (d.size d.nodeDrafts.length) n)).prod ≤ usizeMax

variable {d : WorkflowDraftSpec}

theorem mem_batchEdges {e : Uuid × Uuid} :
    e ∈ d.batchEdges ↔ ∃ n ∈ d.nodeDrafts, ∃ b ∈ n.strategies, b.kind = .fromBatchOutputs ∧
      ∃ r, d.feedOf n b = some r ∧ e = (n.externalId, r.fromId) := by
  simp only [batchEdges, List.mem_flatMap, List.mem_filter, beq_iff_eq, List.mem_map,
    Option.mem_toList, and_assoc, eq_comm (b := e)]

theorem feedOf_isSome {n : NodeDraft} {b : BatchStrategy} (h : FedHere d n b.inputSlotDescriptor) :
    ∃ r, d.feedOf n b = some r := by
  obtain ⟨r, hr, hto, hfeeds⟩ := h
  rw [← Option.isSome_iff_exists, feedOf, List.find?_isSome]
  exact ⟨r, hr, by rw [Bool.and_eq_true, beq_iff_eq]; exact ⟨hto, hfeeds⟩⟩

theorem fedHere_of_feedOf {n : NodeDraft} {b : BatchStrategy} {r : NodeRelation}
    (h : d.feedOf n b = some r) : FedHere d n b.inputSlotDescriptor := by
  have hp := List.find?_some h
  rw [Bool.and_eq_true, beq_iff_eq] at hp
  exact ⟨r, List.mem_of_find?_eq_some h, hp.1, hp.2⟩

end WorkflowDraftSpec

namespace WorkflowInstanceSpec

theorem checkedMul_ok_iff {a b c : Nat} :
    checkedMul a b = .ok c ↔ a * b ≤ usizeMax ∧ a * b = c := by
  unfold checkedMul
  split
  · next h => simp [h]
  · next h => simp [h]

variable {w : WorkflowInstanceSpec} {sub : Uuid → Anyhow Nat} {n : NodeSpec}

theorem countStrategies_ok {k : BatchStrategy → Nat} {bs : List BatchStrategy} {acc : Nat}
    (hk : ∀ b ∈ bs, w.strategyCount sub n b = .ok (k b))
    (hle : ∀ pre, pre <+: bs → acc * (pre.map k).prod ≤ usizeMax) :
    w.countStrategies sub n bs acc = .ok (acc * (bs.map k).prod) := by
  induction bs generalizing acc with
  | nil => simp [countStrategies]
  | cons b bs ih =>
    have hb : acc * k b ≤ usizeMax := by
      have h := hle [b] ⟨bs, rfl⟩
      rw [List.map_singleton, List.prod_singleton] at h
      exact h
    have hmul : checkedMul acc (k b) = .ok (acc * k b) := checkedMul_ok_iff.mpr ⟨hb, rfl⟩
    rw [countStrategies, hk b List.mem_cons_self, ok_bind, hmul, ok_bind, ih]
    · rw [List.map_cons, List.prod_cons, Nat.mul_assoc]
    · exact fun b' hb' => hk b' (List.mem_cons_of_mem b hb')
    · rintro pre ⟨post, rfl⟩
      have h := hle (b :: pre) ⟨post, rfl⟩
      rw [List.map_cons, List.prod_cons, ← Nat.mul_assoc] at h
      exact h

theorem countStrategies_ok_inv {bs : List BatchStrategy} {acc c : Nat}
    (h : w.countStrategies sub n bs acc = .ok c) :
    ∀ b ∈ bs, ∃ k, w.strategyCount sub n b = .ok k := by
  induction bs generalizing acc with
  | nil => simp
  | cons b bs ih =>
    rw [countStrategies, bind_ok_iff] at h
    obtain ⟨k, hk, h⟩ := h
    rw [bind_ok_iff] at h
    obtain ⟨acc', -, h⟩ := h
    intro b' hb'
    rcases List.mem_cons.mp hb' with rfl | hb'
    · exact ⟨k, hk⟩
    · exact ih h b' hb'

theorem countStrategies_prefix_le {k : BatchStrategy → Nat} {bs : List BatchStrategy}
    {acc c : Nat} (hk : ∀ b ∈ bs, w.strategyCount sub n b = .ok (k b)) (hacc : acc ≤ usizeMax)
    (h : w.countStrategies sub n bs acc = .ok c) :
    (∀ pre, pre <+: bs → acc * (pre.map k).prod ≤ usizeMax) ∧ c = acc * (bs.map k).prod := by
  induction bs generalizing acc with
  | nil =>
    rw [countStrategies, ok.injEq] at h
    refine ⟨fun pre hpre => ?_, by simp [h]⟩
    rw [List.prefix_nil.mp hpre]
    simpa using hacc
  | cons b bs ih =>
    rw [countStrategies, hk b List.mem_cons_self, ok_bind, bind_ok_iff] at h
    obtain ⟨acc', hmul, h⟩ := h
    obtain ⟨hle, rfl⟩ := checkedMul_ok_iff.mp hmul
    obtain ⟨hpre, hc⟩ := ih (fun b' hb' => hk b' (List.mem_cons_of_mem b hb')) hle h
    refine ⟨fun pre hp => ?_, ?_⟩
    · rcases List.prefix_cons_iff.mp hp with rfl | ⟨pre', rfl, hp'⟩
      · simpa using hacc
      · rw [List.map_cons, List.prod_cons, ← Nat.mul_assoc]
        exact hpre pre' hp'
    · rw [hc, List.map_cons, List.prod_cons, Nat.mul_assoc]

end WorkflowInstanceSpec

section Renamed

open WorkflowDraftSpec WorkflowInstanceSpec

variable {d : WorkflowDraftSpec} {w : WorkflowInstanceSpec} {ps : List (NodeDraft × NodeSpec)}
  {new : Uuid → Uuid} {p q : NodeDraft × NodeSpec} {b : BatchStrategy} {sub : Uuid → Anyhow Nat}

def Current (ps : List (NodeDraft × NodeSpec)) (p : NodeDraft × NodeSpec) : Prop :=
  last ps p.1.externalId = some p

theorem Renamed.target_iff (h : Renamed d w ps new) (hp : p ∈ ps) {r : NodeRelation}
    (hr : r ∈ d.nodeRelations) : new r.toId = p.2.id ↔ last ps r.toId = some p := by
  obtain ⟨q, hq⟩ := (h.ends r hr).2
  rw [h.new_eq _ _ hq, hq, Option.some.injEq]
  exact ⟨h.eq_of_id_eq (mem_of_last hq) hp, fun heq => by rw [heq]⟩

theorem Renamed.find?_feeds (h : Renamed d w ps new) (hp : p ∈ ps) (descriptor : String) :
    (w.nodeDependencyRelations p.2.id).find? (feeds descriptor) =
      (d.nodeRelations.find? (fun r => decide (last ps r.toId = some p) && feeds descriptor r)).map
        (fun r => { r with fromId := new r.fromId, toId := new r.toId }) := by
  rw [nodeDependencyRelations, h.relations, List.find?_filter, List.find?_map]
  refine congrArg _ (List.find?_congr fun r hr => ?_)
  rw [Function.comp_apply, Bool.eq_iff_iff, Bool.and_eq_true, decide_eq_true_iff,
    decide_eq_true_iff, beq_iff_eq, h.target_iff hp hr]
  rfl

theorem Renamed.find?_feeds_current (h : Renamed d w ps new) (hp : p ∈ ps) (hc : Current ps p) :
    (w.nodeDependencyRelations p.2.id).find? (feeds b.inputSlotDescriptor) =
      (d.feedOf p.1 b).map (fun r => { r with fromId := new r.fromId, toId := new r.toId }) := by
  rw [h.find?_feeds hp, feedOf]
  congr 2
  funext r
  rw [Bool.eq_iff_iff, Bool.and_eq_true, Bool.and_eq_true, decide_eq_true_iff, beq_iff_eq]
  refine and_congr_left fun _ => ⟨fun hl => (externalId_of_last hl).symm, fun ht => ?_⟩
  rw [ht]
  exact hc

theorem Renamed.find?_feeds_stale (h : Renamed d w ps new) (hp : p ∈ ps) (hc : ¬Current ps p)
    (descriptor : String) : (w.nodeDependencyRelations p.2.id).find? (feeds descriptor) = none := by
  rw [h.find?_feeds hp, Option.map_eq_none_iff, List.find?_eq_none]
  intro r _ hand
  rw [Bool.and_eq_true, decide_eq_true_iff] at hand
  apply hc
  rw [Current, externalId_of_last hand.1]
  exact hand.1

theorem Renamed.strategyCount_ok_iff (h : Renamed d w ps new) (hp : p ∈ ps)
    (hb : b.kind = .fromBatchOutputs) {k : Nat} :
    w.strategyCount sub p.2 b = .ok k ↔
      Current ps p ∧ ∃ r, d.feedOf p.1 b = some r ∧ sub (new r.fromId) = .ok k := by
  simp only [strategyCount, hb, bind_ok_iff, unwrap_ok_iff]
  by_cases hc : Current ps p
  · simp only [h.find?_feeds_current hp hc, Option.map_eq_some_iff, hc, true_and]
    constructor
    · rintro ⟨_, ⟨r, hr, rfl⟩, hk⟩
      exact ⟨r, hr, hk⟩
    · rintro ⟨r, hr, hk⟩
      exact ⟨_, ⟨r, hr, rfl⟩, hk⟩
  · simp only [h.find?_feeds_stale hp hc, hc, false_and, reduceCtorEq, exists_false]

theorem Renamed.source (h : Renamed d w ps new) {n : NodeDraft} {r : NodeRelation}
    (hr : d.feedOf n b = some r) : ∃ q ∈ ps, Current ps q ∧ q.1.externalId = r.fromId ∧
      new r.fromId = q.2.id ∧ d.named r.fromId = some q.1 := by
  obtain ⟨q, hq⟩ := (h.ends r (List.mem_of_find?_eq_some hr)).1
  have hext := externalId_of_last hq
  refine ⟨q, mem_of_last hq, ?_, hext, h.new_eq _ _ hq, ?_⟩
  · rw [Current, hext]
    exact hq
  · rw [h.named_eq, hq]
    rfl

def NoOriginalBatch (d : WorkflowDraftSpec) : Prop :=
  ∀ n ∈ d.nodeDrafts, ∀ b ∈ n.strategies, b.kind ≠ .originalBatch

theorem Copy.mem_drafts (h : Copy d w ps) (hp : p ∈ ps) : p.1 ∈ d.nodeDrafts := by
  rw [← h.drafts]
  exact List.mem_map_of_mem hp

theorem Copy.strategies_eq (h : Copy d w ps) (hp : p ∈ ps) :
    p.2.batchStrategies = p.1.strategies := (h.copied p hp).batchStrategies

theorem Renamed.strategyCount_value (h : Renamed d w ps new) (horig : NoOriginalBatch d)
    (hp : p ∈ ps) (hb : b ∈ p.1.strategies) {size : NodeDraft → Nat} {k : Nat}
    (hsub : ∀ q ∈ ps, ∀ c, sub q.2.id = .ok c → c = size q.1)
    (hk : w.strategyCount sub p.2 b = .ok k) : k = d.strategySize size p.1 b := by
  cases hkind : b.kind with
  | originalBatch => exact absurd hkind (horig p.1 (h.mem_drafts hp) b hb)
  | matchRegex regexToMatch fillCount filler =>
    simp only [strategyCount, hkind, ok.injEq] at hk
    simp only [strategySize, hkind]
    exact hk.symm
  | fromBatchOutputs =>
    obtain ⟨-, r, hr, hc⟩ := (h.strategyCount_ok_iff hp hkind).mp hk
    obtain ⟨q, hq, -, -, hnew, hnamed⟩ := h.source hr
    rw [hnew] at hc
    simp only [strategySize, hkind, hr, Option.bind_some, hnamed, Option.map_some, Option.getD_some]
    exact hsub q hq k hc

theorem Renamed.subNodeCountAux_succ (h : Renamed d w ps new) (hp : p ∈ ps) (fuel : Nat) :
    w.subNodeCountAux (fuel + 1) p.2.id =
      w.countStrategies (w.subNodeCountAux fuel) p.2 p.1.strategies 1 := by
  rw [subNodeCountAux, h.node_eq hp, ok_bind, h.strategies_eq hp]

theorem Renamed.counts (h : Renamed d w ps new) (horig : NoOriginalBatch d) (hp : p ∈ ps)
    {size : NodeDraft → Nat} {c : Nat} (hsub : ∀ q ∈ ps, ∀ c, sub q.2.id = .ok c → c = size q.1)
    (hc : w.countStrategies sub p.2 p.1.strategies 1 = .ok c) :
    (∀ bs, bs <+: p.1.strategies → (bs.map (d.strategySize size p.1)).prod ≤ usizeMax) ∧
      c = (p.1.strategies.map (d.strategySize size p.1)).prod := by
  have hk : ∀ b ∈ p.1.strategies,
      w.strategyCount sub p.2 b = .ok (d.strategySize size p.1 b) := by
    intro b hb
    obtain ⟨k, hk⟩ := countStrategies_ok_inv hc b hb
    rw [← h.strategyCount_value horig hp hb hsub hk]
    exact hk
  have hone : 1 ≤ usizeMax := by decide
  obtain ⟨hle, heq⟩ := countStrategies_prefix_le hk hone hc
  simp only [Nat.one_mul] at hle heq
  exact ⟨hle, heq⟩

theorem Renamed.size_eq (h : Renamed d w ps new) (horig : NoOriginalBatch d) (fuel : Nat) :
    ∀ p ∈ ps, ∀ c, w.subNodeCountAux fuel p.2.id = .ok c → c = d.size fuel p.1 := by
  induction fuel with
  | zero =>
    intro p _ c hc
    simp [subNodeCountAux] at hc
  | succ fuel ih =>
    intro p hp c hc
    rw [h.subNodeCountAux_succ hp] at hc
    exact (h.counts horig hp ih hc).2

theorem Copy.exists_pair (h : Copy d w ps) {n : NodeDraft} (hn : n ∈ d.nodeDrafts) :
    ∃ p ∈ ps, p.1 = n := by
  rw [← h.drafts] at hn
  exact List.mem_map.mp hn

theorem Current.eq (hp : Current ps p) (hq : Current ps q)
    (hext : p.1.externalId = q.1.externalId) : p = q := by
  rw [Current, hext, hq, Option.some.injEq] at hp
  exact hp.symm

theorem Copy.pairwise_current (h : Copy d w ps)
    (hc : ∀ p ∈ ps, p.1.ReliesOnOutputs → Current ps p) :
    d.nodeDrafts.Pairwise (fun n m => n.ReliesOnOutputs → m.externalId ≠ n.externalId) := by
  rw [← h.drafts, List.pairwise_map, List.pairwise_iff_forall_sublist]
  intro p q hsub hrelies hext
  have hp : p ∈ ps := hsub.subset (by simp)
  have hlast := hc p hp hrelies
  obtain ⟨pre, post, rfl, hpre, hpost⟩ := List.cons_sublist_iff.mp hsub
  have hq : q ∈ post := hpost.subset List.mem_cons_self
  obtain ⟨q', hq'⟩ := exists_last hq
  rw [Current, last, List.reverse_append, List.find?_append, ← last, ← hext, hq', Option.some_or,
    Option.some.injEq] at hlast
  have hdisjoint := h.nodup
  rw [List.map_append, List.nodup_append] at hdisjoint
  apply hdisjoint.2.2 _ (List.mem_map_of_mem hpre) _ (List.mem_map_of_mem (mem_of_last hq'))
  rw [hlast]

theorem Copy.current_of_pairwise (h : Copy d w ps)
    (hc : d.nodeDrafts.Pairwise (fun n m => n.ReliesOnOutputs → m.externalId ≠ n.externalId))
    (hp : p ∈ ps) (hrelies : p.1.ReliesOnOutputs) : Current ps p := by
  rw [← h.drafts, List.pairwise_map] at hc
  obtain ⟨pre, post, rfl⟩ := List.append_of_mem hp
  rw [List.pairwise_append, List.pairwise_cons] at hc
  have hpost : post.reverse.find? (fun q => q.1.externalId == p.1.externalId) = none := by
    rw [List.find?_eq_none]
    intro q hq hb
    exact hc.2.1.1 q (List.mem_reverse.mp hq) hrelies (beq_iff_eq.mp hb)
  rw [Current, last, List.reverse_append, List.reverse_cons, List.append_assoc, List.find?_append,
    hpost, Option.none_or, List.singleton_append, List.find?_cons, beq_self_eq_true]

theorem named_spec {n : NodeDraft} {id : Uuid} (h : d.named id = some n) :
    n ∈ d.nodeDrafts ∧ n.externalId = id := by
  have hid := List.find?_some h
  exact ⟨List.mem_reverse.mp (List.mem_of_find?_eq_some h), beq_iff_eq.mp hid⟩

theorem strategySize_congr {n : NodeDraft} {size size' : NodeDraft → Nat} (hn : n ∈ d.nodeDrafts)
    (hb : b ∈ n.strategies)
    (h : ∀ m ∈ d.nodeDrafts, (n.externalId, m.externalId) ∈ d.batchEdges → size m = size' m) :
    d.strategySize size n b = d.strategySize size' n b := by
  unfold strategySize
  cases hkind : b.kind with
  | originalBatch => rfl
  | matchRegex regexToMatch fillCount filler => rfl
  | fromBatchOutputs =>
    cases hr : d.feedOf n b with
    | none => rfl
    | some r =>
      cases hm : d.named r.fromId with
      | none => simp [hm]
      | some m =>
        obtain ⟨hmem, hext⟩ := named_spec hm
        have hedge : (n.externalId, m.externalId) ∈ d.batchEdges := by
          rw [hext]
          exact mem_batchEdges.mpr ⟨n, hn, b, hb, hkind, r, hr, rfl⟩
        simp only [Option.bind_some, hm, Option.map_some, Option.getD_some]
        exact h m hmem hedge

theorem size_stable {rank : Uuid → Nat} (hrank : ∀ e ∈ d.batchEdges, rank e.2 < rank e.1)
    (fuel : Nat) : ∀ fuel' n, n ∈ d.nodeDrafts → rank n.externalId < fuel →
      rank n.externalId < fuel' → d.size fuel n = d.size fuel' n := by
  induction fuel with
  | zero =>
    intro _ n _ hlt
    omega
  | succ fuel ih =>
    intro fuel' n hn hlt hlt'
    obtain ⟨fuel', rfl⟩ := Nat.exists_eq_succ_of_ne_zero (Nat.ne_zero_of_lt hlt')
    rw [size, size]
    congr 1
    refine List.map_congr_left fun b hb => strategySize_congr hn hb fun m hm hedge => ?_
    have hdown : rank m.externalId < rank n.externalId := hrank _ hedge
    exact ih fuel' m hm (by omega) (by omega)

theorem Renamed.subNodeCountAux_ok (h : Renamed d w ps new) (horig : NoOriginalBatch d)
    (hd : Countable d) {rank : Uuid → Nat} (hrank : ∀ e ∈ d.batchEdges, rank e.2 < rank e.1)
    (hbound : ∀ n ∈ d.nodeDrafts, rank n.externalId < d.nodeDrafts.length) (fuel : Nat) :
    ∀ p ∈ ps, rank p.1.externalId < fuel →
      w.subNodeCountAux fuel p.2.id = .ok (d.size fuel p.1) := by
  induction fuel with
  | zero =>
    intro p _ hlt
    omega
  | succ fuel ih =>
    intro p hp hlt
    have hmem := h.mem_drafts hp
    have hcount : ∀ b ∈ p.1.strategies, w.strategyCount (w.subNodeCountAux fuel) p.2 b =
        .ok (d.strategySize (d.size fuel) p.1 b) := by
      intro b hb
      cases hkind : b.kind with
      | originalBatch => exact absurd hkind (horig p.1 hmem b hb)
      | matchRegex regexToMatch fillCount filler => simp only [strategyCount, strategySize, hkind]
      | fromBatchOutputs =>
        have hcur := h.current_of_pairwise hd.current hp ⟨b, hb, hkind⟩
        obtain ⟨r, hr⟩ := feedOf_isSome (hd.fed p.1 hmem b hb hkind)
        obtain ⟨q, hq, -, hext, hnew, hnamed⟩ := h.source hr
        have hdown : rank r.fromId < rank p.1.externalId :=
          hrank _ (mem_batchEdges.mpr ⟨p.1, hmem, b, hb, hkind, r, hr, rfl⟩)
        rw [h.strategyCount_ok_iff hp hkind]
        refine ⟨hcur, r, hr, ?_⟩
        have hq' := ih q hq (by rw [hext]; omega)
        simp only [strategySize, hkind, hr, Option.bind_some, hnamed, Option.map_some,
          Option.getD_some, hnew, hq']
    have hle : ∀ bs, bs <+: p.1.strategies →
        1 * (bs.map (d.strategySize (d.size fuel) p.1)).prod ≤ usizeMax := by
      intro bs hbs
      have heq : bs.map (d.strategySize (d.size fuel) p.1) =
          bs.map (d.strategySize (d.size d.nodeDrafts.length) p.1) := by
        refine List.map_congr_left fun b hb =>
          strategySize_congr hmem (hbs.subset hb) fun m hm hedge => ?_
        have hdown : rank m.externalId < rank p.1.externalId := hrank _ hedge
        exact size_stable hrank fuel _ m hm (by omega) (hbound m hm)
      rw [heq, Nat.one_mul]
      exact hd.bounded p.1 hmem bs hbs
    rw [h.subNodeCountAux_succ hp, countStrategies_ok hcount hle, Nat.one_mul]
    rfl

theorem Renamed.subNodeCountAux_on_cycle (h : Renamed d w ps new)
    (hc : ∀ p ∈ ps, p.1.ReliesOnOutputs → Current ps p) (fuel : Nat) :
    ∀ p ∈ ps, Current ps p → Path d.batchEdges p.1.externalId p.1.externalId →
      ∀ c, w.subNodeCountAux fuel p.2.id ≠ .ok c := by
  induction fuel with
  | zero =>
    intro p _ _ _ c hok
    simp [subNodeCountAux] at hok
  | succ fuel ih =>
    intro p hp hcur hpath c hok
    obtain ⟨x, hedge, hx⟩ := hpath.head_on_cycle
    obtain ⟨n, hn, b, hb, hkind, r, hr, heq⟩ := mem_batchEdges.mp hedge
    rw [Prod.mk.injEq] at heq
    obtain ⟨hext, rfl⟩ := heq
    obtain ⟨p', hp', rfl⟩ := h.exists_pair hn
    obtain rfl := hcur.eq (hc p' hp' ⟨b, hb, hkind⟩) hext
    rw [h.subNodeCountAux_succ hp] at hok
    obtain ⟨k, hk⟩ := countStrategies_ok_inv hok b hb
    obtain ⟨-, r', hr', hsub⟩ := (h.strategyCount_ok_iff hp hkind).mp hk
    rw [hr, Option.some.injEq] at hr'
    subst hr'
    obtain ⟨q, hq, hqcur, hqext, hnew, -⟩ := h.source hr
    rw [hnew] at hsub
    exact ih q hq hqcur (by rw [hqext]; exact hx) k hsub

theorem Renamed.subNodeCount_ok_iff (h : Renamed d w ps new) (horig : NoOriginalBatch d) :
    (∀ p ∈ ps, ∃ c, w.subNodeCount p.2.id = .ok c) ↔ Countable d := by
  have hlen : w.nodeSpecs.length = d.nodeDrafts.length := by
    rw [← h.specs, ← h.drafts, List.length_map, List.length_map]
  unfold subNodeCount
  rw [hlen]
  constructor
  · intro hok
    have hstrategies (p) (hp : p ∈ ps) : ∃ c, w.countStrategies
        (w.subNodeCountAux d.nodeDrafts.length) p.2 p.1.strategies 1 = .ok c := by
      obtain ⟨c, hc⟩ := hok p hp
      rw [h.subNodeCountAux_succ hp] at hc
      exact ⟨c, hc⟩
    have hfeed (p) (hp : p ∈ ps) (b) (hb : b ∈ p.1.strategies) (hk : b.kind = .fromBatchOutputs) :
        Current ps p ∧ ∃ r, d.feedOf p.1 b = some r := by
      obtain ⟨c, hc⟩ := hstrategies p hp
      obtain ⟨k, hcount⟩ := countStrategies_ok_inv hc b hb
      obtain ⟨hcur, r, hr, -⟩ := (h.strategyCount_ok_iff hp hk).mp hcount
      exact ⟨hcur, r, hr⟩
    have hcur : ∀ p ∈ ps, p.1.ReliesOnOutputs → Current ps p := by
      rintro p hp ⟨b, hb, hk⟩
      exact (hfeed p hp b hb hk).1
    refine ⟨h.pairwise_current hcur, ?_, ?_, ?_⟩
    · intro n hn b hb hk
      obtain ⟨p, hp, rfl⟩ := h.exists_pair hn
      obtain ⟨-, r, hr⟩ := hfeed p hp b hb hk
      exact fedHere_of_feedOf hr
    · intro a hpath
      obtain ⟨x, hedge, -⟩ := hpath.head_on_cycle
      obtain ⟨n, hn, b, hb, hk, r, hr, heq⟩ := mem_batchEdges.mp hedge
      rw [Prod.mk.injEq] at heq
      obtain ⟨rfl, rfl⟩ := heq
      obtain ⟨p, hp, rfl⟩ := h.exists_pair hn
      obtain ⟨c, hc⟩ := hok p hp
      exact h.subNodeCountAux_on_cycle hcur _ p hp (hcur p hp ⟨b, hb, hk⟩) hpath c hc
    · intro n hn
      obtain ⟨p, hp, rfl⟩ := h.exists_pair hn
      obtain ⟨c, hc⟩ := hstrategies p hp
      exact (h.counts horig hp (h.size_eq horig _) hc).1
  · intro hd p hp
    have hV : ∀ e ∈ d.batchEdges, e.2 ∈ (d.nodeDrafts.map NodeDraft.externalId).toFinset := by
      intro e he
      obtain ⟨n, hn, b, hb, hk, r, hr, rfl⟩ := mem_batchEdges.mp he
      obtain ⟨q, hq, -, hext, -⟩ := h.source hr
      rw [List.mem_toFinset, ← hext]
      exact List.mem_map_of_mem (h.mem_drafts hq)
    obtain ⟨rank, hrank, -, hbound⟩ := exists_rank hd.acyclic _ hV
    have hcard := List.toFinset_card_le (d.nodeDrafts.map NodeDraft.externalId)
    rw [List.length_map] at hcard
    have hlt : ∀ n ∈ d.nodeDrafts, rank n.externalId < d.nodeDrafts.length := fun n hn =>
      lt_of_lt_of_le (hbound _ (List.mem_toFinset.mpr (List.mem_map_of_mem hn))) hcard
    have htop := hlt p.1 (h.mem_drafts hp)
    exact ⟨_, h.subNodeCountAux_ok horig hd hrank hlt _ p hp (by omega)⟩

end Renamed

namespace WorkflowDraftSpec

theorem DraftHolds.noOriginalBatch {d : WorkflowDraftSpec} {fileExists : Uuid → Bool}
    (h : DraftHolds d fileExists) : NoOriginalBatch d := by
  intro n hn b hb hkind
  obtain ⟨s, -, hs⟩ := (h.2 n hn).2.2 b hb
  rw [hkind] at hs
  exact hs

end WorkflowDraftSpec

open Effect

theorem returns_parseNodeInstances_iff (w : WorkflowInstance) (ids : Nat → Uuid) :
    wp w.parseNodeInstances () (fun _ _ => True) (fun _ => False) ids ↔
      ∀ n ∈ w.spec.nodeSpecs, n.batchStrategies ≠ [] → ∃ c, w.spec.subNodeCount n.id = .ok c := by
  unfold WorkflowInstance.parseNodeInstances
  simp only [wp_bind, wp_pure]
  refine returns_mapEach_iff (fun n _ t => ?_) ids
  unfold WorkflowInstance.parseNodeInstance
  split
  · next hnil => simp only [wp_pure, List.isEmpty_iff.mp hnil, ne_eq, not_true_eq_false, false_imp_iff]
  · next hne =>
    have hsubs (count : Nat) (u : Nat → Uuid) : wp (mapEach (w.subInstance n) (List.range count)) ()
        (fun _ _ => True) (fun _ => False) u :=
      (returns_mapEach_iff (fun _ _ _ => Iff.rfl) u).mpr fun _ _ => trivial
    rw [List.isEmpty_iff] at hne
    simp only [wp_bind, wp_pure, wp_lift, hsubs, imp_true_iff, true_and, imp_false, not_forall,
      not_not, ne_eq, hne, not_false_eq_true, true_imp_iff]

theorem parsed_iff_countable (d : WorkflowDraft) (fileExists : Uuid → Bool)
    (iter : Order (Uuid × Uuid)) (ids : Nat → Uuid)
    (haccepted : d.spec.validateWorkflowDraft fileExists = .ok ())
    (hids : Function.Injective ids)
    (hexternal : ∀ n ∈ d.spec.nodeDrafts, ∀ k, ids k ≠ n.externalId) :
    (∃ rows, ((WorkflowInstance.from iter d >>= WorkflowInstance.parseNodeInstances) () ids).1 =
        .ok rows) ↔ d.spec.Countable := by
  have hholds := WorkflowDraftSpec.validateWorkflowDraft_ok_iff.mp haccepted
  have hsupply : Supply (d.spec.nodeDrafts.map NodeDraft.externalId) ids := by
    refine ⟨hids, fun a ha => ?_⟩
    obtain ⟨n, hn, rfl⟩ := List.mem_map.mp ha
    exact hexternal n hn
  obtain ⟨w, t, hw, hsub⟩ := exists_of_wp (wp_instanceFrom hsupply iter d)
  have hfresh : ∀ n ∈ d.spec.nodeDrafts, n.externalId ∉ w.spec.nodeSpecs.map NodeSpec.id := by
    intro n hn hm
    obtain ⟨m, hmem, heq⟩ := List.mem_map.mp hm
    apply hsub.fresh m hmem
    rw [heq]
    exact List.mem_cons_of_mem _ (List.mem_map_of_mem hn)
  obtain ⟨ps, hren⟩ : ∃ ps, Renamed d.spec w.spec ps (newId d.spec w.spec) :=
    ⟨_, hsub.renamed hfresh fun r hr => (hholds.1 r hr).ends⟩
  rw [returns_iff, wp_bind, wp_of_eq hw, returns_parseNodeInstances_iff,
    ← hren.subNodeCount_ok_iff hholds.noOriginalBatch, ← hren.specs]
  constructor
  · intro h p hp
    by_cases hne : p.2.batchStrategies = []
    · rw [hren.strategies_eq hp] at hne
      refine ⟨1, ?_⟩
      rw [WorkflowInstanceSpec.subNodeCount, hren.subNodeCountAux_succ hp, hne]
      rfl
    · exact h p.2 (List.mem_map_of_mem hp) hne
  · intro h n hn _
    obtain ⟨p, hp, rfl⟩ := List.mem_map.mp hn
    exact h p hp

def sampleNode (id : Uuid) (slot : NodeInputSlot) (strategy : Option BatchStrategyKind)
    (output : String) : NodeDraft where
  kind := .script
  externalId := id
  name := "stage"
  batchStrategies := strategy.map (fun kind => [⟨slot.descriptor, none, kind⟩])
  inputSlots := [slot]
  outputSlots := [{ kind := .text, descriptor := output }]
  schedulingStrategy := .auto

def filledSlot (descriptor : String) : NodeInputSlot where
  kind := .text (some (.single 50))
  descriptor := descriptor

def emptySlot (descriptor : String) : NodeInputSlot where
  kind := .text (some ⟨[], by decide⟩)
  descriptor := descriptor

def sampleDraft (nodes : List NodeDraft) (relations : List NodeRelation) : WorkflowDraft :=
  ⟨900, "sample", ⟨.auto, nodes, relations⟩⟩

def sampleFiller : BatchStrategyKind := .matchRegex "#" 3 (.autoNumber 0 1)

def twoStages : WorkflowDraft := sampleDraft
  [sampleNode 1 (filledSlot "t") (some sampleFiller) "t",
    sampleNode 2 (emptySlot "s") (some .fromBatchOutputs) "out"]
  [⟨1, 2, [⟨"t", "s", .network⟩]⟩]

def fedElsewhere : WorkflowDraft := sampleDraft
  [sampleNode 1 (filledSlot "t") (some sampleFiller) "t",
    sampleNode 2 (emptySlot "s") (some .fromBatchOutputs) "out",
    sampleNode 3 (emptySlot "s") none "out"]
  [⟨1, 3, [⟨"t", "s", .network⟩]⟩]

def fedByItself : WorkflowDraft := sampleDraft
  [sampleNode 1 (emptySlot "s") (some .fromBatchOutputs) "s"]
  [⟨1, 1, [⟨"s", "s", .network⟩]⟩]

def parseSample (d : WorkflowDraft) : Anyhow (List NodeInstance) :=
  ((WorkflowInstance.from (.asIs _) d >>= WorkflowInstance.parseNodeInstances) ()
    (fun k => 100 + k)).1

theorem twoStages_parsed_iff :
    (∃ rows, parseSample twoStages = .ok rows) ↔ twoStages.spec.Countable := by
  have hsmall : ∀ n ∈ twoStages.spec.nodeDrafts, n.externalId < 100 := by decide
  refine parsed_iff_countable twoStages (fun _ => true) (.asIs _) (fun k => 100 + k) (by decide)
    (fun _ _ h => Nat.add_left_cancel h) (fun n hn k => ?_)
  have hlt : n.externalId < 100 + k := Nat.lt_add_right k (hsmall n hn)
  exact (Nat.ne_of_lt hlt).symm

theorem accepted_drafts_panic :
    (fedElsewhere.spec.validateWorkflowDraft (fun _ => true) = .ok () ∧
      parseSample fedElsewhere = .panic) ∧
    (fedByItself.spec.validateWorkflowDraft (fun _ => true) = .ok () ∧
      parseSample fedByItself = .panic) := by
  decide

end Kuintessence
