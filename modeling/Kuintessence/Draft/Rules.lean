import Kuintessence.Draft.Checks

namespace Kuintessence

open Outcome

namespace NodeInputSlot

def items (s : NodeInputSlot) : Nat := s.count.getD 0

theorem items_of_count {s : NodeInputSlot} {c : Nat} (h : s.count = some c) : s.items = c := by
  rw [items, h, Option.getD_some]

theorem count_of_items {s : NodeInputSlot} {c : Nat} (h : s.items = c) (hc : c ≠ 0) :
    s.count = some c := by
  rw [items] at h
  cases hs : s.count with
  | none => rw [hs, Option.getD_none] at h; exact absurd h.symm hc
  | some c' => rw [hs, Option.getD_some] at h; rw [h]

end NodeInputSlot

namespace WorkflowDraftSpec

variable {d : WorkflowDraftSpec} {fileExists : Uuid → Bool}

def KindsAgree (o : NodeDraftOutputSlot) (i : NodeInputSlot) : Prop :=
  match o.kind, i.kind with
  | .file _ _, .file _ _ _ => True
  | .text, .text _ => True
  | _, _ => False

theorem sameKind_iff_kindsAgree {o : NodeDraftOutputSlot} {i : NodeInputSlot}
    (h : i.count ≠ none) : sameKind o i = true ↔ KindsAgree o i := by
  obtain ⟨ikind, _, _⟩ := i
  obtain ⟨okind, _, _⟩ := o
  cases okind <;> cases ikind <;> simp_all [sameKind, KindsAgree, NodeInputSlot.count]

def SlotsMatch (fromNode toNode : NodeDraft) (s : SlotRelation) : Prop :=
  ∃ o, fromNode.getOutputSlot s.fromSlot = some o ∧
    ∃ i, toNode.getInputSlot s.toSlot = some i ∧ i.items = 0 ∧ KindsAgree o i

def RelationsExist (d : WorkflowDraftSpec) : Prop :=
  ∀ r ∈ d.nodeRelations, ∃ fromNode, d.getNode r.fromId = some fromNode ∧
    ∃ toNode, d.getNode r.toId = some toNode ∧
      ∀ s ∈ r.slotRelations, SlotsMatch fromNode toNode s

def FilesUploaded (d : WorkflowDraftSpec) (fileExists : Uuid → Bool) : Prop :=
  ∀ n ∈ d.nodeDrafts, ∀ s ∈ n.inputSlots, ∀ x ∈ s.fileInputs, fileExists x.fileMetadataId = true

def ClustersSelected (d : WorkflowDraftSpec) : Prop :=
  ∀ n ∈ d.nodeDrafts, selectsCluster n.schedulingStrategy = true

def FedHere (d : WorkflowDraftSpec) (n : NodeDraft) (descriptor : String) : Prop :=
  ∃ r ∈ d.nodeRelations, r.toId = n.externalId ∧ feeds descriptor r = true

def FedByBatch (d : WorkflowDraftSpec) (n : NodeDraft) (descriptor : String) : Prop :=
  ∃ r ∈ d.nodeRelations, r.toId = n.externalId ∧ feeds descriptor r = true ∧
    ∃ fromNode, d.getNode r.fromId = some fromNode ∧ fromNode.batchStrategies.getD [] ≠ []

structure Rules (d : WorkflowDraftSpec) (fileExists : Uuid → Bool) : Prop where
  relations : RelationsExist d
  files : FilesUploaded d fileExists
  clusters : ClustersSelected d
  inputs : ∀ n ∈ d.nodeDrafts, ∀ s ∈ n.inputSlots,
    FedHere d n s.descriptor ∨ 1 ≤ s.items ∨ s.optional = true
  strategies : ∀ n ∈ d.nodeDrafts, ∀ b ∈ n.batchStrategies.getD [],
    ∃ s, n.getInputSlot b.inputSlotDescriptor = some s ∧
      match b.kind with
      | .originalBatch => 1 < s.items
      | .matchRegex _ _ _ => s.items = 1
      | .fromBatchOutputs => FedByBatch d n s.descriptor

structure Undisputed (d : WorkflowDraftSpec) (fileExists : Uuid → Bool) : Prop where
  relations : RelationsExist d
  files : FilesUploaded d fileExists
  clusters : ClustersSelected d
  inputs : ∀ n ∈ d.nodeDrafts, ∀ s ∈ n.inputSlots,
    s.descriptor ∈ d.reliedInputSlots ∨ 1 ≤ s.items ∨ s.optional = true
  strategies : ∀ n ∈ d.nodeDrafts, ∀ b ∈ n.batchStrategies.getD [],
    ∃ s, n.getInputSlot b.inputSlotDescriptor = some s ∧
      ∀ regexToMatch fillCount filler, b.kind = .matchRegex regexToMatch fillCount filler →
        s.items = 1

def ContentsPresent (d : WorkflowDraftSpec) : Prop :=
  (∀ r ∈ d.nodeRelations, ∀ toNode, d.getNode r.toId = some toNode → ∀ s ∈ r.slotRelations,
    ∀ i, toNode.getInputSlot s.toSlot = some i → i.count ≠ none) ∧
  ∀ n ∈ d.nodeDrafts, ∀ s ∈ n.inputSlots,
    s.isFile = true ∨ s.descriptor ∉ d.reliedInputSlots → s.count ≠ none

structure PassesSlips (d : WorkflowDraftSpec) : Prop where
  contents : ContentsPresent d
  original : ∀ n ∈ d.nodeDrafts, ∀ b ∈ n.batchStrategies.getD [], b.kind ≠ .originalBatch
  outputs : ∀ n ∈ d.nodeDrafts, ∀ b ∈ n.batchStrategies.getD [], ∀ s,
    n.getInputSlot b.inputSlotDescriptor = some s → b.kind = .fromBatchOutputs →
      BatchOutputsFound d s

structure MeetsMissed (d : WorkflowDraftSpec) : Prop where
  inputs : ∀ n ∈ d.nodeDrafts, ∀ s ∈ n.inputSlots,
    FedHere d n s.descriptor ∨ 1 ≤ s.items ∨ s.optional = true
  original : ∀ n ∈ d.nodeDrafts, ∀ b ∈ n.batchStrategies.getD [], ∀ s,
    n.getInputSlot b.inputSlotDescriptor = some s → b.kind = .originalBatch → 1 < s.items
  outputs : ∀ n ∈ d.nodeDrafts, ∀ b ∈ n.batchStrategies.getD [], ∀ s,
    n.getInputSlot b.inputSlotDescriptor = some s → b.kind = .fromBatchOutputs →
      FedByBatch d n s.descriptor

theorem relationHolds_iff {r : NodeRelation} :
    RelationHolds d r ↔
      (∃ fromNode, d.getNode r.fromId = some fromNode ∧ ∃ toNode, d.getNode r.toId = some toNode ∧
        ∀ s ∈ r.slotRelations, SlotsMatch fromNode toNode s) ∧
      ∀ toNode, d.getNode r.toId = some toNode → ∀ s ∈ r.slotRelations, ∀ i,
        toNode.getInputSlot s.toSlot = some i → i.count ≠ none := by
  constructor
  · rintro ⟨f, hf, t, ht, hall⟩
    refine ⟨⟨f, hf, t, ht, fun s hs => ?_⟩, fun t' ht' s hs i hi => ?_⟩
    · obtain ⟨o, ho, i, hi, hc, hk⟩ := hall s hs
      have hread : i.count ≠ none := by rw [hc]; exact Option.some_ne_none 0
      exact ⟨o, ho, i, hi, NodeInputSlot.items_of_count hc, (sameKind_iff_kindsAgree hread).mp hk⟩
    · rw [ht, Option.some.injEq] at ht'
      subst ht'
      obtain ⟨o, ho, i', hi', hc, hk⟩ := hall s hs
      rw [hi', Option.some.injEq] at hi
      subst hi
      rw [hc]
      exact Option.some_ne_none 0
  · rintro ⟨⟨f, hf, t, ht, hall⟩, hread⟩
    refine ⟨f, hf, t, ht, fun s hs => ?_⟩
    obtain ⟨o, ho, i, hi, hzero, hk⟩ := hall s hs
    have hne := hread t ht s hs i hi
    obtain ⟨c, hc⟩ := Option.ne_none_iff_exists'.mp hne
    rw [NodeInputSlot.items_of_count hc] at hzero
    subst hzero
    exact ⟨o, ho, i, hi, hc, (sameKind_iff_kindsAgree hne).mpr hk⟩

theorem relations_hold_iff :
    (∀ r ∈ d.nodeRelations, RelationHolds d r) ↔
      RelationsExist d ∧
        ∀ r ∈ d.nodeRelations, ∀ toNode, d.getNode r.toId = some toNode → ∀ s ∈ r.slotRelations,
          ∀ i, toNode.getInputSlot s.toSlot = some i → i.count ≠ none := by
  simp only [relationHolds_iff, RelationsExist]
  exact ⟨fun h => ⟨fun r hr => (h r hr).1, fun r hr => (h r hr).2⟩,
    fun h r hr => ⟨h.1 r hr, h.2 r hr⟩⟩

theorem inputHolds_iff {s : NodeInputSlot} :
    InputHolds d.reliedInputSlots fileExists s ↔
      (s.descriptor ∈ d.reliedInputSlots ∨ 1 ≤ s.items ∨ s.optional = true) ∧
      (s.isFile = true ∨ s.descriptor ∉ d.reliedInputSlots → s.count ≠ none) ∧
      ∀ x ∈ s.fileInputs, fileExists x.fileMetadataId = true := by
  rw [InputHolds, List.contains_iff_mem]
  by_cases hr : s.descriptor ∈ d.reliedInputSlots
  · simp only [hr, true_or, not_true_eq_false, or_false, true_and]
  · simp only [hr, false_or, not_false_eq_true, or_true, true_imp_iff]
    constructor
    · rintro ⟨⟨c, hc, hfull⟩, -, hx⟩
      rw [← NodeInputSlot.items_of_count hc] at hfull
      exact ⟨hfull, by rw [hc]; exact Option.some_ne_none c, hx⟩
    · rintro ⟨hfull, hread, hx⟩
      obtain ⟨c, hc⟩ := Option.ne_none_iff_exists'.mp hread
      rw [NodeInputSlot.items_of_count hc] at hfull
      exact ⟨⟨c, hc, hfull⟩, fun _ => hread, hx⟩

theorem strategyHolds_iff {n : NodeDraft} {b : BatchStrategy} :
    StrategyHolds d n b ↔
      (∃ s, n.getInputSlot b.inputSlotDescriptor = some s ∧
        ∀ regexToMatch fillCount filler, b.kind = .matchRegex regexToMatch fillCount filler →
          s.items = 1) ∧
      b.kind ≠ .originalBatch ∧
      ∀ s, n.getInputSlot b.inputSlotDescriptor = some s → b.kind = .fromBatchOutputs →
        BatchOutputsFound d s := by
  unfold StrategyHolds
  cases hs : n.getInputSlot b.inputSlotDescriptor with
  | none => simp
  | some s =>
    cases b.kind with
    | originalBatch => simp
    | fromBatchOutputs => simp
    | matchRegex regexToMatch fillCount filler =>
      simp only [Option.some.injEq, exists_eq_left', BatchStrategyKind.matchRegex.injEq, and_imp,
        reduceCtorEq, false_imp_iff, imp_true_iff, ne_eq, not_false_eq_true, and_true]
      constructor
      · intro hc _ _ _ _ _ _
        exact NodeInputSlot.items_of_count hc
      · intro h
        exact NodeInputSlot.count_of_items (h _ _ _ rfl rfl rfl) Nat.one_ne_zero

theorem draftHolds_iff : DraftHolds d fileExists ↔ Undisputed d fileExists ∧ PassesSlips d := by
  unfold DraftHolds
  rw [relations_hold_iff]
  constructor
  · rintro ⟨⟨hrel, hread⟩, hn⟩
    have hin (n) (hm : n ∈ d.nodeDrafts) (s) (hs : s ∈ n.inputSlots) :=
      inputHolds_iff.mp ((hn n hm).1 s hs)
    have hst (n) (hm : n ∈ d.nodeDrafts) (b) (hb : b ∈ n.batchStrategies.getD []) :=
      strategyHolds_iff.mp ((hn n hm).2.2 b hb)
    refine ⟨⟨hrel, ?_, ?_, ?_, ?_⟩, ⟨hread, ?_⟩, ?_, ?_⟩
    · exact fun n hm s hs => (hin n hm s hs).2.2
    · exact fun n hm => (hn n hm).2.1
    · exact fun n hm s hs => (hin n hm s hs).1
    · exact fun n hm b hb => (hst n hm b hb).1
    · exact fun n hm s hs => (hin n hm s hs).2.1
    · exact fun n hm b hb => (hst n hm b hb).2.1
    · exact fun n hm b hb => (hst n hm b hb).2.2
  · rintro ⟨hu, hp⟩
    refine ⟨⟨hu.relations, hp.contents.1⟩, fun n hm => ⟨fun s hs => ?_, hu.clusters n hm, fun b hb => ?_⟩⟩
    · exact inputHolds_iff.mpr ⟨hu.inputs n hm s hs, hp.contents.2 n hm s hs, hu.files n hm s hs⟩
    · exact strategyHolds_iff.mpr ⟨hu.strategies n hm b hb, hp.original n hm b hb, hp.outputs n hm b hb⟩

theorem mem_reliedInputSlots_of_fedHere {n : NodeDraft} {descriptor : String}
    (h : FedHere d n descriptor) : descriptor ∈ d.reliedInputSlots := by
  obtain ⟨r, hr, -, hf⟩ := h
  rw [feeds, List.any_eq_true] at hf
  obtain ⟨s, hs, hd⟩ := hf
  rw [beq_iff_eq] at hd
  subst hd
  exact List.mem_flatMap.mpr ⟨r, hr, List.mem_map_of_mem hs⟩

theorem rules_iff : Rules d fileExists ↔ Undisputed d fileExists ∧ MeetsMissed d := by
  constructor
  · intro h
    refine ⟨⟨h.relations, h.files, h.clusters, ?_, ?_⟩, ⟨h.inputs, ?_, ?_⟩⟩
    · intro n hm s hs
      rcases h.inputs n hm s hs with hfed | hfull
      · exact .inl (mem_reliedInputSlots_of_fedHere hfed)
      · exact .inr hfull
    · intro n hm b hb
      obtain ⟨s, hs, hk⟩ := h.strategies n hm b hb
      refine ⟨s, hs, fun regexToMatch fillCount filler he => ?_⟩
      rw [he] at hk
      exact hk
    · intro n hm b hb s hs he
      obtain ⟨s', hs', hk⟩ := h.strategies n hm b hb
      rw [hs, Option.some.injEq] at hs'
      subst hs'
      rw [he] at hk
      exact hk
    · intro n hm b hb s hs he
      obtain ⟨s', hs', hk⟩ := h.strategies n hm b hb
      rw [hs, Option.some.injEq] at hs'
      subst hs'
      rw [he] at hk
      exact hk
  · rintro ⟨hu, hm⟩
    refine ⟨hu.relations, hu.files, hu.clusters, hm.inputs, fun n hn b hb => ?_⟩
    obtain ⟨s, hs, hk⟩ := hu.strategies n hn b hb
    refine ⟨s, hs, ?_⟩
    have horig := hm.original n hn b hb s hs
    have hout := hm.outputs n hn b hb s hs
    cases hkind : b.kind with
    | originalBatch => exact horig hkind
    | matchRegex regexToMatch fillCount filler => exact hk _ _ _ hkind
    | fromBatchOutputs => exact hout hkind

end WorkflowDraftSpec

end Kuintessence
