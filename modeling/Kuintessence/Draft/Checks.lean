import Kuintessence.Model.WorkflowDraft

namespace Kuintessence

open Outcome

namespace NodeInputSlot

variable {ε : Type} {s : NodeInputSlot} {n : Nat}

def count (s : NodeInputSlot) : Option Nat :=
  match s.kind with
  | .text contents => contents.map (fun c => c.toList.length)
  | .file contents _ _ => contents.map (fun c => c.toList.length)
  | .unknown => none

theorem inputsCount_eq (s : NodeInputSlot) : (s.inputsCount : Outcome ε Nat) = .unwrap s.count := by
  obtain ⟨kind, optional, descriptor⟩ := s
  rcases kind with (_ | c) | ⟨_ | c, _, _⟩ | _
  · rfl
  · rfl
  · rfl
  · rfl
  · rfl

theorem inputsCount_ok_iff : (s.inputsCount : Outcome ε Nat) = .ok n ↔ s.count = some n := by
  rw [inputsCount_eq, unwrap_ok_iff]

theorem inputsCount_panic_iff : (s.inputsCount : Outcome ε Nat) = .panic ↔ s.count = none := by
  rw [inputsCount_eq, unwrap_panic_iff]

def fileInputs (s : NodeInputSlot) : List FileInput :=
  match s.kind with
  | .file (some contents) _ _ => contents.toList
  | _ => []

def isFile (s : NodeInputSlot) : Bool :=
  match s.kind with
  | .file _ _ _ => true
  | _ => false

end NodeInputSlot

namespace WorkflowDraftSpec

variable {d : WorkflowDraftSpec} {fromNode toNode n : NodeDraft} {fromId toId : Uuid}
  {relied : List String} {fileExists : Uuid → Bool}

def SlotsAgree (fromNode toNode : NodeDraft) (s : SlotRelation) : Prop :=
  ∃ o, fromNode.getOutputSlot s.fromSlot = some o ∧
    ∃ i, toNode.getInputSlot s.toSlot = some i ∧ i.count = some 0 ∧ sameKind o i = true

def SlotUnread (fromNode toNode : NodeDraft) (s : SlotRelation) : Prop :=
  (∃ o, fromNode.getOutputSlot s.fromSlot = some o) ∧
    ∃ i, toNode.getInputSlot s.toSlot = some i ∧ i.count = none

theorem validateSlotRelation_ok_iff {s : SlotRelation} :
    validateSlotRelation fromNode toNode fromId toId s = .ok () ↔ SlotsAgree fromNode toNode s := by
  simp only [validateSlotRelation, bind_ok_iff, okOr_ok_iff, guard_ok_iff,
    NodeInputSlot.inputsCount_ok_iff, SlotsAgree]
  constructor
  · rintro ⟨o, ho, i, hi, c, hc, _, hzero, hk⟩
    rw [beq_iff_eq] at hzero
    subst hzero
    exact ⟨o, ho, i, hi, hc, hk⟩
  · rintro ⟨o, ho, i, hi, hc, hk⟩
    exact ⟨o, ho, i, hi, 0, hc, (), rfl, hk⟩

theorem validateSlotRelation_panic_iff {s : SlotRelation} :
    validateSlotRelation fromNode toNode fromId toId s = .panic ↔
      SlotUnread fromNode toNode s := by
  simp only [validateSlotRelation, bind_panic_iff, okOr_ok_iff, okOr_ne_panic, guard_ne_panic,
    NodeInputSlot.inputsCount_panic_iff, SlotUnread, false_or, and_false, exists_false, or_false]
  constructor
  · rintro ⟨o, ho, i, hi, hc⟩
    exact ⟨⟨o, ho⟩, i, hi, hc⟩
  · rintro ⟨⟨o, ho⟩, i, hi, hc⟩
    exact ⟨o, ho, i, hi, hc⟩

def RelationHolds (d : WorkflowDraftSpec) (r : NodeRelation) : Prop :=
  ∃ fromNode, d.getNode r.fromId = some fromNode ∧ ∃ toNode, d.getNode r.toId = some toNode ∧
    ∀ s ∈ r.slotRelations, SlotsAgree fromNode toNode s

def RelationUnread (d : WorkflowDraftSpec) (r : NodeRelation) : Prop :=
  ∃ fromNode, d.getNode r.fromId = some fromNode ∧ ∃ toNode, d.getNode r.toId = some toNode ∧
    First (SlotsAgree fromNode toNode) (SlotUnread fromNode toNode) r.slotRelations

theorem validateRelation_ok_iff {r : NodeRelation} :
    d.validateRelation r = .ok () ↔ RelationHolds d r := by
  simp only [validateRelation, bind_ok_iff, okOr_ok_iff, each_ok_iff, validateSlotRelation_ok_iff,
    RelationHolds]

theorem validateRelation_panic_iff {r : NodeRelation} :
    d.validateRelation r = .panic ↔ RelationUnread d r := by
  simp only [validateRelation, bind_panic_iff, okOr_ok_iff, okOr_ne_panic, false_or,
    each_panic_iff (fun _ _ => validateSlotRelation_ok_iff)
      (fun _ _ => validateSlotRelation_panic_iff), RelationUnread]

def InputHolds (relied : List String) (fileExists : Uuid → Bool) (s : NodeInputSlot) : Prop :=
  (relied.contains s.descriptor = true ∨
      ∃ c, s.count = some c ∧ (1 ≤ c ∨ s.optional = true)) ∧
    (s.isFile = true → s.count ≠ none) ∧ ∀ x ∈ s.fileInputs, fileExists x.fileMetadataId = true

def InputUnread (relied : List String) (s : NodeInputSlot) : Prop :=
  s.count = none ∧ (relied.contains s.descriptor = true → s.isFile = true)

theorem validateContents_ok_iff {s : NodeInputSlot} :
    validateContents fileExists n s = .ok () ↔
      (s.isFile = true → s.count ≠ none) ∧ ∀ x ∈ s.fileInputs, fileExists x.fileMetadataId = true := by
  obtain ⟨kind, optional, descriptor⟩ := s
  rcases kind with c | ⟨_ | c, _, _⟩ | _
  · simp [validateContents, NodeInputSlot.isFile, NodeInputSlot.fileInputs]
  · simp [validateContents, NodeInputSlot.isFile, NodeInputSlot.count, bind_ok_iff]
  · simp [validateContents, NodeInputSlot.isFile, NodeInputSlot.fileInputs, NodeInputSlot.count,
      bind_ok_iff, each_ok_iff]
  · simp [validateContents, NodeInputSlot.isFile, NodeInputSlot.fileInputs]

theorem each_guard_ne_panic {α ε : Type} (p : α → Bool) (e : α → ε) (xs : List α) :
    each (fun x => guard (p x) (e x)) xs ≠ .panic := by
  induction xs with
  | nil => simp [each]
  | cons x xs ih => simp [each, bind_panic_iff, ih]

theorem validateContents_panic_iff {s : NodeInputSlot} :
    validateContents fileExists n s = .panic ↔ s.isFile = true ∧ s.count = none := by
  obtain ⟨kind, optional, descriptor⟩ := s
  rcases kind with c | ⟨_ | c, _, _⟩ | _
  · simp [validateContents, NodeInputSlot.isFile]
  · simp [validateContents, NodeInputSlot.isFile, NodeInputSlot.count, bind_panic_iff]
  · simp [validateContents, NodeInputSlot.isFile, NodeInputSlot.count, bind_panic_iff,
      each_guard_ne_panic]
  · simp [validateContents, NodeInputSlot.isFile]

theorem validateInputSlot_relied {s : NodeInputSlot} (h : relied.contains s.descriptor = true) :
    validateInputSlot relied fileExists n s = validateContents fileExists n s := by
  simp only [validateInputSlot, h, if_true, ok_bind, Bool.false_eq_true, if_false]

theorem validateInputSlot_unread {s : NodeInputSlot} (h : relied.contains s.descriptor = false)
    (hc : s.count = none) : validateInputSlot relied fileExists n s = .panic := by
  simp only [validateInputSlot, h, Bool.false_eq_true, if_false, NodeInputSlot.inputsCount_eq, hc,
    unwrap, panic_bind]

theorem validateInputSlot_counted {s : NodeInputSlot} {c : Nat}
    (h : relied.contains s.descriptor = false) (hc : s.count = some c) :
    validateInputSlot relied fileExists n s =
      if 1 ≤ c ∨ s.optional = true then validateContents fileExists n s
      else .err (.noReliedSlotContentsEmpty n.externalId s.descriptor) := by
  simp only [validateInputSlot, h, Bool.false_eq_true, if_false, NodeInputSlot.inputsCount_eq, hc,
    unwrap, ok_bind]
  by_cases hfull : 1 ≤ c ∨ s.optional = true
  · have hempty : (decide (c < 1) && !s.optional) = false := by
      rcases hfull with h1 | ho
      · simp only [Bool.and_eq_false_iff, decide_eq_false_iff_not]
        exact .inl (by omega)
      · rw [ho, Bool.not_true, Bool.and_false]
    rw [if_pos hfull, hempty, if_neg Bool.false_ne_true]
  · have hempty : (decide (c < 1) && !s.optional) = true := by
      rw [not_or, Bool.not_eq_true] at hfull
      rw [hfull.2, Bool.not_false, Bool.and_true, decide_eq_true_eq]
      omega
    rw [if_neg hfull, hempty, if_pos rfl]

theorem validateInputSlot_ok_iff {s : NodeInputSlot} :
    validateInputSlot relied fileExists n s = .ok () ↔ InputHolds relied fileExists s := by
  cases hr : relied.contains s.descriptor with
  | true => rw [validateInputSlot_relied hr, validateContents_ok_iff, InputHolds, hr]; simp
  | false =>
    rw [InputHolds, hr]
    cases hc : s.count with
    | none => rw [validateInputSlot_unread hr hc]; simp
    | some c =>
      rw [validateInputSlot_counted hr hc]
      split
      · next hfull => rw [validateContents_ok_iff, hc]; simp [hfull]
      · next hempty => simp [hempty]

theorem validateInputSlot_panic_iff {s : NodeInputSlot} :
    validateInputSlot relied fileExists n s = .panic ↔ InputUnread relied s := by
  cases hr : relied.contains s.descriptor with
  | true =>
    rw [validateInputSlot_relied hr, validateContents_panic_iff, InputUnread, hr]
    simp only [true_imp_iff]
    exact and_comm
  | false =>
    rw [InputUnread, hr]
    cases hc : s.count with
    | none => rw [validateInputSlot_unread hr hc]; simp
    | some c =>
      rw [validateInputSlot_counted hr hc]
      split
      · rw [validateContents_panic_iff, hc]; simp
      · simp

def BatchOutputsFound (d : WorkflowDraftSpec) (s : NodeInputSlot) : Prop :=
  ∃ r, d.nodeRelations.find? (feeds s.descriptor) = some r ∧
    ∃ slotRelation, feedingSlot s.descriptor r = some slotRelation ∧
      ∃ fromNode, d.getNode r.fromId = some fromNode ∧
        ∃ bs, fromNode.batchStrategies = some bs ∧
          ∃ b ∈ bs, b.inputSlotDescriptor = slotRelation.fromSlot

theorem feedingSlot_isSome {descriptor : String} {r : NodeRelation}
    (h : feeds descriptor r = true) : ∃ s, feedingSlot descriptor r = some s := by
  rw [feeds, List.any_eq_true] at h
  rw [← Option.isSome_iff_exists, feedingSlot, List.find?_isSome]
  exact h

theorem validateFromBatchOutputs_ok_iff {s : NodeInputSlot} :
    d.validateFromBatchOutputs n s = .ok () ↔ BatchOutputsFound d s := by
  unfold validateFromBatchOutputs BatchOutputsFound
  cases hr : d.nodeRelations.find? (feeds s.descriptor) with
  | none => simp
  | some r =>
    obtain ⟨slotRelation, hs⟩ := feedingSlot_isSome (List.find?_some hr)
    simp only [hs, unwrap, ok_bind, node, bind_ok_iff, getNode, Option.some.injEq, exists_eq_left']
    cases hn : d.nodeDrafts.find? (fun el => el.externalId == r.fromId) with
    | none => simp
    | some fromNode =>
      cases hb : fromNode.batchStrategies with
      | none => simp [hb]
      | some bs =>
        cases bs with
        | nil => simp [hb]
        | cons b bs => simp [hb]

theorem validateFromBatchOutputs_ne_panic {s : NodeInputSlot}
    (h : ∀ r ∈ d.nodeRelations, ∃ fromNode, d.getNode r.fromId = some fromNode) :
    d.validateFromBatchOutputs n s ≠ .panic := by
  unfold validateFromBatchOutputs
  cases hr : d.nodeRelations.find? (feeds s.descriptor) with
  | none => simp
  | some r =>
    obtain ⟨slotRelation, hs⟩ := feedingSlot_isSome (List.find?_some hr)
    obtain ⟨fromNode, hn⟩ := h r (List.mem_of_find?_eq_some hr)
    rw [getNode] at hn
    simp only [hs, unwrap, ok_bind, node, hn]
    cases hb : fromNode.batchStrategies with
    | none => simp
    | some bs =>
      cases bs with
      | nil => simp
      | cons b bs => simp

def StrategyHolds (d : WorkflowDraftSpec) (n : NodeDraft) (b : BatchStrategy) : Prop :=
  ∃ s, n.getInputSlot b.inputSlotDescriptor = some s ∧
    match b.kind with
    | .matchRegex _ _ _ => s.count = some 1
    | .originalBatch => False
    | .fromBatchOutputs => BatchOutputsFound d s

def StrategyUnread (n : NodeDraft) (b : BatchStrategy) : Prop :=
  n.getInputSlot b.inputSlotDescriptor = none ∨
    ∃ s, n.getInputSlot b.inputSlotDescriptor = some s ∧ b.kind ≠ .fromBatchOutputs ∧ s.count = none

theorem validateBatchStrategy_ok_iff {b : BatchStrategy} :
    d.validateBatchStrategy n b = .ok () ↔ StrategyHolds d n b := by
  simp only [validateBatchStrategy, bind_ok_iff, NodeDraft.inputSlot, unwrap_ok_iff, StrategyHolds,
    NodeDraft.getInputSlot]
  refine exists_congr fun s => and_congr_right fun _ => ?_
  cases b.kind with
  | originalBatch =>
    simp only [bind_ok_iff, guard_ok_iff, iff_false, not_exists, not_and]
    intro c hc
    have hone := NodeInputSlot.one_le_usizeNot hc
    rw [decide_eq_true hone]
    exact Bool.false_ne_true
  | matchRegex regexToMatch fillCount filler =>
    simp only [bind_ok_iff, guard_ok_iff, NodeInputSlot.inputsCount_ok_iff, beq_iff_eq,
      exists_eq_right]
  | fromBatchOutputs => exact validateFromBatchOutputs_ok_iff

theorem validateBatchStrategy_panic_iff {b : BatchStrategy}
    (h : ∀ r ∈ d.nodeRelations, ∃ fromNode, d.getNode r.fromId = some fromNode) :
    d.validateBatchStrategy n b = .panic ↔ StrategyUnread n b := by
  simp only [validateBatchStrategy, bind_panic_iff, NodeDraft.inputSlot, unwrap_ok_iff,
    unwrap_panic_iff, StrategyUnread, NodeDraft.getInputSlot]
  refine or_congr_right (exists_congr fun s => and_congr_right fun _ => ?_)
  cases b.kind with
  | originalBatch =>
    simp [bind_panic_iff, NodeInputSlot.inputsCount_panic_iff]
  | matchRegex regexToMatch fillCount filler =>
    simp [bind_panic_iff, NodeInputSlot.inputsCount_panic_iff]
  | fromBatchOutputs => simp [validateFromBatchOutputs_ne_panic h]

def NodeHolds (d : WorkflowDraftSpec) (fileExists : Uuid → Bool) (n : NodeDraft) : Prop :=
  (∀ s ∈ n.inputSlots, InputHolds d.reliedInputSlots fileExists s) ∧
    selectsCluster n.schedulingStrategy = true ∧
      ∀ b ∈ n.batchStrategies.getD [], StrategyHolds d n b

def NodeUnread (d : WorkflowDraftSpec) (fileExists : Uuid → Bool) (n : NodeDraft) : Prop :=
  First (InputHolds d.reliedInputSlots fileExists) (InputUnread d.reliedInputSlots) n.inputSlots ∨
    (∀ s ∈ n.inputSlots, InputHolds d.reliedInputSlots fileExists s) ∧
      selectsCluster n.schedulingStrategy = true ∧
        First (StrategyHolds d n) (StrategyUnread n) (n.batchStrategies.getD [])

theorem validateNode_eq : d.validateNode relied fileExists n =
    (each (validateInputSlot relied fileExists n) n.inputSlots >>= fun _ =>
      guard (selectsCluster n.schedulingStrategy) .atLeastOneCluster >>= fun _ =>
        each (d.validateBatchStrategy n) (n.batchStrategies.getD [])) := by
  unfold validateNode
  cases n.batchStrategies <;> rfl

theorem validateNode_ok_iff :
    d.validateNode d.reliedInputSlots fileExists n = .ok () ↔ NodeHolds d fileExists n := by
  simp only [validateNode_eq, bind_ok_iff, each_ok_iff, guard_ok_iff, validateInputSlot_ok_iff,
    validateBatchStrategy_ok_iff, NodeHolds, exists_const]

theorem validateNode_panic_iff
    (h : ∀ r ∈ d.nodeRelations, ∃ fromNode, d.getNode r.fromId = some fromNode) :
    d.validateNode d.reliedInputSlots fileExists n = .panic ↔ NodeUnread d fileExists n := by
  simp only [validateNode_eq, bind_panic_iff, guard_ne_panic, guard_ok_iff, false_or, each_ok_iff,
    validateInputSlot_ok_iff, each_panic_iff (fun _ _ => validateInputSlot_ok_iff)
      (fun _ _ => validateInputSlot_panic_iff),
    each_panic_iff (fun _ _ => validateBatchStrategy_ok_iff)
      (fun _ _ => validateBatchStrategy_panic_iff h), NodeUnread, exists_const]

def DraftHolds (d : WorkflowDraftSpec) (fileExists : Uuid → Bool) : Prop :=
  (∀ r ∈ d.nodeRelations, RelationHolds d r) ∧ ∀ n ∈ d.nodeDrafts, NodeHolds d fileExists n

def DraftUnread (d : WorkflowDraftSpec) (fileExists : Uuid → Bool) : Prop :=
  First (RelationHolds d) (RelationUnread d) d.nodeRelations ∨
    (∀ r ∈ d.nodeRelations, RelationHolds d r) ∧
      First (NodeHolds d fileExists) (NodeUnread d fileExists) d.nodeDrafts

theorem validateRelatedNodes_ok_iff {l : List String} :
    d.validateRelatedNodes = .ok l ↔
      (∀ r ∈ d.nodeRelations, RelationHolds d r) ∧ d.reliedInputSlots = l := by
  simp only [validateRelatedNodes, bind_ok_iff, each_ok_iff, validateRelation_ok_iff, ok.injEq,
    exists_const]

theorem RelationHolds.ends {r : NodeRelation} (h : RelationHolds d r) :
    (∃ n, d.getNode r.fromId = some n) ∧ ∃ n, d.getNode r.toId = some n := by
  obtain ⟨f, hf, t, ht, -⟩ := h
  exact ⟨⟨f, hf⟩, t, ht⟩

theorem validateWorkflowDraft_ok_iff :
    d.validateWorkflowDraft fileExists = .ok () ↔ DraftHolds d fileExists := by
  simp only [validateWorkflowDraft, bind_ok_iff, validateRelatedNodes_ok_iff, validatePerNode,
    each_ok_iff, DraftHolds]
  constructor
  · rintro ⟨_, ⟨hr, rfl⟩, hn⟩
    exact ⟨hr, fun n hm => validateNode_ok_iff.mp (hn n hm)⟩
  · rintro ⟨hr, hn⟩
    exact ⟨_, ⟨hr, rfl⟩, fun n hm => validateNode_ok_iff.mpr (hn n hm)⟩

theorem validateWorkflowDraft_panic_iff :
    d.validateWorkflowDraft fileExists = .panic ↔ DraftUnread d fileExists := by
  have hrel : d.validateRelatedNodes = .panic ↔
      First (RelationHolds d) (RelationUnread d) d.nodeRelations := by
    simp only [validateRelatedNodes, bind_panic_iff, each_panic_iff
      (fun _ _ => validateRelation_ok_iff) (fun _ _ => validateRelation_panic_iff), reduceCtorEq,
      and_false, exists_false, or_false]
  rw [validateWorkflowDraft, bind_panic_iff, hrel, DraftUnread]
  refine or_congr_right ⟨?_, ?_⟩
  · rintro ⟨l, hl, hp⟩
    obtain ⟨hr, rfl⟩ := validateRelatedNodes_ok_iff.mp hl
    have hnamed : ∀ r ∈ d.nodeRelations, ∃ fromNode, d.getNode r.fromId = some fromNode :=
      fun r hm => ⟨_, (hr r hm).choose_spec.1⟩
    exact ⟨hr, (each_panic_iff (fun _ _ => validateNode_ok_iff)
      (fun _ _ => validateNode_panic_iff hnamed)).mp hp⟩
  · rintro ⟨hr, hp⟩
    have hnamed : ∀ r ∈ d.nodeRelations, ∃ fromNode, d.getNode r.fromId = some fromNode :=
      fun r hm => ⟨_, (hr r hm).choose_spec.1⟩
    exact ⟨_, validateRelatedNodes_ok_iff.mpr ⟨hr, rfl⟩,
      (each_panic_iff (fun _ _ => validateNode_ok_iff)
        (fun _ _ => validateNode_panic_iff hnamed)).mpr hp⟩

end WorkflowDraftSpec

end Kuintessence
