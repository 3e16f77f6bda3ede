import Kuintessence.Draft.Rules

namespace Kuintessence

open Outcome

namespace WorkflowDraftSpec

variable {d : WorkflowDraftSpec} {fileExists : Uuid → Bool}

theorem validateWorkflowDraft_ne_panic_iff (d : WorkflowDraftSpec) (fileExists : Uuid → Bool) :
    d.validateWorkflowDraft fileExists ≠ .panic ↔ ¬DraftUnread d fileExists :=
  not_congr validateWorkflowDraft_panic_iff

def absentContents : WorkflowDraftSpec where
  schedulingStrategy := .auto
  nodeDrafts := [
    { kind := .noAction
      externalId := 1
      name := "solve"
      batchStrategies := none
      inputSlots := [{ kind := .text none, descriptor := "mesh" }]
      outputSlots := []
      schedulingStrategy := .auto }]
  nodeRelations := []

theorem absentContents_panics : absentContents.validateWorkflowDraft (fun _ => true) = .panic := by
  decide

theorem first_stop {α : Type} {pass stop : α → Prop} {xs : List α} (h : First pass stop xs) :
    ∃ x ∈ xs, stop x := by
  induction xs with
  | nil => exact h.elim
  | cons x xs ih =>
    rcases h with hx | ⟨-, hxs⟩
    · exact ⟨x, List.mem_cons_self, hx⟩
    · obtain ⟨y, hy, hs⟩ := ih hxs
      exact ⟨y, List.mem_cons_of_mem x hy, hs⟩

theorem validateWorkflowDraft_total
    (hslots : ∀ n ∈ d.nodeDrafts, ∀ s ∈ n.inputSlots, s.count ≠ none)
    (hstrategies : ∀ n ∈ d.nodeDrafts, ∀ b ∈ n.batchStrategies.getD [],
      ∃ s, n.getInputSlot b.inputSlotDescriptor = some s) :
    d.validateWorkflowDraft fileExists ≠ .panic := by
  have hget (n : NodeDraft) (hn : n ∈ d.nodeDrafts) (descriptor : String) (s : NodeInputSlot)
      (hs : n.getInputSlot descriptor = some s) : s.count ≠ none :=
    hslots n hn s (List.mem_of_find?_eq_some hs)
  rw [validateWorkflowDraft_ne_panic_iff]
  rintro (hrel | ⟨-, hnode⟩)
  · obtain ⟨r, -, f, -, t, ht, hslot⟩ := first_stop hrel
    obtain ⟨s, -, -, i, hi, hnone⟩ := first_stop hslot
    exact hget t (List.mem_of_find?_eq_some ht) s.toSlot i hi hnone
  · obtain ⟨n, hn, hin | ⟨-, -, hst⟩⟩ := first_stop hnode
    · obtain ⟨s, hs, hnone, -⟩ := first_stop hin
      exact hslots n hn s hs hnone
    · obtain ⟨b, hb, hmissing | ⟨s, hs, -, hnone⟩⟩ := first_stop hst
      · obtain ⟨s, hs⟩ := hstrategies n hn b hb
        rw [hmissing] at hs
        exact Option.some_ne_none s hs.symm
      · exact hget n hn b.inputSlotDescriptor s hs hnone

theorem validateWorkflowDraft_follows_rules_iff (d : WorkflowDraftSpec)
    (fileExists : Uuid → Bool) :
    (d.validateWorkflowDraft fileExists = .ok () ↔ Rules d fileExists) ↔
      ¬Undisputed d fileExists ∨ (PassesSlips d ∧ MeetsMissed d) ∨
        (¬PassesSlips d ∧ ¬MeetsMissed d) := by
  rw [validateWorkflowDraft_ok_iff, draftHolds_iff, rules_iff]
  by_cases hu : Undisputed d fileExists
  · simp only [hu, true_and, not_true_eq_false, false_or]
    exact iff_iff_and_or_not_and_not
  · simp only [hu, false_and, not_false_eq_true, true_or]

def twoFilesBatch : WorkflowDraftSpec where
  schedulingStrategy := .auto
  nodeDrafts := [
    { kind := .script
      externalId := 1
      name := "solve"
      batchStrategies := some [⟨"mesh", some "case-\x7b\x7d", .originalBatch⟩]
      inputSlots := [{
        kind := .file (some ⟨[{ fileMetadataId := 10 }, { fileMetadataId := 11 }], by decide⟩)
          none true
        descriptor := "mesh" }]
      outputSlots := []
      schedulingStrategy := .auto }]
  nodeRelations := []

theorem twoFilesBatch_obeys_rules : Rules twoFilesBatch (fun _ => true) where
  relations := by simp [RelationsExist, twoFilesBatch]
  files := fun _ _ _ _ _ _ => rfl
  clusters := by simp [ClustersSelected, twoFilesBatch, selectsCluster]
  inputs := by simp [twoFilesBatch, NodeInputSlot.items, NodeInputSlot.count]
  strategies := by
    simp [twoFilesBatch, NodeDraft.getInputSlot, NodeInputSlot.items, NodeInputSlot.count]

theorem twoFilesBatch_rejected :
    ¬(twoFilesBatch.validateWorkflowDraft (fun _ => true) = .ok () ↔
      Rules twoFilesBatch (fun _ => true)) := by
  intro h
  have hok := h.mpr twoFilesBatch_obeys_rules
  have herr : twoFilesBatch.validateWorkflowDraft (fun _ => true) =
      .err (.originalBatchInputsLessThanOne 1 "mesh") := by decide
  rw [herr] at hok
  cases hok

end WorkflowDraftSpec

end Kuintessence
