import Kuintessence.Engine.Batches

namespace Kuintessence

open Effect Outcome

section Prepared

variable {static : WorkflowInstanceSpec} {n n' : NodeSpec}

def SameNode (n n' : NodeSpec) : Prop := n'.id = n.id ∧ n'.batchStrategies = n.batchStrategies

theorem fillSlotRelation_frame {fromId : Uuid} {r : SlotRelation}
    (h : fillSlotRelation static fromId n r = .ok n') :
    n' = { n with inputSlots := n'.inputSlots } := by
  unfold fillSlotRelation at h
  obtain ⟨_, -, h⟩ := bind_ok_iff.mp h
  obtain ⟨_, -, h⟩ := bind_ok_iff.mp h
  obtain ⟨_, -, h⟩ := bind_ok_iff.mp h
  cases h
  rfl

theorem fillSlotRelations_frame {fromId : Uuid} {rs : List SlotRelation}
    (h : fillSlotRelations static fromId n rs = .ok n') :
    n' = { n with inputSlots := n'.inputSlots } := by
  induction rs generalizing n with
  | nil =>
    cases h
    rfl
  | cons r rs ih =>
    obtain ⟨m, hm, h⟩ := bind_ok_iff.mp h
    rw [ih h, fillSlotRelation_frame hm]

theorem fillRelations_frame {rs : List NodeRelation} (h : fillRelations static n rs = .ok n') :
    n' = { n with inputSlots := n'.inputSlots } := by
  induction rs generalizing n with
  | nil =>
    cases h
    rfl
  | cons r rs ih =>
    obtain ⟨m, hm, h⟩ := bind_ok_iff.mp h
    rw [ih h, fillSlotRelations_frame hm]

theorem fillRelations_same {rs : List NodeRelation} (h : fillRelations static n rs = .ok n') :
    SameNode n n' := by
  rw [fillRelations_frame h]
  exact ⟨rfl, rfl⟩

theorem updateWithInputs_frame {inputs : List (String × Input)}
    (h : n.updateWithInputs inputs = .ok n') : n' = { n with inputSlots := n'.inputSlots } := by
  induction inputs generalizing n with
  | nil =>
    cases h
    rfl
  | cons i inputs ih =>
    obtain ⟨m, hm, h⟩ := bind_ok_iff.mp h
    obtain ⟨slots, -, hm⟩ := bind_ok_iff.mp hm
    cases hm
    have hrest := ih h
    exact hrest

end Prepared

variable {ids iter : Nat → Uuid} {db : Tables} {ns : List Notice} {ms : List NodeMark}
  {fs : List FlowMark} {s t : World} {env : Env} {static : WorkflowInstanceSpec}
  {entries tasks : List Uuid} {n : NodeSpec} {out : NodeSpec × List NodeSpec}

inductive Prepares (ids iter : Nat → Uuid) (db : Tables) (static : WorkflowInstanceSpec)
    (entries : List Uuid) (n : NodeSpec) : NodeSpec × List NodeSpec → Prop where
  | waiting (h : n.id ∉ entries) : Prepares ids iter db static entries n (n, [])
  | plain (n' : NodeSpec) (h : n.id ∈ entries) (hplain : n.batchStrategies = [])
      (hfill : fillRelations static n (static.nodeDependencyRelations n.id) = .ok n') :
      Prepares ids iter db static entries n (n', [n'])
  | batch (tasks : List NodeSpec) (slots : List NodeSpecOutputSlot) (h : n.id ∈ entries)
      (hbatch : n.batchStrategies ≠ [])
      (htasks : Debatched ids iter db (static.nodeDependencyRelations n.id) n tasks)
      (hcollect : collectPrepared true tasks n.outputSlots = .ok slots) :
      Prepares ids iter db static entries n ({ n with outputSlots := slots }, n :: tasks)

theorem Prepares.same (h : Prepares ids iter db static entries n out) : SameNode n out.1 := by
  cases h with
  | waiting h => exact ⟨rfl, rfl⟩
  | plain n' h hplain hfill => exact fillRelations_same hfill
  | batch tasks slots h hbatch htasks hcollect => exact ⟨rfl, rfl⟩

theorem Prepares.later {iter' : Nat → Uuid} (h : Prepares ids iter db static entries n out)
    (ht : Tail iter iter') : Prepares ids iter' db static entries n out := by
  cases h with
  | waiting h => exact .waiting h
  | plain n' h hplain hfill => exact .plain n' h hplain hfill
  | batch tasks slots h hbatch htasks hcollect =>
    exact .batch tasks slots h hbatch (htasks.later ht) hcollect

theorem wp_prepareNode (h : Mid ids db ns ms fs s) (static : WorkflowInstanceSpec)
    (entries : List Uuid) (n : NodeSpec) :
    wp (prepareNode static entries n) env
      (fun out t => Mid ids db ns ms fs t ∧ Prepares ids t.ids db static entries n out)
      (Left ids db ns) s := by
  unfold prepareNode
  split
  · next hin =>
    rw [List.contains_iff_mem] at hin
    unfold prepareEntry
    split
    · next hplain =>
      rw [wp_bind]
      refine wp_mono (wp_lift_mid h _) (fun n' t ⟨ht, hfill⟩ => ?_) (fun _ he => he)
      rw [wp_pure]
      exact ⟨ht, .plain n' hin (List.isEmpty_iff.mp hplain) hfill⟩
    · next hbatch =>
      rw [List.isEmpty_iff] at hbatch
      rw [wp_bind]
      refine wp_mono (wp_debatch h _ n) (fun tasks t ⟨ht, htasks⟩ => ?_) (fun _ he => he)
      rw [wp_bind, wp_lift]
      refine ⟨fun slots hcollect => ?_, fun _ => ht.left⟩
      rw [wp_pure]
      exact ⟨ht, .batch tasks slots hin hbatch htasks hcollect⟩
  · next hout => exact ⟨h, .waiting fun hin => hout (List.contains_iff_mem.mpr hin)⟩

def PreparesAll (ids iter : Nat → Uuid) (db : Tables) (flow : WorkflowInstance)
    (entries : List Uuid) (outs : List (NodeSpec × List NodeSpec)) : Prop :=
  List.Forall₂ (Prepares ids iter db flow.spec entries) flow.spec.nodeSpecs outs

theorem wp_prepareNodes (h : Mid ids db ns ms fs s) (flow : WorkflowInstance)
    (entries : List Uuid) :
    wp (Effect.mapEach (prepareNode flow.spec entries) flow.spec.nodeSpecs) env
      (fun outs t => Mid ids db ns ms fs t ∧ PreparesAll ids t.ids db flow entries outs) (Left ids db ns) s := by
  refine wp_mapEach (fun pre outs t => Mid ids db ns ms fs t ∧
    List.Forall₂ (Prepares ids t.ids db flow.spec entries) pre outs) flow.spec.nodeSpecs ?_ ⟨h, .nil⟩
  rintro pre n post outs - t ⟨ht, houts⟩
  refine wp_mono (wp_and (wp_prepareNode ht flow.spec entries n)
    ((keeps_prepareNode flow.spec entries n).wp env t))
    (fun out u ⟨⟨hu, hout⟩, hcalm⟩ => ⟨hu, List.rel_append ?_ (.cons hout .nil)⟩) (fun _ he => he.1)
  exact houts.imp fun _ _ hone => hone.later hcalm.ids

section Tasks

def Size (b : BatchStrategy) (k : Nat) : Prop :=
  match b.kind with
  | .matchRegex _ fillCount _ => k = fillCount
  | _ => True

def Combos (bs : List BatchStrategy) (k : Nat) : Prop :=
  ∃ sizes, List.Forall₂ Size bs sizes ∧ k = comboCount sizes

theorem SlotFor.size {relations : List NodeRelation} {b : BatchStrategy}
    {slot : String × List Input} (h : SlotFor db relations n b slot) : Size b slot.2.length := by
  obtain ⟨-, s, -, hgathers⟩ := h
  unfold Gathers at hgathers
  unfold Size
  cases hkind : b.kind with
  | originalBatch => trivial
  | matchRegex regexToMatch fillCount filler =>
    rw [hkind] at hgathers
    exact hgathers
  | fromBatchOutputs => trivial

theorem Subtask.id {task : Uuid × List (String × Input)} {sub : NodeSpec}
    (h : Subtask ids iter n task sub) : sub.id = task.1 := by
  obtain ⟨m, hm, hsub, -⟩ := h.filled
  rw [hsub, updateWithInputs_frame hm]

theorem map_eq_of_forall₂ {α β γ : Type} {f : α → γ} {g : β → γ} {xs : List α} {ys : List β}
    (h : List.Forall₂ (fun x y => f x = g y) xs ys) : xs.map f = ys.map g := by
  induction h with
  | nil => rfl
  | cons hone _ ih => rw [List.map_cons, List.map_cons, hone, ih]

theorem map_fst_zip_take {α β : Type} (xs : List α) (ys : List β) :
    (xs.zip ys).map Prod.fst = xs.take ys.length := by
  induction xs generalizing ys with
  | nil => simp
  | cons x xs ih =>
    cases ys with
    | nil => simp
    | cons y ys => rw [List.zip_cons_cons, List.map_cons, ih, List.length_cons, List.take_succ_cons]

theorem Debatched.task_ids {relations : List NodeRelation} {tasks : List NodeSpec}
    (h : Debatched ids iter db relations n tasks) (hbatch : n.batchStrategies ≠ []) :
    ∃ subs k, SubsOf db.places n.outline subs ∧ Combos n.batchStrategies k ∧
      tasks.map NodeSpec.id = subs.take k := by
  obtain ⟨slots, hslots, subs, hperm, htasks⟩ := h.split
  refine ⟨subs.map NodeInstance.id, (allPossibleInputs slots).length, subsOf_rows hbatch hperm,
    ⟨slots.map fun slot => slot.2.length, ?_, length_allPossibleInputs slots⟩, ?_⟩
  · exact List.forall₂_map_right_iff.mpr (hslots.imp fun _ _ hslot => hslot.size)
  · have hids : tasks.map NodeSpec.id =
        ((subs.map NodeInstance.id).zip (allPossibleInputs slots)).map Prod.fst :=
      List.forall₂_eq_eq_eq ▸ List.forall₂_map_left_iff.mpr
        (List.forall₂_map_right_iff.mpr (htasks.flip.imp fun _ _ hsub => hsub.id))
    rw [hids, map_fst_zip_take]

def TaskList (ps : List Place) (entries : List Uuid) (node : Uuid × List BatchStrategy)
    (l : List Uuid) : Prop :=
  if node.1 ∈ entries then
    ∃ subs k, SubsOf ps node subs ∧ Combos node.2 k ∧ l = node.1 :: subs.take k
  else l = []

theorem Prepares.taskList (h : Prepares ids iter db static entries n out) :
    TaskList db.places entries n.outline (out.2.map NodeSpec.id) := by
  unfold TaskList
  cases h with
  | waiting h =>
    have hout : n.outline.1 ∉ entries := h
    rw [if_neg hout]
    rfl
  | plain n' h hplain hfill =>
    have hin : n.outline.1 ∈ entries := h
    rw [if_pos hin]
    refine ⟨[], comboCount [], subsOf_plain hplain, ⟨[], ?_, rfl⟩, ?_⟩
    · have hnone : n.outline.2 = [] := hplain
      rw [hnone]
      exact .nil
    · rw [List.map_singleton, (fillRelations_same hfill).1]
      rfl
  | batch tasks slots h hbatch htasks hcollect =>
    have hin : n.outline.1 ∈ entries := h
    rw [if_pos hin]
    obtain ⟨subs, k, hsubs, hcombos, hids⟩ := htasks.task_ids hbatch
    exact ⟨subs, k, hsubs, hcombos, by rw [List.map_cons, hids]; rfl⟩

def Listed (ps : List Place) (p : Plan) (entries tasks : List Uuid) : Prop :=
  ∃ ls, List.Forall₂ (TaskList ps entries) p.nodes ls ∧ tasks = ls.flatten

def Seated (ps : List Place) (tasks : List Uuid) : Prop := ∀ x ∈ tasks, ∃ c ∈ ps, c.id = x

structure Tasks (ps : List Place) (p : Plan) (entries tasks : List Uuid) : Prop where
  listed : Listed ps p entries tasks
  seated : Seated ps tasks

def taskIds (outs : List (NodeSpec × List NodeSpec)) : List Uuid :=
  (outs.flatMap Prod.snd).map NodeSpec.id

theorem PreparesAll.listed {flow : WorkflowInstance} {outs : List (NodeSpec × List NodeSpec)}
    (h : PreparesAll ids iter db flow entries outs) : Listed db.places flow.plan entries (taskIds outs) := by
  refine ⟨outs.map (fun out => out.2.map NodeSpec.id), ?_, ?_⟩
  · exact List.forall₂_map_left_iff.mpr (List.forall₂_map_right_iff.mpr
      (h.imp fun _ _ hout => hout.taskList))
  · rw [taskIds, List.flatMap_def, List.map_flatten, List.map_map]
    rfl

theorem PreparesAll.later {iter' : Nat → Uuid} {flow : WorkflowInstance}
    {outs : List (NodeSpec × List NodeSpec)} (h : PreparesAll ids iter db flow entries outs)
    (ht : Tail iter iter') : PreparesAll ids iter' db flow entries outs :=
  h.imp fun _ _ hout => hout.later ht

theorem PreparesAll.same {flow : WorkflowInstance} {outs : List (NodeSpec × List NodeSpec)}
    (h : PreparesAll ids iter db flow entries outs) :
    List.Forall₂ SameNode flow.spec.nodeSpecs (outs.map Prod.fst) :=
  List.forall₂_map_right_iff.mpr (h.imp fun _ _ hout => hout.same)

end Tasks

end Kuintessence
