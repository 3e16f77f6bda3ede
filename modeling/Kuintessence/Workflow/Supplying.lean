import Kuintessence.Engine.Filling
import Kuintessence.Workflow.Opening

namespace Kuintessence

open Outcome

variable {f : WorkflowInstance} {static : WorkflowInstanceSpec} {n : NodeSpec} {fromId : Uuid}
  {s : NodeInputSlot} {ss : List NodeInputSlot} {out : NodeSpecOutputSlot} {r : SlotRelation}
  {relations : List NodeRelation}

def Suits : NodeSpecOutputSlotKind → NodeInputSlotKind → Prop
  | .text _, .text _ => True
  | .file _ _ _, .file _ _ _ => True
  | _, _ => False

def Feeds (static : WorkflowInstanceSpec) (ss : List NodeInputSlot) (fromId : Uuid)
    (r : SlotRelation) : Prop :=
  ∃ m out, static.node fromId = .ok m ∧ m.outputSlot r.fromSlot = .ok out ∧ out.prepared ≠ [] ∧
    ∃ s ∈ ss, s.descriptor = r.toSlot ∧ Suits out.kind s.kind

-- The incoming relations of the node name slots that are there and go together.
structure Supplied (static : WorkflowInstanceSpec) (n : NodeSpec) : Prop where
  distinct : (n.inputSlots.map NodeInputSlot.descriptor).Nodup
  fed : ∀ r ∈ static.nodeDependencyRelations n.id, ∀ s ∈ r.slotRelations,
    Feeds static n.inputSlots r.fromId s

-- What both ways make of a slot that is fed.
def refilled (out : NodeSpecOutputSlot) (s : NodeInputSlot) : NodeInputSlot :=
  match s.kind, out.prepared with
  | .text _, id :: _ => { s with kind := .text (some (.single id)) }
  | .file _ name isBatch, id :: _ =>
    { s with kind := .file (some (.single { fileMetadataId := id })) name isBatch }
  | _, _ => s

theorem refilled_descriptor (out : NodeSpecOutputSlot) (s : NodeInputSlot) :
    (refilled out s).descriptor = s.descriptor := by
  unfold refilled
  split
  · rfl
  · rfl
  · rfl

theorem suits_refilled (out' : NodeSpecOutputSlotKind) (out : NodeSpecOutputSlot)
    (s : NodeInputSlot) : Suits out' (refilled out s).kind ↔ Suits out' s.kind := by
  unfold refilled
  split
  · next hkind _ => rw [hkind]; cases out' <;> rfl
  · next hkind _ => rw [hkind]; cases out' <;> rfl
  · rfl

theorem filled_both (hsuits : Suits out.kind s.kind) (hsome : out.prepared ≠ []) :
    fillFrom out s = .ok (refilled out s) ∧
      WorkflowInstance.completeFrom 0 out s = .ok (refilled out s) := by
  obtain ⟨id, rest, hlist⟩ := List.exists_cons_of_ne_nil hsome
  unfold NodeSpecOutputSlot.prepared at hlist
  unfold fillFrom WorkflowInstance.completeFrom refilled NodeSpecOutputSlot.prepared
  cases hkind : s.kind with
  | text contents =>
    cases hout : out.kind with
    | text keys =>
      rw [hout] at hlist
      simp only [withText, NodeSpecOutputSlot.allTasksTextOutputs, hout, hlist]
      exact ⟨rfl, rfl⟩
    | file _ _ _ =>
      rw [hkind, hout] at hsuits
      exact hsuits.elim
  | file contents name isBatch =>
    cases hout : out.kind with
    | text _ =>
      rw [hkind, hout] at hsuits
      exact hsuits.elim
    | file _ _ ids =>
      rw [hout] at hlist
      simp only [withFile, NodeSpecOutputSlot.allTasksFileOutputs, hout, hlist]
      exact ⟨rfl, rfl⟩
  | unknown =>
    rw [hkind] at hsuits
    cases hout : out.kind with
    | text _ =>
      rw [hout] at hsuits
      exact hsuits.elim
    | file _ _ _ =>
      rw [hout] at hsuits
      exact hsuits.elim

theorem modifyInputSlot_eq {descriptor : String} {fill : NodeInputSlot → Anyhow NodeInputSlot}
    {g : NodeInputSlot → NodeInputSlot} (hnodup : (ss.map NodeInputSlot.descriptor).Nodup)
    (hmem : s ∈ ss) (hs : s.descriptor = descriptor) (hfill : fill s = .ok (g s)) :
    modifyInputSlot descriptor fill ss =
      .ok (ss.map fun s => if s.descriptor == descriptor then g s else s) := by
  induction ss with
  | nil => exact absurd hmem List.not_mem_nil
  | cons t ss ih =>
    rw [List.map_cons, List.nodup_cons] at hnodup
    obtain ⟨hfirst, hrest⟩ := hnodup
    rcases List.mem_cons.mp hmem with rfl | hmem
    · have hothers : ss.map (fun s => if s.descriptor == descriptor then g s else s) = ss := by
        refine (List.map_congr_left fun s' hs' => ?_).trans (List.map_id ss)
        have hne : s'.descriptor ≠ descriptor := fun heq =>
          hfirst (hs.trans heq.symm ▸ List.mem_map_of_mem hs')
        rw [if_neg (by simpa using hne), id_eq]
      rw [modifyInputSlot, if_pos (beq_iff_eq.mpr hs), hfill, ok_bind, List.map_cons, hothers,
        if_pos (beq_iff_eq.mpr hs)]
    · have hne : t.descriptor ≠ descriptor := fun heq =>
        hfirst (heq.trans hs.symm ▸ List.mem_map_of_mem hmem)
      rw [modifyInputSlot, if_neg (by simpa using hne), ih hrest hmem, ok_bind, List.map_cons,
        if_neg (by simpa using hne)]

structure Keeping (g : NodeInputSlot → NodeInputSlot) : Prop where
  descriptor : ∀ s, (g s).descriptor = s.descriptor
  suits : ∀ kind s, Suits kind (g s).kind ↔ Suits kind s.kind

def NodeSpec.mapSlots (n : NodeSpec) (g : NodeInputSlot → NodeInputSlot) : NodeSpec :=
  { n with inputSlots := n.inputSlots.map g }

theorem Keeping.distinct {g : NodeInputSlot → NodeInputSlot} (hg : Keeping g)
    (h : (ss.map NodeInputSlot.descriptor).Nodup) :
    ((ss.map g).map NodeInputSlot.descriptor).Nodup := by
  have hsame : NodeInputSlot.descriptor ∘ g = NodeInputSlot.descriptor := funext hg.descriptor
  rwa [List.map_map, hsame]

theorem Keeping.feeds {g : NodeInputSlot → NodeInputSlot} (hg : Keeping g)
    (h : Feeds static ss fromId r) : Feeds static (ss.map g) fromId r := by
  obtain ⟨m, out, hm, hout, hsome, s, hs, hdescriptor, hsuits⟩ := h
  exact ⟨m, out, hm, hout, hsome, g s, List.mem_map_of_mem hs, (hg.descriptor s).trans hdescriptor,
    (hg.suits _ s).mpr hsuits⟩

-- One walk over the relations fills the node, the other each of its slots, with the same result.
def FillsAlike (n : NodeSpec) (fill : NodeSpec → Anyhow NodeSpec)
    (complete : NodeInputSlot → Anyhow NodeInputSlot) : Prop :=
  ∃ g, Keeping g ∧ fill n = .ok (n.mapSlots g) ∧ ∀ s ∈ n.inputSlots, complete s = .ok (g s)

theorem FillsAlike.done (n : NodeSpec) : FillsAlike n .ok .ok := by
  refine ⟨id, ⟨fun _ => rfl, fun _ _ => .rfl⟩, ?_, fun _ _ => rfl⟩
  rw [NodeSpec.mapSlots, List.map_id]

theorem FillsAlike.bind {fill fill' : NodeSpec → Anyhow NodeSpec}
    {complete complete' : NodeInputSlot → Anyhow NodeInputSlot} (h : FillsAlike n fill complete)
    (h' : ∀ g, Keeping g → FillsAlike (n.mapSlots g) fill' complete') :
    FillsAlike n (fun n => fill n >>= fill') (fun s => complete s >>= complete') := by
  obtain ⟨g, hg, hfill, hcomplete⟩ := h
  obtain ⟨g', hg', hfill', hcomplete'⟩ := h' g hg
  refine ⟨g' ∘ g, ⟨fun s => (hg'.descriptor _).trans (hg.descriptor s),
    fun kind s => (hg'.suits kind _).trans (hg.suits kind s)⟩, ?_, fun s hs => ?_⟩
  · change fill n >>= fill' = _
    rw [hfill, ok_bind, hfill', NodeSpec.mapSlots, NodeSpec.mapSlots, NodeSpec.mapSlots, List.map_map]
  · change complete s >>= complete' = _
    rw [hcomplete s hs, ok_bind]
    exact hcomplete' (g s) (List.mem_map_of_mem hs)

theorem alike_slotRelation (hnodup : (n.inputSlots.map NodeInputSlot.descriptor).Nodup)
    (h : Feeds f.spec n.inputSlots fromId r) :
    FillsAlike n (fun n => fillSlotRelation f.spec fromId n r)
      (fun s => f.completeSlotRelation 0 fromId s r) := by
  obtain ⟨m, out, hm, hout, hsome, s, hs, hdescriptor, hsuits⟩ := h
  refine ⟨fun s => if s.descriptor == r.toSlot then refilled out s else s, ⟨fun s => ?_, fun kind s => ?_⟩,
    ?_, fun t ht => ?_⟩
  · split
    · exact refilled_descriptor out s
    · rfl
  · split
    · exact suits_refilled kind out s
    · rfl
  · have hmodify := modifyInputSlot_eq hnodup hs hdescriptor (filled_both hsuits hsome).1
    simp only [fillSlotRelation, hm, hout, ok_bind, hmodify]
    rfl
  · change f.completeSlotRelation 0 fromId t r =
      .ok (if t.descriptor == r.toSlot then refilled out t else t)
    unfold WorkflowInstance.completeSlotRelation
    by_cases hhere : t.descriptor = r.toSlot
    · have heq : t = s := List.inj_on_of_nodup_map hnodup ht hs (hhere.trans hdescriptor.symm)
      rw [if_pos (beq_iff_eq.mpr hhere.symm), if_pos (beq_iff_eq.mpr hhere), hm, ok_bind, hout,
        ok_bind, heq]
      exact (filled_both hsuits hsome).2
    · rw [if_neg (by simpa using Ne.symm hhere), if_neg (by simpa using hhere)]

theorem alike_slotRelations {rs : List SlotRelation}
    (hnodup : (n.inputSlots.map NodeInputSlot.descriptor).Nodup)
    (h : ∀ r ∈ rs, Feeds f.spec n.inputSlots fromId r) :
    FillsAlike n (fun n => fillSlotRelations f.spec fromId n rs)
      (fun s => f.completeSlotRelations 0 fromId s rs) := by
  induction rs generalizing n with
  | nil => exact .done n
  | cons r rs ih =>
    refine (alike_slotRelation hnodup (h r List.mem_cons_self)).bind fun g hg => ?_
    exact ih (hg.distinct hnodup) fun r' hr' => hg.feeds (h r' (List.mem_cons_of_mem r hr'))

theorem alike_relations (hnodup : (n.inputSlots.map NodeInputSlot.descriptor).Nodup)
    (h : ∀ r ∈ relations, ∀ s ∈ r.slotRelations, Feeds f.spec n.inputSlots r.fromId s) :
    FillsAlike n (fun n => fillRelations f.spec n relations)
      (fun s => f.completeInputSlot 0 s relations) := by
  induction relations generalizing n with
  | nil => exact .done n
  | cons r relations ih =>
    refine (alike_slotRelations hnodup (h r List.mem_cons_self)).bind fun g hg => ?_
    exact ih (hg.distinct hnodup) fun r' hr' s hs =>
      hg.feeds (h r' (List.mem_cons_of_mem r hr') s hs)

theorem prepareEntry_eq_produced (f : WorkflowInstance) (n : NodeSpec) (hplain : n.batchStrategies = [])
    (h : Supplied f.spec n) (env : Env) (w : World) :
    ∃ m, f.produceNodeSpecByCompleteNodeInputs n none = .ok m ∧
      prepareEntry f.spec n env w = (.ok (m, [m]), w) := by
  obtain ⟨g, -, hfill, hcomplete⟩ := alike_relations h.distinct h.fed
  have hfilled : fillRelations f.spec n (f.spec.nodeDependencyRelations n.id) = .ok (n.mapSlots g) :=
    hfill
  refine ⟨n.mapSlots g, ?_, ?_⟩
  · have hslots := Outcome.mapEach_eq_map hcomplete
    unfold WorkflowInstance.produceNodeSpecByCompleteNodeInputs
    rw [Option.getD_none, hslots]
    rfl
  · unfold prepareEntry
    rw [hplain]
    change (Effect.lift (fillRelations f.spec n (f.spec.nodeDependencyRelations n.id)) >>= _) env w = _
    have hlift : (Effect.lift (fillRelations f.spec n (f.spec.nodeDependencyRelations n.id)) : Svc _)
        env w = (.ok (n.mapSlots g), w) := by
      rw [Effect.lift, hfilled]
    rw [Effect.bind_of_ok hlift]
    rfl

section Samples

def producer : NodeSpec :=
  ⟨.script, 1, "stage", [], [⟨.text [7], "o", false⟩, ⟨.text [8, 9], "p", false⟩], .auto, []⟩

def consumer : NodeSpec := ⟨.script, 2, "stage", [emptySlot "r", emptySlot "s"], [], .auto, []⟩

def contestedFlow : WorkflowInstance :=
  ⟨100, "flow", .running, ⟨.auto, [producer, consumer],
    [⟨1, 2, [⟨"o", "s", .network⟩, ⟨"p", "s", .network⟩]⟩]⟩, 0, 0⟩

theorem contested_produced :
    ∃ m, contestedFlow.produceNodeSpecByCompleteNodeInputs consumer none = .ok m ∧
      prepareEntry contestedFlow.spec consumer (sampleEnv []) newborn = (.ok (m, [m]), newborn) := by
  refine prepareEntry_eq_produced contestedFlow consumer rfl ⟨by decide, fun r hr s hs => ?_⟩ _ _
  have hr : r = ⟨1, 2, [⟨"o", "s", .network⟩, ⟨"p", "s", .network⟩]⟩ := List.mem_singleton.mp hr
  subst hr
  rcases List.mem_pair.mp hs with rfl | rfl
  · exact ⟨producer, ⟨.text [7], "o", false⟩, rfl, rfl, by decide, emptySlot "s", by decide, rfl, trivial⟩
  · exact ⟨producer, ⟨.text [8, 9], "p", false⟩, rfl, rfl, by decide, emptySlot "s", by decide, rfl,
      trivial⟩

example : (contestedFlow.produceNodeSpecByCompleteNodeInputs consumer none).toOption.map
    (fun m => m.contents "s") = some (.ok [.text 8]) := by decide +kernel

end Samples

end Kuintessence
