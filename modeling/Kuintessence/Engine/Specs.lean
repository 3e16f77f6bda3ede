import Kuintessence.Engine.Sending

namespace Kuintessence

open Effect

section Inert

variable {α β : Type} {F : Frame World}

-- What the repositories, the node statuses and the tasks of a use case leave alone.
structure Inert (F : Frame World) : Prop where
  calm : ∀ s t, Calm s t → F.rel s t
  node : ∀ n, Keeps F (push (.updateNode n))
  save : Keeps F saveChanged
  task : ∀ taskId command clusterId, Keeps F (note fun _ => .sendTask taskId command clusterId)
  status : ∀ result, Keeps F (note fun _ => .nodeStatus result)

def handleUsecase (spec : NodeSpec) : Svc Unit :=
  match NodeInstanceKind.from spec.kind with
  | .noAction => NoAction.handleUsecase spec
  | .softwareUsecaseComputing => SoftwareComputing.handleUsecase spec
  | .script => Script.handleUsecase spec
  | .milestone => fail "No such sub task service called Milestone"

theorem sendUsecase_eq (spec : NodeSpec) :
    sendUsecase spec = note (fun nodes => .sendUsecase spec nodes) >>= fun _ => handleUsecase spec :=
  rfl

namespace Inert

theorem keeps (h : Inert F) {m : Svc α} (hm : Keeps calmFrame m) : Keeps F m := hm.mono h.calm

theorem updateNode (h : Inert F) (node : NodeInstance) : Keeps F (updateNode node) :=
  (h.keeps keeps_call).bind fun _ => h.node node

theorem sendTask (h : Inert F) (taskId : Uuid) (command : TaskCommand) (clusterId : Uuid) :
    Keeps F (sendTask taskId command clusterId) :=
  (h.keeps keeps_call).bind fun _ => h.task _ _ _

theorem sendNodeStatus (h : Inert F) (id : Uuid) (status : TaskResultStatus) :
    Keeps F (sendNodeStatus id status) :=
  (h.keeps keeps_call).bind fun _ => h.status _

theorem assignAndSend (h : Inert F) (taskId : Uuid) : Keeps F (assignAndSend taskId) :=
  (h.keeps keeps_getRandomCluster).bind fun _ => (h.keeps (keeps_getNodeById _)).bind fun _ =>
    (h.updateNode _).bind fun _ => h.save.bind fun _ => h.sendTask _ _ _

theorem handleUsecase (h : Inert F) (spec : NodeSpec) : Keeps F (handleUsecase spec) := by
  unfold Kuintessence.handleUsecase
  cases NodeInstanceKind.from spec.kind with
  | noAction => exact h.sendNodeStatus _ _
  | softwareUsecaseComputing =>
    exact keeps_read.bind fun _ => (h.keeps keeps_call).bind fun _ => (keeps_lift _).bind fun _ =>
      h.assignAndSend _
  | script => exact h.assignAndSend _
  | milestone => exact h.keeps (keeps_fail _)

theorem sendUsecase (h : Inert F) {spec : NodeSpec}
    (hnote : Keeps F (note fun nodes => .sendUsecase spec nodes)) : Keeps F (sendUsecase spec) :=
  hnote.bind fun _ => h.handleUsecase spec

theorem commandTask (h : Inert F) (taskId : Uuid) (command : TaskCommand) :
    Keeps F (commandTask taskId command) := by
  refine (h.keeps (keeps_getNodeById taskId)).bind fun node => ?_
  split
  · exact h.sendTask _ _ _
  · exact h.keeps (keeps_fail _)

theorem operateTask (h : Inert F) {task : OperateTask}
    (hnote : Keeps F (note fun _ => .operateTask task)) : Keeps F (operateTask task) := by
  refine hnote.bind fun _ => ?_
  cases task.kind with
  | noAction => exact h.sendNodeStatus _ _
  | softwareUsecaseComputing => exact h.commandTask _ _
  | script => exact h.commandTask _ _
  | milestone => exact h.keeps (keeps_fail _)

theorem standByNode (h : Inert F) (entries : List Uuid) (spec : NodeSpec) :
    Keeps F (standByNode entries spec) := by
  unfold Kuintessence.standByNode
  split
  · exact keeps_pure _
  · refine (h.keeps (keeps_getNodeById _)).bind fun _ => (h.updateNode _).bind fun _ => ?_
    split
    · exact keeps_pure _
    · exact (h.keeps (keeps_selectNodes _)).bind fun _ => Keeps.each (fun _ => h.updateNode _) _

end Inert

def viewFrame (view : Event → Option β) : Frame World :=
  ⟨fun s t => t.trace.filterMap view = s.trace.filterMap view, fun _ => rfl, fun h h' => h'.trans h⟩

theorem keeps_view_note {view : Event → Option β} {e : List NodeInstance → Event}
    (he : ∀ nodes, view (e nodes) = none) : Keeps (viewFrame view) (note e) := fun _ s => by
  change (s.trace ++ [e s.db.nodes]).filterMap view = s.trace.filterMap view
  rw [List.filterMap_append, List.filterMap_cons_none (he _), List.filterMap_nil, List.append_nil]

theorem keeps_view_push (view : Event → Option β) (st : Statement) :
    Keeps (viewFrame view) (push st) := fun _ _ => rfl

def traceFrame : Frame World where
  rel s t := t.trace = s.trace ∧ Tail s.ids t.ids
  refl _ := ⟨rfl, .refl _⟩
  trans h h' := ⟨h'.1.trans h.1, h.2.trans h'.2⟩

theorem calm_trace (s t : World) (h : Calm s t) : traceFrame.rel s t := ⟨h.trace, h.ids⟩

theorem keeps_executeAll_trace (ss : List Statement) (db : Tables) :
    Keeps traceFrame (executeAll db ss) := by
  induction ss generalizing db with
  | nil => exact keeps_pure _
  | cons st ss ih =>
    refine keeps_read.bind fun env => keeps_get.bind fun w =>
      (keeps_attempt.mono calm_trace).bind fun up => ?_
    split
    · exact keeps_pure _
    · exact ih _

theorem keeps_saveChanged_trace : Keeps traceFrame saveChanged := by
  have hcall : Keeps traceFrame call := keeps_call.mono calm_trace
  have hclear : Keeps traceFrame (modify clearStatements : Svc Unit) :=
    keeps_modify fun _ => ⟨rfl, .refl _⟩
  have hput (db : Tables) :
      Keeps traceFrame (modify fun w => clearStatements { w with db := db } : Svc Unit) :=
    keeps_modify fun _ => ⟨rfl, .refl _⟩
  refine keeps_get.bind fun w => ?_
  split
  · exact keeps_pure _
  · refine hcall.bind fun _ => (keeps_executeAll_trace _ _).bind fun out => ?_
    split
    · exact hcall.bind fun _ => hclear.bind fun _ => (keeps_fail _).mono calm_trace
    · exact hcall.bind fun _ => (hput _).bind fun _ => keeps_pure _

theorem viewFrame_inert {view : Event → Option β}
    (htask : ∀ taskId command clusterId, view (.sendTask taskId command clusterId) = none)
    (hstatus : ∀ result, view (.nodeStatus result) = none) : Inert (viewFrame view) where
  calm _ _ h := congrArg (List.filterMap view) h.trace
  node _ _ _ := rfl
  save := keeps_saveChanged_trace.mono fun _ _ h => congrArg (List.filterMap view) h.1
  task _ _ _ := keeps_view_note fun _ => htask _ _ _
  status _ := keeps_view_note fun _ => hstatus _

section View

variable {view : Event → Option β}

theorem Inert.updateFlow (h : Inert (viewFrame view)) (flow : WorkflowInstance) :
    Keeps (viewFrame view) (updateFlow flow) :=
  (h.keeps keeps_call).bind fun _ => keeps_view_push view _

theorem Inert.insertNode (h : Inert (viewFrame view)) (node : NodeInstance) :
    Keeps (viewFrame view) (insertNode node) :=
  (h.keeps keeps_call).bind fun _ => keeps_view_push view _

theorem Inert.insertFlow (h : Inert (viewFrame view)) (flow : WorkflowInstance) :
    Keeps (viewFrame view) (insertFlow flow) := by
  refine keeps_read.bind fun env => keeps_get.bind fun w => ?_
  split
  · exact h.keeps (keeps_fail _)
  · refine (h.keeps keeps_call).bind fun k => keeps_get.bind fun w => ?_
    split
    · exact h.keeps (keeps_fail _)
    · exact keeps_modify fun _ => rfl

theorem keeps_getDraftById (id : Uuid) : Keeps calmFrame (WorkflowService.getDraftById id) := by
  refine keeps_read.bind fun env => keeps_call.bind fun k => ?_
  split
  · exact keeps_pure _
  · exact keeps_fail _

theorem Inert.submitWorkflow (h : Inert (viewFrame view)) (id : Uuid) :
    Keeps (viewFrame view) (WorkflowService.submitWorkflow id) :=
  keeps_read.bind fun _ => (h.keeps (keeps_getDraftById id)).bind fun draft =>
    (keeps_read.bind fun _ => keeps_get.bind fun _ => keeps_lift _).bind fun _ => keeps_get.bind
      fun _ => (h.keeps (keeps_gen (keeps_instanceFrom _ draft))).bind fun flow =>
        (h.keeps (keeps_gen (keeps_parseNodeInstances flow))).bind fun _ =>
          (h.insertFlow flow).bind fun _ => (Keeps.each h.insertNode _).bind fun _ =>
            h.save.bind fun _ => keeps_pure _

end View

def idsFrame : Frame World := ⟨fun s t => Tail s.ids t.ids, fun _ => .refl _, Tail.trans⟩

theorem keeps_note_ids (e : List NodeInstance → Event) : Keeps idsFrame (note e) := fun _ _ => .refl _

theorem idsFrame_inert : Inert idsFrame where
  calm _ _ h := h.ids
  node _ _ _ := .refl _
  save := keeps_saveChanged_trace.mono fun _ _ h => h.2
  task _ _ _ := keeps_note_ids _
  status _ := keeps_note_ids _

end Inert

section Handed

variable {s t : World}

def Event.handed : Event → Option NodeSpec
  | .sendUsecase spec _ => some spec
  | _ => none

def handed (w : World) : List NodeSpec := w.trace.filterMap Event.handed

def handedFrame : Frame World := viewFrame Event.handed

theorem handedFrame_inert : Inert handedFrame := viewFrame_inert (fun _ _ _ => rfl) fun _ => rfl

theorem handed_note (spec : NodeSpec) (s : World) :
    handed { s with trace := s.trace ++ [.sendUsecase spec s.db.nodes] } = handed s ++ [spec] := by
  rw [handed, List.filterMap_append]
  rfl

end Handed

section Specs

abbrev Specs := List (Uuid × WorkflowInstanceSpec)

def Tables.specs (t : Tables) : Specs := t.flows.map (fun f => (f.id, f.spec))

def Specs.Prepared (specs : Specs) (id : Uuid) : Prop :=
  ∃ p ∈ specs, ∃ m ∈ p.2.nodeSpecs, ∃ slot ∈ m.outputSlots, id ∈ slot.prepared

theorem Tables.mem_specs {t : Tables} {f : WorkflowInstance} (h : f ∈ t.flows) :
    (f.id, f.spec) ∈ t.specs := List.mem_map_of_mem h

theorem Tables.flow_of_specs {t : Tables} {p : Uuid × WorkflowInstanceSpec} (h : p ∈ t.specs) :
    ∃ f ∈ t.flows, f.id = p.1 ∧ f.spec = p.2 := by
  obtain ⟨f, hf, rfl⟩ := List.mem_map.mp h
  exact ⟨f, hf, rfl, rfl⟩

theorem Tables.plan_of_specs {t : Tables} {f : WorkflowInstance} (h : (f.id, f.spec) ∈ t.specs) :
    f.plan ∈ t.plans := by
  obtain ⟨g, hg, hid, hspec⟩ := Tables.flow_of_specs h
  have hplan : g.plan = f.plan := by
    rw [WorkflowInstance.plan, WorkflowInstance.plan, hid, hspec]
  exact hplan ▸ Tables.mem_plans hg

theorem Tables.Keyed.specs {t : Tables} (h : t.Keyed) : (t.specs.map Prod.fst).Nodup := by
  rw [Tables.specs, List.map_map]
  exact h.flow_ids

structure Steady (specs : Specs) (s : World) : Prop where
  specs_eq : s.db.specs = specs
  queued : ∀ f, .updateFlow f ∈ s.statements → (f.id, f.spec) ∈ specs

def steadyFrame : Frame World where
  rel s t := ∀ specs : Specs, (specs.map Prod.fst).Nodup → Steady specs s → Steady specs t
  refl _ _ _ h := h
  trans h h' specs hnodup hs := h' specs hnodup (h specs hnodup hs)

variable {specs : Specs} {s t : World} {env : Env}

theorem execute_specs {t u : Tables} {stamp : Nat → Nat} {st : Statement}
    (hnodup : (t.specs.map Prod.fst).Nodup)
    (hst : ∀ f, st = .updateFlow f → (f.id, f.spec) ∈ t.specs)
    (h : t.execute stamp st = some u) : u.specs = t.specs := by
  cases st with
  | updateFlow f =>
    simp only [Tables.execute, Option.some.injEq] at h
    subst h
    rw [Tables.specs, Tables.specs, List.map_map]
    refine List.map_congr_left fun row hrow => ?_
    rw [Function.comp_apply]
    split
    · next hmatch =>
      have heq := List.inj_on_of_nodup_map hnodup (Tables.mem_specs hrow) (hst f rfl) hmatch.1
      exact Prod.ext rfl (congrArg Prod.snd heq).symm
    · rfl
  | updateNode n =>
    simp only [Tables.execute, Option.some.injEq] at h
    subst h
    rfl
  | insertNode n =>
    simp only [Tables.execute, Option.ite_none_left_eq_some, Option.some.injEq] at h
    obtain ⟨-, rfl⟩ := h
    rfl

theorem Executes.specs_eq {t u : Tables} {ss : List Statement} (h : Executes t ss u)
    (hnodup : (t.specs.map Prod.fst).Nodup)
    (hss : ∀ f, .updateFlow f ∈ ss → (f.id, f.spec) ∈ t.specs) : u.specs = t.specs := by
  induction h with
  | nil t => rfl
  | @cons t u v st ss stamp hone hrest ih =>
    have hspecs := execute_specs hnodup (fun f hf => hss f (hf ▸ List.mem_cons_self)) hone
    rw [← hspecs] at hnodup hss ⊢
    exact ih hnodup fun f hf => hss f (List.mem_cons_of_mem st hf)

theorem Steady.calm (h : Steady specs s) (hc : Calm s t) : Steady specs t := by
  refine ⟨?_, fun f hf => ?_⟩
  · rw [hc.db]
    exact h.specs_eq
  · rw [hc.statements] at hf
    exact h.queued f hf

theorem Steady.push_node (h : Steady specs s) (n : NodeInstance) :
    Steady specs { s with statements := s.statements ++ [.updateNode n], canDrop := false } := by
  refine ⟨h.specs_eq, fun f hf => ?_⟩
  rcases List.mem_append.mp hf with hf | hf
  · exact h.queued f hf
  · exact Statement.noConfusion (List.mem_singleton.mp hf)

theorem Steady.push_flow (h : Steady specs s) {flow : WorkflowInstance}
    (hflow : (flow.id, flow.spec) ∈ specs) :
    Steady specs { s with statements := s.statements ++ [.updateFlow flow], canDrop := false } := by
  refine ⟨h.specs_eq, fun f hf => ?_⟩
  rcases List.mem_append.mp hf with hf | hf
  · exact h.queued f hf
  · rw [Statement.updateFlow.inj (List.mem_singleton.mp hf)]
    exact hflow

theorem wp_saveChanged_steady (hnodup : (specs.map Prod.fst).Nodup) (h : Steady specs s) :
    wp saveChanged env (fun _ t => Steady specs t) (Steady specs) s := by
  unfold saveChanged
  rw [wp_bind, wp_get]
  split
  · exact h
  · have hcleared : ∀ {u : World}, Steady specs u → Steady specs (clearStatements u) :=
      fun hu => ⟨hu.specs_eq, fun _ hf => absurd hf List.not_mem_nil⟩
    rw [wp_bind]
    refine wp_mono (keeps_call.wp env s) (fun _ t ht => ?_) (fun _ ht => h.calm ht)
    rw [wp_bind]
    refine wp_mono (wp_executeAll s.statements s.db t) (fun out u ⟨hu, hout⟩ => ?_)
      (fun u hu => (h.calm ht).calm hu)
    have hsteady : Steady specs u := (h.calm ht).calm hu
    cases out with
    | none =>
      rw [wp_bind]
      exact wp_mono (keeps_call.wp env u) (fun _ v hv => hcleared (hsteady.calm hv))
        (fun _ hv => hsteady.calm hv)
    | some db' =>
      rw [wp_bind]
      refine wp_mono (keeps_call.wp env u) (fun _ v hv => ?_) (fun _ hv => hsteady.calm hv)
      refine ⟨?_, fun _ hf => absurd hf List.not_mem_nil⟩
      have hspecs := (hout db' rfl).specs_eq (by rw [h.specs_eq]; exact hnodup)
        (by rw [h.specs_eq]; exact h.queued)
      exact hspecs.trans h.specs_eq

theorem keeps_note_steady (e : List NodeInstance → Event) : Keeps steadyFrame (note e) :=
  fun _ _ _ _ h => ⟨h.specs_eq, h.queued⟩

theorem steadyFrame_inert : Inert steadyFrame where
  calm _ _ hc _ _ h := h.calm hc
  node n _ _ _ _ h := h.push_node n
  save _ _ _ hnodup h := wp_final.mp (wp_saveChanged_steady hnodup h)
  task _ _ _ := keeps_note_steady _
  status _ := keeps_note_steady _

structure Still (specs : Specs) (sent : List NodeSpec) (s : World) : Prop where
  steady : Steady specs s
  handed_eq : handed s = sent

def stillFrame : Frame World where
  rel s t := steadyFrame.rel s t ∧ handedFrame.rel s t ∧ idsFrame.rel s t
  refl s := ⟨steadyFrame.refl s, handedFrame.refl s, idsFrame.refl s⟩
  trans h h' := ⟨steadyFrame.trans h.1 h'.1, handedFrame.trans h.2.1 h'.2.1,
    idsFrame.trans h.2.2 h'.2.2⟩

theorem keeps_still {α : Type} {m : Svc α} (hsteady : Keeps steadyFrame m)
    (hhanded : Keeps handedFrame m) (hids : Keeps idsFrame m) : Keeps stillFrame m :=
  fun r s => ⟨hsteady r s, hhanded r s, hids r s⟩

theorem keeps_note_still {e : List NodeInstance → Event} (he : ∀ nodes, (e nodes).handed = none) :
    Keeps stillFrame (note e) := keeps_still (keeps_note_steady e) (keeps_view_note he) (keeps_note_ids e)

theorem stillFrame_inert : Inert stillFrame where
  calm s t h := ⟨steadyFrame_inert.calm s t h, handedFrame_inert.calm s t h,
    idsFrame_inert.calm s t h⟩
  node n := keeps_still (steadyFrame_inert.node n) (handedFrame_inert.node n) (idsFrame_inert.node n)
  save := keeps_still steadyFrame_inert.save handedFrame_inert.save idsFrame_inert.save
  task _ _ _ := keeps_note_still fun _ => rfl
  status _ := keeps_note_still fun _ => rfl

variable {sent : List NodeSpec}

theorem wp_still {α : Type} {m : Svc α} (hm : Keeps stillFrame m)
    (hnodup : (specs.map Prod.fst).Nodup) (h : Still specs sent s) :
    wp m env (fun _ t => Still specs sent t) (Still specs sent) s := by
  have hstep : ∀ t, stillFrame.rel s t → Still specs sent t := fun t ht =>
    ⟨ht.1 specs hnodup h.steady, ht.2.1.trans h.handed_eq⟩
  exact wp_mono (hm.wp env s) (fun _ t ht => hstep t ht) (fun t ht => hstep t ht)

end Specs

end Kuintessence
