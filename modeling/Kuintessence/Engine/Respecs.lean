import Kuintessence.Engine.Handing
import Kuintessence.Engine.Invariant

namespace Kuintessence

open Effect StatusReceiver WorkflowService

variable {ids iter : Nat → Uuid} {env : Env} {w w' s t : World} {db db' : Tables} {specs : Specs}
  {sent tasks : List NodeSpec} {entries : List Uuid} {static : WorkflowInstanceSpec} {n : NodeSpec}
  {out : NodeSpec × List NodeSpec} {slots : List NodeSpecOutputSlot}

theorem World.still_open (w : World) (user : Option Uuid) :
    Still w.db.specs (handed w) (w.open user) :=
  ⟨⟨rfl, fun _ hf => absurd hf List.not_mem_nil⟩, rfl⟩

theorem wp_getFlowById_still (h : Still specs sent s) (id : Uuid) :
    wp (getFlowById id) env (fun flow t => Still specs sent t ∧ (flow.id, flow.spec) ∈ specs)
      (Still specs sent) s :=
  wp_mono (wp_and (wp_getFlowById_steady h.steady id)
    ((handedFrame_inert.keeps (keeps_getFlowById id)).wp env s))
    (fun _ _ ⟨⟨ht, hflow⟩, hsent⟩ => ⟨⟨ht, hsent.trans h.handed_eq⟩, hflow⟩)
    (fun _ ⟨ht, hsent⟩ => ⟨ht, hsent.trans h.handed_eq⟩)

section Operate

theorem wp_operateWorkflow_still (hnodup : (specs.map Prod.fst).Nodup) (h : Still specs sent s)
    (flowStatus : WorkflowInstanceStatus) (status : NodeInstanceStatus) (command : TaskCommand)
    (affected : NodeInstanceStatus → Bool) (id : Uuid) :
    wp (operateWorkflow flowStatus status command affected id) env (fun _ t => Still specs sent t)
      (Still specs sent) s := by
  have hinert := stillFrame_inert
  unfold operateWorkflow
  rw [wp_bind]
  refine wp_mono (wp_getFlowById_still h id) (fun flow t ⟨ht, hflow⟩ => ?_) (fun _ he => he)
  rw [wp_bind]
  refine wp_mono (wp_still (hinert.keeps (keeps_selectNodes _)) hnodup ht) (fun nodes u hu => ?_)
    (fun _ he => he)
  have hoperate : ∀ node, Keeps stillFrame (setAndOperate status command node) := fun node =>
    (hinert.updateNode _).bind fun _ => hinert.operateTask (keeps_note_still fun _ => rfl)
  rw [wp_bind]
  refine wp_mono (wp_still (Keeps.each hoperate _) hnodup hu) (fun _ v hv => ?_) (fun _ he => he)
  have hupdated : ({ flow with status := flowStatus }.id, flow.spec) ∈ specs := hflow
  rw [wp_bind]
  refine wp_mono (wp_updateFlow_still hv hupdated) (fun _ x hx => ?_) (fun _ he => he)
  rw [wp_bind]
  exact wp_still hinert.save hnodup hx

theorem step_operate_still {q : Request} {flowStatus : WorkflowInstanceStatus}
    {status : NodeInstanceStatus} {command : TaskCommand} {affected : NodeInstanceStatus → Bool}
    {id : Uuid} (hk : w.db.Keyed)
    (hq : q.serve = operateWorkflow flowStatus status command affected id) :
    Respecs w.ids w.db (handed w) (step env w q) := by
  have hwp : wp q.serve env _ _ (w.open q.user) := hq ▸ wp_operateWorkflow_still hk.specs
    (w.still_open q.user) flowStatus status command affected id
  have hstill : Still w.db.specs (handed w) (step env w q) := step_of_wp hwp
  exact .still hstill.steady.specs_eq hstill.handed_eq

end Operate

section Start

theorem wp_resetWorkflow_still (hnodup : (specs.map Prod.fst).Nodup) (h : Still specs sent s)
    (id : Uuid) :
    wp (resetWorkflow id) env (fun _ t => Still specs sent t) (Still specs sent) s := by
  have hinert := stillFrame_inert
  unfold resetWorkflow
  rw [wp_bind]
  refine wp_mono (wp_getFlowById_still h id) (fun flow t ⟨ht, hflow⟩ => ?_) (fun _ he => he)
  rw [wp_bind]
  refine wp_mono (wp_still (hinert.keeps (keeps_selectNodes _)) hnodup ht) (fun nodes u hu => ?_)
    (fun _ he => he)
  have hupdated : ({ flow with status := .pending }.id, flow.spec) ∈ specs := hflow
  rw [wp_bind]
  refine wp_mono (wp_updateFlow_still hu hupdated) (fun _ v hv => ?_) (fun _ he => he)
  rw [wp_bind]
  refine wp_mono (wp_still (Keeps.each (fun _ => hinert.updateNode _) _) hnodup hv)
    (fun _ x hx => ?_) (fun _ he => he)
  rw [wp_bind]
  exact wp_still hinert.save hnodup hx

theorem step_start_respecs (hk : w.db.Keyed) (user : Option Uuid) (id : Uuid) :
    Respecs w.ids w.db (handed w) (step env w (.start user id)) := by
  refine step_of_wp ?_
  change wp (startWorkflow id) env _ _ (w.open user)
  rw [startWorkflow_eq, wp_bind]
  refine wp_mono (wp_and (wp_resetWorkflow hk user id)
    (wp_resetWorkflow_still hk.specs (w.still_open user) id)) ?_
    (fun t ⟨_, ht⟩ => .still ht.steady.specs_eq ht.handed_eq)
  rintro _ t ⟨⟨rows, db, -, hc, hmid⟩, hstill⟩
  have hspecs : db.specs = w.db.specs := by
    rw [← hmid.db_eq]
    exact hstill.steady.specs_eq
  rw [← hspecs] at hstill
  exact wp_mono (wp_schedule_respecs hmid (hc.keyed hk) hstill _)
    (fun _ _ ⟨hu, _⟩ => hu.congr hc.places hspecs) (fun _ hu => hu.congr hc.places hspecs)

end Start

section Receive

theorem wp_setFlowUnless_still (hnodup : (specs.map Prod.fst).Nodup) (h : Still specs sent s)
    (awaited : NodeInstanceStatus) (status : WorkflowInstanceStatus) (flow : Uuid) :
    wp (setFlowUnless awaited status flow) env (fun _ t => Still specs sent t) (Still specs sent) s := by
  unfold setFlowUnless
  rw [wp_bind]
  refine wp_mono (wp_getFlowById_still h flow) (fun f t ⟨ht, hflow⟩ => ?_) (fun _ he => he)
  rw [wp_bind]
  refine wp_mono (wp_still (stillFrame_inert.keeps (keeps_selectNodes _)) hnodup ht)
    (fun rows u hu => ?_) (fun _ he => he)
  have hupdated : ({ f with status := status }.id, f.spec) ∈ specs := hflow
  split
  · exact wp_updateFlow_still hu hupdated
  · exact hu

theorem wp_followUp_still (hnodup : (specs.map Prod.fst).Nodup) (h : Still specs sent s)
    {result : TaskResult} (hne : result.status ≠ .success) (flow : Uuid) :
    wp (followUp result flow) env (fun _ t => Still specs sent t) (Still specs sent) s := by
  unfold followUp
  cases hs : result.status with
  | success => exact absurd hs hne
  | failed =>
    change wp (getFlowById flow >>= fun f => updateFlow { f with status := .error }) env _ _ s
    rw [wp_bind]
    refine wp_mono (wp_getFlowById_still h flow) (fun f t ⟨ht, hflow⟩ => ?_) (fun _ he => he)
    have hupdated : ({ f with status := .error }.id, f.spec) ∈ specs := hflow
    exact wp_updateFlow_still ht hupdated
  | paused => exact wp_setFlowUnless_still hnodup h .pausing .paused flow
  | continued => exact h
  | deleted => exact wp_setFlowUnless_still hnodup h .stopping .stopped flow

theorem keeps_saveReport_still (result : TaskResult) : Keeps stillFrame (saveReport result) :=
  (stillFrame_inert.keeps (keeps_getNodeById _)).bind fun _ => (stillFrame_inert.updateNode _).bind
    fun _ => stillFrame_inert.save.bind fun _ => keeps_pure _

theorem respec_keys (specs : Specs) (id : Uuid) (nodes : List NodeSpec) :
    (respec specs id nodes).map Prod.fst = specs.map Prod.fst := by
  rw [respec, List.map_map]
  refine List.map_congr_left fun p _ => ?_
  rw [Function.comp_apply]
  split <;> rfl

theorem Respecs.keys (h : Respecs ids db sent t) : t.db.specs.map Prod.fst = db.specs.map Prod.fst := by
  cases h with
  | still specs_eq handed_eq => rw [specs_eq]
  | gave flow outs given gives hgiven handed_eq specs_eq => rw [specs_eq]
  | stored flow outs gives handed_eq specs_eq => rw [specs_eq, respec_keys]

theorem Respecs.later (h : Respecs ids db sent s) (hs : Steady s.db.specs s)
    (hnodup : (db.specs.map Prod.fst).Nodup) (ht : stillFrame.rel s t) : Respecs ids db sent t := by
  obtain ⟨hsteady, hsent, hids⟩ := ht
  have hkeys := hnodup
  rw [← h.keys] at hkeys
  have hspecs : t.db.specs = s.db.specs := (hsteady _ hkeys hs).specs_eq
  have hhanded : handed t = handed s := hsent
  cases h with
  | still specs_eq handed_eq => exact .still (hspecs.trans specs_eq) (hhanded.trans handed_eq)
  | gave flow outs given gives hgiven handed_eq specs_eq =>
    exact .gave flow outs given (gives.later hids) hgiven (hhanded.trans handed_eq)
      (hspecs.trans specs_eq)
  | stored flow outs gives handed_eq specs_eq =>
    exact .stored flow outs (gives.later hids) (hhanded.trans handed_eq) (hspecs.trans specs_eq)

theorem keeps_close_still (id : Uuid) : Keeps stillFrame (billNode id >>= fun _ => saveChanged) :=
  ((stillFrame_inert.keeps keeps_call).bind fun _ => keeps_note_still fun _ => rfl).bind
    fun _ => stillFrame_inert.save

theorem step_receive_respecs (hk : w.db.Keyed) (result : TaskResult) :
    Respecs w.ids w.db (handed w) (step env w (.receive result)) := by
  have hnodup := hk.specs
  have hstill : ∀ t, Still w.db.specs (handed w) t → Respecs w.ids w.db (handed w) t :=
    fun t ht => .still ht.steady.specs_eq ht.handed_eq
  refine step_of_wp ?_
  change wp (receiveNodeStatus result) env _ _ (w.open none)
  rw [wp_receiveNodeStatus_eq]
  refine wp_mono (wp_and (wp_saveReport hk none result)
    (wp_still (keeps_saveReport_still result) hnodup (w.still_open none))) ?_
    (fun t ⟨_, ht⟩ => hstill t ht)
  rintro node t ⟨⟨-, -, db, hc, hmid⟩, ht⟩
  by_cases hsuccess : result.status = .success
  · have hspecs : db.specs = w.db.specs := by
      rw [← hmid.db_eq]
      exact ht.steady.specs_eq
    rw [← hspecs] at ht
    unfold followUp
    simp only [hsuccess]
    rw [wp_bind]
    refine wp_mono (wp_schedule_respecs hmid (hc.keyed hk) ht _) ?_
      (fun _ hu => hu.congr hc.places hspecs)
    rintro _ u ⟨hu, hsteady⟩
    have hafter : Respecs w.ids w.db (handed w) u := hu.congr hc.places hspecs
    have hclose : wp (billNode result.id >>= fun _ => saveChanged) env
        (fun _ v => Respecs w.ids w.db (handed w) v) (Respecs w.ids w.db (handed w)) u :=
      wp_mono ((keeps_close_still result.id).wp env u)
        (fun _ v hv => hafter.later hsteady hnodup hv) (fun v hv => hafter.later hsteady hnodup hv)
    rw [wp_bind] at hclose
    exact hclose
  · refine wp_mono (wp_followUp_still hnodup ht hsuccess _) (fun _ u hu => ?_) hstill
    exact wp_mono (wp_still stillFrame_inert.save hnodup hu) (fun _ v hv => hstill v hv) hstill

end Receive

section Requests

theorem Respecs.sends (h : Respecs ids db sent t) : ∃ given, handed t = sent ++ given ∧
    ∀ task ∈ given, ∃ flow outs, Gives ids t.ids db flow outs ∧ task ∈ outs.flatMap Prod.snd := by
  cases h with
  | still specs_eq handed_eq =>
    exact ⟨[], by rw [handed_eq, List.append_nil], fun _ h => absurd h List.not_mem_nil⟩
  | gave flow outs given gives hgiven handed_eq specs_eq =>
    exact ⟨given, handed_eq, fun _ htask => ⟨flow, outs, gives, hgiven.subset htask⟩⟩
  | stored flow outs gives handed_eq specs_eq =>
    exact ⟨_, handed_eq, fun _ htask => ⟨flow, outs, gives, htask⟩⟩

-- A request schedules at most once, or enters one new instance.
inductive Respecced (w w' : World) : Prop where
  | scheduled (h : Respecs w.ids w.db (handed w) w') (places_eq : w'.db.places = w.db.places)
  | entered (spec : WorkflowDraftSpec) (flow : WorkflowInstance) (rows kept : List NodeInstance)
      (entry : Entry w.db.used spec flow rows w'.ids) (hkept : kept = [] ∨ kept = rows)
      (inserted : Inserted flow kept w w') (handed_eq : handed w' = handed w)

theorem Inserted.specs_eq {flow : WorkflowInstance} {kept : List NodeInstance}
    (h : Inserted flow kept w w') : w'.db.specs = w.db.specs ++ [(flow.id, flow.spec)] := by
  obtain ⟨user, time, hflows⟩ := h.flows
  simp only [Tables.specs, hflows, List.map_append, List.map_singleton]

theorem step_submit_respecced (hs : Sound w) (user : Option Uuid) (draftId : Uuid) :
    Respecced w (step env w (.submit user draftId)) := by
  have hkeeps : Keeps handedFrame (submitWorkflow draftId >>= fun _ => pure ()) :=
    (handedFrame_inert.submitWorkflow draftId).bind fun _ => keeps_pure _
  have hsent : handed (step env w (.submit user draftId)) = handed w := hkeeps env (w.open user)
  cases (step_submit hs.supply user draftId : Submission env _ _ w _) with
  | lost turn same =>
    exact .scheduled (.still (congrArg Tables.specs same) hsent) (congrArg Tables.places same)
  | inserted draft k flow rows kept hdraft entry hkept inserted =>
    exact .entered _ flow rows kept entry hkept inserted hsent

theorem step_respecs (hk : w.db.Keyed) {q : Request} (hq : ∀ user draftId, q ≠ .submit user draftId) :
    Respecs w.ids w.db (handed w) (step env w q) := by
  cases q with
  | submit user draftId => exact absurd rfl (hq user draftId)
  | start user id => exact step_start_respecs hk user id
  | pause user id =>
    have hserve : (Request.pause user id).serve =
      operateWorkflow .paused .paused .pause (fun s => s == .running) id := rfl
    exact step_operate_still hk hserve
  | «continue» user id =>
    have hserve : (Request.continue user id).serve =
      operateWorkflow .running .running .continue (fun s => s == .paused) id := rfl
    exact step_operate_still hk hserve
  | terminate user id =>
    have hserve : (Request.terminate user id).serve = operateWorkflow .stopped .stopped .delete
      (fun s => s == .running || s == .paused) id := rfl
    exact step_operate_still hk hserve
  | receive result => exact step_receive_respecs hk result

theorem step_respecced (hs : Sound w) (q : Request) : Respecced w (step env w q) := by
  by_cases hq : ∀ user draftId, q ≠ .submit user draftId
  · obtain ⟨ms, fs, news, turn⟩ := step_turned hs hq
    exact .scheduled (step_respecs hs.keyed hq) turn.commit.places
  · simp only [not_forall, not_not] at hq
    obtain ⟨user, draftId, rfl⟩ := hq
    exact step_submit_respecced hs user draftId

end Requests

section Origin

variable {flow : WorkflowInstance} {outs : List (NodeSpec × List NodeSpec)} {task : NodeSpec}

inductive Origin (ids iter : Nat → Uuid) (places : List Place) (static : WorkflowInstanceSpec)
    (task : NodeSpec) : Prop where
  | root (n : NodeSpec) (hn : n ∈ static.nodeSpecs) (hid : task.id = n.id)
      (hslots : task.outputSlots = n.outputSlots)
  | sub (n : NodeSpec) (hn : n ∈ static.nodeSpecs) (c : Place) (hc : c ∈ places)
      (hid : c.id = task.id) (hparent : c.parent = some n.id)
      (hdrawn : ∀ slot ∈ task.outputSlots, ∃ id, slot.prepared = [id] ∧ Drawn ids iter id)

theorem Subtask.drawn {input : Uuid × List (String × Input)} (h : Subtask ids iter n input task) :
    ∀ slot ∈ task.outputSlots, ∃ id, slot.prepared = [id] ∧ Drawn ids iter id := by
  obtain ⟨m, -, -, hslots⟩ := h.filled
  intro slot hslot
  obtain ⟨slot', -, id, rfl, hdrawn⟩ := exists_of_forall₂ hslots hslot
  exact ⟨id, slot'.prepared_set _, hdrawn⟩

theorem Debatched.parent {relations : List NodeRelation} {tasks : List NodeSpec}
    (h : Debatched ids iter db relations n tasks) (htask : task ∈ tasks) :
    (∃ c ∈ db.places, c.id = task.id ∧ c.parent = some n.id) ∧
      ∀ slot ∈ task.outputSlots, ∃ id, slot.prepared = [id] ∧ Drawn ids iter id := by
  obtain ⟨slots, -, subs, hperm, htasks⟩ := h.split
  obtain ⟨input, hinput, hsub⟩ := exists_of_forall₂ htasks htask
  refine ⟨?_, hsub.drawn⟩
  obtain ⟨row, hrow, hid⟩ := List.mem_map.mp (List.of_mem_zip hinput).1
  rw [hperm.mem_iff, List.mem_filter, beq_iff_eq] at hrow
  exact ⟨row.place, Tables.mem_places hrow.1, hid.trans hsub.id.symm, hrow.2⟩

theorem Prepares.origin (h : Prepares ids iter db static entries n out) (hn : n ∈ static.nodeSpecs)
    (htask : task ∈ out.2) : Origin ids iter db.places static task := by
  cases h with
  | waiting h => exact absurd htask List.not_mem_nil
  | plain n' h hplain hfill =>
    rw [List.mem_singleton.mp htask]
    refine .root n hn (fillRelations_same hfill).1 ?_
    rw [fillRelations_frame hfill]
  | batch tasks slots h hbatch htasks hcollect =>
    rcases List.mem_cons.mp htask with rfl | htask
    · exact .root task hn rfl rfl
    · obtain ⟨⟨c, hc, hid, hparent⟩, hdrawn⟩ := htasks.parent htask
      exact .sub n hn c hc hid hparent hdrawn

theorem Gives.origin (h : Gives ids iter db flow outs) (htask : task ∈ outs.flatMap Prod.snd) :
    Origin ids iter db.places flow.spec task := by
  obtain ⟨entries, db', hplaces, -, houts⟩ := h.prepares
  obtain ⟨out, hout, hmem⟩ := List.mem_flatMap.mp htask
  obtain ⟨n, hn, hprepares⟩ := exists_of_forall₂ houts hout
  rw [← hplaces]
  exact hprepares.origin hn hmem

end Origin

section Unspent

def Unspent (w : World) : Prop := ∀ k, ¬w.db.specs.Prepared (w.ids k)

theorem Subtask.puts {task : Uuid × List (String × Input)} {sub : NodeSpec}
    (h : Subtask ids iter n task sub) {id : Uuid} (hid : Puts sub id) : Drawn ids iter id := by
  obtain ⟨slot, hslot, hid⟩ := hid
  obtain ⟨own, hown, hdrawn⟩ := h.drawn slot hslot
  rw [hown, List.mem_singleton] at hid
  rw [hid]
  exact hdrawn

theorem Prepares.puts (h : Prepares ids iter db static entries n out) {id : Uuid}
    (hid : Puts out.1 id) : Puts n id ∨ Drawn ids iter id := by
  cases h with
  | waiting h => exact .inl hid
  | plain n' h hplain hfill =>
    obtain ⟨slot, hslot, hid⟩ := hid
    rw [fillRelations_frame hfill] at hslot
    exact .inl ⟨slot, hslot, hid⟩
  | batch tasks slots h hbatch htasks hcollect =>
    obtain ⟨slot, hslot, hid⟩ := hid
    obtain ⟨slot', hslot', hcollects⟩ := exists_of_forall₂ (collectPrepared_ok hcollect) hslot
    obtain ⟨news, hnews, hlist⟩ := hcollects.prepared
    rw [hlist, List.mem_append] at hid
    rcases hid with hid | hid
    · refine .inl ⟨slot', hslot', ?_⟩
      split at hid
      · exact absurd hid List.not_mem_nil
      · exact hid
    · obtain ⟨task, htask, hputs⟩ := exists_of_forall₂ hnews hid
      obtain ⟨slots, -, subs, -, hsubs⟩ := htasks.split
      obtain ⟨input, -, hsub⟩ := exists_of_forall₂ hsubs htask
      exact .inr (hsub.puts hputs)

theorem Gives.puts {flow : WorkflowInstance} {outs : List (NodeSpec × List NodeSpec)}
    (h : Gives ids iter db flow outs) (hn : n ∈ outs.map Prod.fst) {id : Uuid} (hid : Puts n id) :
    db.specs.Prepared id ∨ Drawn ids iter id := by
  obtain ⟨out, hout, rfl⟩ := List.mem_map.mp hn
  obtain ⟨entries, db', -, -, houts⟩ := h.prepares
  obtain ⟨m, hm, hprepares⟩ := exists_of_forall₂ houts hout
  exact (hprepares.puts hid).imp_left fun hputs => ⟨_, h.spec, m, hm, hputs⟩

theorem Respecs.prepared (h : Respecs ids db sent t) {id : Uuid} (hid : t.db.specs.Prepared id) :
    db.specs.Prepared id ∨ Drawn ids t.ids id := by
  cases h with
  | still specs_eq handed_eq => exact .inl (specs_eq ▸ hid)
  | gave flow outs given gives hgiven handed_eq specs_eq => exact .inl (specs_eq ▸ hid)
  | stored flow outs gives handed_eq specs_eq =>
    obtain ⟨p, hp, m, hm, hputs⟩ := hid
    rw [specs_eq, respec] at hp
    obtain ⟨q, hq, rfl⟩ := List.mem_map.mp hp
    split at hm
    · exact gives.puts hm hputs
    · exact .inl ⟨q, hq, m, hm, hputs⟩

theorem step_unspent (hs : Sound w) (h : Unspent w) (q : Request) : Unspent (step env w q) := by
  intro k hk
  have hids : Tail w.ids (step env w q).ids := (step_stepped hs q).ids
  have hold : ¬w.db.specs.Prepared ((step env w q).ids k) := by
    obtain ⟨l, hl⟩ := hids
    rw [hl]
    exact h (l + k)
  cases step_respecced hs q with
  | scheduled hsched places_eq =>
    rcases hsched.prepared hk with hbefore | hdrawn
    · exact hold hbefore
    · exact hdrawn.ne hs.supply.injective k rfl
  | entered spec flow rows kept entry hkept inserted handed_eq =>
    obtain ⟨p, hp, m, hm, slot, hslot, hid⟩ := hk
    rw [inserted.specs_eq, List.mem_append, List.mem_singleton] at hp
    rcases hp with hp | rfl
    · exact hold ⟨p, hp, m, hm, slot, hslot, hid⟩
    · obtain ⟨own, hown, hne⟩ := entry.minted m hm slot hslot
      rw [hown, List.mem_singleton] at hid
      exact hne k hid

theorem start_unspent (ids : Nat → Uuid) (files : Files) : Unspent (World.start ids files) :=
  fun _ ⟨_, hp, _⟩ => absurd hp List.not_mem_nil

theorem run_unspent {ids : Nat → Uuid} (hids : Function.Injective ids) (files : Files)
    (qs : List Request) : Unspent (run (step env) (World.start ids files) qs) := by
  refine (run_preserves (I := fun w => Sound w ∧ Unspent w) ?_
    ⟨start_sound hids files, start_unspent ids files⟩ qs).2
  exact fun w q ⟨hs, h⟩ => ⟨step_sound hs q, step_unspent hs h q⟩

end Unspent

section Known

def Known (w : World) : Prop := Seated w.db.places ((handed w).map NodeSpec.id)

theorem step_known (hs : Sound w) (h : Known w) (q : Request) : Known (step env w q) := by
  have hold : ∀ x ∈ (handed w).map NodeSpec.id, ∃ c ∈ (step env w q).db.places, c.id = x := by
    intro x hx
    obtain ⟨c, hc, hid⟩ := h x hx
    exact ⟨c, (step_stepped hs q).place_mem c hc, hid⟩
  intro x hx
  cases step_respecced hs q with
  | scheduled hsched places_eq =>
    obtain ⟨given, hgiven, hgives⟩ := hsched.sends
    rw [hgiven, List.map_append, List.mem_append] at hx
    rcases hx with hx | hx
    · exact hold x hx
    · obtain ⟨task, htask, rfl⟩ := List.mem_map.mp hx
      obtain ⟨flow, outs, gives, hmem⟩ := hgives task htask
      rw [places_eq]
      exact gives.seated task.id (List.mem_map_of_mem hmem)
  | entered spec flow rows kept entry hkept inserted handed_eq =>
    rw [handed_eq] at hx
    exact hold x hx

end Known

-- A scheduling call over the tables of `w`: the same rows and specs, whatever the statuses.
structure Session (w s : World) : Prop where
  places : s.db.places = w.db.places
  specs : s.db.specs = w.db.specs
  statements : s.statements = []
  ids : Tail w.ids s.ids

end Kuintessence
