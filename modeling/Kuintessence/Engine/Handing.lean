import Kuintessence.Engine.Specs
import Kuintessence.Engine.Turns

namespace Kuintessence

open Effect

section Stages

-- Scheduling up to the save of the `Running` statuses: nothing where the workflow finishes, else
-- the instance and what each of its nodes gives.
def ready (mode : ScheduleMode) : Svc (Option (WorkflowInstance × List (NodeSpec × List NodeSpec))) := do
  let selected ← select mode
  if selected.2.isEmpty then do
    finish selected.1
    pure none
  else do
    let prepared ← Effect.mapEach (prepareNode selected.1.spec selected.2) selected.1.spec.nodeSpecs
    Effect.each (fun (task : NodeSpec) => do
      let node ← getNodeById task.id
      updateNode { node with status := .running }) (prepared.flatMap Prod.snd)
    let _ ← saveChanged
    pure (some (selected.1, prepared))

def store (flow : WorkflowInstance) (prepared : List (NodeSpec × List NodeSpec)) : Svc Unit := do
  updateFlow { flow with spec := { flow.spec with nodeSpecs := prepared.map Prod.fst } }
  let _ ← saveChanged
  pure ()

def sendAndStore : Option (WorkflowInstance × List (NodeSpec × List NodeSpec)) → Svc Unit
  | none => pure ()
  | some (flow, prepared) => do
    Effect.each sendUsecase (prepared.flatMap Prod.snd)
    store flow prepared

theorem scheduleNextNodes_eq (mode : ScheduleMode) :
    scheduleNextNodes mode = ready mode >>= sendAndStore := by
  unfold scheduleNextNodes ready
  rw [bind_assoc]
  congr 1
  funext selected
  cases hempty : selected.2.isEmpty with
  | true =>
    simp only [if_true, finish, bind_assoc, pure_bind]
    rfl
  | false =>
    simp only [Bool.false_eq_true, if_false, dispatch, runTasks, bind_assoc, pure_bind]
    rfl

end Stages

variable {ids iter : Nat → Uuid} {db db' : Tables} {ns : List Notice} {ms : List NodeMark}
  {fs : List FlowMark} {s t : World} {env : Env} {specs : Specs}

section Reads

theorem wp_getFlowById_steady (h : Steady specs s) (id : Uuid) :
    wp (getFlowById id) env (fun flow t => Steady specs t ∧ (flow.id, flow.spec) ∈ specs)
      (Steady specs) s := by
  unfold getFlowById
  rw [wp_bind]
  refine wp_mono (keeps_call.wp env s) (fun _ t ht => ?_) (fun _ ht => h.calm ht)
  have hsteady : Steady specs t := h.calm ht
  rw [wp_bind, wp_get]
  split
  · next flow hfind =>
    refine ⟨hsteady, ?_⟩
    rw [← hsteady.specs_eq]
    exact Tables.mem_specs (List.mem_of_find?_eq_some hfind)
  · exact hsteady

theorem wp_getFlowByNodeId_steady (h : Steady specs s) (id : Uuid) :
    wp (getFlowByNodeId id) env (fun flow t => Steady specs t ∧ (flow.id, flow.spec) ∈ specs)
      (Steady specs) s := by
  unfold getFlowByNodeId
  rw [wp_bind]
  exact wp_mono ((keeps_getNodeById id).wp env s)
    (fun _ _ ht => wp_getFlowById_steady (h.calm ht) _) (fun _ ht => h.calm ht)

theorem wp_updateFlow_steady (h : Steady specs s) {flow : WorkflowInstance}
    (hflow : (flow.id, flow.spec) ∈ specs) :
    wp (updateFlow flow) env (fun _ t => Steady specs t) (Steady specs) s := by
  unfold updateFlow
  rw [wp_bind]
  exact wp_mono (keeps_call.wp env s) (fun _ _ ht => (h.calm ht).push_flow hflow)
    (fun _ ht => h.calm ht)

theorem wp_updateFlow_still {sent : List NodeSpec} (h : Still specs sent s)
    {flow : WorkflowInstance} (hflow : (flow.id, flow.spec) ∈ specs) :
    wp (updateFlow flow) env (fun _ t => Still specs sent t) (Still specs sent) s :=
  wp_mono (wp_and (wp_updateFlow_steady h.steady hflow) ((handedFrame_inert.updateFlow flow).wp env s))
    (fun _ _ ⟨ht, hsent⟩ => ⟨ht, hsent.trans h.handed_eq⟩)
    (fun _ ⟨ht, hsent⟩ => ⟨ht, hsent.trans h.handed_eq⟩)

theorem wp_select_steady (hnodup : (specs.map Prod.fst).Nodup) (h : Steady specs s)
    (mode : ScheduleMode) :
    wp (select mode) env (fun sel t => Steady specs t ∧ (sel.1.id, sel.1.spec) ∈ specs)
      (Steady specs) s := by
  cases mode with
  | workflowInstanceId id =>
    change wp (selectFirst id) env _ _ s
    unfold selectFirst
    rw [wp_bind, wp_read, wp_bind]
    refine wp_mono (wp_getFlowById_steady h id) (fun flow t ⟨ht, hflow⟩ => ?_) (fun _ ht => ht)
    rw [wp_bind]
    refine wp_mono (wp_updateFlow_steady ht hflow) (fun _ u hu => ?_) (fun _ hu => hu)
    rw [wp_bind]
    refine wp_mono (wp_saveChanged_steady hnodup hu) (fun _ v hv => ?_) (fun _ hv => hv)
    rw [wp_bind, wp_get, wp_bind]
    exact wp_mono ((Keeps.each (steadyFrame_inert.standByNode _) _).wp env v)
      (fun _ w hw => ⟨hw specs hnodup hv, hflow⟩) (fun _ hw => hw specs hnodup hv)
  | nodeInstanceId id =>
    change wp (selectNext id) env _ _ s
    unfold selectNext
    rw [wp_bind, wp_read, wp_bind]
    refine wp_mono ((keeps_isAllSame id).wp env s) (fun success t ht => ?_) (fun _ ht => h.calm ht)
    cases success with
    | false => exact h.calm ht
    | true =>
      rw [if_pos rfl, wp_bind]
      refine wp_mono (wp_getFlowByNodeId_steady (h.calm ht) id) (fun flow u ⟨hu, hflow⟩ => ?_)
        (fun _ hu => hu)
      rw [wp_bind]
      refine wp_mono ((keeps_selectNodes _).wp env u) (fun rows v hv => ?_) (fun _ hv => hu.calm hv)
      exact ⟨hu.calm hv, hflow⟩

theorem keeps_select_handed (mode : ScheduleMode) : Keeps handedFrame (select mode) := by
  have hinert := handedFrame_inert
  cases mode with
  | nodeInstanceId id => exact hinert.keeps (keeps_selectNext id)
  | workflowInstanceId id =>
    exact keeps_read.bind fun _ => (hinert.keeps (keeps_getFlowById id)).bind fun _ =>
      (hinert.updateFlow _).bind fun _ => hinert.save.bind fun _ => keeps_get.bind
        fun _ => (Keeps.each (hinert.standByNode _) _).bind fun _ => keeps_pure _

theorem wp_select_still (hnodup : (specs.map Prod.fst).Nodup) {sent : List NodeSpec}
    (h : Still specs sent s) (mode : ScheduleMode) :
    wp (select mode) env (fun sel t => Still specs sent t ∧ (sel.1.id, sel.1.spec) ∈ specs)
      (Still specs sent) s :=
  wp_mono (wp_and (wp_select_steady hnodup h.steady mode) ((keeps_select_handed mode).wp env s))
    (fun _ _ ⟨⟨ht, hspec⟩, hsent⟩ => ⟨⟨ht, hsent.trans h.handed_eq⟩, hspec⟩)
    (fun _ ⟨ht, hsent⟩ => ⟨ht, hsent.trans h.handed_eq⟩)

theorem wp_finish_still (hnodup : (specs.map Prod.fst).Nodup) {sent : List NodeSpec}
    (h : Still specs sent s) {flow : WorkflowInstance} (hflow : (flow.id, flow.spec) ∈ specs) :
    wp (finish flow) env (fun _ t => Still specs sent t) (Still specs sent) s := by
  have hfinished : ({ flow with status := .finished }.id, flow.spec) ∈ specs := hflow
  unfold finish
  rw [wp_bind]
  refine wp_mono (wp_updateFlow_still h hfinished) (fun _ t ht => ?_) (fun _ ht => ht)
  rw [wp_bind]
  refine wp_mono (wp_still stillFrame_inert.save hnodup ht) (fun _ u hu => ?_) (fun _ hu => hu)
  exact wp_still (keeps_note_still fun _ => rfl) hnodup hu

end Reads

section Ready

theorem wp_select_mid (h : Mid ids db ns [] [] s) (hk : db.Keyed) (mode : ScheduleMode) :
    wp (select mode) env
      (fun _ t => ∃ db' ms fs, Commit [] fs db db' ∧ (∀ m ∈ ms, m.2 = .standby) ∧
        Mid ids db' ns ms [] t)
      (fun t => ∃ db' fs, Commit [] fs db db' ∧ Left ids db' ns t) s := by
  cases mode with
  | workflowInstanceId id =>
    refine wp_mono (wp_selectFirst h hk id) ?_ (fun t ⟨db', hc, ht⟩ => ⟨db', _, hc, ht⟩)
    rintro sel t ⟨db', hc, -, -, -, -, ls, -, -, ht⟩
    refine ⟨db', _, _, hc, fun m hm => ?_, ht⟩
    obtain ⟨x, -, rfl⟩ := List.mem_map.mp hm
    rfl
  | nodeInstanceId reported =>
    refine wp_mono (wp_selectNext h reported) ?_ (fun t ht => ⟨db, [], .refl db, ht⟩)
    exact fun sel t ⟨ht, _⟩ => ⟨db, [], [], .refl db, fun _ hm => absurd hm List.not_mem_nil, ht⟩

-- The stored instance `flow` gives the node specs and tasks `outs` over tables like `db`.
structure Gives (ids iter : Nat → Uuid) (db : Tables) (flow : WorkflowInstance)
    (outs : List (NodeSpec × List NodeSpec)) : Prop where
  spec : (flow.id, flow.spec) ∈ db.specs
  prepares : ∃ entries, ∃ db' : Tables, db'.places = db.places ∧ db'.specs = db.specs ∧
    PreparesAll ids iter db' flow entries outs
  seated : Seated db.places (taskIds outs)

structure Readied (ids : Nat → Uuid) (db : Tables) (flow : WorkflowInstance)
    (outs : List (NodeSpec × List NodeSpec)) (t : World) : Prop where
  gives : Gives ids t.ids db flow outs
  saved : ∃ ms fs, (∀ m ∈ ms, m.2 = .standby) ∧ Commit (ms ++ running (taskIds outs)) fs db t.db
  mid : ∃ ns, Mid ids t.db ns [] [] t

def Unready (db : Tables) (t : World) : Prop := ∃ fs, Commit [] fs db t.db

theorem Left.unready (h : Left ids db' ns t) (hc : Commit [] fs db db') : Unready db t := by
  rw [← h.db_eq] at hc
  exact ⟨fs, hc⟩

theorem wp_ready (h : Mid ids db ns [] [] s) (hk : db.Keyed) {sent : List NodeSpec}
    (hs : Still db.specs sent s) (mode : ScheduleMode) :
    wp (ready mode) env
      (fun out t => Still db.specs sent t ∧
        ∀ p, out = some p → Readied ids db p.1 p.2 t)
      (fun t => Still db.specs sent t ∧ Unready db t) s := by
  have hnodup := hk.specs
  unfold ready
  rw [wp_bind]
  refine wp_mono (wp_and (wp_select_mid h hk mode) (wp_select_still hnodup hs mode)) ?_
    (fun t ⟨⟨db', fs, hc, ht⟩, hstill⟩ => ⟨hstill, ht.unready hc⟩)
  rintro sel t ⟨⟨db', ms, fs, hc, hms, ht⟩, hstill, hspec⟩
  have hkeyed := hc.keyed hk
  split
  · have hplan : sel.1.plan ∈ db'.plans := by
      rw [hc.plans_eq]
      exact Tables.plan_of_specs hspec
    rw [wp_bind]
    refine wp_mono (wp_and (wp_finish ht hkeyed hplan) (wp_finish_still hnodup hstill hspec))
      (fun _ u ⟨_, hu⟩ => ⟨hu, fun _ hp => Option.noConfusion rfl (heq_of_eq hp)⟩)
      (fun u ⟨hu, hustill⟩ => ⟨hustill, hu.unready hc⟩)
  · have hspecs : db'.specs = db.specs := by
      rw [← ht.db_eq]
      exact hstill.steady.specs_eq
    rw [wp_bind]
    refine wp_mono (wp_and (wp_prepareNodes ht sel.1 sel.2) (wp_still (stillFrame_inert.keeps
      (Keeps.mapEach (keeps_prepareNode _ _) _)) hnodup hstill))
      (fun outs u ⟨⟨hu, houts⟩, hustill⟩ => ?_) (fun u ⟨hu, hustill⟩ => ⟨hustill, hu.unready hc⟩)
    have hmark : Keeps stillFrame (Effect.each (fun (task : NodeSpec) => do
        let node ← getNodeById task.id
        updateNode { node with status := .running }) (outs.flatMap Prod.snd)) :=
      Keeps.each (fun _ => (stillFrame_inert.keeps (keeps_getNodeById _)).bind fun _ =>
        stillFrame_inert.updateNode _) _
    rw [wp_bind]
    refine wp_mono (wp_and (wp_markRunning hu.rebase _) (wp_still hmark hnodup hustill))
      (fun _ v ⟨⟨hseated, hv⟩, hvstill⟩ => ?_) (fun v ⟨hv, hvstill⟩ => ⟨hvstill, hv.unready hc⟩)
    rw [wp_bind]
    refine wp_mono (wp_and (wp_saveChanged hv hkeyed) (wp_still stillFrame_inert.save hnodup hvstill))
      (fun _ w ⟨⟨db'', hc', hw⟩, hwstill⟩ => ?_) (fun w ⟨hw, hwstill⟩ => ⟨hwstill, hw.unready hc⟩)
    obtain rfl := hw.db_eq
    rw [wp_pure]
    refine ⟨hwstill, fun p hp => ?_⟩
    obtain rfl := Option.some.inj hp
    have hcommit := hc.trans hc'
    rw [List.nil_append] at hcommit
    rw [hc.places] at hseated
    exact ⟨⟨hspec, ⟨sel.2, db', hc.places, hspecs, houts.later hw.ids⟩, hseated⟩,
      ⟨ms, _, hms, hcommit⟩, ns, hw.since hu.ids⟩

end Ready

section Sends

variable {sent : List NodeSpec} {flow : WorkflowInstance} {outs : List (NodeSpec × List NodeSpec)}

theorem wp_sendUsecase_still (hnodup : (specs.map Prod.fst).Nodup) (h : Still specs sent s)
    (spec : NodeSpec) :
    wp (sendUsecase spec) env (fun _ t => Still specs (sent ++ [spec]) t)
      (Still specs (sent ++ [spec])) s := by
  rw [sendUsecase_eq, wp_bind]
  have hnoted : Still specs (sent ++ [spec])
      { s with trace := s.trace ++ [.sendUsecase spec s.db.nodes] } := by
    refine ⟨⟨h.steady.specs_eq, h.steady.queued⟩, ?_⟩
    rw [handed_note, h.handed_eq]
  exact wp_still (stillFrame_inert.handleUsecase spec) hnodup hnoted

-- The tasks whose sending succeeds, and those from the first failure on.
def sendUntil (env : Env) : List NodeSpec → World → List NodeSpec × List NodeSpec
  | [], _ => ([], [])
  | task :: tasks, s => (sendUsecase task).outcome env s
      (fun _ t => (task :: (sendUntil env tasks t).1, (sendUntil env tasks t).2))
      (fun _ => ([], task :: tasks))

structure Sending (ids : Nat → Uuid) (db : Tables) (specs : Specs) (sent : List NodeSpec) (t : World) :
    Prop where
  still : Still specs sent t
  cells_eq : cells t.db.nodes = cells db.nodes
  ids : Tail ids t.ids

theorem wp_sends (h : ∃ ns, Mid ids s.db ns [] [] s) (hk : s.db.Keyed) (hs : Still s.db.specs sent s)
    (tasks : List NodeSpec) :
    wp (each sendUsecase tasks) env
      (fun _ t => sendUntil env tasks s = (tasks, []) ∧ (∃ ns, Mid ids t.db ns [] [] t) ∧
        Sending ids s.db s.db.specs (sent ++ tasks) t)
      (fun t => ∃ done failed rest, sendUntil env tasks s = (done, failed :: rest) ∧
        tasks = done ++ failed :: rest ∧ Sending ids s.db s.db.specs (sent ++ (done ++ [failed])) t) s := by
  induction tasks generalizing s sent with
  | nil =>
    obtain ⟨ns, hmid⟩ := h
    rw [List.append_nil]
    exact ⟨rfl, ⟨ns, hmid⟩, hs, rfl, hmid.ids⟩
  | cons task tasks ih =>
    obtain ⟨ns, hmid⟩ := h
    unfold Effect.each
    rw [wp_bind]
    refine wp_mono (wp_and (wp_result (sendUsecase task) env s)
      (wp_and (wp_sendUsecase hmid hk task) (wp_sendUsecase_still hk.specs hs task))) ?_ ?_
    · rintro _ t ⟨hrun, ⟨db', hc, ht⟩, hstill⟩
      obtain rfl := ht.db_eq
      have hspecs : t.db.specs = s.db.specs := hstill.steady.specs_eq
      rw [← hspecs] at hstill
      have hcut : sendUntil env (task :: tasks) s =
          (task :: (sendUntil env tasks t).1, (sendUntil env tasks t).2) := outcome_ok hrun
      refine wp_mono (ih ⟨_, ht⟩ (hc.keyed hk) hstill) ?_ ?_
      · rintro _ u ⟨hrest, hu, hsending⟩
        rw [hcut, hrest]
        rw [List.append_assoc, hspecs] at hsending
        exact ⟨rfl, hu, hsending.still, hsending.cells_eq.trans hc.same_cells, hsending.ids⟩
      · rintro u ⟨done, failed, rest, hrest, heq, hsending⟩
        rw [hcut, hrest]
        rw [List.append_assoc, hspecs] at hsending
        exact ⟨task :: done, failed, rest, rfl, by rw [heq]; rfl,
          hsending.still, hsending.cells_eq.trans hc.same_cells, hsending.ids⟩
    · rintro t ⟨hfail, ⟨db', hc, ht⟩, hstill⟩
      have hcut : sendUntil env (task :: tasks) s = ([], task :: tasks) := outcome_lost hfail
      rw [hcut]
      obtain rfl := ht.db_eq
      exact ⟨[], task, tasks, rfl, rfl, hstill, hc.same_cells, ht.ids⟩

end Sends

section Store

variable {sent : List NodeSpec} {flow : WorkflowInstance} {outs : List (NodeSpec × List NodeSpec)}

def respec (specs : Specs) (id : Uuid) (nodes : List NodeSpec) : Specs :=
  specs.map fun p => if p.1 = id then (p.1, { p.2 with nodeSpecs := nodes }) else p

def Stores (specs : Specs) (flow : WorkflowInstance) (outs : List (NodeSpec × List NodeSpec))
    (specs' : Specs) : Prop := specs' = specs ∨ specs' = respec specs flow.id (outs.map Prod.fst)

theorem execute_store {t u : Tables} {stamp : Nat → Nat} {nodes : List NodeSpec}
    (hnodup : (t.specs.map Prod.fst).Nodup) (hflow : (flow.id, flow.spec) ∈ t.specs)
    (h : t.execute stamp (.updateFlow { flow with spec := { flow.spec with nodeSpecs := nodes } }) =
      some u) : u.specs = t.specs ∨ u.specs = respec t.specs flow.id nodes := by
  simp only [Tables.execute, Option.some.injEq] at h
  subst h
  have hspec : ∀ row ∈ t.flows, row.id = flow.id → row.spec = flow.spec := by
    intro row hrow hid
    exact congrArg Prod.snd (List.inj_on_of_nodup_map hnodup (Tables.mem_specs hrow) hflow hid)
  by_cases hmatch : ∃ row ∈ t.flows, row.id = flow.id ∧ row.lastModifiedTime = flow.lastModifiedTime
  · obtain ⟨row, hrow, hid, htime⟩ := hmatch
    right
    rw [Tables.specs, Tables.specs, respec, List.map_map, List.map_map]
    refine List.map_congr_left fun row' hrow' => ?_
    rw [Function.comp_apply, Function.comp_apply]
    by_cases hid' : row'.id = flow.id
    · have hnodup' : (t.flows.map WorkflowInstance.id).Nodup := by
        rw [Tables.specs, List.map_map] at hnodup
        exact hnodup
      have heq : row' = row := List.inj_on_of_nodup_map hnodup' hrow' hrow (hid'.trans hid.symm)
      have hrowspec := hspec row' hrow' hid'
      rw [← heq] at htime
      rw [if_pos ⟨hid', htime⟩, if_pos hid', hrowspec]
    · rw [if_neg fun h => hid' h.1, if_neg hid']
  · left
    rw [Tables.specs, Tables.specs, List.map_map]
    refine List.map_congr_left fun row hrow => ?_
    rw [Function.comp_apply, if_neg fun h => hmatch ⟨row, hrow, h⟩]

theorem wp_store (h : ∃ ns, Mid ids s.db ns [] [] s) (hs : Still specs sent s)
    (hnodup : (specs.map Prod.fst).Nodup) (hflow : (flow.id, flow.spec) ∈ specs) :
    wp (store flow outs) env
      (fun _ t => t.statements = [] ∧ handed t = sent ∧ Tail ids t.ids ∧
        Stores specs flow outs t.db.specs)
      (fun t => t.db = s.db ∧ handed t = sent ∧ Tail ids t.ids) s := by
  obtain ⟨ns, hmid⟩ := h
  have hcalm : ∀ {t : World}, Calm s t → t.db = s.db ∧ handed t = sent ∧ Tail ids t.ids :=
    fun {t} ht => ⟨ht.db, (congrArg (List.filterMap Event.handed) ht.trace).trans hs.handed_eq,
      hmid.ids.trans ht.ids⟩
  unfold store updateFlow
  rw [wp_bind, wp_bind]
  refine wp_mono (keeps_call.wp env s) (fun _ t ht => ?_) (fun t ht => hcalm ht)
  obtain ⟨hdb, hsent, hids⟩ := hcalm ht
  generalize hnew : ({ flow with spec := { flow.spec with nodeSpecs := outs.map Prod.fst } } :
    WorkflowInstance) = flow'
  have hsaved : wp saveChanged env (fun _ u => Saved _ u) (Kept _)
      { t with statements := t.statements ++ [.updateFlow flow'], canDrop := false } :=
    wp_save fun hdrop => absurd hdrop Bool.false_ne_true
  unfold push
  rw [wp_modify, wp_bind]
  refine wp_mono hsaved (fun _ u hu => ?_) (fun u hu => ?_)
  · have htrace : handed u = sent :=
      (congrArg (List.filterMap Event.handed) hu.trace).trans hsent
    refine ⟨hu.statements, htrace, hids.trans hu.ids, ?_⟩
    have hexec : Executes t.db (t.statements ++ [.updateFlow flow']) u.db := hu.executes
    rw [ht.statements, hmid.pending.eq_nil, List.nil_append, hdb] at hexec
    cases hexec with
    | cons stamp hone hrest =>
      cases hrest
      rw [← hs.steady.specs_eq] at hnodup hflow ⊢
      rw [← hnew] at hone
      exact execute_store hnodup hflow hone
  · exact ⟨hu.db.trans hdb, (congrArg (List.filterMap Event.handed) hu.trace).trans hsent,
      hids.trans hu.ids⟩

end Store

section Schedule

variable {sent : List NodeSpec}

theorem Gives.later {flow : WorkflowInstance} {outs : List (NodeSpec × List NodeSpec)}
    {iter' : Nat → Uuid} (h : Gives ids iter db flow outs) (ht : Tail iter iter') :
    Gives ids iter' db flow outs := by
  obtain ⟨entries, db', hplaces, hspecs, houts⟩ := h.prepares
  exact ⟨h.spec, ⟨entries, db', hplaces, hspecs, houts.later ht⟩, h.seated⟩

theorem Gives.congr {flow : WorkflowInstance} {outs : List (NodeSpec × List NodeSpec)}
    (h : Gives ids iter db flow outs) (hplaces : db.places = db'.places)
    (hspecs : db.specs = db'.specs) : Gives ids iter db' flow outs := by
  obtain ⟨hspec, hprepares, hseated⟩ := h
  rw [hspecs] at hspec hprepares
  rw [hplaces] at hprepares hseated
  exact ⟨hspec, hprepares, hseated⟩

inductive Respecs (ids : Nat → Uuid) (db : Tables) (sent : List NodeSpec) (t : World) : Prop where
  | still (specs_eq : t.db.specs = db.specs) (handed_eq : handed t = sent)
  | gave (flow : WorkflowInstance) (outs : List (NodeSpec × List NodeSpec)) (given : List NodeSpec)
      (gives : Gives ids t.ids db flow outs) (hgiven : given <+: outs.flatMap Prod.snd)
      (handed_eq : handed t = sent ++ given) (specs_eq : t.db.specs = db.specs)
  | stored (flow : WorkflowInstance) (outs : List (NodeSpec × List NodeSpec))
      (gives : Gives ids t.ids db flow outs) (handed_eq : handed t = sent ++ outs.flatMap Prod.snd)
      (specs_eq : t.db.specs = respec db.specs flow.id (outs.map Prod.fst))

theorem Respecs.congr (h : Respecs ids db sent t) (hplaces : db.places = db'.places)
    (hspecs : db.specs = db'.specs) : Respecs ids db' sent t := by
  cases h with
  | still specs_eq handed_eq => exact .still (specs_eq.trans hspecs) handed_eq
  | gave flow outs given gives hgiven handed_eq specs_eq =>
    exact .gave flow outs given (gives.congr hplaces hspecs) hgiven handed_eq (specs_eq.trans hspecs)
  | stored flow outs gives handed_eq specs_eq =>
    rw [hspecs] at specs_eq
    exact .stored flow outs (gives.congr hplaces hspecs) handed_eq specs_eq

theorem wp_schedule_respecs (h : Mid ids db ns [] [] s) (hk : db.Keyed) (hs : Still db.specs sent s)
    (mode : ScheduleMode) :
    wp (scheduleNextNodes mode) env (fun _ t => Respecs ids db sent t ∧ Steady t.db.specs t)
      (Respecs ids db sent) s := by
  rw [scheduleNextNodes_eq, wp_bind]
  refine wp_mono (wp_ready h hk hs mode) ?_
    (fun t ⟨ht, _⟩ => .still ht.steady.specs_eq ht.handed_eq)
  rintro out t ⟨hstill, hready⟩
  have hspecs : t.db.specs = db.specs := hstill.steady.specs_eq
  cases out with
  | none =>
    refine ⟨.still hspecs hstill.handed_eq, ?_⟩
    rw [hspecs]
    exact hstill.steady
  | some p =>
    obtain ⟨flow, outs⟩ := p
    obtain ⟨gives, ⟨ms, fs, -, hc⟩, ⟨ns', hmid⟩⟩ := hready _ rfl
    have hkt : t.db.Keyed := hc.keyed hk
    rw [← hspecs] at hstill
    change wp (Effect.each sendUsecase (outs.flatMap Prod.snd) >>= fun _ => store flow outs) env _ _ t
    rw [wp_bind]
    refine wp_mono (wp_sends ⟨ns', hmid.rebase⟩ hkt hstill _) ?_ ?_
    · rintro _ u ⟨-, ⟨ns'', hu⟩, hsending⟩
      have hknown : (flow.id, flow.spec) ∈ t.db.specs := hspecs ▸ gives.spec
      refine wp_mono (wp_store ⟨ns'', hu.rebase⟩ hsending.still hkt.specs hknown) ?_ ?_
      · rintro _ v ⟨hnone, hsent, hids, hstores⟩
        have hlater := gives.later (hu.ids.trans hids)
        rw [hspecs] at hstores
        refine ⟨?_, rfl, fun f hf => ?_⟩
        · rcases hstores with hsame | hnew
          · exact .gave flow outs _ hlater List.prefix_rfl hsent hsame
          · exact .stored flow outs hlater hsent hnew
        · rw [hnone] at hf
          exact absurd hf List.not_mem_nil
      · rintro v ⟨hdb, hsent, hids⟩
        refine .gave flow outs _ (gives.later (hu.ids.trans hids))
          List.prefix_rfl hsent ?_
        rw [hdb]
        exact hsending.still.steady.specs_eq.trans hspecs
    · rintro u ⟨done, failed, rest, -, heq, hsending⟩
      refine .gave flow outs _ (gives.later hsending.ids) ⟨rest, ?_⟩ hsending.still.handed_eq
        (hsending.still.steady.specs_eq.trans hspecs)
      rw [heq, List.append_assoc, List.singleton_append]

end Schedule

end Kuintessence
