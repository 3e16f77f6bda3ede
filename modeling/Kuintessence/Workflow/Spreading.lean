import Kuintessence.Engine.Telling
import Kuintessence.Workflow.Breakage

namespace Kuintessence

open Effect StatusReceiver WorkflowService

variable {ids : Nat → Uuid} {env : Env} {w w' s t u : World} {db db' : Tables} {ns : List Notice}
  {ms : List NodeMark} {fs : List FlowMark} {mode : ScheduleMode} {flow : WorkflowInstance}
  {outs : List (NodeSpec × List NodeSpec)} {given sent : List NodeSpec} {x : Uuid} {stop : Stop}

section Spreading

theorem running_of_cells (h : cells db'.nodes = cells db.nodes) : db'.Running x ↔ db.Running x := by
  rw [running_iff_cells, running_iff_cells, h]

theorem Commit.running_iff (h : Commit ms fs db db') :
    db'.Running x ↔ ∃ c ∈ cells db.nodes, c.1.id = x ∧ overwrite ms x c.2 = .running := by
  rw [running_iff_cells, h.cells_eq]
  constructor
  · rintro ⟨d, hd, rfl, hstatus⟩
    obtain ⟨c, hc, rfl⟩ := List.mem_map.mp hd
    exact ⟨c, hc, rfl, hstatus⟩
  · rintro ⟨c, hc, rfl, hstatus⟩
    exact ⟨settle ms c, List.mem_map_of_mem hc, rfl, hstatus⟩

theorem Commit.running_before (h : Commit ms fs db db') (hms : ∀ m ∈ ms, m.2 ≠ .running)
    (hrunning : db'.Running x) : db.Running x := by
  obtain ⟨c, hc, rfl, hstatus⟩ := h.running_iff.mp hrunning
  rcases @overwrite_mem ms c.1.id c.2 with hsame | hmark
  · exact running_iff_cells.mpr ⟨c, hc, rfl, hsame.symm.trans hstatus⟩
  · exact absurd hstatus (hms _ hmark)

theorem Commit.running_single {id : Uuid} {status : NodeInstanceStatus}
    (h : Commit [(id, status)] fs db db') (hrunning : db'.Running x) :
    (x = id ∧ status = .running) ∨ (x ≠ id ∧ db.Running x) := by
  obtain ⟨c, hc, rfl, hstatus⟩ := h.running_iff.mp hrunning
  by_cases hid : c.1.id = id
  · rw [overwrite, List.foldl_cons, if_pos hid.symm] at hstatus
    exact .inl ⟨hid, hstatus⟩
  · rw [overwrite, List.foldl_cons, if_neg (Ne.symm hid)] at hstatus
    exact .inr ⟨hid, running_iff_cells.mpr ⟨c, hc, rfl, hstatus⟩⟩

structure Spread (db : Tables) (s : World) (stop : Stop) (t : World) : Prop where
  grows : Grows s t
  running : ∀ x, t.db.Running x →
    db.Running x ∨ Notified s t x ∨ ∃ task ∈ stop.left false, task.id = x

theorem standby_ne_running (hms : ∀ m ∈ ms, m.2 = .standby) : ∀ m ∈ ms, m.2 ≠ .running :=
  fun m hm h => NodeInstanceStatus.noConfusion ((hms m hm).symm.trans h)

theorem wp_ready_none (h : Mid ids db ns [] [] s) (hk : db.Keyed) (hs : Still db.specs sent s)
    (mode : ScheduleMode) :
    wp (ready mode) env
      (fun out t => out = none → t.statements = [] ∧ ∀ x, t.db.Running x → db.Running x)
      (fun _ => True) s := by
  unfold ready
  rw [wp_bind]
  refine wp_mono (wp_and (wp_select_mid h hk mode) (wp_select_still hk.specs hs mode)) ?_
    (fun _ _ => trivial)
  rintro sel t ⟨⟨db', ms, fs, hc, hms, ht⟩, -, hspec⟩
  split
  · have hplan : sel.1.plan ∈ db'.plans := by
      rw [hc.plans_eq]
      exact Tables.plan_of_specs hspec
    rw [wp_bind]
    refine wp_mono (wp_finish ht (hc.keyed hk) hplan) ?_ (fun _ _ => trivial)
    rintro _ u ⟨db'', hc', hu⟩ -
    rw [hu.db_eq]
    refine ⟨hu.pending.eq_nil, fun x hx => ?_⟩
    have hcommit := hc.trans hc'
    rw [List.nil_append] at hcommit
    exact hcommit.running_before (standby_ne_running hms) hx
  · rw [wp_bind]
    refine wp_mono (wp_true _) (fun outs u _ => ?_) (fun _ _ => trivial)
    rw [wp_bind]
    refine wp_mono (wp_true _) (fun _ v _ => ?_) (fun _ _ => trivial)
    rw [wp_bind]
    exact wp_mono (wp_true _) (fun _ _ _ hnone => nomatch hnone) (fun _ _ => trivial)

theorem wp_store_nodes (h : ∃ ns, Mid ids s.db ns [] [] s) :
    wp (store flow outs) env (fun _ t => t.statements = [] ∧ t.db.nodes = s.db.nodes)
      (fun t => t.db.nodes = s.db.nodes) s := by
  obtain ⟨ns, hmid⟩ := h
  unfold store updateFlow
  rw [wp_bind, wp_bind]
  refine wp_mono (keeps_call.wp env s) (fun _ t ht => ?_) (fun t ht => congrArg Tables.nodes ht.db)
  unfold push
  rw [wp_modify, wp_bind]
  refine wp_mono (wp_save fun hdrop => absurd hdrop Bool.false_ne_true) (fun _ u hu => ?_)
    (fun u hu => congrArg Tables.nodes (hu.db.trans ht.db))
  refine ⟨hu.statements, ?_⟩
  have hexec := hu.executes
  rw [ht.statements, hmid.pending.eq_nil, List.nil_append] at hexec
  cases hexec with
  | cons stamp hone hrest =>
    cases hrest
    simp only [Tables.execute, Option.some.injEq] at hone
    have hnodes : t.db.nodes = s.db.nodes := congrArg Tables.nodes ht.db
    rw [← hone]
    exact hnodes

theorem wp_schedule_spread (h : Mid ids db ns [] [] s) (hk : db.Keyed) (hs : Still db.specs sent s)
    (mode : ScheduleMode) :
    wp (scheduleNextNodes mode) env
      (fun _ t => t.statements = [] ∧ Spread db s (stopOf env mode s) t)
      (Spread db s (stopOf env mode s)) s := by
  rw [scheduleNextNodes_eq, wp_bind]
  refine wp_mono (wp_and (wp_and (wp_result (ready mode) env s) ((keeps_ready_grow mode).wp env s))
    (wp_and (wp_ready h hk hs mode) (wp_ready_none h hk hs mode))) ?_ ?_
  · rintro out t ⟨⟨hrun, hgrows⟩, ⟨hstill, hready⟩, hnone⟩
    cases out with
    | none =>
      obtain ⟨hstatements, hrunning⟩ := hnone rfl
      exact ⟨hstatements, hgrows, fun x hx => .inl (hrunning x hx)⟩
    | some p =>
      obtain ⟨flow, outs⟩ := p
      have hreadied := hready _ rfl
      have hstop : stopOf env mode s = .late (sendUntil env (outs.flatMap Prod.snd) t).1
          (sendUntil env (outs.flatMap Prod.snd) t).2 := outcome_ok hrun
      have hspecs : t.db.specs = db.specs := hstill.steady.specs_eq
      have hkt : t.db.Keyed := by
        obtain ⟨ms, fs, -, hc⟩ := hreadied.saved
        exact hc.keyed hk
      rw [← hspecs] at hstill
      have hbefore : ∀ x, t.db.Running x → x ∈ taskIds outs ∨ db.Running x := by
        rintro x ⟨n, hn, rfl, hstatus⟩
        exact hreadied.running hn hstatus
      obtain ⟨ns', hmid⟩ := hreadied.mid
      change wp (Effect.each sendUsecase (outs.flatMap Prod.snd) >>= fun _ => store flow outs) env _ _ t
      rw [wp_bind]
      refine wp_mono (wp_and (wp_sends ⟨ns', hmid.rebase⟩ hkt hstill _)
        (wp_sends_notified (outs.flatMap Prod.snd) t)) ?_ ?_
      · rintro _ u ⟨⟨-, ⟨ns'', hu⟩, hsending⟩, hsends, hall⟩
        have hspread : ∀ v, v.db.nodes = u.db.nodes → Grows u v → Spread db s (stopOf env mode s) v := by
          intro v hnodes hv
          refine ⟨hgrows.trans (hsends.trans hv), fun x hx => ?_⟩
          have hcells : cells v.db.nodes = cells t.db.nodes := by
            rw [hnodes]
            exact hsending.cells_eq
          rcases hbefore x ((running_of_cells hcells).mp hx) with hx | hx
          · obtain ⟨task, htask, rfl⟩ := List.mem_map.mp hx
            exact .inr (.inl (((hall task htask).later hv).after hgrows))
          · exact .inl hx
        refine wp_mono (wp_and (wp_store_nodes ⟨ns'', hu.rebase⟩)
          ((keeps_store_grow flow outs).wp env u)) ?_ ?_
        · exact fun _ v ⟨⟨hstatements, hnodes⟩, hv⟩ => ⟨hstatements, hspread v hnodes hv⟩
        · exact fun v ⟨hnodes, hv⟩ => hspread v hnodes hv
      · rintro u ⟨⟨done, failed, rest, hcut, heq, hsending⟩, hsends, hdone⟩
        refine ⟨hgrows.trans hsends, fun x hx => ?_⟩
        rw [hstop, hcut]
        rw [hcut] at hdone
        rcases hbefore x ((running_of_cells hsending.cells_eq).mp hx) with hx | hx
        · obtain ⟨task, htask, rfl⟩ := List.mem_map.mp hx
          rw [heq] at htask
          rcases List.mem_append.mp htask with htask | htask
          · exact .inr (.inl ((hdone task htask).after hgrows))
          · exact .inr (.inr ⟨task, htask, rfl⟩)
        · exact .inl hx
  · rintro t ⟨⟨-, hgrows⟩, ⟨-, hunready⟩, -⟩
    refine ⟨hgrows, fun x hx => .inl ?_⟩
    obtain ⟨fs, hc⟩ := hunready
    exact hc.running_before (fun _ hm => absurd hm List.not_mem_nil) hx

end Spreading

section Requests

-- The tasks a request saves as running and does not send.
def Request.unsent (env : Env) (w : World) : Request → List NodeSpec
  | .start user id => (resetWorkflow id).outcome env (w.open user)
      (fun _ t => (stopOf env (.workflowInstanceId id) t).left false) (fun _ => [])
  | .receive result =>
    if result.status = .success then (saveReport result).outcome env (w.open none)
      (fun _ t => (stopOf env (.nodeInstanceId result.id) t).left false) (fun _ => [])
    else []
  | _ => []

-- The reported node is running after the report: the report is saved and says so, or it is lost.
def KeepsRunning (env : Env) (w : World) (result : TaskResult) : Prop :=
  (saveReport result).outcome env (w.open none) (fun _ _ => result.status = .continued)
    (fun _ => w.db.Running result.id)

inductive RunsBy (env : Env) (w : World) (q : Request) (w' : World) (x : Uuid) : Prop where
  | before (h : w.db.Running x) (hq : ∀ result, q = .receive result → x ≠ result.id)
  | report (result : TaskResult) (hq : q = .receive result) (hid : x = result.id)
      (h : KeepsRunning env w result)
  | notified (h : Notified w w' x)
  | unsent (task : NodeSpec) (htask : task ∈ q.unsent env w) (hid : task.id = x)

theorem keeps_resetWorkflow_grow (id : Uuid) : Keeps growFrame (resetWorkflow id) := by
  have hinert := growFrame_inert
  exact (hinert.keeps (keeps_getFlowById id)).bind fun _ =>
    (hinert.keeps (keeps_selectNodes _)).bind fun _ => (keeps_updateFlow_grow _).bind fun _ =>
      (Keeps.each (fun _ => hinert.updateNode _) _).bind fun _ => hinert.save.bind fun _ => keeps_pure _

theorem pending_ne_running {rows : List Place} : ∀ m ∈ pending rows, m.2 ≠ .running := by
  intro m hm
  obtain ⟨c, -, rfl⟩ := List.mem_map.mp hm
  exact nofun

theorem step_start_runs (hk : w.db.Keyed) (user : Option Uuid) (id : Uuid)
    (hx : (step env w (.start user id)).db.Running x) :
    RunsBy env w (.start user id) (step env w (.start user id)) x := by
  revert hx
  refine step_of_wp (q := .start user id) (R := fun t => t.db.Running x →
    RunsBy env w (.start user id) t x) ?_
  change wp (startWorkflow id) env _ _ (w.open user)
  rw [startWorkflow_eq, wp_bind]
  refine wp_mono (wp_and (wp_and (wp_result (resetWorkflow id) env _)
    ((keeps_resetWorkflow_grow id).wp env _)) (wp_and (wp_resetWorkflow hk user id)
      (wp_resetWorkflow_still hk.specs (w.still_open user) id))) ?_ ?_
  · rintro _ t ⟨⟨hrun, hgrows⟩, ⟨rows, db, -, hc, hmid⟩, hstill⟩
    have hspecs : db.specs = w.db.specs := by
      rw [← hmid.db_eq]
      exact hstill.steady.specs_eq
    rw [← hspecs] at hstill
    have hunsent : (Request.start user id).unsent env w =
        (stopOf env (.workflowInstanceId id) t).left false := outcome_ok hrun
    have hruns : ∀ u, Spread db t (stopOf env (.workflowInstanceId id) t) u → u.db.Running x →
        RunsBy env w (.start user id) u x := by
      intro u hspread hx
      rcases hspread.running x hx with hx | hx | ⟨task, htask, hid⟩
      · exact .before (hc.running_before pending_ne_running hx) fun _ hq => nomatch hq
      · exact .notified (hx.after hgrows)
      · rw [← hunsent] at htask
        exact .unsent task htask hid
    exact wp_mono (wp_schedule_spread hmid (hc.keyed hk) hstill _)
      (fun _ u ⟨_, hspread⟩ => hruns u hspread) hruns
  · rintro t ⟨-, ht, -⟩ hx
    rw [ht.db_eq] at hx
    exact .before hx fun _ hq => nomatch hq

theorem Turn.running_before {news : List Cell → List Notice} (h : Turn ms fs news w w')
    (hms : ∀ m ∈ ms, m.2 ≠ .running) (hx : w'.db.Running x) : w.db.Running x :=
  h.commit.running_before hms hx

theorem wp_operateWorkflow_notified (user : Option Uuid) (flowStatus : WorkflowInstanceStatus)
    (status : NodeInstanceStatus) (command : TaskCommand) (affected : NodeInstanceStatus → Bool)
    (id : Uuid) :
    wp (operateWorkflow flowStatus status command affected id) env
      (fun _ t => ∀ c ∈ cells w.db.nodes, c.1.flow = id → affected c.2 = true →
        Notified w t c.1.id)
      (fun _ => True) (w.open user) := by
  unfold operateWorkflow
  rw [wp_bind]
  refine wp_mono (wp_and (wp_getFlowById (w.mid_open user) id)
    ((keeps_getFlowById id).wp env _)) ?_ (fun _ _ => trivial)
  rintro flow s ⟨⟨hs, -, hid⟩, hcalm⟩
  rw [wp_bind]
  refine wp_mono (wp_and (wp_selectNodes hs _) ((keeps_selectNodes _).wp env s)) ?_
    (fun _ _ => trivial)
  rintro nodes t ⟨⟨-, hperm⟩, hcalm'⟩
  have hgrows : Grows w t := .of_eq (hcalm'.trace.trans hcalm.trace)
  rw [wp_bind]
  refine wp_mono (wp_tellEach (tells_setAndOperate status command) _) ?_ (fun _ _ => trivial)
  rintro _ u ⟨-, hall⟩
  have hnotified : ∀ c ∈ cells w.db.nodes, c.1.flow = id → affected c.2 = true →
      Notified w u c.1.id := by
    intro c hc hflow haffected
    obtain ⟨n, hn, rfl⟩ := List.mem_map.mp hc
    refine (hall n (List.mem_filter.mpr ⟨?_, haffected⟩)).after hgrows
    rw [hperm.mem_iff, List.mem_filter, beq_iff_eq, hid]
    exact ⟨hn, hflow⟩
  rw [wp_bind]
  refine wp_mono ((keeps_updateFlow_grow _).wp env u) (fun _ v hv => ?_) (fun _ _ => trivial)
  rw [wp_bind]
  refine wp_mono (growFrame_inert.save.wp env v) (fun _ y hy => ?_) (fun _ _ => trivial)
  exact fun c hc hflow haffected => (hnotified c hc hflow haffected).later (hv.trans hy)

theorem step_operate_runs {q : Request} {flowStatus : WorkflowInstanceStatus}
    {status : NodeInstanceStatus} {command : TaskCommand} {affected : NodeInstanceStatus → Bool}
    {id : Uuid} (hk : w.db.Keyed)
    (hq : q.serve = operateWorkflow flowStatus status command affected id)
    (hne : ∀ result, q ≠ .receive result) (hx : (step env w q).db.Running x) :
    RunsBy env w q (step env w q) x := by
  have hbefore : w.db.Running x → RunsBy env w q (step env w q) x :=
    fun h => .before h fun result hq => absurd hq (hne result)
  have hwp : wp q.serve env _ _ (w.open q.user) := hq ▸
    wp_and (wp_operateWorkflow hk q.user flowStatus status command affected id)
      (wp_operateWorkflow_notified q.user flowStatus status command affected id)
  rcases wp_run hwp with ⟨_, _, ⟨⟨rows, hrows, turn⟩, -⟩, hall⟩ | ⟨_, turn, -⟩
  · obtain ⟨c, hc, rfl, hstatus⟩ := turn.commit.running_iff.mp hx
    rcases @overwrite_mem (rows.map fun c => (c.1.id, status)) c.1.id c.2 with hsame | hmark
    · exact hbefore (running_iff_cells.mpr ⟨c, hc, rfl, hsame.symm.trans hstatus⟩)
    · obtain ⟨d, hd, heq⟩ := List.mem_map.mp hmark
      have hid : d.1.id = c.1.id := congrArg Prod.fst heq
      rw [hrows.mem_iff, List.mem_filter, Bool.and_eq_true, beq_iff_eq] at hd
      rw [← hid]
      exact .notified (hall d hd.1 hd.2.1 hd.2.2)
  · exact hbefore (turn.running_before (fun _ hm => absurd hm List.not_mem_nil) hx)

theorem step_submit_runs (hs : Sound w) (user : Option Uuid) (draftId : Uuid)
    (hx : (step env w (.submit user draftId)).db.Running x) :
    RunsBy env w (.submit user draftId) (step env w (.submit user draftId)) x := by
  refine .before ?_ fun _ hq => nomatch hq
  cases (step_submit hs.supply user draftId : Submission env _ _ w _) with
  | lost turn same =>
    rw [same] at hx
    exact hx
  | inserted draft k flow rows kept hdraft entry hkept inserted =>
    obtain ⟨n, hn, hid, hstatus⟩ := hx
    rw [inserted.nodes, List.mem_append] at hn
    rcases hn with hn | hn
    · exact ⟨n, hn, hid, hstatus⟩
    · rcases hkept with rfl | rfl
      · exact absurd hn List.not_mem_nil
      · exact NodeInstanceStatus.noConfusion ((entry.parsed.flow n hn).2.symm.trans hstatus)

theorem Executes.of_nil (h : Executes db [] db') : db' = db := by
  cases h
  rfl

theorem wp_close_nodes (hstatements : s.statements = []) (id : Uuid) :
    wp (billNode id >>= fun _ => saveChanged) env (fun _ t => t.db = s.db ∧ Grows s t)
      (fun t => t.db = s.db ∧ Grows s t) s := by
  unfold billNode
  rw [wp_bind, wp_bind]
  refine wp_mono (keeps_call.wp env s) (fun _ t ht => ?_) (fun t ht => ⟨ht.db, .of_eq ht.trace⟩)
  have hnil : t.statements = [] := ht.statements.trans hstatements
  have hnoted : Grows s { t with trace := t.trace ++ [.bill id] } := by
    rw [Grows, ← ht.trace]
    exact List.prefix_append _ _
  unfold note
  rw [wp_modify]
  refine wp_mono (wp_save fun _ => hnil) (fun _ u hu => ?_) (fun u hu => ?_)
  · have hexec : Executes t.db t.statements u.db := hu.executes
    rw [hnil] at hexec
    exact ⟨hexec.of_nil.trans ht.db, hnoted.trans (Grows.of_eq hu.trace)⟩
  · exact ⟨hu.db.trans ht.db, hnoted.trans (Grows.of_eq hu.trace)⟩

theorem keeps_saveReport_grow (result : TaskResult) : Keeps growFrame (saveReport result) := by
  have hinert := growFrame_inert
  exact (hinert.keeps (keeps_getNodeById _)).bind fun _ => (hinert.updateNode _).bind
    fun _ => hinert.save.bind fun _ => keeps_pure _

theorem nodeStatus_running {status : TaskResultStatus} (h : nodeStatus status = .running) :
    status = .continued := by
  cases status with
  | continued => rfl
  | success => exact NodeInstanceStatus.noConfusion h
  | failed => exact NodeInstanceStatus.noConfusion h
  | paused => exact NodeInstanceStatus.noConfusion h
  | deleted => exact NodeInstanceStatus.noConfusion h

theorem wp_followUp_runs (hk : db.Keyed) (h : Mid ids db ns [] [] s) (hs : Still db.specs sent s)
    (result : TaskResult) (flow : Uuid) {R : World → Prop} (hstay : ∀ t, (∀ x, t.db.Running x →
      db.Running x) → R t)
    (hspread : result.status = .success → ∀ t, Spread db s
      (stopOf env (.nodeInstanceId result.id) s) t → R t) :
    wp (followUp result flow) env (fun _ t => wp saveChanged env (fun _ u => R u) R t) R s := by
  by_cases hsuccess : result.status = .success
  · unfold followUp
    simp only [hsuccess]
    rw [wp_bind]
    refine wp_mono (wp_schedule_spread h hk hs _) ?_ (hspread hsuccess)
    rintro _ t ⟨hstatements, hrunning⟩
    have hclose : wp (billNode result.id >>= fun _ => saveChanged) env (fun _ u => R u) R t := by
      have hafter : ∀ u, u.db = t.db ∧ Grows t u → R u := by
        rintro u ⟨hdb, hgrows⟩
        refine hspread hsuccess u ⟨hrunning.grows.trans hgrows, fun x hx => ?_⟩
        rw [hdb] at hx
        exact (hrunning.running x hx).imp_right fun hx => hx.imp_left fun hx => hx.later hgrows
      exact wp_mono (wp_close_nodes hstatements result.id) (fun _ u hu => hafter u hu) hafter
    rw [wp_bind] at hclose
    exact hclose
  · have hleft : ∀ t, Left ids db ns t → R t := by
      intro t ht
      refine hstay t fun x hx => ?_
      rw [ht.db_eq] at hx
      exact hx
    refine wp_mono (wp_followUp_quiet h hsuccess flow) ?_ hleft
    rintro _ t ⟨fs, -, ht⟩
    refine wp_mono (wp_saveChanged ht hk) ?_ hleft
    rintro _ u ⟨db', hc, hu⟩
    refine hstay u fun x hx => ?_
    rw [hu.db_eq] at hx
    exact hc.running_before (fun _ hm => absurd hm List.not_mem_nil) hx

theorem step_receive_runs (hk : w.db.Keyed) (result : TaskResult)
    (hx : (step env w (.receive result)).db.Running x) :
    RunsBy env w (.receive result) (step env w (.receive result)) x := by
  revert hx
  refine step_of_wp (q := .receive result) (R := fun t => t.db.Running x →
    RunsBy env w (.receive result) t x) ?_
  change wp (receiveNodeStatus result) env _ _ (w.open none)
  rw [wp_receiveNodeStatus_eq]
  refine wp_mono (wp_and (wp_and (wp_result (saveReport result) env _)
    ((keeps_saveReport_grow result).wp env _)) (wp_and (wp_saveReport hk none result)
      (wp_still (keeps_saveReport_still result) hk.specs (w.still_open none)))) ?_ ?_
  · rintro node t ⟨⟨hrun, hgrows⟩, ⟨-, -, db, hc, hmid⟩, hstill⟩
    have hspecs : db.specs = w.db.specs := by
      rw [← hmid.db_eq]
      exact hstill.steady.specs_eq
    rw [← hspecs] at hstill
    have hkeeps : KeepsRunning env w result = (result.status = .continued) := outcome_ok hrun
    have hbefore : ∀ u, db.Running x → RunsBy env w (.receive result) u x := by
      intro u hx
      rcases hc.running_single hx with ⟨hid, hstatus⟩ | ⟨hne, hx⟩
      · exact .report result rfl hid (hkeeps ▸ nodeStatus_running hstatus)
      · refine .before hx fun result' hq => ?_
        rw [← Request.receive.inj hq]
        exact hne
    refine wp_followUp_runs (hc.keyed hk) hmid hstill result _ ?_ ?_
    · exact fun u hstay hx => hbefore u (hstay x hx)
    · intro hsuccess u hspread hx
      have hunsent : (Request.receive result).unsent env w =
          (stopOf env (.nodeInstanceId result.id) t).left false :=
        (if_pos hsuccess).trans (outcome_ok hrun)
      rcases hspread.running x hx with hx | hx | ⟨task, htask, hid⟩
      · exact hbefore u hx
      · exact .notified (hx.after hgrows)
      · rw [← hunsent] at htask
        exact .unsent task htask hid
  · rintro t ⟨⟨hfail, -⟩, ht, -⟩ hx
    rw [ht.db_eq] at hx
    by_cases hid : x = result.id
    · have hkeeps : KeepsRunning env w result = w.db.Running result.id := outcome_lost hfail
      refine .report result rfl hid ?_
      rw [hkeeps, ← hid]
      exact hx
    · refine .before hx fun result' hq => ?_
      rw [← Request.receive.inj hq]
      exact hid

theorem step_runs (hs : Sound w) (q : Request) (hx : (step env w q).db.Running x) :
    RunsBy env w q (step env w q) x := by
  have hk := hs.keyed
  cases q with
  | submit user draftId => exact step_submit_runs hs user draftId hx
  | start user id => exact step_start_runs hk user id hx
  | pause user id =>
    have hserve : (Request.pause user id).serve =
      operateWorkflow .paused .paused .pause (fun s => s == .running) id := rfl
    exact step_operate_runs hk hserve (fun _ => nofun) hx
  | «continue» user id =>
    have hserve : (Request.continue user id).serve =
      operateWorkflow .running .running .continue (fun s => s == .paused) id := rfl
    exact step_operate_runs hk hserve (fun _ => nofun) hx
  | terminate user id =>
    have hserve : (Request.terminate user id).serve = operateWorkflow .stopped .stopped .delete
      (fun s => s == .running || s == .paused) id := rfl
    exact step_operate_runs hk hserve (fun _ => nofun) hx
  | receive result => exact step_receive_runs hk result hx

end Requests

end Kuintessence
