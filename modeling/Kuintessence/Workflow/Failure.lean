import Kuintessence.Workflow.Suspension

namespace Kuintessence

open Effect StatusReceiver

variable {env : Env} {w w' s : World} {p : Plan} {n : NodeInstance} {ms : List NodeMark}
  {fs : List FlowMark} {news : List Cell → List Notice} {entries tasks sent : List Uuid}
  {id flow x : Uuid}

def StaysFailed (flow : Uuid) (w : World) : Request → Prop
  | .receive result => ∀ n ∈ w.db.nodes, n.id = result.id → n.flowInstanceId = flow →
      result.status ≠ .paused ∧ result.status ≠ .deleted ∧
        (result.status = .success → Held w n ∨ Idle w n)
  | .start _ id => id ≠ flow
  | .pause _ id => id ≠ flow
  | .continue _ id => id ≠ flow
  | .terminate _ id => id ≠ flow
  | .submit _ _ => True

theorem StaysFailed.suspended {q : Request} (h : StaysFailed flow w q) : StaysSuspended flow w q := by
  cases q with
  | receive result => exact fun hsuccess n hn hid hflow => (h n hn hid hflow).2.2 hsuccess
  | start user id => exact h
  | «continue» user id => exact h
  | submit user draftId => trivial
  | pause user id => trivial
  | terminate user id => trivial

theorem FlowIs.suspended {status : WorkflowInstanceStatus} (h : FlowIs flow status w)
    (hrest : AtRest status) : Suspended flow w := by
  intro f hf hid
  rw [h f hf hid]
  exact hrest

theorem error_at_rest : AtRest .error :=
  ⟨WorkflowInstanceStatus.noConfusion, WorkflowInstanceStatus.noConfusion⟩

theorem Turn.flowIs {status : WorkflowInstanceStatus} (h : Turn ms fs news w w')
    (hw : FlowIs flow status w) (hfs : ∀ m ∈ fs, m.1 = flow → m.2 = status) :
    FlowIs flow status w' := h.commit.flowIs hw hfs

theorem About.status_elsewhere {statuses : List WorkflowInstanceStatus}
    {status : WorkflowInstanceStatus} (h : About id statuses fs) (hne : id ≠ flow) :
    ∀ m ∈ fs, m.1 = flow → m.2 = status :=
  fun m hm heq => absurd ((h m hm).1.symm.trans heq) hne

theorem Taken.failed {result : TaskResult} (h : Taken w result w') (hs : Sound w)
    (hw : FlowIs flow .error w) (hok : StaysFailed flow w (.receive result)) :
    FlowIs flow .error w' := by
  cases h with
  | kept c hc hid fs hfs turn =>
    refine turn.flowIs hw fun m hm heq => ?_
    obtain ⟨hflow, hstatus⟩ := hfs m hm
    obtain ⟨n, hn, rfl⟩ := node_of_place hc
    obtain ⟨hpaused, hdeleted, -⟩ := hok n hn hid (hflow.symm.trans heq)
    cases hresult : result.status with
    | failed =>
      rw [hresult] at hstatus
      exact List.mem_singleton.mp hstatus
    | paused => exact absurd hresult hpaused
    | deleted => exact absurd hresult hdeleted
    | success =>
      rw [hresult] at hstatus
      exact absurd hstatus List.not_mem_nil
    | continued =>
      rw [hresult] at hstatus
      exact absurd hstatus List.not_mem_nil
  | finished p success chosen turn =>
    refine turn.flowIs hw fun m hm heq => ?_
    rw [List.mem_singleton.mp hm] at heq
    obtain ⟨n, hid, hflow, hidle⟩ := chosen.idle hok.suspended success heq
    rw [← hid] at chosen
    exact absurd rfl (hidle.entered hs chosen hflow)
  | dispatched f entries tasks sent success hflow chosen entered htasks hsent turn =>
    refine turn.flowIs hw fun m hm heq => ?_
    rw [List.mem_singleton.mp hm] at heq ⊢
    exact hw f hflow heq

theorem Started.flowIs {status : WorkflowInstanceStatus} (h : Started w id w')
    (hw : FlowIs flow status w) (hne : id ≠ flow) : FlowIs flow status w' := by
  cases h with
  | lost turn => exact turn.flowIs hw fun _ hm => absurd hm List.not_mem_nil
  | reset rows fs hrows hfs turn => exact turn.flowIs hw (hfs.status_elsewhere hne)
  | carried h =>
    cases h with
    | finished rows f ls fs hrows entering hfs turn =>
      exact turn.flowIs hw (hfs.status_elsewhere hne)
    | dispatched rows f entries ls tasks sent fs hrows entering entered htasks hsent hwhole hfs
        turn => exact turn.flowIs hw (hfs.status_elsewhere hne)

theorem Operated.flowIs {flowStatus status : WorkflowInstanceStatus}
    {nodeStatus : NodeInstanceStatus} {affected : NodeInstanceStatus → Bool}
    (h : Operated w flowStatus nodeStatus affected id w') (hw : FlowIs flow status w)
    (hne : id ≠ flow) : FlowIs flow status w' := by
  cases h with
  | lost turn => exact turn.flowIs hw fun _ hm => absurd hm List.not_mem_nil
  | operated rows hrows turn =>
    refine turn.flowIs hw fun m hm heq => ?_
    rw [List.mem_singleton.mp hm] at heq
    exact absurd heq hne

theorem Submission.flowIs {draftId : Uuid} {status : WorkflowInstanceStatus}
    (h : Submission env w.db.used draftId w w') (hw : FlowIs flow status w)
    (hknown : flow ∈ w.db.used) : FlowIs flow status w' := by
  cases h with
  | lost turn => exact turn.flowIs hw fun _ hm => absurd hm List.not_mem_nil
  | inserted draft k f rows kept hdraft entry hkept inserted =>
    intro g hg hid
    obtain ⟨user, time, hflows⟩ := inserted.flows
    rw [hflows] at hg
    rcases List.mem_append.mp hg with hg | hg
    · exact hw g hg hid
    · rw [List.mem_singleton.mp hg] at hid
      apply absurd hknown
      rw [← hid]
      exact entry.fresh.1

theorem step_failed {q : Request} (hs : Sound w) (hknown : ∃ p ∈ w.db.plans, p.id = flow)
    (hw : FlowIs flow .error w) (hok : StaysFailed flow w q) : FlowIs flow .error (step env w q) := by
  have hk := hs.keyed
  cases q with
  | submit user draftId =>
    obtain ⟨p, hp, rfl⟩ := hknown
    exact (step_submit hs.supply user draftId).flowIs hw (Tables.id_mem_used hp)
  | start user id => exact (step_start hk user id).flowIs hw hok
  | pause user id => exact (step_pause hk user id).flowIs hw hok
  | «continue» user id => exact (step_continue hk user id).flowIs hw hok
  | terminate user id => exact (step_terminate hk user id).flowIs hw hok
  | receive result =>
    cases (step_receive hk result : Received w result (step env w _)) with
    | lost turn => exact turn.flowIs hw fun _ hm => absurd hm List.not_mem_nil
    | taken h => exact h.failed hs hw hok

structure Fails (flow : Uuid) (w w' : World) : Prop where
  error : FlowIs flow .error w'
  suspends : Suspends flow w w'

theorem run_fails {qs : List Request} (hs : Sound w) (hknown : ∃ p ∈ w.db.plans, p.id = flow)
    (hw : FlowIs flow .error w) (h : Along (step env) (StaysFailed flow) w qs) :
    Fails flow w (run (step env) w qs) := by
  refine (run_invariant (I := fun t => Sound t ∧ (∃ p ∈ t.db.plans, p.id = flow) ∧ Fails flow w t)
    ?_ ⟨hs, hknown, hw, .refl (hw.suspended error_at_rest)⟩ h).2.2
  rintro t q ⟨ht, ⟨p, hp, hid⟩, hfails⟩ hok
  have hstep : Stepped t (step env t q) := step_stepped ht q
  have hnext : Suspends flow t (step env t q) :=
    step_suspends ht hfails.suspends.suspended hok.suspended
  exact ⟨step_sound ht q, ⟨p, hstep.plan_mem p hp, hid⟩,
    step_failed ht ⟨p, hp, hid⟩ hfails.error hok, hfails.suspends.trans hnext hstep.place_mem⟩

section Report

variable {ids : Nat → Uuid} {db : Tables} {ns : List Notice}

theorem wp_followUp_failed (h : Mid ids db ns [] [] s) (hk : db.Keyed) {result : TaskResult}
    (hfailed : result.status = .failed) (flow : Uuid) :
    wp (followUp result flow) env (fun _ t => wp saveChanged env
      (fun _ u => FlowIs flow .error u) (fun _ => True) t) (fun _ => True) s := by
  unfold followUp
  simp only [hfailed]
  rw [wp_bind]
  refine wp_mono (wp_getFlowById h flow) (fun f t hread => ?_) (fun _ _ => trivial)
  obtain ⟨ht, hflow, hid⟩ := hread
  have hplan := Tables.mem_plans hflow
  refine wp_mono (wp_updateFlow_last ht hplan) (fun _ u hupdate => ?_) (fun _ _ => trivial)
  obtain ⟨hu, hlast⟩ := hupdate
  refine wp_mono (wp_save hu.canDrop) (fun _ v hsaved => ?_) (fun _ _ => trivial)
  rw [← hu.db_eq] at hflow hk
  have hstatus := hsaved.status_of_lasts hlast hk hflow rfl rfl
  rw [FlowIs, ← hid]
  exact hstatus

theorem handle_failed (hk : w.db.Keyed) {result : TaskResult} (hfailed : result.status = .failed)
    {u : Unit} (hok : (Request.handle env w (.receive result)).1 = .ok u) :
    ∃ n ∈ w.db.nodes, n.id = result.id ∧
      FlowIs n.flowInstanceId .error (step env w (.receive result)) := by
  have hwp : wp (Request.receive result).serve env (fun _ t => ∃ n ∈ w.db.nodes, n.id = result.id ∧
      FlowIs n.flowInstanceId .error t) (fun _ => True) (w.open none) := by
    change wp (receiveNodeStatus result) env _ _ _
    rw [wp_receiveNodeStatus_eq]
    refine wp_mono (wp_saveReport hk none result) (fun n t hsave => ?_) (fun _ _ => trivial)
    obtain ⟨hn, hid, db, hc, ht⟩ := hsave
    refine wp_mono (wp_followUp_failed ht (hc.keyed hk) hfailed n.flowInstanceId) (fun _ u hu => ?_)
      (fun _ _ => trivial)
    exact wp_mono hu (fun _ v hv => ⟨n, hn, hid, hv⟩) (fun _ _ => trivial)
  exact handle_of_wp hwp hok

end Report

theorem Taken.sends_nothing {result : TaskResult} (h : Taken w result w')
    (hne : result.status ≠ .success) : handOvers w' = handOvers w := by
  cases h with
  | kept c hc hid fs hfs turn => exact (handOvers_append turn.notices_eq).trans (List.append_nil _)
  | finished p success chosen turn => exact absurd success hne
  | dispatched f entries tasks sent success hflow chosen entered htasks hsent turn =>
    exact absurd success hne

theorem Received.sends_nothing {result : TaskResult} (h : Received w result w')
    (hne : result.status ≠ .success) : handOvers w' = handOvers w := by
  cases h with
  | lost turn => exact (handOvers_append turn.notices_eq).trans (List.append_nil _)
  | taken h => exact h.sends_nothing hne

theorem failed_until_started {ids : Nat → Uuid} (hids : Function.Injective ids) (files : Files)
    (qs rs : List Request) {result : TaskResult} {n : NodeInstance}
    (hn : n ∈ (run (step env) (World.start ids files) qs).db.nodes) (hid : n.id = result.id)
    (hfailed : result.status = .failed)
    (hok : (Request.handle env (run (step env) (World.start ids files) qs) (.receive result)).1 =
      .ok ())
    (h : Along (step env) (StaysFailed n.flowInstanceId)
      (run (step env) (World.start ids files) (qs ++ [.receive result])) rs) :
    (∀ f ∈ (run (step env) (World.start ids files) (qs ++ .receive result :: rs)).db.flows,
        f.id = n.flowInstanceId → f.status = .error) ∧
      ∃ new, handOvers (run (step env) (World.start ids files) (qs ++ .receive result :: rs)) =
          handOvers (run (step env) (World.start ids files) qs) ++ new ∧
        ∀ m ∈ (run (step env) (World.start ids files) (qs ++ .receive result :: rs)).db.nodes,
          m.flowInstanceId = n.flowInstanceId → m.id ∉ new := by
  have hs : Sound (run (step env) (World.start ids files) qs) :=
    run_sound (start_sound hids files) qs
  rw [run_append] at h
  rw [run_append]
  generalize run (step env) (World.start ids files) qs = w at hn hok h hs ⊢
  change Along (step env) (StaysFailed n.flowInstanceId) (step env w (.receive result)) rs at h
  have herror : FlowIs n.flowInstanceId .error (step env w (.receive result)) := by
    obtain ⟨m, hm, hmid, herror⟩ := handle_failed hs.keyed hfailed hok
    rw [← hs.keyed.node_eq hm hn (hmid.trans hid.symm)]
    exact herror
  have hne : result.status ≠ .success := by
    rw [hfailed]
    exact fun h => nomatch h
  have hfirst : Suspends n.flowInstanceId w (step env w (.receive result)) :=
    .of_same (herror.suspended error_at_rest)
      ((step_receive hs.keyed result : Received w result (step env w _)).sends_nothing hne)
  have hnext : Sound (step env w (.receive result)) := step_sound hs _
  obtain ⟨p, hp, hflow, -⟩ := hs.layout.seat n.place (Tables.mem_places hn)
  have hknown := (step_stepped hs (.receive result) : Stepped w (step env w _)).plan_mem p hp
  obtain ⟨hfinal, hrest⟩ := run_fails hnext ⟨p, hknown, hflow.symm⟩ herror h
  have hwhole := hfirst.trans hrest (run_stepped hnext rs).2.1
  exact ⟨hfinal, hwhole.nodes_unsent (run_sound hnext rs)⟩

section Samples

instance (flow : Uuid) (w : World) (q : Request) : Decidable (StaysFailed flow w q) :=
  match q with
  | .receive result => inferInstanceAs (Decidable (∀ n ∈ w.db.nodes, n.id = result.id →
      n.flowInstanceId = flow → result.status ≠ .paused ∧ result.status ≠ .deleted ∧
        (result.status = .success → Held w n ∨ Idle w n)))
  | .start _ id => inferInstanceAs (Decidable (id ≠ flow))
  | .pause _ id => inferInstanceAs (Decidable (id ≠ flow))
  | .continue _ id => inferInstanceAs (Decidable (id ≠ flow))
  | .terminate _ id => inferInstanceAs (Decidable (id ≠ flow))
  | .submit _ _ => .isTrue trivial

def subNodeFailure : TaskResult := { id := 105, status := .failed }

def subNodesFollow : List Request := [report 106 .success, report 107 .failed, report 101 .continued]

theorem batched_stays_failed :
    handOvers (runSample batched (started ++ .receive subNodeFailure :: subNodesFollow)) =
        [101, 105, 106, 107] ∧
      ∀ f ∈ (runSample batched (started ++ .receive subNodeFailure :: subNodesFollow)).db.flows,
        f.id = 100 → f.status = .error := by
  have hok : ((Request.receive subNodeFailure).handle (sampleEnv [batched])
      (runSample batched started)).1 = .ok () := by decide +kernel
  have hguard : Along (step (sampleEnv [batched])) (StaysFailed 100)
      (runSample batched (started ++ [.receive subNodeFailure])) subNodesFollow := by decide +kernel
  have hnode : ∃ n ∈ (runSample batched started).db.nodes,
      n.id = subNodeFailure.id ∧ n.flowInstanceId = 100 := by decide +kernel
  refine ⟨by decide +kernel, ?_⟩
  obtain ⟨n, hn, hid, hflow⟩ := hnode
  unfold runSample at hok hguard hn ⊢
  rw [sampleRequests_append] at hguard ⊢
  rw [← hflow] at hguard
  have herror := (failed_until_started sampleIds_injective sampleFiles
    (sampleRequests batched started) subNodesFollow hn hid rfl hok hguard).1
  rw [hflow] at herror
  exact herror

theorem batched_runs_past_failure :
    ((Request.receive subNodeFailure).handle (sampleEnv [batched])
        (runSample batched started)).1 = .ok () ∧
      handOvers (runSample batched (started ++ [.receive subNodeFailure])) = [101, 105, 106, 107] ∧
      handOvers (runSample batched (started ++ [.receive subNodeFailure, report 101 .success])) =
        [101, 105, 106, 107, 103] ∧
      ∃ f ∈ (runSample batched (started ++ [.receive subNodeFailure, report 101 .success,
        report 103 .success])).db.flows, f.id = 100 ∧ f.status = .finished := by
  decide +kernel

end Samples

end Kuintessence
