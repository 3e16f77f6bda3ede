import Kuintessence.Workflow.Progress

namespace Kuintessence

open EdgeList StatusReceiver WorkflowService

variable {env : Env} {w w' : World} {n m : NodeInstance} {p : Plan} {fs : List FlowMark}
  {news : List Cell → List Notice} {entries tasks : List Uuid} {id flow : Uuid}
  {result : TaskResult}

structure Stalled (flow : Uuid) (w : World) : Prop where
  known : ∃ p ∈ w.db.plans, p.id = flow
  status : FlowIs flow .running w
  quiet : ¬RootRuns flow w
  waiting : ∃ m ∈ w.db.nodes, m.flowInstanceId = flow ∧ m.batchParentId ≠ none ∧
    m.status = .standby

structure Stays (flow : Uuid) (w w' : World) : Prop where
  stalled : Stalled flow w'
  standby : ∀ m ∈ w.db.nodes, m.flowInstanceId = flow → m.status = .standby →
    ∃ n ∈ w'.db.nodes, n.place = m.place ∧ n.status = .standby

theorem Stalled.stays (h : Stalled flow w) : Stays flow w w :=
  ⟨h, fun m hm _ hstandby => ⟨m, hm, rfl, hstandby⟩⟩

theorem Stays.trans {w'' : World} (h : Stays flow w w') (h' : Stays flow w' w'') :
    Stays flow w w'' := by
  refine ⟨h'.stalled, fun m hm hflow hstandby => ?_⟩
  obtain ⟨n, hn, hplace, hwaits⟩ := h.standby m hm hflow hstandby
  obtain ⟨k, hk, hkplace, hkwaits⟩ :=
    h'.standby n hn ((congrArg Place.flow hplace).trans hflow) hwaits
  exact ⟨k, hk, hkplace.trans hplace, hkwaits⟩

theorem Stalled.untouched (hw : Stalled flow w) (h : Untouched flow w w')
    (hknown : ∃ p ∈ w'.db.plans, p.id = flow) : Stays flow w w' := by
  refine ⟨⟨hknown, h.status _ hw.status, ?_, ?_⟩, fun m hm hflow hstandby => ?_⟩
  · rw [← RootRuns.untouched h]
    exact hw.quiet
  · obtain ⟨m, hm, hflow, hsub, hstandby⟩ := hw.waiting
    obtain ⟨n, hn, hplace, hstatus⟩ := h.forth m hm hflow
    refine ⟨n, hn, (congrArg Place.flow hplace).trans hflow, fun hroot => hsub ?_,
      hstatus.trans hstandby⟩
    exact (congrArg Place.parent hplace).symm.trans hroot
  · obtain ⟨n, hn, hplace, hstatus⟩ := h.forth m hm hflow
    exact ⟨n, hn, hplace, hstatus.trans hstandby⟩

section Alone

variable (turn : Turn [(n.id, .finished)] fs news w w') (hs : Sound w) (hn : n ∈ w.db.nodes)
  (hrunning : n.status = .running)

include turn hs hn hrunning in
theorem Turn.standby_stays (hm : m ∈ w.db.nodes) (hstandby : m.status = .standby) :
    ∃ k ∈ w'.db.nodes, k.place = m.place ∧ k.status = .standby := by
  obtain ⟨k, hk, hplace, hstatus⟩ := turn.node_after hm
  refine ⟨k, hk, hplace, hstatus.trans ?_⟩
  change (if n.id = m.id then .finished else m.status) = _
  rw [if_neg, hstandby]
  intro heq
  rw [hs.keyed.node_eq hn hm heq, hstandby] at hrunning
  cases hrunning

include turn in
theorem Turn.rootRuns_before (h : RootRuns flow w') : ∃ m ∈ others w flow n.id,
    m.batchParentId = none ∧ m.status = .running := by
  obtain ⟨k, hk, hflow, hroot, hbusy⟩ := h
  obtain ⟨m, hm, hplace, hstatus⟩ := turn.exists_node hk
  change k.status = if n.id = m.id then .finished else m.status at hstatus
  rw [hbusy] at hstatus
  split at hstatus
  · cases hstatus
  · next hne =>
    refine ⟨m, mem_others_iff.mpr ⟨hm, ?_, Ne.symm hne⟩, ?_, hstatus.symm⟩
    · exact (congrArg Place.flow hplace).trans hflow
    · exact (congrArg Place.parent hplace).trans hroot

include turn hs hn hrunning in
theorem Turn.stalls (hknown : ∃ p ∈ w'.db.plans, p.id = flow) (hstatus : FlowIs flow .running w')
    (hothers : ∀ m ∈ others w flow n.id, m.batchParentId = none → m.status ≠ .running)
    (hwaiting : ∃ m ∈ w.db.nodes, m.flowInstanceId = flow ∧ m.batchParentId ≠ none ∧
      m.status = .standby) : Stays flow w w' := by
  refine ⟨⟨hknown, hstatus, fun hroot => ?_, ?_⟩, fun m hm _ hstandby =>
    turn.standby_stays hs hn hrunning hm hstandby⟩
  · obtain ⟨m, hm, hnone, hbusy⟩ := turn.rootRuns_before hroot
    exact hothers m hm hnone hbusy
  · obtain ⟨m, hm, hflow, hsub, hstandby⟩ := hwaiting
    obtain ⟨k, hk, hplace, hwaits⟩ := turn.standby_stays hs hn hrunning hm hstandby
    refine ⟨k, hk, (congrArg Place.flow hplace).trans hflow, fun hroot => hsub ?_, hwaits⟩
    exact (congrArg Place.parent hplace).symm.trans hroot

end Alone

theorem Stalled.idle (hw : Stalled flow w) (hs : Sound w) (hn : n ∈ w.db.nodes)
    (hflow : n.flowInstanceId = flow) (hrunning : n.status = .running) : Idle w n := by
  have hnsub : n.batchParentId ≠ none := fun hroot => hw.quiet ⟨n, hn, hflow, hroot, hrunning⟩
  obtain ⟨m, hm, hmflow, hsub, hstandby⟩ := hw.waiting
  refine ⟨⟨m, mem_others_iff.mpr ⟨hm, hmflow.trans hflow.symm, fun heq => ?_⟩, hsub, hstandby⟩, ?_⟩
  · rw [hs.keyed.node_eq hm hn heq, hrunning] at hstandby
    cases hstandby
  · intro k hk hroot hwaits f hf hid honly
    obtain ⟨hmem, hkflow, -⟩ := mem_others_iff.mp hk
    exact hnsub (hs.reporter_root (Tables.mem_plans hf) hn hmem (hkflow.trans hid.symm) hroot
      hwaits honly)

theorem Chosen.stalls (hs : Sound w) (hn : n ∈ w.db.nodes) (hflow : n.flowInstanceId = flow)
    (hrunning : n.status = .running) (hstatus : FlowIs flow .running w) (hidle : Idle w n)
    {f : WorkflowInstance} (hf : f ∈ w.db.flows) (chosen : Chosen w n.id f.plan entries)
    (htasks : Tasks w.db.places f.plan entries tasks)
    (turn : Turn ((n.id, .finished) :: running tasks) [(f.id, f.status)] news w w')
    (hknown : ∃ p ∈ w'.db.plans, p.id = flow) : Stays flow w w' := by
  have hfid : f.plan.id = flow := (chosen.flow_eq hs hn rfl).trans hflow
  have hsettled := chosen.settled
  rw [hfid] at hsettled
  rw [hidle.tasks_eq_nil hs chosen (hflow.trans hfid.symm) htasks] at turn
  obtain ⟨m, hm, hsub, hstandby⟩ := hidle.1
  obtain ⟨hmem, hmflow, -⟩ := mem_others_iff.mp hm
  refine turn.stalls hs hn hrunning hknown ?_ (fun k hk hroot hbusy => ?_)
    ⟨m, hmem, hmflow.trans hflow, hsub, hstandby⟩
  · refine turn.flowIs hstatus fun x hx hxid => ?_
    rw [List.mem_singleton.mp hx] at hxid ⊢
    exact hstatus f hf hxid
  · rcases hsettled k hk hroot with hfinished | hwaits
    · rw [hfinished] at hbusy
      cases hbusy
    · rw [hwaits] at hbusy
      cases hbusy

theorem reported_stays (hs : Sound w) (hw : Stalled flow w)
    (hok : Awaits flow w (.receive result)) (hn : Reports flow w result n) :
    Stays flow w (step env w (.receive result)) := by
  obtain ⟨hn, hid, hflow⟩ := hn
  obtain ⟨hsuccess, hrunning⟩ := hok n hn hid hflow
  have hidle := hw.idle hs hn hflow hrunning
  have hknown : ∃ p ∈ (step env w (.receive result)).db.plans, p.id = flow :=
    flow_known hs _ hw.known
  cases (step_receive hs.keyed result : Received w result (step env w (.receive result))) with
  | lost turn => exact hw.untouched turn.untouched_lost hknown
  | taken h =>
    cases h with
    | kept c hc hcid fs hfs turn =>
      rw [hsuccess, ← hid] at turn
      rw [hsuccess] at hfs
      refine turn.stalls hs hn hrunning hknown ?_ (fun m hm hroot hbusy => ?_) hw.waiting
      · exact turn.flowIs hw.status fun x hx _ => absurd (hfs x hx).2 List.not_mem_nil
      · obtain ⟨hmem, hmflow, -⟩ := mem_others_iff.mp hm
        exact hw.quiet ⟨m, hmem, hmflow, hroot, hbusy⟩
    | finished p success chosen turn =>
      rw [← hid] at chosen
      exact absurd rfl (hidle.entered hs chosen (chosen.flow_eq hs hn rfl).symm)
    | dispatched f entries tasks sent success hf chosen entered htasks hsent turn =>
      rw [← hid] at chosen turn
      exact chosen.stalls hs hn hflow hrunning hw.status hidle hf htasks turn hknown

theorem step_stays {q : Request} (hs : Sound w) (hw : Stalled flow w) (hok : Awaits flow w q) :
    Stays flow w (step env w q) := by
  by_cases hours : ∃ result n, q = .receive result ∧ Reports flow w result n
  · obtain ⟨result, n, rfl, hn⟩ := hours
    exact reported_stays hs hw hok hn
  · have hother : ∀ result n, q = .receive result → ¬Reports flow w result n :=
      fun result n hq hn => hours ⟨result, n, hq, hn⟩
    exact hw.untouched (hok.untouched hs hw.known hother) (flow_known hs q hw.known)

theorem run_stays {qs : List Request} (hs : Sound w) (hw : Stalled flow w)
    (h : Along (step env) (Awaits flow) w qs) : Stays flow w (run (step env) w qs) := by
  refine (run_invariant (I := fun t => Sound t ∧ Stays flow w t) ?_ ⟨hs, hw.stays⟩ h).2
  rintro t q ⟨ht, hstays⟩ hok
  exact ⟨step_sound ht q, hstays.trans (step_stays ht hstays.stalled hok)⟩

theorem idle_stalls (hs : Sound w) (hn : n ∈ w.db.nodes) (hid : n.id = result.id)
    (hrunning : n.status = .running) (hsuccess : result.status = .success)
    (hstatus : FlowIs n.flowInstanceId .running w) (hidle : Idle w n) {u : Unit}
    (hok : (Request.handle env w (.receive result)).1 = .ok u) :
    Stays n.flowInstanceId w (step env w (.receive result)) := by
  obtain ⟨p, hp, hpid, -⟩ := hs.layout.seat n.place (Tables.mem_places hn)
  have hknown : ∃ p ∈ (step env w (.receive result)).db.plans, p.id = n.flowInstanceId :=
    flow_known hs _ ⟨p, hp, hpid.symm⟩
  have hheeded : Heeded w result (step env w (.receive result)) :=
    handle_success hs.keyed hsuccess hok
  cases hheeded with
  | finished p chosen ends turn =>
    rw [← hid] at chosen
    exact absurd rfl (hidle.entered hs chosen (chosen.flow_eq hs hn rfl).symm)
  | dispatched f entries tasks hf chosen entered htasks turn =>
    rw [← hid] at chosen turn
    exact chosen.stalls hs hn rfl hrunning hstatus hidle hf htasks turn hknown

theorem stalled_forever {ids : Nat → Uuid} (hids : Function.Injective ids) (files : Files)
    (qs rs : List Request) (hn : n ∈ (run (step env) (World.start ids files) qs).db.nodes)
    (hid : n.id = result.id) (hrunning : n.status = .running) (hsuccess : result.status = .success)
    (hstatus : ∀ f ∈ (run (step env) (World.start ids files) qs).db.flows,
      f.id = n.flowInstanceId → f.status = .running)
    (hidle : Idle (run (step env) (World.start ids files) qs) n)
    (hok : (Request.handle env (run (step env) (World.start ids files) qs) (.receive result)).1 =
      .ok ())
    (h : Along (step env) (Awaits n.flowInstanceId)
      (run (step env) (World.start ids files) (qs ++ [.receive result])) rs) :
    (∀ f ∈ (run (step env) (World.start ids files) (qs ++ .receive result :: rs)).db.flows,
        f.id = n.flowInstanceId → f.status = .running) ∧
      (∀ m ∈ (run (step env) (World.start ids files) (qs ++ .receive result :: rs)).db.nodes,
        m.flowInstanceId = n.flowInstanceId → m.batchParentId = none → m.status ≠ .running) ∧
      ∀ m ∈ (run (step env) (World.start ids files) qs).db.nodes,
        m.flowInstanceId = n.flowInstanceId → m.status = .standby →
          ∃ k ∈ (run (step env) (World.start ids files) (qs ++ .receive result :: rs)).db.nodes,
            k.id = m.id ∧ k.status = .standby := by
  have hs : Sound (run (step env) (World.start ids files) qs) :=
    run_sound (start_sound hids files) qs
  rw [run_append] at h
  rw [run_append]
  generalize run (step env) (World.start ids files) qs = w at hn hstatus hidle hok h hs ⊢
  change Along (step env) (Awaits n.flowInstanceId) (step env w (.receive result)) rs at h
  have hfirst := idle_stalls hs hn hid hrunning hsuccess hstatus hidle hok
  have hrest := hfirst.trans (run_stays (step_sound hs _) hfirst.stalled h)
  refine ⟨hrest.stalled.status, fun m hm hflow hroot hbusy => ?_, fun m hm hflow hstandby => ?_⟩
  · exact hrest.stalled.quiet ⟨m, hm, hflow, hroot, hbusy⟩
  · obtain ⟨k, hk, hplace, hwaits⟩ := hrest.standby m hm hflow hstandby
    exact ⟨k, hk, congrArg Place.id hplace, hwaits⟩

section Samples

instance (flow : Uuid) (w : World) (q : Request) : Decidable (Awaits flow w q) :=
  match q with
  | .receive result => inferInstanceAs (Decidable (∀ n ∈ w.db.nodes, n.id = result.id →
      n.flowInstanceId = flow → result.status = .success ∧ n.status = .running))
  | .start _ id => inferInstanceAs (Decidable (id ≠ flow))
  | .pause _ id => inferInstanceAs (Decidable (id ≠ flow))
  | .continue _ id => inferInstanceAs (Decidable (id ≠ flow))
  | .terminate _ id => inferInstanceAs (Decidable (id ≠ flow))
  | .submit _ _ => .isTrue trivial

def joinBatch : WorkflowDraft := sampleDraft
  [sampleNode 1 (filledSlot "t") none "o", sampleNode 2 (filledSlot "t") (some sampleFiller) "o",
    { sampleNode 3 (filledSlot "t") (some sampleFiller) "o" with
      inputSlots := [filledSlot "t", emptySlot "s", emptySlot "r"] }]
  [⟨1, 3, [⟨"o", "s", .network⟩]⟩, ⟨2, 3, [⟨"o", "r", .network⟩]⟩]

def joinBatchUnderway : List Request := [.start (some 5) 100, report 101 .success]

def closingReport : TaskResult := { id := 103, status := .success }

def subNodesLast : List Request := [107, 109, 108].map (fun id => report id .success)

theorem joinBatch_stalls :
    (∀ f ∈ (runSample joinBatch
        (joinBatchUnderway ++ .receive closingReport :: subNodesLast)).db.flows,
          f.id = 100 → f.status = .running) ∧
      ∀ m ∈ (runSample joinBatch
        (joinBatchUnderway ++ .receive closingReport :: subNodesLast)).db.nodes,
          m.flowInstanceId = 100 → m.batchParentId = none → m.status ≠ .running := by
  have hok : ((Request.receive closingReport).handle (sampleEnv [joinBatch])
      (runSample joinBatch joinBatchUnderway)).1 = .ok () := by decide +kernel
  have hguard : Along (step (sampleEnv [joinBatch])) (Awaits 100) (runSample joinBatch
      (joinBatchUnderway ++ [.receive closingReport])) subNodesLast := by decide +kernel
  have hflow : ∀ f ∈ (runSample joinBatch joinBatchUnderway).db.flows,
      f.id = 100 → f.status = .running := by decide +kernel
  have hnode : ∃ n ∈ (runSample joinBatch joinBatchUnderway).db.nodes,
      n.id = closingReport.id ∧ n.flowInstanceId = 100 ∧ n.status = .running ∧
        Idle (runSample joinBatch joinBatchUnderway) n := by decide +kernel
  obtain ⟨n, hn, hid, hflowId, hrunning, hidle⟩ := hnode
  unfold runSample at hok hguard hn hflow hidle ⊢
  rw [sampleRequests_append] at hguard ⊢
  rw [← hflowId] at hguard hflow ⊢
  obtain ⟨hstatus, hquiet, -⟩ := stalled_forever sampleIds_injective sampleFiles _ subNodesLast hn
    hid hrunning rfl hflow hidle hok hguard
  exact ⟨hstatus, hquiet⟩

end Samples

end Kuintessence
