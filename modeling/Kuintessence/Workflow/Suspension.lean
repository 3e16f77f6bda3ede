import Kuintessence.Workflow.Delivery

namespace Kuintessence

variable {env : Env} {w w' : World} {p : Plan} {n : NodeInstance} {ms : List NodeMark}
  {fs : List FlowMark} {news : List Cell → List Notice} {entries tasks sent : List Uuid}
  {id flow x : Uuid}

def AtRest (status : WorkflowInstanceStatus) : Prop := status ≠ .running ∧ status ≠ .finished

def Suspended (flow : Uuid) (w : World) : Prop :=
  ∀ f ∈ w.db.flows, f.id = flow → AtRest f.status

def Elsewhere (flow : Uuid) (w : World) (xs : List Uuid) : Prop :=
  ∀ x ∈ xs, ∃ c ∈ w.db.places, c.id = x ∧ c.flow ≠ flow

structure Suspends (flow : Uuid) (w w' : World) : Prop where
  suspended : Suspended flow w'
  sends : ∃ new, handOvers w' = handOvers w ++ new ∧ Elsewhere flow w' new

def Held (w : World) (n : NodeInstance) : Prop :=
  ∃ m ∈ others w n.flowInstanceId n.id,
    m.batchParentId = none ∧ m.status ≠ .finished ∧ m.status ≠ .standby

def Idle (w : World) (n : NodeInstance) : Prop :=
  (∃ m ∈ others w n.flowInstanceId n.id, m.batchParentId ≠ none ∧ m.status = .standby) ∧
    ∀ m ∈ others w n.flowInstanceId n.id, m.batchParentId = none → m.status = .standby →
      ∀ f ∈ w.db.flows, f.id = n.flowInstanceId → ¬DependsOnlyOn f.plan n.id m.id

def StaysSuspended (flow : Uuid) (w : World) : Request → Prop
  | .receive result => result.status = .success → ∀ n ∈ w.db.nodes, n.id = result.id →
      n.flowInstanceId = flow → Held w n ∨ Idle w n
  | .start _ id => id ≠ flow
  | .continue _ id => id ≠ flow
  | _ => True

theorem Turn.suspends (h : Turn ms fs news w w') (hw : Suspended flow w)
    (hfs : ∀ m ∈ fs, m.1 = flow → AtRest m.2)
    (hnews : Elsewhere flow w ((news (cells w'.db.nodes)).filterMap Notice.handedOver)) :
    Suspends flow w w' := by
  constructor
  · intro f' hf' hid
    obtain ⟨f, hf, hplan, hsame | hmark⟩ := h.commit.moves f' hf'
    · have hfid : f.id = flow := (congrArg Plan.id hplan).symm.trans hid
      rw [hsame]
      exact hw f hf hfid
    · have hfid : f.id = flow := (congrArg Plan.id hplan).symm.trans hid
      exact hfs _ hmark hfid
  · refine ⟨_, handOvers_append h.notices_eq, fun x hx => ?_⟩
    obtain ⟨c, hc, hcid⟩ := hnews x hx
    rw [← h.commit.places] at hc
    exact ⟨c, hc, hcid⟩

theorem Turn.suspends_silent (h : Turn ms fs news w w') (hw : Suspended flow w)
    (hfs : ∀ m ∈ fs, m.1 = flow → AtRest m.2)
    (hnews : (news (cells w'.db.nodes)).filterMap Notice.handedOver = []) :
    Suspends flow w w' := by
  apply h.suspends hw hfs
  rw [hnews]
  exact fun x hx => absurd hx List.not_mem_nil

theorem Turn.suspends_sent (h : Turn ms fs (fun cs => sentAll cs sent) w w')
    (hw : Suspended flow w) (hfs : ∀ m ∈ fs, m.1 = flow → AtRest m.2)
    (hsent : Elsewhere flow w sent) : Suspends flow w w' := by
  apply h.suspends hw hfs
  rw [handOvers_sentAll]
  exact hsent

theorem About.at_rest {statuses : List WorkflowInstanceStatus} (h : About id statuses fs)
    (hrest : ∀ s ∈ statuses, AtRest s) : ∀ m ∈ fs, m.1 = flow → AtRest m.2 :=
  fun m hm _ => hrest m.2 (h m hm).2

theorem About.elsewhere {statuses : List WorkflowInstanceStatus} (h : About id statuses fs)
    (hne : id ≠ flow) : ∀ m ∈ fs, m.1 = flow → AtRest m.2 :=
  fun m hm heq => absurd ((h m hm).1.symm.trans heq) hne

theorem quiet_at_rest : ∀ s ∈ quiet, AtRest s := by
  intro s hs
  simp only [quiet, List.mem_cons, List.not_mem_nil, or_false] at hs
  rcases hs with rfl | rfl | rfl
  all_goals exact ⟨WorkflowInstanceStatus.noConfusion, WorkflowInstanceStatus.noConfusion⟩

theorem Tasks.elsewhere (h : Tasks w.db.places p entries tasks) (hs : Sound w)
    (hp : p ∈ w.db.plans) (hsent : sent <+: tasks) (hne : p.id ≠ flow) :
    Elsewhere flow w sent := by
  intro x hx
  obtain ⟨c, hc, rfl⟩ := h.seated x (hsent.mem hx)
  obtain ⟨hhome, -⟩ := h.home hs.layout hp hc (hsent.mem hx)
  refine ⟨c, hc, rfl, ?_⟩
  rw [hs.layout.flow_of_home hp hc hhome]
  exact hne

theorem Held.not_settled (h : Held w n) : ¬OthersSettled w n.flowInstanceId n.id := by
  obtain ⟨m, hm, hroot, hfinished, hstandby⟩ := h
  intro hsettled
  rcases hsettled m hm hroot with h | h
  · exact hfinished h
  · exact hstandby h

theorem Sound.sub_notMem (hs : Sound w) (hn : n ∈ w.db.nodes) (hsub : n.batchParentId ≠ none) :
    ∀ p ∈ w.db.plans, n.id ∉ p.ids := by
  intro p hp hid
  exact hsub (hs.layout.root_of_id hp (Tables.mem_places hn) hid).1

theorem Idle.entered (h : Idle w n) (hs : Sound w) (hc : Chosen w n.id p entries)
    (hflow : n.flowInstanceId = p.id) : entries ≠ [] := by
  obtain ⟨⟨m, hm, hsub, hstandby⟩, -⟩ := h
  have hnode := (mem_others_iff.mp hm).1
  rw [hflow] at hm
  have hentry : m.id ∈ entries := by
    refine hc.mem_entries_iff.mpr ⟨⟨m, hm, rfl, hstandby⟩, fun e he heq => ?_⟩
    have hend := (hs.layout.ends p hc.plan_mem e he).2
    rw [heq] at hend
    exact absurd hend (hs.sub_notMem hnode hsub p hc.plan_mem)
  exact List.ne_nil_of_mem hentry

theorem Idle.tasks_eq_nil (h : Idle w n) (hs : Sound w) (hc : Chosen w n.id p entries)
    (hflow : n.flowInstanceId = p.id) (ht : Tasks w.db.places p entries tasks) : tasks = [] := by
  apply List.eq_nil_iff_forall_not_mem.mpr
  intro i hi
  obtain ⟨x, hx, hentry, -⟩ := ht.mem hi
  obtain ⟨⟨m, hm, rfl, hstandby⟩, honly⟩ := hc.mem_entries_iff.mp hentry
  have hnode := (mem_others_iff.mp hm).1
  have hroot := (hs.layout.root_of_id hc.plan_mem (Tables.mem_places hnode) hx).1
  obtain ⟨f, hf, rfl⟩ := flow_of_plan hc.plan_mem
  rw [← hflow] at hm
  exact h.2 m hm hroot hstandby f hf hflow.symm honly

theorem Chosen.idle {result : TaskResult} (h : Chosen w result.id p entries)
    (hok : StaysSuspended flow w (.receive result)) (hsuccess : result.status = .success)
    (hp : p.id = flow) : ∃ n, n.id = result.id ∧ n.flowInstanceId = p.id ∧ Idle w n := by
  obtain ⟨n, hn, hid, hflow⟩ := h.node
  have hsettled := h.settled
  rw [← hflow, ← hid] at hsettled
  rcases hok hsuccess n hn hid (hflow.trans hp) with hheld | hidle
  · exact absurd hsettled hheld.not_settled
  · exact ⟨n, hid, hflow, hidle⟩

theorem Taken.suspends {result : TaskResult} (h : Taken w result w') (hs : Sound w)
    (hw : Suspended flow w) (hok : StaysSuspended flow w (.receive result)) :
    Suspends flow w w' := by
  cases h with
  | kept c hc hid fs hfs turn => exact turn.suspends_silent hw (hfs.quiet.at_rest quiet_at_rest) rfl
  | finished p success chosen turn =>
    refine turn.suspends_silent hw (fun m hm heq => ?_) rfl
    rw [List.mem_singleton.mp hm] at heq
    obtain ⟨n, hid, hflow, hidle⟩ := chosen.idle hok success heq
    rw [← hid] at chosen
    exact absurd rfl (hidle.entered hs chosen hflow)
  | dispatched f entries tasks sent success hflow chosen entered htasks hsent turn =>
    have hfs : ∀ m ∈ [(f.id, f.status)], m.1 = flow → AtRest m.2 := by
      intro m hm heq
      rw [List.mem_singleton.mp hm] at heq ⊢
      exact hw f hflow heq
    apply turn.suspends_sent hw hfs
    by_cases heq : f.plan.id = flow
    · obtain ⟨n, hid, hnflow, hidle⟩ := chosen.idle hok success heq
      rw [← hid] at chosen
      rw [hidle.tasks_eq_nil hs chosen hnflow htasks, List.prefix_nil] at hsent
      rw [hsent]
      exact fun x hx => absurd hx List.not_mem_nil
    · exact htasks.elsewhere hs chosen.plan_mem hsent heq

theorem Started.suspends (h : Started w id w') (hs : Sound w) (hw : Suspended flow w)
    (hne : id ≠ flow) : Suspends flow w w' := by
  cases h with
  | lost turn => exact turn.suspends_silent hw (fun _ hm => absurd hm List.not_mem_nil) rfl
  | reset rows fs hrows hfs turn => exact turn.suspends_silent hw (hfs.elsewhere hne) rfl
  | carried h =>
    cases h with
    | finished rows f ls fs hrows entering hfs turn =>
      exact turn.suspends_silent hw (hfs.elsewhere hne) rfl
    | dispatched rows f entries ls tasks sent fs hrows entering entered htasks hsent hwhole hfs
        turn =>
      apply turn.suspends_sent hw (hfs.elsewhere hne)
      apply htasks.elsewhere hs entering.flow_plan hsent
      exact fun heq => hne (entering.flow_id.symm.trans heq)

theorem Operated.suspends {flowStatus : WorkflowInstanceStatus} {status : NodeInstanceStatus}
    {affected : NodeInstanceStatus → Bool} (h : Operated w flowStatus status affected id w')
    (hw : Suspended flow w) (hrest : id = flow → AtRest flowStatus) : Suspends flow w w' := by
  cases h with
  | lost turn => exact turn.suspends_silent hw (fun _ hm => absurd hm List.not_mem_nil) rfl
  | operated rows hrows turn =>
    refine turn.suspends_silent hw (fun m hm heq => ?_) rfl
    rw [List.mem_singleton.mp hm] at heq ⊢
    exact hrest heq

theorem Submission.suspends {draftId : Uuid} (h : Submission env w.db.used draftId w w')
    (hw : Suspended flow w) : Suspends flow w w' := by
  cases h with
  | lost turn => exact turn.suspends_silent hw (fun _ hm => absurd hm List.not_mem_nil) rfl
  | inserted draft k f rows kept hdraft entry hkept inserted =>
    constructor
    · intro g hg hid
      obtain ⟨user, time, hflows⟩ := inserted.flows
      rw [hflows] at hg
      rcases List.mem_append.mp hg with hg | hg
      · exact hw g hg hid
      · obtain ⟨order, iter, hsub⟩ := entry.submitted
        rw [List.mem_singleton.mp hg]
        change AtRest f.status
        rw [hsub.status]
        exact ⟨WorkflowInstanceStatus.noConfusion, WorkflowInstanceStatus.noConfusion⟩
    · refine ⟨[], ?_, fun x hx => absurd hx List.not_mem_nil⟩
      rw [List.append_nil, handOvers_eq, handOvers_eq, inserted.notices_eq]

theorem paused_at_rest : AtRest .paused :=
  ⟨WorkflowInstanceStatus.noConfusion, WorkflowInstanceStatus.noConfusion⟩

theorem stopped_at_rest : AtRest .stopped :=
  ⟨WorkflowInstanceStatus.noConfusion, WorkflowInstanceStatus.noConfusion⟩

theorem step_suspends {q : Request} (hs : Sound w) (hw : Suspended flow w)
    (hok : StaysSuspended flow w q) : Suspends flow w (step env w q) := by
  have hk := hs.keyed
  cases q with
  | submit user draftId => exact (step_submit hs.supply user draftId).suspends hw
  | start user id => exact (step_start hk user id).suspends hs hw hok
  | pause user id => exact (step_pause hk user id).suspends hw fun _ => paused_at_rest
  | «continue» user id => exact (step_continue hk user id).suspends hw fun heq => absurd heq hok
  | terminate user id => exact (step_terminate hk user id).suspends hw fun _ => stopped_at_rest
  | receive result =>
    cases (step_receive hk result : Received w result (step env w _)) with
    | lost turn => exact turn.suspends_silent hw (fun _ hm => absurd hm List.not_mem_nil) rfl
    | taken h => exact h.suspends hs hw hok

theorem Suspends.refl (hw : Suspended flow w) : Suspends flow w w :=
  ⟨hw, [], (List.append_nil _).symm, fun _ hx => absurd hx List.not_mem_nil⟩

theorem Suspends.trans {w'' : World} (h : Suspends flow w w') (h' : Suspends flow w' w'')
    (hplaces : ∀ c ∈ w'.db.places, c ∈ w''.db.places) : Suspends flow w w'' := by
  obtain ⟨new, hnew, hout⟩ := h.sends
  obtain ⟨new', hnew', hout'⟩ := h'.sends
  refine ⟨h'.suspended, new ++ new', ?_, fun x hx => ?_⟩
  · rw [hnew', hnew, List.append_assoc]
  · rcases List.mem_append.mp hx with hx | hx
    · obtain ⟨c, hc, hcid⟩ := hout x hx
      exact ⟨c, hplaces c hc, hcid⟩
    · exact hout' x hx

theorem Suspends.nodes_unsent (h : Suspends flow w w') (hs : Sound w') :
    ∃ new, handOvers w' = handOvers w ++ new ∧
      ∀ n ∈ w'.db.nodes, n.flowInstanceId = flow → n.id ∉ new := by
  obtain ⟨new, hnew, hout⟩ := h.sends
  refine ⟨new, hnew, fun n hn hflow hmem => ?_⟩
  obtain ⟨c, hc, hid, hne⟩ := hout n.id hmem
  rw [hs.layout.place_eq hc (Tables.mem_places hn) hid] at hne
  exact hne hflow

theorem run_suspends {qs : List Request} (hs : Sound w) (hw : Suspended flow w)
    (h : Along (step env) (StaysSuspended flow) w qs) :
    Sound (run (step env) w qs) ∧ Suspends flow w (run (step env) w qs) := by
  refine run_invariant (I := fun t => Sound t ∧ Suspends flow w t) ?_ ⟨hs, .refl hw⟩ h
  rintro t q ⟨ht, hsus⟩ hok
  have hnext : Suspends flow t (step env t q) := step_suspends ht hsus.suspended hok
  exact ⟨step_sound ht q, hsus.trans hnext (step_stepped ht q).place_mem⟩

inductive Suspending (flow : Uuid) : Request → Prop where
  | pause (user : Option Uuid) : Suspending flow (.pause user flow)
  | terminate (user : Option Uuid) : Suspending flow (.terminate user flow)

theorem Operated.handOvers_eq {flowStatus : WorkflowInstanceStatus} {status : NodeInstanceStatus}
    {affected : NodeInstanceStatus → Bool} (h : Operated w flowStatus status affected id w') :
    handOvers w' = handOvers w := by
  cases h with
  | lost turn => exact (handOvers_append turn.notices_eq).trans (List.append_nil _)
  | operated rows hrows turn => exact (handOvers_append turn.notices_eq).trans (List.append_nil _)

theorem Suspends.of_same (hw : Suspended flow w') (hsame : handOvers w' = handOvers w) :
    Suspends flow w w' :=
  ⟨hw, [], hsame.trans (List.append_nil _).symm, fun _ hx => absurd hx List.not_mem_nil⟩

theorem Suspending.suspends {q : Request} (h : Suspending flow q) (hs : Sound w) {u : Unit}
    (hok : (q.handle env w).1 = .ok u) : Suspends flow w (step env w q) := by
  have hk := hs.keyed
  cases h with
  | pause user =>
    refine .of_same (fun f hf hid => ?_) (step_pause hk user flow).handOvers_eq
    rw [(handle_pause hk user flow hok).flow f hf hid]
    exact paused_at_rest
  | terminate user =>
    refine .of_same (fun f hf hid => ?_) (step_terminate hk user flow).handOvers_eq
    rw [(handle_terminate hk user flow hok).flow f hf hid]
    exact stopped_at_rest

theorem suspended_until_resumed {ids : Nat → Uuid} (hids : Function.Injective ids) (files : Files)
    (qs rs : List Request) {q : Request} (hq : Suspending flow q)
    (hok : (q.handle env (run (step env) (World.start ids files) qs)).1 = .ok ())
    (h : Along (step env) (StaysSuspended flow)
      (run (step env) (World.start ids files) (qs ++ [q])) rs) :
    (∀ f ∈ (run (step env) (World.start ids files) (qs ++ q :: rs)).db.flows, f.id = flow →
        f.status ≠ .running ∧ f.status ≠ .finished) ∧
      ∃ new, handOvers (run (step env) (World.start ids files) (qs ++ q :: rs)) =
          handOvers (run (step env) (World.start ids files) qs) ++ new ∧
        ∀ n ∈ (run (step env) (World.start ids files) (qs ++ q :: rs)).db.nodes,
          n.flowInstanceId = flow → n.id ∉ new := by
  have hs : Sound (run (step env) (World.start ids files) qs) :=
    run_sound (start_sound hids files) qs
  rw [run_append] at h
  rw [run_append]
  generalize run (step env) (World.start ids files) qs = w at hok h hs ⊢
  change Along (step env) (StaysSuspended flow) (step env w q) rs at h
  have hfirst : Suspends flow w (step env w q) := hq.suspends hs hok
  obtain ⟨hfinal, hrest⟩ := run_suspends (step_sound hs q) hfirst.suspended h
  have hwhole := hfirst.trans hrest (run_stepped (step_sound hs q) rs).2.1
  change Sound (run (step env) w (q :: rs)) at hfinal
  change Suspends flow w (run (step env) w (q :: rs)) at hwhole
  generalize run (step env) w (q :: rs) = w' at hfinal hwhole ⊢
  exact ⟨hwhole.suspended, hwhole.nodes_unsent hfinal⟩

section Samples

instance (w : World) (n : NodeInstance) : Decidable (Held w n) :=
  inferInstanceAs (Decidable (∃ m ∈ others w n.flowInstanceId n.id,
    m.batchParentId = none ∧ m.status ≠ .finished ∧ m.status ≠ .standby))

instance (w : World) (n : NodeInstance) : Decidable (Idle w n) :=
  inferInstanceAs (Decidable ((∃ m ∈ others w n.flowInstanceId n.id,
    m.batchParentId ≠ none ∧ m.status = .standby) ∧
      ∀ m ∈ others w n.flowInstanceId n.id, m.batchParentId = none → m.status = .standby →
        ∀ f ∈ w.db.flows, f.id = n.flowInstanceId → ¬DependsOnlyOn f.plan n.id m.id))

instance (flow : Uuid) (w : World) (q : Request) : Decidable (StaysSuspended flow w q) :=
  match q with
  | .receive result => inferInstanceAs (Decidable (result.status = .success →
      ∀ n ∈ w.db.nodes, n.id = result.id → n.flowInstanceId = flow → Held w n ∨ Idle w n))
  | .start _ id => inferInstanceAs (Decidable (id ≠ flow))
  | .continue _ id => inferInstanceAs (Decidable (id ≠ flow))
  | .submit _ _ => .isTrue trivial
  | .pause _ _ => .isTrue trivial
  | .terminate _ _ => .isTrue trivial

theorem sampleRequests_append (draft : WorkflowDraft) (qs rs : List Request) :
    sampleRequests draft (qs ++ rs) = sampleRequests draft qs ++ rs := rfl

def lateReports : List Request := [report 101 .success, report 103 .paused, report 101 .failed]

theorem join_stays_paused :
    handOvers (runSample join (started ++ .pause (some 5) 100 :: lateReports)) = [101, 103] ∧
      ∀ f ∈ (runSample join (started ++ .pause (some 5) 100 :: lateReports)).db.flows,
        f.id = 100 → f.status ≠ .running ∧ f.status ≠ .finished := by
  have hok : ((Request.pause (some 5) 100).handle (sampleEnv [join]) (runSample join started)).1 =
      .ok () := by decide +kernel
  have hguard : Along (step (sampleEnv [join])) (StaysSuspended 100)
      (runSample join (started ++ [.pause (some 5) 100])) lateReports := by decide +kernel
  refine ⟨by decide +kernel, ?_⟩
  unfold runSample at hok hguard ⊢
  rw [sampleRequests_append] at hguard ⊢
  exact (suspended_until_resumed sampleIds_injective sampleFiles (sampleRequests join started) _
    (.pause (some 5)) hok hguard).1

theorem chain_runs_on :
    ((Request.pause (some 5) 100).handle (sampleEnv [chain]) (runSample chain started)).1 = .ok () ∧
      handOvers (runSample chain (started ++ [.pause (some 5) 100])) = [101] ∧
      handOvers (runSample chain
        (started ++ [.pause (some 5) 100, report 101 .success])) = [101, 103] ∧
      ∃ f ∈ (runSample chain (started ++ [.pause (some 5) 100, report 101 .success,
        report 103 .success])).db.flows, f.id = 100 ∧ f.status = .finished := by
  decide +kernel

end Samples

end Kuintessence
