import Kuintessence.Workflow.Failure

namespace Kuintessence

open StatusReceiver

variable {env : Env} {w w' : World} {p : Plan} {n m : NodeInstance} {ms : List NodeMark}
  {fs : List FlowMark} {news : List Cell → List Notice} {entries tasks sent : List Uuid}
  {id flow x : Uuid}

def Runs (flow : Uuid) (w : World) : Prop :=
  ∃ n ∈ w.db.nodes, n.flowInstanceId = flow ∧ n.status = .running

def Agrees (flow : Uuid) (w : World) : Prop := Runs flow w → FlowIs flow .running w

def KeepsAgreement (flow : Uuid) (w : World) : Request → Prop
  | .receive result => ∀ n ∈ w.db.nodes, n.id = result.id → n.flowInstanceId = flow →
      (result.status = .paused ∧ ∀ m ∈ others w flow n.id, m.status ≠ .running) ∨
        (result.status = .continued ∧ ∀ f ∈ w.db.flows, f.id = flow → f.status = .running)
  | .start _ id => id ≠ flow
  | _ => True

theorem Turn.exists_node (h : Turn ms fs news w w') (hn : n ∈ w'.db.nodes) :
    ∃ m ∈ w.db.nodes, m.place = n.place ∧ n.status = overwrite ms m.id m.status := by
  obtain ⟨c, hc, heq⟩ := h.mem_cells.mp (List.mem_map_of_mem hn)
  obtain ⟨m, hm, rfl⟩ := List.mem_map.mp hc
  exact ⟨m, hm, congrArg Prod.fst heq, (congrArg Prod.snd heq).symm⟩

theorem Turn.runs (h : Turn ms fs news w w') (hrun : Runs flow w') :
    Runs flow w ∨ ∃ m ∈ w.db.nodes, m.flowInstanceId = flow ∧ (m.id, .running) ∈ ms := by
  obtain ⟨n, hn, hflow, hstatus⟩ := hrun
  obtain ⟨m, hm, hplace, hsame⟩ := h.exists_node hn
  have hmflow : m.flowInstanceId = flow := (congrArg Place.flow hplace).trans hflow
  rw [hstatus] at hsame
  rcases @overwrite_mem ms m.id m.status with hkept | hmark
  · exact .inl ⟨m, hm, hmflow, hkept.symm.trans hsame.symm⟩
  · rw [← hsame] at hmark
    exact .inr ⟨m, hm, hmflow, hmark⟩

theorem Turn.agrees (h : Turn ms fs news w w') (hw : Agrees flow w)
    (hms : ∀ m ∈ w.db.nodes, m.flowInstanceId = flow → (m.id, .running) ∉ ms)
    (hfs : ∀ m ∈ fs, m.1 = flow → m.2 = .running) : Agrees flow w' := by
  intro hrun
  rcases h.runs hrun with hruns | ⟨m, hm, hflow, hmark⟩
  · exact h.flowIs (hw hruns) hfs
  · exact absurd hmark (hms m hm hflow)

theorem Turn.agrees_lost (h : Turn [] [] silent w w') (hw : Agrees flow w) : Agrees flow w' :=
  h.agrees hw (fun _ _ _ => List.not_mem_nil) fun _ hm => absurd hm List.not_mem_nil

theorem FlowIs.agrees (h : FlowIs flow .running w) : Agrees flow w := fun _ => h

theorem Operated.clears {flowStatus : WorkflowInstanceStatus} {status : NodeInstanceStatus}
    (affected : NodeInstanceStatus → Bool) {rows : List Cell}
    (hrows : rows.Perm ((cells w.db.nodes).filter (fun c => c.1.flow == flow && affected c.2)))
    (turn : Turn (rows.map (fun c => (c.1.id, status))) [(flow, flowStatus)] silent w w')
    (haffected : affected .running = true) (hstatus : status ≠ .running) : ¬Runs flow w' := by
  rintro ⟨n, hn, hflow, hrunning⟩
  obtain ⟨m, hm, hplace, hsame⟩ := turn.exists_node hn
  have hmflow : m.flowInstanceId = flow := (congrArg Place.flow hplace).trans hflow
  have hids : rows.map (fun c => (c.1.id, status)) =
      (rows.map (fun c => c.1.id)).map (fun i => (i, status)) := by
    rw [List.map_map]
    rfl
  rw [hrunning, hids, overwrite_same] at hsame
  split at hsame
  · exact hstatus hsame.symm
  · next hout =>
    apply hout
    refine List.mem_map.mpr ⟨m.cell, hrows.mem_iff.mpr ?_, rfl⟩
    rw [List.mem_filter, Bool.and_eq_true, beq_iff_eq]
    refine ⟨mem_cells hm, hmflow, ?_⟩
    change affected m.status = true
    rw [← hsame]
    exact haffected

theorem Operated.agrees_quieted {flowStatus : WorkflowInstanceStatus} {status : NodeInstanceStatus}
    {affected : NodeInstanceStatus → Bool} (h : Operated w flowStatus status affected id w')
    (hw : Agrees flow w) (haffected : affected .running = true) (hstatus : status ≠ .running) :
    Agrees flow w' := by
  cases h with
  | lost turn => exact turn.agrees_lost hw
  | operated rows hrows turn =>
    by_cases heq : id = flow
    · subst heq
      exact fun hrun => absurd hrun (Operated.clears affected hrows turn haffected hstatus)
    · apply turn.agrees hw
      · intro m _ _ hmark
        obtain ⟨c, -, hmark⟩ := List.mem_map.mp hmark
        exact hstatus (congrArg Prod.snd hmark)
      · intro m hm hflow
        rw [List.mem_singleton.mp hm] at hflow
        exact absurd hflow heq

theorem Operated.agrees_continued {status : NodeInstanceStatus}
    {affected : NodeInstanceStatus → Bool}
    (h : Turn [] [] silent w w' ∨ Accomplished w .running status affected id w')
    (hs : Sound w) (hw : Agrees flow w) : Agrees flow w' := by
  rcases h with turn | h
  · exact turn.agrees_lost hw
  · by_cases heq : id = flow
    · subst heq
      exact h.flow.agrees
    · obtain ⟨rows, hrows, turn⟩ := h.turned
      apply turn.agrees hw
      · intro m hm hflow hmark
        obtain ⟨c, hc, hmark⟩ := List.mem_map.mp hmark
        rw [hrows.mem_iff, List.mem_filter, Bool.and_eq_true, beq_iff_eq] at hc
        have hplace := hs.layout.place_eq (mem_places_of_cells hc.1) (Tables.mem_places hm)
          (congrArg Prod.fst hmark)
        have hcflow := hc.2.1
        rw [hplace] at hcflow
        exact heq (hcflow.symm.trans hflow)
      · intro m hm hflow
        rw [List.mem_singleton.mp hm] at hflow
        exact absurd hflow heq

theorem Tasks.notMem_elsewhere (h : Tasks w.db.places p entries tasks) (hs : Sound w)
    (hp : p ∈ w.db.plans) (hne : p.id ≠ flow) (hm : m ∈ w.db.nodes)
    (hflow : m.flowInstanceId = flow) : m.id ∉ tasks := by
  intro hmem
  obtain ⟨c, hc, hid, hcne⟩ := h.elsewhere hs hp List.prefix_rfl hne m.id hmem
  rw [hs.layout.place_eq hc (Tables.mem_places hm) hid] at hcne
  exact hcne hflow

theorem Started.agrees (h : Started w id w') (hs : Sound w) (hw : Agrees flow w)
    (hne : id ≠ flow) : Agrees flow w' := by
  cases h with
  | lost turn => exact turn.agrees_lost hw
  | reset rows fs hrows hfs turn =>
    refine turn.agrees hw (fun m _ _ hmark => ?_) (hfs.status_elsewhere hne)
    exact NodeInstanceStatus.noConfusion (status_of_mem_pending hmark)
  | carried h =>
    cases h with
    | finished rows f ls fs hrows entering hfs turn =>
      refine turn.agrees hw (fun m _ _ hmark => ?_) (hfs.status_elsewhere hne)
      rcases List.mem_append.mp hmark with hmark | hmark
      · exact NodeInstanceStatus.noConfusion (status_of_mem_pending hmark)
      · exact NodeInstanceStatus.noConfusion (entering.mem_standing hmark).1
    | dispatched rows f entries ls tasks sent fs hrows entering entered htasks hsent hwhole hfs
        turn =>
      refine turn.agrees hw (fun m hm hflow hmark => ?_) (hfs.status_elsewhere hne)
      rcases List.mem_append.mp hmark with hmark | hmark
      · exact NodeInstanceStatus.noConfusion (status_of_mem_pending hmark)
      · rcases List.mem_append.mp hmark with hmark | hmark
        · exact NodeInstanceStatus.noConfusion (entering.mem_standing hmark).1
        · have helsewhere : f.plan.id ≠ flow := fun heq => hne (entering.flow_id.symm.trans heq)
          exact htasks.notMem_elsewhere hs entering.flow_plan helsewhere hm hflow
            (status_of_mem_running hmark).1

theorem Turn.agrees_elsewhere {status : NodeInstanceStatus} {c : Place}
    (h : Turn [(c.id, status)] fs news w w') (hs : Sound w) (hw : Agrees flow w)
    (hc : c ∈ w.db.places) (hne : c.flow ≠ flow) (hfs : ∀ m ∈ fs, m.1 = flow → m.2 = .running) :
    Agrees flow w' := by
  refine h.agrees hw (fun m hm hflow hmark => ?_) hfs
  have hid : m.id = c.id := congrArg Prod.fst (List.mem_singleton.mp hmark)
  rw [hs.layout.place_eq hc (Tables.mem_places hm) hid.symm] at hne
  exact hne hflow

theorem Turn.clears_last (h : Turn [(n.id, .paused)] fs news w w')
    (hothers : ∀ m ∈ others w flow n.id, m.status ≠ .running) : ¬Runs flow w' := by
  rintro ⟨k, hk, hflow, hrunning⟩
  obtain ⟨m, hm, hplace, hsame⟩ := h.exists_node hk
  have hmflow : m.flowInstanceId = flow := (congrArg Place.flow hplace).trans hflow
  have hpaused : overwrite [(n.id, .paused)] m.id m.status =
      if n.id = m.id then .paused else m.status := rfl
  rw [hrunning, hpaused] at hsame
  split at hsame
  · exact NodeInstanceStatus.noConfusion hsame
  · next hid => exact hothers m (mem_others_iff.mpr ⟨hm, hmflow, Ne.symm hid⟩) hsame.symm

theorem Chosen.reports_elsewhere {result : TaskResult} (h : Chosen w result.id p entries)
    (hok : KeepsAgreement flow w (.receive result)) (success : result.status = .success) :
    p.id ≠ flow := by
  intro heq
  obtain ⟨n, hn, hid, hflow⟩ := h.node
  rcases hok n hn hid (hflow.trans heq) with ⟨hpaused, -⟩ | ⟨hcontinued, -⟩
  · rw [success] at hpaused
    cases hpaused
  · rw [success] at hcontinued
    cases hcontinued

theorem Taken.agrees {result : TaskResult} (h : Taken w result w') (hs : Sound w)
    (hw : Agrees flow w) (hok : KeepsAgreement flow w (.receive result)) : Agrees flow w' := by
  cases h with
  | kept c hc hid fs hfs turn =>
    rw [← hid] at turn
    by_cases hflow : c.flow = flow
    · obtain ⟨n, hn, rfl⟩ := node_of_place hc
      rcases hok n hn hid hflow with ⟨hpaused, hothers⟩ | ⟨hcontinued, hrunning⟩
      · rw [hpaused] at turn
        exact fun hrun => absurd hrun (turn.clears_last hothers)
      · rw [hcontinued] at hfs
        have hstays : FlowIs flow .running w' :=
          turn.flowIs hrunning fun m hm _ => absurd (hfs m hm).2 List.not_mem_nil
        exact hstays.agrees
    · exact turn.agrees_elsewhere hs hw hc hflow (hfs.status_elsewhere hflow)
  | finished p success chosen turn =>
    have hne := chosen.reports_elsewhere hok success
    apply turn.agrees hw
    · intro m _ _ hmark
      exact NodeInstanceStatus.noConfusion (congrArg Prod.snd (List.mem_singleton.mp hmark))
    · intro m hm hflow
      rw [List.mem_singleton.mp hm] at hflow
      exact absurd hflow hne
  | dispatched f entries tasks sent success hflow chosen entered htasks hsent turn =>
    have hne := chosen.reports_elsewhere hok success
    apply turn.agrees hw
    · intro m hm hmflow hmark
      rcases List.mem_cons.mp hmark with hmark | hmark
      · exact NodeInstanceStatus.noConfusion (congrArg Prod.snd hmark)
      · exact htasks.notMem_elsewhere hs chosen.plan_mem hne hm hmflow
          (status_of_mem_running hmark).1
    · intro m hm heq
      rw [List.mem_singleton.mp hm] at heq
      exact absurd heq hne

theorem Submission.agrees {draftId : Uuid} (h : Submission env w.db.used draftId w w')
    (hs : Sound w) (hw : Agrees flow w) : Agrees flow w' := by
  cases h with
  | lost turn => exact turn.agrees_lost hw
  | inserted draft k f rows kept hdraft entry hkept inserted =>
    rintro ⟨n, hn, hflow, hrunning⟩
    rw [inserted.nodes] at hn
    rcases List.mem_append.mp hn with hn | hn
    · obtain ⟨p, hp, hpid, -⟩ := hs.layout.seat n.place (Tables.mem_places hn)
      have hused : flow ∈ w.db.used := by
        rw [← hflow, show n.flowInstanceId = p.id from hpid]
        exact Tables.id_mem_used hp
      exact (Submission.inserted draft k f rows kept hdraft entry hkept inserted).flowIs
        (hw ⟨n, hn, hflow, hrunning⟩) hused
    · have hcreated := (entry.parsed.flow n (kept_subset hkept hn)).2
      rw [hcreated] at hrunning
      cases hrunning

theorem step_agrees {q : Request} (hs : Sound w) (hw : Agrees flow w)
    (hok : KeepsAgreement flow w q) : Agrees flow (step env w q) := by
  have hk := hs.keyed
  cases q with
  | submit user draftId => exact (step_submit hs.supply user draftId).agrees hs hw
  | start user id => exact (step_start hk user id).agrees hs hw hok
  | pause user id =>
    exact (step_pause hk user id).agrees_quieted hw rfl fun h => NodeInstanceStatus.noConfusion h
  | «continue» user id =>
    have hstep : _ ∨ Accomplished w .running .running (fun s => s == .paused) id
        (step env w (.continue user id)) := step_operate hk rfl rfl
    exact Operated.agrees_continued hstep hs hw
  | terminate user id =>
    exact (step_terminate hk user id).agrees_quieted hw rfl fun h => NodeInstanceStatus.noConfusion h
  | receive result =>
    cases (step_receive hk result : Received w result (step env w _)) with
    | lost turn => exact turn.agrees_lost hw
    | taken h => exact h.agrees hs hw hok

theorem run_agrees {qs : List Request} (hs : Sound w) (hw : Agrees flow w)
    (h : Along (step env) (KeepsAgreement flow) w qs) : Agrees flow (run (step env) w qs) := by
  refine (run_invariant (I := fun t => Sound t ∧ Agrees flow t) ?_ ⟨hs, hw⟩ h).2
  rintro t q ⟨ht, hagrees⟩ hok
  exact ⟨step_sound ht q, step_agrees ht hagrees hok⟩

inductive Operates (flow : Uuid) : Request → Prop where
  | pause (user : Option Uuid) : Operates flow (.pause user flow)
  | continue (user : Option Uuid) : Operates flow (.continue user flow)

theorem Operates.agrees {q : Request} (h : Operates flow q) (hs : Sound w) {u : Unit}
    (hok : (q.handle env w).1 = .ok u) : Agrees flow (step env w q) := by
  cases h with
  | pause user =>
    obtain ⟨rows, hrows, turn⟩ := (handle_pause hs.keyed user flow hok).turned
    exact fun hrun => absurd hrun
      (Operated.clears (fun s => s == .running) hrows turn rfl
        fun h => NodeInstanceStatus.noConfusion h)
  | «continue» user => exact (handle_continue hs.keyed user flow hok).flow.agrees

structure AgreesWithNodes (flow : Uuid) (w : World) : Prop where
  running : ∀ f ∈ w.db.flows, f.id = flow → ∀ n ∈ w.db.nodes, n.flowInstanceId = flow →
    n.status = .running → f.status = .running
  paused : ∀ f ∈ w.db.flows, f.id = flow → f.status = .paused →
    ∀ n ∈ w.db.nodes, n.flowInstanceId = flow → n.status ≠ .running

theorem agreesWithNodes_iff : AgreesWithNodes flow w ↔ Agrees flow w := by
  constructor
  · rintro h ⟨n, hn, hflow, hrunning⟩ f hf hid
    exact h.running f hf hid n hn hflow hrunning
  · intro h
    refine ⟨fun f hf hid n hn hflow hrunning => h ⟨n, hn, hflow, hrunning⟩ f hf hid, ?_⟩
    intro f hf hid hpaused n hn hflow hrunning
    rw [h ⟨n, hn, hflow, hrunning⟩ f hf hid] at hpaused
    cases hpaused

theorem status_agrees {ids : Nat → Uuid} (hids : Function.Injective ids) (files : Files)
    (qs : List Request) {q : Request} (rs : List Request)
    (hfirst : AgreesWithNodes flow (run (step env) (World.start ids files) qs) ∧
        KeepsAgreement flow (run (step env) (World.start ids files) qs) q ∨
      Operates flow q ∧ (q.handle env (run (step env) (World.start ids files) qs)).1 = .ok ())
    (h : Along (step env) (KeepsAgreement flow)
      (run (step env) (World.start ids files) (qs ++ [q])) rs) :
    AgreesWithNodes flow (run (step env) (World.start ids files) (qs ++ q :: rs)) := by
  have hs : Sound (run (step env) (World.start ids files) qs) :=
    run_sound (start_sound hids files) qs
  rw [run_append] at h
  rw [run_append]
  generalize run (step env) (World.start ids files) qs = w at hfirst h hs ⊢
  rw [agreesWithNodes_iff] at hfirst ⊢
  change Along (step env) (KeepsAgreement flow) (step env w q) rs at h
  have hnext : Agrees flow (step env w q) := by
    rcases hfirst with ⟨hagrees, hok⟩ | ⟨hoperates, hok⟩
    · exact step_agrees hs hagrees hok
    · exact hoperates.agrees hs hok
  have hfinal : Agrees flow (run (step env) (step env w q) rs) :=
    run_agrees (step_sound hs q) hnext h
  exact hfinal

section Samples

instance (flow : Uuid) (w : World) (q : Request) : Decidable (KeepsAgreement flow w q) :=
  match q with
  | .receive result => inferInstanceAs (Decidable (∀ n ∈ w.db.nodes, n.id = result.id →
      n.flowInstanceId = flow →
      (result.status = .paused ∧ ∀ m ∈ others w flow n.id, m.status ≠ .running) ∨
        (result.status = .continued ∧ ∀ f ∈ w.db.flows, f.id = flow → f.status = .running)))
  | .start _ id => inferInstanceAs (Decidable (id ≠ flow))
  | .pause _ _ => .isTrue trivial
  | .continue _ _ => .isTrue trivial
  | .terminate _ _ => .isTrue trivial
  | .submit _ _ => .isTrue trivial

def acknowledgedInTime : List Request :=
  [report 101 .paused, report 103 .paused, .continue (some 5) 100, report 101 .continued,
    report 103 .continued]

def acknowledgedLate : List Request :=
  [.continue (some 5) 100, report 101 .paused, report 103 .paused, report 101 .continued,
    report 103 .continued]

theorem join_agrees :
    AgreesWithNodes 100 (runSample join (started ++ .pause (some 5) 100 :: acknowledgedInTime)) := by
  have hok : ((Request.pause (some 5) 100).handle (sampleEnv [join]) (runSample join started)).1 =
      .ok () := by decide +kernel
  have hguard : Along (step (sampleEnv [join])) (KeepsAgreement 100)
      (runSample join (started ++ [.pause (some 5) 100])) acknowledgedInTime := by decide +kernel
  unfold runSample at hok hguard ⊢
  rw [sampleRequests_append] at hguard ⊢
  exact status_agrees sampleIds_injective sampleFiles (sampleRequests join started)
    acknowledgedInTime (.inr ⟨.pause (some 5), hok⟩) hguard

theorem join_disagrees :
    ¬AgreesWithNodes 100 (runSample join (started ++ .pause (some 5) 100 :: acknowledgedLate)) := by
  have hrun : ∃ f ∈ (runSample join (started ++ .pause (some 5) 100 :: acknowledgedLate)).db.flows,
      f.id = 100 ∧ f.status = .paused ∧
      ∃ n ∈ (runSample join (started ++ .pause (some 5) 100 :: acknowledgedLate)).db.nodes,
        n.flowInstanceId = 100 ∧ n.status = .running := by decide +kernel
  obtain ⟨f, hf, hid, hpaused, n, hn, hflow, hrunning⟩ := hrun
  exact fun h => h.paused f hf hid hpaused n hn hflow hrunning

end Samples

end Kuintessence
