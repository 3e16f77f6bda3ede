import Kuintessence.Engine.Reports
import Kuintessence.Instance.SubNodes

namespace Kuintessence

open EdgeList

variable {env : Env} {w w' : World} {p : Plan} {n m : NodeInstance} {id flow : Uuid}

theorem notice_of_finish {trace : List Event} {nodes : List NodeInstance}
    (h : .finish flow nodes ∈ trace) : .finished flow (cells nodes) ∈ notices trace :=
  List.mem_filterMap.mpr ⟨_, h, rfl⟩

theorem event_of_finished {trace : List Event} {cs : List Cell}
    (h : .finished flow cs ∈ notices trace) :
    ∃ nodes, .finish flow nodes ∈ trace ∧ cells nodes = cs := by
  obtain ⟨e, he, hnotice⟩ := List.mem_filterMap.mp h
  cases e with
  | finish id nodes =>
    cases hnotice
    exact ⟨nodes, he, rfl⟩
  | sendUsecase spec nodes => cases hnotice
  | operateTask task => cases hnotice
  | sendTask taskId command clusterId => cases hnotice
  | nodeStatus result => cases hnotice
  | bill nodeInstanceId => cases hnotice

def AllFinished (flow : Uuid) (cs : List Cell) : Prop :=
  ∀ c ∈ cs, c.1.flow = flow → c.2 = .finished

def NothingLeft (w : World) (n : NodeInstance) : Prop :=
  ∀ m ∈ others w n.flowInstanceId n.id,
    m.status ≠ .standby ∧ (m.batchParentId ≠ none → m.status = .finished)

def FreesOne (w : World) (n : NodeInstance) : Prop :=
  ∃ m ∈ others w n.flowInstanceId n.id, m.status = .standby ∧
    ∀ f ∈ w.db.flows, f.id = n.flowInstanceId → DependsOnlyOn f.plan n.id m.id

def CompletesWhole (w : World) : Request → Prop
  | .receive result => result.status = .success → ∀ n ∈ w.db.nodes, n.id = result.id →
      OthersSettled w n.flowInstanceId n.id → FreesOne w n ∨ NothingLeft w n
  | _ => True

theorem CompletesWhole.finished {result : TaskResult} (h : CompletesWhole w (.receive result))
    (hs : result.status = .success) (hc : Chosen w result.id p [])
    {fs : List FlowMark} {news : List Cell → List Notice}
    (turn : Turn [(result.id, .finished)] fs news w w') :
    AllFinished p.id (cells w'.db.nodes) := by
  obtain ⟨n, hn, hid, hflow⟩ := hc.node
  have hsettled := hc.settled
  rw [← hflow, ← hid] at hsettled
  intro c hcell hof
  rw [turn.commit.cells_eq] at hcell
  obtain ⟨m, hm, hplace, ⟨-, hfin⟩ | ⟨hne, hstatus⟩⟩ := of_mem_marked hcell
  · exact hfin
  · rw [← hplace] at hof
    have hother : m ∈ others w n.flowInstanceId n.id := by
      rw [mem_others_iff, hflow, hid]
      exact ⟨hm, hof, hne⟩
    rw [hstatus]
    rcases h hs n hn hid hsettled with ⟨k, hk, hstandby, honly⟩ | hleft
    · obtain ⟨f, hf, rfl⟩ := flow_of_plan hc.plan_mem
      have hdep := honly f hf hflow.symm
      rw [hid] at hdep hk
      rw [hflow] at hk
      have hentry := hc.mem_entries_iff.mpr ⟨⟨k, hk, rfl, hstandby⟩, hdep⟩
      exact absurd hentry List.not_mem_nil
    · obtain ⟨hstandby, hsub⟩ := hleft m hother
      by_cases hroot : m.batchParentId = none
      · exact (hsettled m hother hroot).resolve_right hstandby
      · exact hsub hroot

theorem Entering.all_finished {ls : List (List Uuid)} {f : WorkflowInstance}
    (h : Entering w.db id f [] ls) (hs : Sound w) (hacyclic : Acyclic f.plan.edges)
    {cs : List Cell} (hcs : ∀ c ∈ cs, c.1 ∈ w.db.places) : AllFinished id cs := by
  intro c hc hflow
  by_cases hne : f.plan.ids = []
  · have hnone := hs.layout.no_rows h.flow_plan hne (hcs c hc)
    exact absurd (hflow.trans h.flow_id.symm) hnone
  · obtain ⟨x, hx⟩ := exists_unfed hs.layout h.flow_plan hacyclic hne
    exact absurd ((h.unfed x).mpr hx) List.not_mem_nil

structure Completed (w : World) : Prop where
  sound : Sound w
  finishes : ∀ flow cs, .finished flow cs ∈ notices w.trace →
    (∀ p ∈ w.db.plans, p.id = flow → Acyclic p.edges) → AllFinished flow cs

theorem Completed.of_notices (h : Completed w) (hsound : Sound w') (hstep : Stepped w w')
    (hnew : ∀ flow cs, .finished flow cs ∈ notices w'.trace →
      .finished flow cs ∈ notices w.trace ∨ ((∀ p ∈ w.db.plans, p.id = flow → Acyclic p.edges) →
        AllFinished flow cs)) : Completed w' := by
  refine ⟨hsound, fun flow cs hm hacyclic => ?_⟩
  have hold : ∀ p ∈ w.db.plans, p.id = flow → Acyclic p.edges :=
    fun p hp => hacyclic p (hstep.plan_mem p hp)
  rcases hnew flow cs hm with hm | hall
  · exact h.finishes flow cs hm hold
  · exact hall hold

theorem notMem_sentAll {cs cs' : List Cell} {sent : List Uuid} :
    .finished flow cs ∉ sentAll cs' sent := by
  intro hm
  obtain ⟨x, -, heq⟩ := List.mem_map.mp hm
  cases heq

theorem step_completed {q : Request} (h : Completed w) (hok : CompletesWhole w q) :
    Completed (step env w q) := by
  refine h.of_notices (step_sound h.sound q) (step_stepped h.sound q) fun flow cs hm => ?_
  generalize hw' : step env w q = w' at hm
  have htold : Told w q w' := hw' ▸ step_told h.sound q
  cases htold with
  | silent hsame =>
    rw [hsame] at hm
    exact .inl hm
  | reportFinished p success chosen turn =>
    rw [turn.notices_eq] at hm
    rcases List.mem_append.mp hm with hm | hm
    · exact .inl hm
    · cases List.mem_singleton.mp hm
      exact .inr fun _ => hok.finished success chosen turn
  | reportSent p entries tasks sent fs success chosen htasks hsent turn =>
    rw [turn.notices_eq] at hm
    exact .inl ((List.mem_append.mp hm).resolve_right notMem_sentAll)
  | startFinished rows f ls fs entering turn =>
    rw [turn.notices_eq] at hm
    rcases List.mem_append.mp hm with hm | hm
    · exact .inl hm
    · cases List.mem_singleton.mp hm
      refine .inr fun hacyclic => entering.all_finished h.sound ?_ fun c hc => ?_
      · exact hacyclic _ entering.flow_plan entering.flow_id
      · rw [← turn.commit.places]
        exact mem_places_of_cells hc
  | startSent rows f entries ls tasks sent fs entering htasks hsent turn =>
    rw [turn.notices_eq] at hm
    exact .inl ((List.mem_append.mp hm).resolve_right notMem_sentAll)

def Announced (w : World) : Prop :=
  ∀ f ∈ w.db.flows, f.status = .finished → ∃ cs, .finished f.id cs ∈ notices w.trace

theorem Turn.announced {ms : List NodeMark} {fs : List FlowMark} {news : List Cell → List Notice}
    (h : Turn ms fs news w w') (ha : Announced w)
    (hfs : ∀ m ∈ fs, m.2 = .finished → ∃ cs, .finished m.1 cs ∈ notices w'.trace) :
    Announced w' := by
  intro f' hf' hfinished
  obtain ⟨f, hf, hplan, hsame | hmark⟩ := h.commit.moves f' hf'
  · have hid : f'.id = f.id := congrArg Plan.id hplan
    obtain ⟨cs, hcs⟩ := ha f hf (hsame.symm.trans hfinished)
    refine ⟨cs, ?_⟩
    rw [h.notices_eq, hid]
    exact List.mem_append_left _ hcs
  · have hid : f'.id = f.id := congrArg Plan.id hplan
    rw [hid]
    exact hfs _ hmark hfinished

theorem Turn.announced_of_about {ms : List NodeMark} {fs : List FlowMark}
    {news : List Cell → List Notice} {statuses : List WorkflowInstanceStatus}
    (h : Turn ms fs news w w') (ha : Announced w) (hfs : About flow statuses fs)
    (hne : .finished ∉ statuses) : Announced w' := by
  refine h.announced ha fun m hm hfinished => absurd (hfs m hm).2 ?_
  rw [hfinished]
  exact hne

theorem Taken.announced {result : TaskResult} (h : Taken w result w') (ha : Announced w) :
    Announced w' := by
  cases h with
  | kept c hc hid fs hfs turn => exact turn.announced_of_about ha hfs.quiet (by decide)
  | finished p success chosen turn =>
    refine turn.announced ha fun m hm _ => ⟨cells w'.db.nodes, ?_⟩
    rw [List.mem_singleton.mp hm, turn.notices_eq]
    exact List.mem_append_right _ (List.mem_singleton_self _)
  | dispatched f entries tasks sent success hflow chosen entered htasks hsent turn =>
    refine turn.announced ha fun m hm hfinished => ?_
    rw [List.mem_singleton.mp hm] at hfinished ⊢
    obtain ⟨cs, hcs⟩ := ha f hflow hfinished
    refine ⟨cs, ?_⟩
    rw [turn.notices_eq]
    exact List.mem_append_left _ hcs

theorem Received.announced {result : TaskResult} (h : Received w result w') (ha : Announced w) :
    Announced w' := by
  cases h with
  | lost turn => exact turn.announced_of_about ha (.nil 0 []) List.not_mem_nil
  | taken h => exact h.announced ha

theorem Started.announced (h : Started w id w') (ha : Announced w) : Announced w' := by
  cases h with
  | lost turn => exact turn.announced_of_about ha (.nil 0 []) List.not_mem_nil
  | reset rows fs hrows hfs turn => exact turn.announced_of_about ha hfs (by decide)
  | carried h =>
    cases h with
    | finished rows f ls fs hrows entering hfs turn =>
      refine turn.announced ha fun m hm _ => ⟨cells w'.db.nodes, ?_⟩
      rw [(hfs m hm).1, turn.notices_eq]
      exact List.mem_append_right _ (List.mem_singleton_self _)
    | dispatched rows f entries ls tasks sent fs hrows entering entered htasks hsent hwhole hfs
        turn => exact turn.announced_of_about ha hfs (by decide)

theorem Operated.announced {flowStatus : WorkflowInstanceStatus} {status : NodeInstanceStatus}
    {affected : NodeInstanceStatus → Bool} (h : Operated w flowStatus status affected id w')
    (ha : Announced w) (hne : flowStatus ≠ .finished) : Announced w' := by
  cases h with
  | lost turn => exact turn.announced_of_about ha (.nil 0 []) List.not_mem_nil
  | operated rows hrows turn =>
    refine turn.announced_of_about ha (.single (List.mem_singleton_self _)) fun hm => ?_
    exact hne (List.mem_singleton.mp hm).symm

theorem step_announced {q : Request} (hs : Sound w) (ha : Announced w) :
    Announced (step env w q) := by
  have hk := hs.keyed
  cases q with
  | submit user draftId =>
    cases (step_submit hs.supply user draftId : Submission env _ _ w _) with
    | lost turn => exact turn.announced_of_about ha (.nil 0 []) List.not_mem_nil
    | inserted draft k f rows kept hdraft entry hkept inserted =>
      obtain ⟨user, time, hflows⟩ := inserted.flows
      intro g hg hfinished
      rw [hflows] at hg
      rw [inserted.notices_eq]
      rcases List.mem_append.mp hg with hg | hg
      · exact ha g hg hfinished
      · obtain ⟨order, iter, hsub⟩ := entry.submitted
        rw [List.mem_singleton.mp hg] at hfinished
        exact absurd (hsub.status.symm.trans hfinished) (by decide)
  | start user id => exact (step_start hk user id).announced ha
  | pause user id => exact (step_pause hk user id).announced ha (by decide)
  | «continue» user id => exact (step_continue hk user id).announced ha (by decide)
  | terminate user id => exact (step_terminate hk user id).announced ha (by decide)
  | receive result => exact (step_receive hk result).announced ha

theorem start_completed {ids : Nat → Uuid} (hids : Function.Injective ids) (files : Files) :
    Completed (World.start ids files) ∧ Announced (World.start ids files) :=
  ⟨⟨start_sound hids files, fun _ _ hm => absurd hm List.not_mem_nil⟩,
    fun _ hf => absurd hf List.not_mem_nil⟩

theorem run_completed {ids : Nat → Uuid} (hids : Function.Injective ids) (files : Files)
    {qs : List Request} (h : Along (step env) CompletesWhole (World.start ids files) qs) :
    Completed (run (step env) (World.start ids files) qs) ∧
      Announced (run (step env) (World.start ids files) qs) :=
  run_invariant (I := fun w => Completed w ∧ Announced w)
    (fun _ _ ⟨hc, ha⟩ hok => ⟨step_completed hc hok, step_announced hc.sound ha⟩)
    (start_completed hids files) h

def Event.FinishesWhole (flow : Uuid) : Event → Prop
  | .finish id nodes => id = flow → ∀ n ∈ nodes, n.flowInstanceId = flow → n.status = .finished
  | _ => True

instance (flow : Uuid) (e : Event) : Decidable (e.FinishesWhole flow) :=
  match e with
  | .finish id nodes => inferInstanceAs (Decidable (id = flow →
      ∀ n ∈ nodes, n.flowInstanceId = flow → n.status = .finished))
  | .sendUsecase _ _ => .isTrue trivial
  | .operateTask _ => .isTrue trivial
  | .sendTask _ _ _ => .isTrue trivial
  | .nodeStatus _ => .isTrue trivial
  | .bill _ => .isTrue trivial

instance (w : World) (n : NodeInstance) : Decidable (NothingLeft w n) :=
  inferInstanceAs (Decidable (∀ m ∈ others w n.flowInstanceId n.id,
    m.status ≠ .standby ∧ (m.batchParentId ≠ none → m.status = .finished)))

instance (w : World) (n : NodeInstance) : Decidable (FreesOne w n) :=
  inferInstanceAs (Decidable (∃ m ∈ others w n.flowInstanceId n.id, m.status = .standby ∧
    ∀ f ∈ w.db.flows, f.id = n.flowInstanceId → DependsOnlyOn f.plan n.id m.id))

instance (w : World) (q : Request) : Decidable (CompletesWhole w q) :=
  match q with
  | .receive result => inferInstanceAs (Decidable (result.status = .success →
      ∀ n ∈ w.db.nodes, n.id = result.id →
        OthersSettled w n.flowInstanceId n.id → FreesOne w n ∨ NothingLeft w n))
  | .submit _ _ => .isTrue trivial
  | .start _ _ => .isTrue trivial
  | .pause _ _ => .isTrue trivial
  | .continue _ _ => .isTrue trivial
  | .terminate _ _ => .isTrue trivial

theorem finish_only_when_whole {ids : Nat → Uuid} (hids : Function.Injective ids) (files : Files)
    (qs : List Request) (h : Along (step env) CompletesWhole (World.start ids files) qs) :
    ∀ f ∈ (run (step env) (World.start ids files) qs).db.flows, Acyclic f.spec.edges →
      (∀ e ∈ (run (step env) (World.start ids files) qs).trace, e.FinishesWhole f.id) ∧
      (f.status = .finished →
        ∃ nodes, .finish f.id nodes ∈ (run (step env) (World.start ids files) qs).trace) := by
  obtain ⟨hcompleted, hannounced⟩ := run_completed hids files h
  generalize run (step env) (World.start ids files) qs = w at hcompleted hannounced
  intro f hf hacyclic
  have hplans : ∀ p ∈ w.db.plans, p.id = f.id → Acyclic p.edges := by
    intro p hp hid
    rw [hcompleted.sound.layout.plan_eq hp (Tables.mem_plans hf) hid]
    exact hacyclic
  refine ⟨fun e he => ?_, fun hfinished => ?_⟩
  · cases e with
    | finish id nodes =>
      rintro rfl n hn hflow
      exact hcompleted.finishes _ _ (notice_of_finish he) hplans n.cell (mem_cells hn) hflow
    | sendUsecase spec nodes => trivial
    | operateTask task => trivial
    | sendTask taskId command clusterId => trivial
    | nodeStatus result => trivial
    | bill nodeInstanceId => trivial
  · obtain ⟨cs, hcs⟩ := hannounced f hf hfinished
    obtain ⟨nodes, hnodes, -⟩ := event_of_finished hcs
    exact ⟨nodes, hnodes⟩

section Samples

def sampleEnv (drafts : List WorkflowDraft) : Env where
  fails _ := false
  draft _ id := drafts.find? (fun d => d.id == id)
  fileMeta _ _ := true
  rows _ := .asIs _
  idMap _ := .asIs _
  adjacency _ := .asIs _
  stamp _ time := time + 1
  clusters _ := [7]
  random _ := 0
  timestamp _ := 0
  blake3 text := text
  fileText _ _ := none
  parseTask _ _ := .ok ()

def sampleIds : Nat → Uuid := fun k => 100 + k

theorem sampleIds_injective : Function.Injective sampleIds := fun _ _ h => Nat.add_left_cancel h

def sampleFiles : Files := ⟨[(50, "#")], [], []⟩

def report (id : Uuid) (status : TaskResultStatus) : Request := .receive { id := id, status := status }

def sampleRequests (draft : WorkflowDraft) (qs : List Request) : List Request :=
  .submit (some 5) draft.id :: qs

def runSample (draft : WorkflowDraft) (qs : List Request) : World :=
  run (step (sampleEnv [draft])) (.start sampleIds sampleFiles) (sampleRequests draft qs)

def chain : WorkflowDraft := sampleDraft
  [sampleNode 1 (filledSlot "t") none "o", sampleNode 2 (emptySlot "s") none "o"]
  [⟨1, 2, [⟨"o", "s", .network⟩]⟩]

def join : WorkflowDraft := sampleDraft
  [sampleNode 1 (filledSlot "t") none "o", sampleNode 2 (filledSlot "t") none "o",
    { sampleNode 3 (emptySlot "s") none "o" with inputSlots := [emptySlot "s", emptySlot "r"] }]
  [⟨1, 3, [⟨"o", "s", .network⟩]⟩, ⟨2, 3, [⟨"o", "r", .network⟩]⟩]

theorem acyclic_of_increasing {E : List (Uuid × Uuid)} (h : ∀ e ∈ E, e.1 < e.2 ∧ e.2 < 200) :
    Acyclic E := by
  refine acyclic_of_rank (fun a => 200 - a) fun e he => ?_
  obtain ⟨hlt, hbound⟩ := h e he
  exact Nat.sub_lt_sub_left (hlt.trans hbound) hlt

def chainReports : List Request := [.start (some 5) 100, report 101 .success, report 103 .success]

theorem chain_finish_whole :
    ∃ f ∈ (runSample chain chainReports).db.flows, f.status = .finished ∧
      (∀ e ∈ (runSample chain chainReports).trace, e.FinishesWhole f.id) ∧
      ∃ nodes, .finish f.id nodes ∈ (runSample chain chainReports).trace := by
  have hguard : Along (step (sampleEnv [chain])) CompletesWhole (.start sampleIds sampleFiles)
      (sampleRequests chain chainReports) := by decide +kernel
  have hflows : ∃ f ∈ (runSample chain chainReports).db.flows,
      f.status = .finished ∧ ∀ e ∈ f.spec.edges, e.1 < e.2 ∧ e.2 < 200 := by decide +kernel
  unfold runSample at hflows ⊢
  obtain ⟨f, hf, hfinished, hedges⟩ := hflows
  obtain ⟨hwhole, hannounced⟩ :=
    finish_only_when_whole sampleIds_injective sampleFiles _ hguard f hf (acyclic_of_increasing hedges)
  exact ⟨f, hf, hfinished, hwhole, hannounced hfinished⟩

theorem join_finishes_early :
    ∃ f ∈ (runSample join chainReports).db.flows, f.status = .finished ∧ Acyclic f.spec.edges ∧
      ∃ e ∈ (runSample join chainReports).trace, ¬e.FinishesWhole f.id := by
  have hrun : ∃ f ∈ (runSample join chainReports).db.flows, f.status = .finished ∧
      (∀ e ∈ f.spec.edges, e.1 < e.2 ∧ e.2 < 200) ∧
      ∃ e ∈ (runSample join chainReports).trace, ¬e.FinishesWhole f.id := by decide +kernel
  obtain ⟨f, hf, hfinished, hedges, hearly⟩ := hrun
  exact ⟨f, hf, hfinished, acyclic_of_increasing hedges, hearly⟩

end Samples

end Kuintessence
