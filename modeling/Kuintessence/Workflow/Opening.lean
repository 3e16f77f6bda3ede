import Kuintessence.Workflow.Delivery

namespace Kuintessence

open EdgeList WorkflowService

variable {env : Env} {w w' : World} {p : Plan} {places : List Place} {ms : List NodeMark}
  {fs : List FlowMark} {news : List Cell → List Notice} {entries tasks used : List Uuid}
  {id x : Uuid} {ids : Nat → Uuid}

def WorkflowDraftSpec.edges (d : WorkflowDraftSpec) : List (Uuid × Uuid) :=
  d.nodeRelations.map NodeRelation.ends

def WorkflowDraftSpec.EndsNamed (d : WorkflowDraftSpec) : Prop :=
  ∀ r ∈ d.nodeRelations, (∃ n ∈ d.nodeDrafts, n.externalId = r.fromId) ∧
    ∃ n ∈ d.nodeDrafts, n.externalId = r.toId

theorem WorkflowDraftSpec.mem_of_getNode {d : WorkflowDraftSpec}
    (h : ∃ n, d.getNode id = some n) : ∃ n ∈ d.nodeDrafts, n.externalId = id := by
  obtain ⟨n, hn⟩ := h
  have hid := List.find?_some hn
  exact ⟨n, List.mem_of_find?_eq_some hn, beq_iff_eq.mp hid⟩

theorem Accepted.ends_named {d : WorkflowDraftSpec} (h : Accepted d) : d.EndsNamed :=
  fun r hr => ⟨WorkflowDraftSpec.mem_of_getNode (h.ends r hr).1,
    WorkflowDraftSpec.mem_of_getNode (h.ends r hr).2⟩

section Copied

variable {d : WorkflowDraftSpec} {f : WorkflowInstance} {ps : List (NodeDraft × NodeSpec)}
  {new : Uuid → Uuid}

theorem Renamed.edges_eq (h : Renamed d f.spec ps new) :
    f.plan.edges = d.edges.map (fun e => (new e.1, new e.2)) := by
  change f.spec.nodeRelations.map NodeRelation.ends = _
  rw [h.relations, WorkflowDraftSpec.edges, List.map_map, List.map_map]
  rfl

theorem Renamed.acyclic (h : Renamed d f.spec ps new) (hacyclic : Acyclic d.edges) :
    Acyclic f.plan.edges := by
  rw [h.edges_eq]
  apply acyclic_map hacyclic (V := {x | ∃ p, last ps x = some p})
  · intro e he
    obtain ⟨r, hr, rfl⟩ := List.mem_map.mp he
    exact h.ends r hr
  · rintro x ⟨p, hp⟩ y ⟨q, hq⟩ heq
    rw [h.new_eq x p hp, h.new_eq y q hq] at heq
    have hsame := h.eq_of_id_eq (mem_of_last hp) (mem_of_last hq) heq
    rw [← externalId_of_last hp, ← externalId_of_last hq, hsame]

theorem Submitted.ids_ne_nil {iter : Order (Uuid × Uuid)} (h : Submitted iter d used f ids)
    (hne : d.nodeDrafts ≠ []) : f.plan.ids ≠ [] := by
  intro hnil
  have hlen : d.nodeDrafts.length = f.spec.nodeSpecs.length := h.specs.length_eq
  rw [WorkflowInstance.plan_ids, List.map_eq_nil_iff] at hnil
  rw [hnil] at hlen
  exact hne (List.eq_nil_of_length_eq_zero hlen)

theorem Submitted.ends_fresh {iter : Order (Uuid × Uuid)} (h : Submitted iter d used f ids)
    (hused : ∀ n ∈ d.nodeDrafts, n.externalId ∈ used) :
    ∀ n ∈ d.nodeDrafts, n.externalId ∉ f.spec.nodeSpecs.map NodeSpec.id := by
  intro n hn hm
  obtain ⟨m, hmem, hid⟩ := List.mem_map.mp hm
  apply h.fresh m hmem
  rw [hid]
  exact List.mem_cons_of_mem _ (hused n hn)

theorem Entry.acyclic {rows : List NodeInstance} (h : Entry used d f rows ids)
    (hused : ∀ n ∈ d.nodeDrafts, n.externalId ∈ used) (hacyclic : Acyclic d.edges) :
    Acyclic f.plan.edges := by
  obtain ⟨order, iter, hsub⟩ := h.submitted
  exact (hsub.renamed (hsub.ends_fresh hused) h.accepted.ends).acyclic hacyclic

theorem Entry.ids_ne_nil {rows : List NodeInstance} (h : Entry used d f rows ids)
    (hne : d.nodeDrafts ≠ []) : f.plan.ids ≠ [] := by
  obtain ⟨order, iter, hsub⟩ := h.submitted
  exact hsub.ids_ne_nil hne

end Copied

def Event.finished : Event → Option Uuid
  | .finish id _ => some id
  | _ => none

def Notice.finishes : Notice → Option Uuid
  | .sent _ _ => none
  | .finished id _ => some id

def finishes (w : World) : List Uuid := w.trace.filterMap Event.finished

theorem finishes_eq (w : World) : finishes w = (notices w.trace).filterMap Notice.finishes :=
  filterMap_notices (fun e => by cases e <;> rfl) w.trace

theorem finishes_of_notices {ns : List Notice} (h : notices w'.trace = notices w.trace ++ ns)
    (hns : ns.filterMap Notice.finishes = []) : finishes w' = finishes w := by
  rw [finishes_eq, finishes_eq, h, List.filterMap_append, hns, List.append_nil]

theorem finishes_sentAll (cs : List Cell) (sent : List Uuid) :
    (sentAll cs sent).filterMap Notice.finishes = [] := by
  rw [List.filterMap_eq_nil_iff]
  intro notice hm
  obtain ⟨x, -, rfl⟩ := mem_sentAll.mp hm
  rfl

structure StaysOpen (id : Uuid) (w w' : World) : Prop where
  finishes : finishes w' = finishes w
  status : ∀ f ∈ w'.db.flows, f.id = id → f.status = .finished →
    ∃ g ∈ w.db.flows, g.id = id ∧ g.status = .finished

theorem Turn.stays_open (h : Turn ms fs news w w') (hfs : About id opening fs)
    (hnews : (news (cells w'.db.nodes)).filterMap Notice.finishes = []) : StaysOpen id w w' := by
  refine ⟨finishes_of_notices h.notices_eq hnews, fun f' hf' hid hfinished => ?_⟩
  obtain ⟨f, hf, hplan, hsame | hmark⟩ := h.commit.moves f' hf'
  · exact ⟨f, hf, (congrArg Plan.id hplan).symm.trans hid, hsame.symm.trans hfinished⟩
  · rw [hfinished] at hmark
    have hopening : WorkflowInstanceStatus.finished ∈ opening := (hfs _ hmark).2
    exact absurd hopening (by decide)

def Opens (id : Uuid) (w w' : World) : Prop :=
  ∃ x new, handOvers w' = handOvers w ++ x :: new ∧
    ∀ y ∈ x :: new, ∃ n ∈ w'.db.nodes, n.id = y ∧ n.flowInstanceId = id

theorem Tasks.mem_of_entry (h : Tasks places p entries tasks) (hx : x ∈ p.ids)
    (hentry : x ∈ entries) : x ∈ tasks := by
  obtain ⟨ls, hls, rfl⟩ := h.listed
  obtain ⟨node, hnode, rfl⟩ := List.mem_map.mp hx
  obtain ⟨l, hl, hlist⟩ := exists_of_forall₂ hls.flip hnode
  change TaskList places entries node l at hlist
  rw [TaskList, if_pos hentry] at hlist
  obtain ⟨subs, k, -, -, rfl⟩ := hlist
  exact List.mem_flatten.mpr ⟨_, hl, List.mem_cons_self⟩

structure Startable (id : Uuid) (p : Plan) (w : World) : Prop where
  plan_mem : p ∈ w.db.plans
  plan_id : p.id = id
  acyclic : Acyclic p.edges
  nodes : p.ids ≠ []

theorem Startable.plan_eq (h : Startable id p w) (hl : Layout w.db.plans w.db.places)
    {f : WorkflowInstance} {ls : List (List Uuid)} (he : Entering w.db id f entries ls) :
    f.plan = p := hl.plan_eq he.flow_plan h.plan_mem (he.flow_id.trans h.plan_id.symm)

theorem Startable.exists_entry (h : Startable id p w) (hl : Layout w.db.plans w.db.places)
    {f : WorkflowInstance} {ls : List (List Uuid)} (he : Entering w.db id f entries ls) :
    ∃ x ∈ p.ids, x ∈ entries := by
  obtain ⟨x, hx⟩ := exists_unfed hl h.plan_mem h.acyclic h.nodes
  have hunfed := he.unfed x
  rw [h.plan_eq hl he] at hunfed
  exact ⟨x, hx.1, hunfed.mpr hx⟩

theorem Startable.stays_open (h : Startable id p w) (hs : Sound w) (hstart : Started w id w') :
    StaysOpen id w w' := by
  cases hstart with
  | lost turn => exact turn.stays_open (.nil id _) rfl
  | reset rows fs hrows hfs turn => exact turn.stays_open hfs rfl
  | carried hcarried =>
    cases hcarried with
    | finished rows f ls fs hrows entering hfs turn =>
      obtain ⟨x, -, hx⟩ := h.exists_entry hs.layout entering
      exact absurd hx List.not_mem_nil
    | dispatched rows f entries ls tasks sent fs hrows entering entered htasks hsent hwhole hfs
        turn => exact turn.stays_open hfs (finishes_sentAll _ sent)

theorem Startable.opens (h : Startable id p w) (hs : Sound w) (hstart : Carried w id True w') :
    Opens id w w' := by
  cases hstart with
  | finished rows f ls fs hrows entering hfs turn =>
    obtain ⟨x, -, hx⟩ := h.exists_entry hs.layout entering
    exact absurd hx List.not_mem_nil
  | dispatched rows f entries ls tasks sent fs hrows entering entered htasks hsent hwhole hfs
      turn =>
    have heq : sent = tasks := (hwhole trivial).1
    subst heq
    obtain ⟨x, hx, hentry⟩ := h.exists_entry hs.layout entering
    have hplan : f.plan = p := h.plan_eq hs.layout entering
    have hmem : x ∈ sent := by
      rw [hplan] at htasks
      exact htasks.mem_of_entry hx hentry
    obtain ⟨y, new, hsplit⟩ := List.exists_cons_of_ne_nil (List.ne_nil_of_mem hmem)
    refine ⟨y, new, ?_, fun z hz => ?_⟩
    · rw [turn.handOvers_sent, hsplit]
    · rw [← hsplit] at hz
      obtain ⟨c, hc, rfl⟩ := htasks.seated z hz
      obtain ⟨hhome, -⟩ := htasks.home hs.layout entering.flow_plan hc hz
      have hflow := hs.layout.flow_of_home entering.flow_plan hc hhome
      rw [← turn.commit.places] at hc
      obtain ⟨n, hn, rfl⟩ := node_of_place hc
      exact ⟨n, hn, rfl, hflow.trans entering.flow_id⟩

theorem SubmittedAs.startable {draftId : Uuid} {draft : WorkflowDraft}
    (h : SubmittedAs env used draftId w id w') (hdraft : ∀ k, env.draft k draftId = some draft)
    (hused : ∀ n ∈ draft.spec.nodeDrafts, n.externalId ∈ used)
    (hacyclic : Acyclic draft.spec.edges) (hne : draft.spec.nodeDrafts ≠ []) :
    ∃ p, Startable id p w' := by
  obtain ⟨stored, k, f, rows, hstored, hentry, hinserted, hid⟩ := h
  rw [hdraft k] at hstored
  obtain rfl := Option.some.inj hstored
  refine ⟨f.plan, ?_, hid, hentry.acyclic hused hacyclic, hentry.ids_ne_nil hne⟩
  rw [hinserted.plans]
  exact List.mem_append_right _ (List.mem_singleton_self _)

theorem Startable.run (h : Startable id p w) (hs : Sound w) (qs : List Request) :
    Startable id p (run (step env) w qs) :=
  ⟨(run_stepped hs qs).1 p h.plan_mem, h.plan_id, h.acyclic, h.nodes⟩

theorem submitted_startable (hs : Sound w) {draft : WorkflowDraft} {draftId : Uuid}
    {user : Option Uuid} (hdraft : ∀ k, env.draft k draftId = some draft)
    (hfresh : ∀ n ∈ draft.spec.nodeDrafts, ∀ k, w.ids k ≠ n.externalId)
    (hsubmit : (submitWorkflow draftId env (w.open user)).1 = .ok id)
    (hacyclic : Acyclic draft.spec.edges) (hne : draft.spec.nodeDrafts ≠ []) :
    ∃ p, Startable id p (step env w (.submit user draftId)) := by
  have hsupply : Supply (draft.spec.nodeDrafts.map NodeDraft.externalId) w.ids := by
    refine ⟨hs.supply.injective, fun a ha k => ?_⟩
    obtain ⟨n, hn, rfl⟩ := List.mem_map.mp ha
    exact hfresh n hn k
  have hsub := step_submittedAs hsupply user hsubmit
  exact hsub.startable hdraft (fun n hn => List.mem_map_of_mem hn) hacyclic hne

theorem accepted_draft_starts {ids : Nat → Uuid} (hids : Function.Injective ids) (files : Files) :
    (∀ (spec : WorkflowDraftSpec) (fileExists : Uuid → Bool),
      spec.validateWorkflowDraft fileExists = .ok () → spec.EndsNamed) ∧
    ∀ (draft : WorkflowDraft) (draftId id : Uuid) (user starter : Option Uuid)
      (before after : List Request) (w w' : World),
      run (step env) (World.start ids files) before = w →
      (∀ k, env.draft k draftId = some draft) →
      (∀ n ∈ draft.spec.nodeDrafts, ∀ k, ids k ≠ n.externalId) →
      (submitWorkflow draftId env (w.open user)).1 = .ok id →
      Acyclic draft.spec.edges → draft.spec.nodeDrafts ≠ [] →
      run (step env) (step env w (.submit user draftId)) after = w' →
      StaysOpen id w' (step env w' (.start starter id)) ∧
        ((Request.handle env w' (.start starter id)).1 = .ok () →
          Opens id w' (step env w' (.start starter id))) := by
  have hstart : Sound (World.start ids files) := start_sound hids files
  refine ⟨fun spec fileExists h => Accepted.ends_named ⟨fileExists, h⟩, ?_⟩
  intro draft draftId id user starter before after w w' hw hdraft hfresh hsubmit hacyclic hne hw'
  have hs : Sound w := hw ▸ run_sound hstart before
  have htail : Tail ids w.ids := hw ▸ (run_stepped hstart before).2.2
  have hnext : Sound (step env w (.submit user draftId)) := step_sound hs _
  have hlater : Sound w' := hw' ▸ run_sound hnext after
  have hfresh' : ∀ n ∈ draft.spec.nodeDrafts, ∀ k, w.ids k ≠ n.externalId := by
    obtain ⟨k, hk⟩ := htail
    intro n hn j
    rw [hk]
    exact hfresh n hn (k + j)
  obtain ⟨p, hp⟩ := submitted_startable hs hdraft hfresh' hsubmit hacyclic hne
  have hready : Startable id p w' := hw' ▸ hp.run hnext after
  constructor
  · exact hready.stays_open hlater (step_start hlater.keyed starter id)
  · exact fun hok => hready.opens hlater (handle_start hlater.keyed starter id hok)

section Samples

def loop : WorkflowDraft := sampleDraft [sampleNode 1 (emptySlot "s") none "o"]
  [⟨1, 1, [⟨"o", "s", .network⟩]⟩]

def noNodes : WorkflowDraft := sampleDraft [] []

def lostTemplate : WorkflowDraft := sampleDraft
  [sampleNode 1 { filledSlot "t" with kind := .text (some (.single 51)) } (some sampleFiller) "o"] []

def newborn : World := .start sampleIds sampleFiles

def submittedChain : World := step (sampleEnv [chain]) newborn (.submit (some 5) 900)

theorem chain_starts :
    StaysOpen 100 submittedChain (step (sampleEnv [chain]) submittedChain (.start (some 5) 100)) ∧
      Opens 100 submittedChain (step (sampleEnv [chain]) submittedChain (.start (some 5) 100)) := by
  have hsmall : ∀ n ∈ chain.spec.nodeDrafts, n.externalId < 100 := by decide
  have hfresh : ∀ n ∈ chain.spec.nodeDrafts, ∀ k, sampleIds k ≠ n.externalId := by
    intro n hn k
    have hlt : n.externalId < 100 + k := Nat.lt_add_right k (hsmall n hn)
    exact (Nat.ne_of_lt hlt).symm
  have hsubmit : (submitWorkflow 900 (sampleEnv [chain]) (newborn.open (some 5))).1 = .ok 100 := by
    decide +kernel
  have hincreasing : ∀ e ∈ chain.spec.edges, e.1 < e.2 ∧ e.2 < 200 := by decide
  have hok : (Request.handle (sampleEnv [chain]) submittedChain (.start (some 5) 100)).1 = .ok () := by
    decide +kernel
  obtain ⟨hopen, hsends⟩ := (accepted_draft_starts sampleIds_injective sampleFiles).2 chain 900 100
    (some 5) (some 5) [] [] newborn submittedChain rfl (fun _ => rfl) hfresh hsubmit
    (acyclic_of_increasing hincreasing) (List.cons_ne_nil _ _) rfl
  exact ⟨hopen, hsends hok⟩

def sameSecond (draft : WorkflowDraft) : Env :=
  { sampleEnv [draft] with stamp := fun _ time => time }

def startSample (draft : WorkflowDraft) : World :=
  run (step (sameSecond draft)) newborn (sampleRequests draft started)

def FinishesUnrun (draft : WorkflowDraft) : Prop :=
  draft.spec.validateWorkflowDraft (fun _ => true) = .ok () ∧ handOvers (startSample draft) = [] ∧
    ∃ f ∈ (startSample draft).db.flows, f.id = 100 ∧ f.status = .finished

theorem accepted_drafts_stall :
    (FinishesUnrun loop ∧ loop.spec.nodeDrafts ≠ [] ∧ ¬Acyclic loop.spec.edges) ∧
      FinishesUnrun noNodes ∧
      (lostTemplate.spec.validateWorkflowDraft (fun _ => true) = .ok () ∧
        Acyclic lostTemplate.spec.edges ∧ handOvers (startSample lostTemplate) = []) := by
  have hloop : FinishesUnrun loop := by
    unfold FinishesUnrun
    decide +kernel
  have hnone : FinishesUnrun noNodes := by
    unfold FinishesUnrun
    decide +kernel
  have hlost : lostTemplate.spec.validateWorkflowDraft (fun _ => true) = .ok () ∧
      handOvers (startSample lostTemplate) = [] := by decide +kernel
  have hcycle : ¬Acyclic loop.spec.edges :=
    fun h => h 1 (.single (show (1, 1) ∈ loop.spec.edges by decide))
  have hacyclic : Acyclic lostTemplate.spec.edges :=
    acyclic_of_increasing fun _ he => absurd he List.not_mem_nil
  exact ⟨⟨hloop, List.cons_ne_nil _ _, hcycle⟩, hnone, hlost.1, hacyclic, hlost.2⟩

end Samples

end Kuintessence
