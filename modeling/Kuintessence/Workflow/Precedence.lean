import Kuintessence.Workflow.Readiness

namespace Kuintessence

variable {env : Env} {w w' : World} {p : Plan} {plans : List Plan} {cs : List Cell}
  {entries tasks sent : List Uuid} {reported x : Uuid}

def FinishedWhole (cs : List Cell) (id : Uuid) : Prop :=
  (∃ d ∈ cs, d.1.id = id ∧ d.2 = .finished) ∧ ∀ d ∈ cs, d.1.parent = some id → d.2 = .finished

def Preceded (plans : List Plan) (cs : List Cell) (x : Uuid) : Prop :=
  ∃ c ∈ cs, c.1.id = x ∧ ∃ p ∈ plans, c.1.flow = p.id ∧
    ∀ e ∈ p.edges, e.2 = c.1.home → FinishedWhole cs e.1

theorem Preceded.mono {plans' : List Plan} (h : Preceded plans cs x)
    (hplans : ∀ p ∈ plans, p ∈ plans') : Preceded plans' cs x := by
  obtain ⟨c, hc, hid, p, hp, hflow, hedges⟩ := h
  exact ⟨c, hc, hid, p, hplans p hp, hflow, hedges⟩

def ReportsWhole (w : World) : Request → Prop
  | .receive result => result.status = .success → ∀ m ∈ w.db.nodes,
      m.batchParentId = some result.id → m.status = .finished
  | _ => True

theorem Turn.exists_cell {ms : List NodeMark} {fs : List FlowMark}
    {news : List Cell → List Notice} (h : Turn ms fs news w w') {c : Place}
    (hc : c ∈ w.db.places) : ∃ d ∈ cells w'.db.nodes, d.1 = c := by
  rw [← h.commit.places] at hc
  exact cell_of_place hc

theorem mem_sentAll {notice : Notice} :
    notice ∈ sentAll cs sent ↔ ∃ x ∈ sent, notice = .sent x cs := by
  rw [sentAll, List.mem_map]
  exact exists_congr fun x => and_congr_right fun _ => eq_comm

theorem overwrite_running_of_notMem {id : Uuid} (h : id ∉ tasks) (s : NodeInstanceStatus) :
    overwrite (running tasks) id s = s := by
  rw [running, overwrite_same, if_neg h]

theorem Chosen.notMem_tasks (h : Chosen w reported p entries) (hs : Sound w)
    (ht : Tasks w.db.places p entries tasks) {c : Place} (hc : c ∈ w.db.places)
    (hhome : c.home = reported) : c.id ∉ tasks := by
  intro hid
  obtain ⟨-, hentry, -⟩ := ht.home hs.layout h.plan_mem hc hid
  rw [hhome] at hentry
  obtain ⟨⟨n, hn, hnid, -⟩, -⟩ := h.mem_entries_iff.mp hentry
  exact (mem_others_iff.mp hn).2.2 hnid

theorem Chosen.finishedWhole (h : Chosen w reported p entries) (hs : Sound w)
    (ht : Tasks w.db.places p entries tasks) (hroot : reported ∈ p.ids)
    (hsubs : ∀ m ∈ w.db.nodes, m.batchParentId = some reported → m.status = .finished)
    {fs : List FlowMark} {news : List Cell → List Notice}
    (turn : Turn ((reported, .finished) :: running tasks) fs news w w') :
    FinishedWhole (cells w'.db.nodes) reported := by
  have hsettle : ∀ d : Cell, settle ((reported, .finished) :: running tasks) d =
      settle (running tasks) (settle [(reported, .finished)] d) :=
    fun d => settle_append [(reported, .finished)] (running tasks) d
  constructor
  · obtain ⟨n, hn, hid, -⟩ := h.node
    have hplace := Tables.mem_places hn
    have hnid : n.place.id = reported := hid
    have hmem : n.place.id ∈ p.ids := by
      rw [hnid]
      exact hroot
    have hhome : n.place.home = reported :=
      (Layout.home_of_root (hs.layout.root_of_id h.plan_mem hplace hmem).1).trans hnid
    refine ⟨_, turn.mem_cells.mpr ⟨n.cell, mem_cells hn, rfl⟩, hid, ?_⟩
    rw [hsettle, settle_singleton, if_pos (show reported = n.cell.1.id from hid.symm)]
    exact overwrite_running_of_notMem (h.notMem_tasks hs ht hplace hhome) _
  · intro d hd hparent
    obtain ⟨c, hc, rfl⟩ := turn.mem_cells.mp hd
    obtain ⟨m, hm, rfl⟩ := List.mem_map.mp hc
    have hhome : m.place.home = reported := by
      have hmparent : m.place.parent = some reported := hparent
      rw [Place.home, hmparent]
      rfl
    have hfinished : (settle [(reported, .finished)] m.cell).2 = .finished := by
      rw [settle_singleton]
      split
      · rfl
      · exact hsubs m hm hparent
    rw [hsettle]
    refine (overwrite_running_of_notMem ?_ _).trans hfinished
    exact h.notMem_tasks hs ht (Tables.mem_places hm) hhome

theorem Tasks.preceded {ms : List NodeMark} {fs : List FlowMark} {news : List Cell → List Notice}
    (ht : Tasks w.db.places p entries tasks) (hs : Sound w) (hp : p ∈ w.db.plans)
    (hx : x ∈ tasks) (turn : Turn ms fs news w w')
    (hentry : ∀ y ∈ entries, ∀ e ∈ p.edges, e.2 = y → FinishedWhole (cells w'.db.nodes) e.1) :
    Preceded w'.db.plans (cells w'.db.nodes) x := by
  obtain ⟨c, hc, rfl⟩ := ht.seated x hx
  obtain ⟨hhome, hmem, -⟩ := ht.home hs.layout hp hc hx
  obtain ⟨d, hd, rfl⟩ := turn.exists_cell hc
  refine ⟨d, hd, rfl, p, ?_, hs.layout.flow_of_home hp hc hhome, hentry _ hmem⟩
  rw [turn.commit.plans_eq]
  exact hp

structure Ordered (w : World) : Prop where
  sound : Sound w
  sends : ∀ x cs, .sent x cs ∈ notices w.trace → Preceded w.db.plans cs x

theorem Ordered.told {q : Request} (h : Ordered w) (hok : ReportsWhole w q) (htold : Told w q w') :
    ∀ x cs, .sent x cs ∈ notices w'.trace →
      .sent x cs ∈ notices w.trace ∨ Preceded w'.db.plans cs x := by
  intro x cs hm
  have hs := h.sound
  cases htold with
  | silent hsame =>
    rw [hsame] at hm
    exact .inl hm
  | reportFinished p success chosen turn =>
    rw [turn.notices_eq] at hm
    rcases List.mem_append.mp hm with hm | hm
    · exact .inl hm
    · cases List.mem_singleton.mp hm
  | reportSent p entries tasks sent fs success chosen htasks hsent turn =>
    rw [turn.notices_eq] at hm
    rcases List.mem_append.mp hm with hm | hm
    · exact .inl hm
    · obtain ⟨y, hy, heq⟩ := mem_sentAll.mp hm
      cases heq
      refine .inr (htasks.preceded hs chosen.plan_mem (hsent.mem hy) turn fun z hz e he heq => ?_)
      obtain ⟨-, honly⟩ := chosen.mem_entries_iff.mp hz
      have hfrom := (hs.layout.ends p chosen.plan_mem e he).1
      rw [honly e he heq] at hfrom ⊢
      exact chosen.finishedWhole hs htasks hfrom (hok success) turn
  | startFinished rows f ls fs entering turn =>
    rw [turn.notices_eq] at hm
    rcases List.mem_append.mp hm with hm | hm
    · exact .inl hm
    · cases List.mem_singleton.mp hm
  | startSent rows f entries ls tasks sent fs entering htasks hsent turn =>
    rw [turn.notices_eq] at hm
    rcases List.mem_append.mp hm with hm | hm
    · exact .inl hm
    · obtain ⟨y, hy, heq⟩ := mem_sentAll.mp hm
      cases heq
      refine .inr (htasks.preceded hs entering.flow_plan (hsent.mem hy) turn fun z hz e he heq => ?_)
      exact absurd heq (((entering.unfed z).mp hz).2 e he)

theorem step_ordered {q : Request} (h : Ordered w) (hok : ReportsWhole w q) :
    Ordered (step env w q) := by
  refine ⟨step_sound h.sound q, fun x cs hm => ?_⟩
  rcases h.told hok (step_told h.sound q) x cs hm with hm | hnew
  · exact (h.sends x cs hm).mono (step_stepped h.sound q).plan_mem
  · exact hnew

theorem run_ordered {ids : Nat → Uuid} (hids : Function.Injective ids) (files : Files)
    {qs : List Request} (h : Along (step env) ReportsWhole (World.start ids files) qs) :
    Ordered (run (step env) (World.start ids files) qs) :=
  run_invariant (I := Ordered) (fun _ _ ho hok => step_ordered ho hok)
    ⟨start_sound hids files, fun _ _ hm => absurd hm List.not_mem_nil⟩ h

def NodeFinished (nodes : List NodeInstance) (id : Uuid) : Prop :=
  (∃ m ∈ nodes, m.id = id ∧ m.status = .finished) ∧
    ∀ m ∈ nodes, m.batchParentId = some id → m.status = .finished

def SentInOrder (flows : List WorkflowInstance) (id : Uuid) (nodes : List NodeInstance) : Prop :=
  ∃ n ∈ nodes, n.id = id ∧ ∃ f ∈ flows, f.id = n.flowInstanceId ∧
    ∀ r ∈ f.spec.nodeDependencyRelations (n.batchParentId.getD n.id), NodeFinished nodes r.fromId

theorem nodeFinished_of_whole {nodes : List NodeInstance} {id : Uuid}
    (h : FinishedWhole (cells nodes) id) : NodeFinished nodes id := by
  obtain ⟨⟨d, hd, hid, hfinished⟩, hsubs⟩ := h
  obtain ⟨m, hm, rfl⟩ := List.mem_map.mp hd
  exact ⟨⟨m, hm, hid, hfinished⟩, fun k hk hparent => hsubs k.cell (mem_cells hk) hparent⟩

def Event.SendsInOrder (flows : List WorkflowInstance) : Event → Prop
  | .sendUsecase spec nodes => SentInOrder flows spec.id nodes
  | _ => True

theorem sends_in_order {ids : Nat → Uuid} (hids : Function.Injective ids) (files : Files)
    (qs : List Request) (h : Along (step env) ReportsWhole (World.start ids files) qs) :
    ∀ e ∈ (run (step env) (World.start ids files) qs).trace,
      e.SendsInOrder (run (step env) (World.start ids files) qs).db.flows := by
  have hordered := run_ordered hids files h
  generalize run (step env) (World.start ids files) qs = w at hordered
  intro e he
  cases e with
  | sendUsecase spec nodes =>
    have hnotice : .sent spec.id (cells nodes) ∈ notices w.trace :=
      List.mem_filterMap.mpr ⟨_, he, rfl⟩
    obtain ⟨c, hc, hid, p, hp, hflow, hedges⟩ := hordered.sends _ _ hnotice
    obtain ⟨n, hn, rfl⟩ := List.mem_map.mp hc
    obtain ⟨f, hf, rfl⟩ := flow_of_plan hp
    refine ⟨n, hn, hid, f, hf, hflow.symm, ?_⟩
    rw [forall_dependencies (P := NodeFinished nodes)]
    exact fun e he heq => nodeFinished_of_whole (hedges e he heq)
  | finish id nodes => trivial
  | operateTask task => trivial
  | sendTask taskId command clusterId => trivial
  | nodeStatus result => trivial
  | bill nodeInstanceId => trivial

section Samples

instance (w : World) (q : Request) : Decidable (ReportsWhole w q) :=
  match q with
  | .receive result => inferInstanceAs (Decidable (result.status = .success →
      ∀ m ∈ w.db.nodes, m.batchParentId = some result.id → m.status = .finished))
  | .submit _ _ => .isTrue trivial
  | .start _ _ => .isTrue trivial
  | .pause _ _ => .isTrue trivial
  | .continue _ _ => .isTrue trivial
  | .terminate _ _ => .isTrue trivial

instance (nodes : List NodeInstance) (id : Uuid) : Decidable (NodeFinished nodes id) :=
  inferInstanceAs (Decidable ((∃ m ∈ nodes, m.id = id ∧ m.status = .finished) ∧
    ∀ m ∈ nodes, m.batchParentId = some id → m.status = .finished))

instance (flows : List WorkflowInstance) (id : Uuid) (nodes : List NodeInstance) :
    Decidable (SentInOrder flows id nodes) :=
  inferInstanceAs (Decidable (∃ n ∈ nodes, n.id = id ∧ ∃ f ∈ flows, f.id = n.flowInstanceId ∧
    ∀ r ∈ f.spec.nodeDependencyRelations (n.batchParentId.getD n.id), NodeFinished nodes r.fromId))

instance (flows : List WorkflowInstance) (e : Event) : Decidable (e.SendsInOrder flows) :=
  match e with
  | .sendUsecase spec nodes => inferInstanceAs (Decidable (SentInOrder flows spec.id nodes))
  | .operateTask _ => .isTrue trivial
  | .sendTask _ _ _ => .isTrue trivial
  | .nodeStatus _ => .isTrue trivial
  | .finish _ _ => .isTrue trivial
  | .bill _ => .isTrue trivial

def Event.handedOver : Event → Option Uuid
  | .sendUsecase spec _ => some spec.id
  | _ => none

def batched : WorkflowDraft := sampleDraft
  [sampleNode 1 (filledSlot "t") (some sampleFiller) "o", sampleNode 2 (emptySlot "s") none "o"]
  [⟨1, 2, [⟨"o", "s", .network⟩]⟩]

def subNodesFirst : List Request :=
  started ++ [105, 106, 107, 101].map (fun id => report id .success)

theorem batched_sends_in_order :
    (runSample batched subNodesFirst).trace.filterMap Event.handedOver =
      [101, 105, 106, 107, 103] ∧
    ∀ e ∈ (runSample batched subNodesFirst).trace,
      e.SendsInOrder (runSample batched subNodesFirst).db.flows := by
  have hguard : Along (step (sampleEnv [batched])) ReportsWhole (.start sampleIds sampleFiles)
      (sampleRequests batched subNodesFirst) := by decide +kernel
  refine ⟨by decide +kernel, ?_⟩
  unfold runSample
  exact sends_in_order sampleIds_injective sampleFiles _ hguard

theorem batched_sends_early :
    ∃ e ∈ (runSample batched (started ++ [report 101 .success])).trace,
      ¬e.SendsInOrder (runSample batched (started ++ [report 101 .success])).db.flows := by
  decide +kernel

end Samples

end Kuintessence
