import Kuintessence.Engine.Invariant
import Kuintessence.Lib.EdgeList

namespace Kuintessence

open EdgeList

variable {w w' : World} {p : Plan} {n m : NodeInstance} {id x reported : Uuid}
  {entries : List Uuid}

def others (w : World) (flow reported : Uuid) : List NodeInstance :=
  w.db.nodes.filter (fun n => n.flowInstanceId == flow && n.id != reported)

theorem mem_others_iff {flow : Uuid} :
    n ∈ others w flow reported ↔ n ∈ w.db.nodes ∧ n.flowInstanceId = flow ∧ n.id ≠ reported := by
  rw [others, List.mem_filter, Bool.and_eq_true, beq_iff_eq, bne_iff_ne]

def OthersSettled (w : World) (flow reported : Uuid) : Prop :=
  ∀ n ∈ others w flow reported, n.batchParentId = none →
    n.status = .finished ∨ n.status = .standby

instance (w : World) (flow reported : Uuid) : Decidable (OthersSettled w flow reported) :=
  inferInstanceAs (Decidable (∀ n ∈ others w flow reported, n.batchParentId = none →
    n.status = .finished ∨ n.status = .standby))

def DependsOnlyOn (p : Plan) (reported x : Uuid) : Prop := ∀ e ∈ p.edges, e.2 = x → e.1 = reported

instance (p : Plan) (reported x : Uuid) : Decidable (DependsOnlyOn p reported x) :=
  inferInstanceAs (Decidable (∀ e ∈ p.edges, e.2 = x → e.1 = reported))

theorem marked_other (hn : n ∈ w.db.nodes) (hid : n.id ≠ reported) :
    n.cell ∈ marked w reported := by
  refine List.mem_map.mpr ⟨n.cell, mem_cells hn, ?_⟩
  rw [settle_singleton]
  exact if_neg (Ne.symm hid)

theorem of_mem_marked {c : Cell} (hc : c ∈ marked w reported) :
    ∃ n ∈ w.db.nodes, n.place = c.1 ∧
      (n.id = reported ∧ c.2 = .finished ∨ n.id ≠ reported ∧ c.2 = n.status) := by
  obtain ⟨d, hd, rfl⟩ := List.mem_map.mp hc
  obtain ⟨n, hn, rfl⟩ := List.mem_map.mp hd
  refine ⟨n, hn, rfl, ?_⟩
  rw [settle_singleton]
  by_cases hid : n.id = reported
  · rw [if_pos (show reported = n.cell.1.id from hid.symm)]
    exact .inl ⟨hid, rfl⟩
  · rw [if_neg (show ¬reported = n.cell.1.id from fun h => hid h.symm)]
    exact .inr ⟨hid, rfl⟩

theorem gateOpen_marked_iff {flow : Uuid} :
    GateOpen (marked w reported) flow ↔ OthersSettled w flow reported := by
  constructor
  · intro h n hn hroot
    obtain ⟨hn, hflow, hid⟩ := mem_others_iff.mp hn
    exact h n.cell (marked_other hn hid) hflow hroot
  · intro h c hc hflow hroot
    obtain ⟨n, hn, hplace, ⟨-, hfin⟩ | ⟨hid, hstatus⟩⟩ := of_mem_marked hc
    · exact .inl hfin
    · rw [← hplace] at hflow hroot
      rw [hstatus]
      exact h n (mem_others_iff.mpr ⟨hn, hflow, hid⟩) hroot

theorem freed_marked_iff :
    Freed (marked w reported) p reported x ↔
      (∃ n ∈ others w p.id reported, n.id = x ∧ n.status = .standby) ∧
        DependsOnlyOn p reported x := by
  constructor
  · rintro ⟨⟨c, hc, hid, hflow, hstandby⟩, hedges⟩
    obtain ⟨n, hn, hplace, ⟨-, hfin⟩ | ⟨hne, hstatus⟩⟩ := of_mem_marked hc
    · rw [hfin] at hstandby
      exact NodeInstanceStatus.noConfusion hstandby
    · rw [← hplace] at hid hflow
      have hnid : n.id = x := hid
      have hother := mem_others_iff.mpr ⟨hn, hflow, hne⟩
      refine ⟨⟨n, hother, hnid, hstatus.symm.trans hstandby⟩, fun e he heq => ?_⟩
      by_contra hfrom
      exact hedges e he hfrom (fun hto => hne (hnid.trans (heq.symm.trans hto))) heq
  · rintro ⟨⟨n, hother, hid, hstandby⟩, honly⟩
    obtain ⟨hn, hflow, hne⟩ := mem_others_iff.mp hother
    refine ⟨⟨n.cell, marked_other hn hne, hid, hflow, hstandby⟩, fun e he hfrom _ heq => ?_⟩
    exact hfrom (honly e he heq)

theorem Chosen.mem_entries_iff (h : Chosen w reported p entries) :
    x ∈ entries ↔ (∃ n ∈ others w p.id reported, n.id = x ∧ n.status = .standby) ∧
      DependsOnlyOn p reported x := (h.freed x).trans freed_marked_iff

theorem Chosen.settled (h : Chosen w reported p entries) : OthersSettled w p.id reported :=
  gateOpen_marked_iff.mp h.gate

theorem node_of_place {t : Tables} {c : Place} (hc : c ∈ t.places) :
    ∃ n ∈ t.nodes, n.place = c := List.mem_map.mp hc

theorem Chosen.node (h : Chosen w reported p entries) :
    ∃ n ∈ w.db.nodes, n.id = reported ∧ n.flowInstanceId = p.id := by
  obtain ⟨c, hc, hid, hflow⟩ := h.reporter
  obtain ⟨n, hn, rfl⟩ := node_of_place hc
  exact ⟨n, hn, hid, hflow⟩

theorem flow_of_plan {t : Tables} (hp : p ∈ t.plans) : ∃ f ∈ t.flows, f.plan = p :=
  List.mem_map.mp hp

theorem exists_unfed {db : Tables} (hl : Layout db.plans db.places) (hp : p ∈ db.plans)
    (hacyclic : Acyclic p.edges) (hne : p.ids ≠ []) : ∃ x, Unfed p x := by
  obtain ⟨y, hy⟩ := List.exists_mem_of_ne_nil _ hne
  obtain ⟨x, hx, hsource⟩ := exists_source hacyclic ⟨y, hy⟩
  exact ⟨x, hx, fun e he heq => hsource e he heq (hl.ends p hp e he).1⟩

theorem Layout.no_rows {plans : List Plan} {places : List Place} (h : Layout plans places)
    (hp : p ∈ plans) (hnil : p.ids = []) {c : Place} (hc : c ∈ places) : c.flow ≠ p.id := by
  intro hflow
  have hhome := h.home_mem hp hc hflow
  rw [hnil] at hhome
  exact List.not_mem_nil hhome

inductive Told (w : World) : Request → World → Prop where
  | silent {q : Request} {w' : World} (h : notices w'.trace = notices w.trace) : Told w q w'
  | reportFinished {result : TaskResult} {w' : World} (p : Plan)
      (success : result.status = .success) (chosen : Chosen w result.id p [])
      (turn : Turn [(result.id, .finished)] [(p.id, .finished)]
        (fun cs => [.finished p.id cs]) w w') : Told w (.receive result) w'
  | reportSent {result : TaskResult} {w' : World} (p : Plan) (entries tasks sent : List Uuid)
      (fs : List FlowMark) (success : result.status = .success)
      (chosen : Chosen w result.id p entries) (htasks : Tasks w.db.places p entries tasks)
      (hsent : sent <+: tasks) (turn : Turn ((result.id, .finished) :: running tasks) fs
        (fun cs => sentAll cs sent) w w') : Told w (.receive result) w'
  | startFinished {user : Option Uuid} {id : Uuid} {w' : World} (rows : List Place)
      (flow : WorkflowInstance) (ls : List (List Uuid)) (fs : List FlowMark)
      (entering : Entering w.db id flow [] ls)
      (turn : Turn (pending rows ++ standing ls) fs (fun cs => [.finished id cs]) w w') :
      Told w (.start user id) w'
  | startSent {user : Option Uuid} {id : Uuid} {w' : World} (rows : List Place)
      (flow : WorkflowInstance) (entries : List Uuid) (ls : List (List Uuid))
      (tasks sent : List Uuid) (fs : List FlowMark) (entering : Entering w.db id flow entries ls)
      (htasks : Tasks w.db.places flow.plan entries tasks) (hsent : sent <+: tasks)
      (turn : Turn (pending rows ++ (standing ls ++ running tasks)) fs
        (fun cs => sentAll cs sent) w w') : Told w (.start user id) w'

theorem Turn.told {ms : List NodeMark} {fs : List FlowMark} (h : Turn ms fs silent w w')
    (q : Request) : Told w q w' := by
  have hnotices := h.notices_eq
  rw [silent, List.append_nil] at hnotices
  exact .silent hnotices

theorem Operated.told {flowStatus : WorkflowInstanceStatus} {status : NodeInstanceStatus}
    {affected : NodeInstanceStatus → Bool} (h : Operated w flowStatus status affected id w')
    (q : Request) : Told w q w' := by
  cases h with
  | lost turn => exact turn.told q
  | operated rows hrows turn => exact turn.told q

theorem step_told {env : Env} (hs : Sound w) (q : Request) : Told w q (step env w q) := by
  have hk := hs.keyed
  cases q with
  | submit user draftId =>
    cases (step_submit hs.supply user draftId : Submission env _ _ w _) with
    | lost turn => exact turn.told _
    | inserted draft k flow rows kept hdraft entry hkept inserted =>
      exact .silent inserted.notices_eq
  | start user id =>
    cases (step_start hk user id : Started w id (step env w _)) with
    | lost turn => exact turn.told _
    | reset rows fs hrows hfs turn => exact turn.told _
    | carried h =>
      cases h with
      | finished rows flow ls fs hrows entering hfs turn =>
        exact .startFinished rows flow ls fs entering turn
      | dispatched rows flow entries ls tasks sent fs hrows entering entered htasks hsent hwhole hfs
          turn =>
        exact .startSent rows flow entries ls tasks sent fs entering htasks hsent turn
  | pause user id => exact (step_pause hk user id).told _
  | «continue» user id => exact (step_continue hk user id).told _
  | terminate user id => exact (step_terminate hk user id).told _
  | receive result =>
    cases (step_receive hk result : Received w result (step env w _)) with
    | lost turn => exact turn.told _
    | taken h =>
      cases h with
      | kept c hc hid fs hfs turn => exact turn.told _
      | finished p success chosen turn => exact .reportFinished p success chosen turn
      | dispatched flow entries tasks sent success hflow chosen entered htasks hsent turn =>
        exact .reportSent flow.plan entries tasks sent _ success chosen htasks hsent turn

end Kuintessence
