import Kuintessence.Workflow.Precedence

namespace Kuintessence

open Effect StatusReceiver

section Up

variable {env : Env} {s : World} {E : World → Prop} (hup : ∀ k, env.fails k = false)

include hup

theorem wp_attempt_up : wp attempt env (fun up t => up = true ∧ Calm s t) E s := by
  unfold attempt
  rw [wp_bind, wp_read, wp_bind, wp_get, wp_bind, wp_modify, wp_pure, hup]
  exact ⟨rfl, calm_count s⟩

theorem wp_call_up : wp call env (fun _ t => Calm s t) E s := by
  unfold call
  rw [wp_bind, wp_get, wp_bind]
  refine wp_mono (wp_attempt_up hup) (fun up t ⟨htrue, ht⟩ => ?_) (fun _ he => he)
  rw [if_pos htrue]
  exact ht

theorem wp_getNodeById_up {n : NodeInstance} (hn : n ∈ s.db.nodes) :
    wp (getNodeById n.id) env (fun _ t => Calm s t) E s := by
  unfold getNodeById
  rw [wp_bind]
  refine wp_mono (wp_call_up hup) (fun _ t ht => ?_) (fun _ he => he)
  rw [wp_bind, wp_get, ht.db]
  split
  · exact ht
  · next hnone =>
    rw [List.find?_eq_none] at hnone
    exact absurd (beq_self_eq_true n.id) (hnone n hn)

theorem wp_save_up {node : NodeInstance} (hs : s.statements = [.updateNode node]) :
    wp saveChanged env (fun _ _ => True) E s := by
  unfold saveChanged
  rw [wp_bind, wp_get]
  split
  · trivial
  · rw [wp_bind]
    refine wp_mono (wp_call_up hup) (fun _ t _ => ?_) (fun _ he => he)
    rw [hs]
    unfold executeAll
    rw [wp_bind, wp_bind, wp_read, wp_bind, wp_get, wp_bind]
    refine wp_mono (wp_attempt_up hup) (fun up u hup' => ?_) (fun _ he => he)
    rw [if_pos hup'.1]
    change wp (call >>= _) env _ E u
    rw [wp_bind]
    exact wp_mono (wp_call_up hup) (fun _ _ _ => trivial) (fun _ he => he)

theorem saveReport_returns {n : NodeInstance} {w : World} (hn : n ∈ w.db.nodes)
    {result : TaskResult} (hid : n.id = result.id) :
    ∃ node t, saveReport result env (w.open none) = (.ok node, t) := by
  have hwp : wp (saveReport result) env (fun _ _ => True) (fun _ => False) (w.open none) := by
    unfold saveReport
    rw [wp_bind, ← hid]
    refine wp_mono (wp_getNodeById_up hup hn) (fun node t ht => ?_) (fun _ he => he)
    rw [wp_bind]
    unfold updateNode
    rw [wp_bind]
    refine wp_mono (wp_call_up hup) (fun _ u hu => ?_) (fun _ he => he)
    have hcalm : Calm (w.open none) u := ht.trans hu
    unfold push
    have hnil : u.statements = [] := hcalm.statements
    rw [wp_modify, wp_bind, hnil]
    exact wp_mono (wp_save_up hup rfl) (fun _ _ _ => trivial) (fun _ he => he)
  obtain ⟨node, t, heq, -⟩ := exists_of_wp hwp
  exact ⟨node, t, heq⟩

end Up

variable {env : Env} {w w' : World} {n m : NodeInstance}

def HomeRests (w : World) (c : Cell) : Prop :=
  ∀ d ∈ cells w.db.nodes, d.1.id = c.1.home → d.2 ≠ .standby

theorem Turn.standby_mem {ms : List NodeMark} {fs : List FlowMark}
    {news : List Cell → List Notice} (h : Turn ms fs news w w') (hms : ∀ m ∈ ms, m.2 ≠ .standby)
    {d : Cell} (hd : d ∈ cells w'.db.nodes) (hstandby : d.2 = .standby) :
    d ∈ cells w.db.nodes := by
  obtain ⟨c, hc, rfl⟩ := h.mem_cells.mp hd
  rcases @overwrite_mem ms c.1.id c.2 with hsame | hmark
  · have hself : settle ms c = c := Prod.ext rfl hsame
    rw [hself]
    exact hc
  · exact absurd hstandby (hms _ hmark)

theorem Received.homeRests {result : TaskResult} (h : Received w result w') {c : Cell}
    (hc : HomeRests w c) (status : NodeInstanceStatus) : HomeRests w' (c.1, status) := by
  obtain ⟨ms, fs, news, turn, hms⟩ := h.turned
  intro d hd hid hstandby
  exact hc d (turn.standby_mem hms hd hstandby) hid hstandby

theorem HomeRests.notMem_tasks {reported : Uuid} {p : Plan} {entries tasks : List Uuid}
    {c : Cell} (h : HomeRests w c) (hs : Sound w) (hc : c ∈ cells w.db.nodes)
    (hchosen : Chosen w reported p entries) (ht : Tasks w.db.places p entries tasks) :
    c.1.id ∉ tasks := by
  intro hid
  obtain ⟨-, hentry, -⟩ := ht.home hs.layout hchosen.plan_mem (mem_places_of_cells hc) hid
  obtain ⟨⟨k, hk, hkid, hstandby⟩, -⟩ := hchosen.mem_entries_iff.mp hentry
  exact h k.cell (mem_cells (mem_others_iff.mp hk).1) hkid hstandby

def verdict (result : TaskResult) : NodeMark := (result.id, nodeStatus result.status)

theorem Taken.cell {result : TaskResult} (h : Taken w result w') (hs : Sound w) {c : Cell}
    (hc : c ∈ cells w.db.nodes) (hrests : HomeRests w c) :
    settle [verdict result] c ∈ cells w'.db.nodes := by
  cases h with
  | kept p hp hid fs hfs turn => exact turn.mem_cells.mpr ⟨c, hc, rfl⟩
  | finished p success chosen turn =>
    refine turn.mem_cells.mpr ⟨c, hc, ?_⟩
    rw [verdict, success]
    rfl
  | dispatched flow entries tasks sent success hflow chosen entered htasks hsent turn =>
    refine turn.mem_cells.mpr ⟨c, hc, ?_⟩
    have happ := settle_append [(result.id, .finished)] (running tasks) c
    rw [List.singleton_append] at happ
    rw [happ, verdict, success]
    exact Prod.ext rfl
      (overwrite_running_of_notMem (hrests.notMem_tasks hs hc chosen htasks) _)

def Handled (env : Env) (rs kept : List TaskResult) : Prop :=
  kept.Sublist rs ∧ ((∀ k, env.fails k = false) → kept = rs)

theorem Handled.append {rs rs' kept kept' : List TaskResult} (h : Handled env rs kept)
    (h' : Handled env rs' kept') : Handled env (rs ++ rs') (kept ++ kept') :=
  ⟨h.1.append h'.1, fun hup => by rw [h.2 hup, h'.2 hup]⟩

theorem settle_verdict_of_ne {result : TaskResult} {c : Cell} (h : c.1.id ≠ result.id) :
    settle [verdict result] c = c := by
  rw [settle_singleton]
  exact if_neg (Ne.symm h)

theorem step_verdict_up (hup : ∀ k, env.fails k = false) (hs : Sound w) {result : TaskResult}
    {c : Cell} (hc : c ∈ cells w.db.nodes) (hrests : HomeRests w c) (hid : c.1.id = result.id) :
    settle [verdict result] c ∈ cells (step env w (.receive result)).db.nodes := by
  obtain ⟨n, hn, rfl⟩ := List.mem_map.mp hc
  obtain ⟨node, t, hsave⟩ := saveReport_returns hup hn hid
  exact (step_taken hs.keyed hsave).cell hs hc hrests

theorem step_verdict (hs : Sound w) (result : TaskResult) {c : Cell} (hc : c ∈ cells w.db.nodes)
    (hrests : HomeRests w c) : ∃ kept, Handled env [result] kept ∧
      settle (kept.map verdict) c ∈ cells (step env w (.receive result)).db.nodes := by
  have hwhole : Handled env [result] [result] := ⟨.refl _, fun _ => rfl⟩
  by_cases hup : (∀ k, env.fails k = false) ∧ c.1.id = result.id
  · exact ⟨[result], hwhole, step_verdict_up hup.1 hs hc hrests hup.2⟩
  · cases (step_receive hs.keyed result : Received w result (step env w _)) with
    | taken h => exact ⟨[result], hwhole, h.cell hs hc hrests⟩
    | lost turn =>
      have hsame : c ∈ cells (step env w (.receive result)).db.nodes :=
        turn.mem_cells.mpr ⟨c, hc, settle_nil c⟩
      by_cases hid : c.1.id = result.id
      · exact ⟨[], ⟨List.nil_sublist _, fun h => absurd ⟨h, hid⟩ hup⟩, hsame⟩
      · refine ⟨[result], hwhole, ?_⟩
        rw [List.map_singleton, settle_verdict_of_ne hid]
        exact hsame

theorem run_verdicts (hs : Sound w) (rs : List TaskResult) {c : Cell}
    (hc : c ∈ cells w.db.nodes) (hrests : HomeRests w c) : ∃ kept, Handled env rs kept ∧
      settle (kept.map verdict) c ∈ cells (run (step env) w (rs.map .receive)).db.nodes := by
  induction rs generalizing w c with
  | nil => exact ⟨[], ⟨.refl _, fun _ => rfl⟩, hc⟩
  | cons r rs ih =>
    obtain ⟨first, hfirst, hcell⟩ := step_verdict hs r hc hrests
    have hreceived : Received w r (step env w (.receive r)) := step_receive hs.keyed r
    have hrests' := hreceived.homeRests hrests (settle (first.map verdict) c).2
    obtain ⟨kept, hkept, hmem⟩ := ih (step_sound hs (.receive r)) hcell hrests'
    refine ⟨first ++ kept, hfirst.append hkept, ?_⟩
    rw [List.map_append, settle_append]
    exact hmem

def statusAfter (id : Uuid) (status : NodeInstanceStatus) (rs : List TaskResult) :
    NodeInstanceStatus :=
  rs.foldl (fun s r => if r.id = id then nodeStatus r.status else s) status

theorem overwrite_verdicts (id : Uuid) (status : NodeInstanceStatus) (rs : List TaskResult) :
    overwrite (rs.map verdict) id status = statusAfter id status rs := by
  rw [overwrite, List.foldl_map]
  rfl

theorem homeRests_of_status (hs : Sound w) (hn : n ∈ w.db.nodes)
    (hstatus : n.status = .finished ∨ n.status = .error)
    (hparent : ∀ m ∈ w.db.nodes, n.batchParentId = some m.id → m.status ≠ .standby) :
    HomeRests w n.cell := by
  intro d hd hid
  obtain ⟨m, hm, rfl⟩ := List.mem_map.mp hd
  change m.id = n.batchParentId.getD n.id at hid
  cases hb : n.batchParentId with
  | some x =>
    rw [hb] at hid
    refine hparent m hm ?_
    rw [hb, hid]
    rfl
  | none =>
    rw [hb] at hid
    rw [hs.keyed.node_eq hm hn hid]
    intro hstandby
    change n.status = .standby at hstandby
    rcases hstatus with h | h
    · exact NodeInstanceStatus.noConfusion (h.symm.trans hstandby)
    · exact NodeInstanceStatus.noConfusion (h.symm.trans hstandby)

theorem results_overwrite_status {ids : Nat → Uuid} (hids : Function.Injective ids)
    (files : Files) (qs : List Request) (rs : List TaskResult)
    (hn : n ∈ (run (step env) (World.start ids files) qs).db.nodes)
    (hstatus : n.status = .finished ∨ n.status = .error)
    (hparent : ∀ m ∈ (run (step env) (World.start ids files) qs).db.nodes,
      n.batchParentId = some m.id → m.status ≠ .standby) :
    ∃ kept, kept.Sublist rs ∧ ((∀ k, env.fails k = false) → kept = rs) ∧
      ∃ m ∈ (run (step env) (World.start ids files) (qs ++ rs.map .receive)).db.nodes,
        m.id = n.id ∧ m.status = statusAfter n.id n.status kept := by
  have hs : Sound (run (step env) (World.start ids files) qs) :=
    run_sound (start_sound hids files) qs
  rw [run_append]
  generalize run (step env) (World.start ids files) qs = w at hn hparent hs
  have hrests := homeRests_of_status hs hn hstatus hparent
  obtain ⟨kept, ⟨hsub, hall⟩, hcell⟩ := run_verdicts hs rs (mem_cells hn) hrests
  obtain ⟨m, hm, heq⟩ := List.mem_map.mp hcell
  have hplace : m.place = n.place := congrArg Prod.fst heq
  refine ⟨kept, hsub, hall, m, hm, congrArg Place.id hplace, ?_⟩
  rw [← overwrite_verdicts]
  exact congrArg Prod.snd heq

section Samples

def failure (id : Uuid) : TaskResult := { id := id, status := .failed }

def afterSuccess : List Request := started ++ [.receive (success 101)]

theorem finished_then_error :
    ∃ n ∈ (runSample chain afterSuccess).db.nodes, n.id = 101 ∧ n.status = .finished ∧
      ∃ m ∈ (runSample chain (afterSuccess ++ [.receive (failure 101)])).db.nodes,
        m.id = 101 ∧ m.status = .error := by
  decide +kernel

theorem failure_overwrites_finished :
    ∃ m ∈ (run (step (sampleEnv [chain])) (.start sampleIds sampleFiles)
      (sampleRequests chain afterSuccess ++ [failure 101, success 103].map .receive)).db.nodes,
      m.id = 101 ∧ m.status = .error := by
  have hrow : ∃ n ∈ (runSample chain afterSuccess).db.nodes,
      n.id = 101 ∧ n.status = .finished ∧ n.batchParentId = none := by decide +kernel
  unfold runSample at hrow
  obtain ⟨n, hn, hid, hfinished, hroot⟩ := hrow
  have hparent : ∀ m ∈ (run (step (sampleEnv [chain])) (.start sampleIds sampleFiles)
      (sampleRequests chain afterSuccess)).db.nodes,
      n.batchParentId = some m.id → m.status ≠ .standby :=
    fun m _ hsome => absurd (hroot.symm.trans hsome) (Option.some_ne_none m.id).symm
  obtain ⟨kept, -, hall, m, hm, hmid, hstatus⟩ := results_overwrite_status sampleIds_injective
    sampleFiles _ [failure 101, success 103] hn (.inl hfinished) hparent
  rw [hall fun _ => rfl, hid] at hstatus
  exact ⟨m, hm, hmid.trans hid, hstatus⟩

end Samples

end Kuintessence
