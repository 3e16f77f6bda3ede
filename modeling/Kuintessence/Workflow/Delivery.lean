import Kuintessence.Workflow.Results

namespace Kuintessence

variable {env : Env} {w w' : World} {p : Plan} {plans : List Plan} {places : List Place}
  {ms : List NodeMark} {fs : List FlowMark} {news : List Cell → List Notice}
  {entries tasks sent : List Uuid} {x y i : Uuid} {k : Nat}

section Tasks

theorem Layout.owner_unique (hl : Layout plans places) (hp : p ∈ plans) (hx : x ∈ p.ids)
    (hy : y ∈ p.ids) (hbx : Belongs places x i) (hby : Belongs places y i) : x = y := by
  have hroot : ∀ z ∈ p.ids, ∀ c ∈ places, c.id = z → c.parent = none := by
    rintro z hz c hc rfl
    exact (hl.root_of_id hp hc hz).1
  rcases hbx with rfl | ⟨c, hc, rfl, hparent⟩
  · rcases hby with rfl | ⟨d, hd, hid, hparent⟩
    · rfl
    · rw [hroot i hx d hd hid] at hparent
      cases hparent
  · rcases hby with heq | ⟨d, hd, hid, hparent'⟩
    · rw [hroot y hy c hc heq] at hparent
      cases hparent
    · rw [hl.place_eq hd hc hid, hparent] at hparent'
      exact Option.some.inj hparent'

theorem SubsOf.nodup {node : Uuid × List BatchStrategy} {l : List Uuid}
    (h : SubsOf places node l) (hnodup : (places.map Place.id).Nodup) : l.Nodup := by
  unfold SubsOf at h
  split at h
  · rw [h]
    exact List.nodup_nil
  · obtain ⟨rows, hperm, rfl⟩ := h
    have hfilter : ((places.filter (fun c => c.parent == some node.1)).map Place.id).Nodup :=
      hnodup.sublist (List.filter_sublist.map Place.id)
    exact (hperm.map Place.id).nodup_iff.mpr hfilter

theorem SubsOf.root_notMem {node : Uuid × List BatchStrategy} {l : List Uuid}
    (h : SubsOf places node l) (hl : Layout plans places) (hp : p ∈ plans)
    (hx : node.1 ∈ p.ids) : node.1 ∉ l := by
  intro hmem
  unfold SubsOf at h
  split at h
  · rw [h] at hmem
    exact List.not_mem_nil hmem
  · obtain ⟨rows, hperm, rfl⟩ := h
    obtain ⟨c, hc, hid⟩ := List.mem_map.mp hmem
    rw [hperm.mem_iff, List.mem_filter, beq_iff_eq] at hc
    rw [← hid] at hx
    have hnone := (hl.root_of_id hp hc.1 hx).1
    rw [hc.2] at hnone
    cases hnone

theorem TaskList.nodup {node : Uuid × List BatchStrategy} {l : List Uuid}
    (h : TaskList places entries node l) (hl : Layout plans places) (hp : p ∈ plans)
    (hx : node.1 ∈ p.ids) : l.Nodup := by
  unfold TaskList at h
  split at h
  · obtain ⟨subs, k, hsubs, -, rfl⟩ := h
    refine List.nodup_cons.mpr ⟨fun hm => ?_, (hsubs.nodup hl.nodes).sublist (List.take_sublist k _)⟩
    exact hsubs.root_notMem hl hp hx (List.mem_of_mem_take hm)
  · rw [h]
    exact List.nodup_nil

theorem nodup_flatten_of_owners {α : Type} {R : α → List Uuid → Prop} {xs : List α}
    {ls : List (List Uuid)} (h : List.Forall₂ R xs ls) (hxs : xs.Nodup)
    (hnodup : ∀ x ∈ xs, ∀ l, R x l → l.Nodup)
    (howner : ∀ x ∈ xs, ∀ y ∈ xs, ∀ l l', R x l → R y l' → ∀ i ∈ l, i ∈ l' → x = y) :
    ls.flatten.Nodup := by
  induction h with
  | nil => exact List.nodup_nil
  | @cons x l xs ls hone hrest ih =>
    obtain ⟨hx, hxs⟩ := List.nodup_cons.mp hxs
    have htail : ls.flatten.Nodup := by
      apply ih hxs
      · exact fun y hy => hnodup y (List.mem_cons_of_mem x hy)
      · exact fun y hy z hz => howner y (List.mem_cons_of_mem x hy) z (List.mem_cons_of_mem x hz)
    refine (hnodup x List.mem_cons_self l hone).append htail fun i hi hm => ?_
    obtain ⟨l', hl', hi'⟩ := List.mem_flatten.mp hm
    obtain ⟨y, hy, hR⟩ := exists_of_forall₂ hrest hl'
    have heq := howner x List.mem_cons_self y (List.mem_cons_of_mem x hy) l l' hone hR i hi hi'
    rw [heq] at hx
    exact hx hy

theorem Tasks.nodup (h : Tasks places p entries tasks) (hl : Layout plans places)
    (hp : p ∈ plans) : tasks.Nodup := by
  obtain ⟨ls, hls, rfl⟩ := h.listed
  have hids : (p.nodes.map Prod.fst).Nodup := hl.specs p hp
  apply nodup_flatten_of_owners hls hids.of_map
  · exact fun node hnode l hlist => hlist.nodup hl hp (List.mem_map_of_mem hnode)
  · intro node hnode node' hnode' l l' hlist hlist' i hi hi'
    have howner := hl.owner_unique hp (List.mem_map_of_mem hnode) (List.mem_map_of_mem hnode')
      (hlist.belongs hi).2.2 (hlist'.belongs hi').2.2
    exact List.inj_on_of_nodup_map hids hnode hnode' howner

end Tasks

def Notice.handedOver : Notice → Option Uuid
  | .sent id _ => some id
  | .finished _ _ => none

def handOvers (w : World) : List Uuid := w.trace.filterMap Event.handedOver

theorem filterMap_notices {f : Event → Option Uuid} {g : Notice → Option Uuid}
    (h : ∀ e, f e = e.notice.bind g) (trace : List Event) :
    trace.filterMap f = (notices trace).filterMap g := by
  rw [notices, List.filterMap_filterMap]
  congr 1
  funext e
  exact h e

theorem handOvers_eq (w : World) :
    handOvers w = (notices w.trace).filterMap Notice.handedOver :=
  filterMap_notices (fun e => by cases e <;> rfl) w.trace

theorem handOvers_append {ns : List Notice} (h : notices w'.trace = notices w.trace ++ ns) :
    handOvers w' = handOvers w ++ ns.filterMap Notice.handedOver := by
  rw [handOvers_eq, handOvers_eq, h, List.filterMap_append]

theorem handOvers_sentAll (cs : List Cell) (sent : List Uuid) :
    (sentAll cs sent).filterMap Notice.handedOver = sent := by
  induction sent with
  | nil => rfl
  | cons x sent ih =>
    change x :: (sentAll cs sent).filterMap Notice.handedOver = x :: sent
    rw [ih]

theorem Turn.handOvers_sent (h : Turn ms fs (fun cs => sentAll cs sent) w w') :
    handOvers w' = handOvers w ++ sent := by
  rw [handOvers_append h.notices_eq, handOvers_sentAll]

def Rests (w : World) (x : Uuid) : Prop := ∀ c ∈ cells w.db.nodes, c.1.id = x → HomeRests w c

theorem Turn.rests (h : Turn ms fs news w w') (hx : Rests w x)
    (hms : ∀ c ∈ w.db.places, c.id = x → (c.home, .standby) ∉ ms) : Rests w' x := by
  intro c' hc' hid d' hd' hhome hstandby
  obtain ⟨c, hc, rfl⟩ := h.mem_cells.mp hc'
  obtain ⟨d, hd, rfl⟩ := h.mem_cells.mp hd'
  change overwrite ms d.1.id d.2 = .standby at hstandby
  rcases @overwrite_mem ms d.1.id d.2 with hsame | hmark
  · exact hx c hc hid d hd hhome (hsame.symm.trans hstandby)
  · have heq : d.1.id = c.1.home := hhome
    rw [hstandby, heq] at hmark
    exact hms c.1 (mem_places_of_cells hc) hid hmark

theorem Turn.rests_running (h : Turn (ms ++ running tasks) fs news w w')
    (hhome : ∀ c ∈ w.db.places, c.id = x → c.home ∈ tasks) : Rests w' x := by
  intro c' hc' hid d' hd' heq hstandby
  obtain ⟨c, hc, rfl⟩ := h.mem_cells.mp hc'
  obtain ⟨d, hd, rfl⟩ := h.mem_cells.mp hd'
  have hmem : d.1.id ∈ tasks := by
    rw [show d.1.id = c.1.home from heq]
    exact hhome c.1 (mem_places_of_cells hc) hid
  rw [settle_append] at hstandby
  change overwrite (running tasks) d.1.id _ = .standby at hstandby
  rw [running, overwrite_same, if_pos hmem] at hstandby
  exact NodeInstanceStatus.noConfusion hstandby

theorem Rests.notMem_tasks {reported : Uuid} (h : Rests w x) (hs : Sound w)
    (hchosen : Chosen w reported p entries) (ht : Tasks w.db.places p entries tasks) :
    x ∉ tasks := by
  intro hx
  obtain ⟨c, hc, rfl⟩ := ht.seated x hx
  obtain ⟨d, hd, rfl⟩ := cell_of_place hc
  exact (h d hd rfl).notMem_tasks hs hd hchosen ht hx

theorem count_prefix_le_one (hsent : sent <+: tasks) (hnodup : tasks.Nodup) :
    sent.count x ≤ 1 :=
  (List.nodup_iff_count_le_one.mp hnodup x).trans' (hsent.sublist.count_le x)

inductive Handing (x : Uuid) (w w' : World) : Prop where
  | kept (same : (handOvers w').count x = (handOvers w).count x) (rests : Rests w x → Rests w' x)
  | handed (once : (handOvers w').count x ≤ (handOvers w).count x + 1) (waits : ¬Rests w x)
      (rests : Rests w' x)

theorem count_of_notices {ns : List Notice} (h : notices w'.trace = notices w.trace ++ ns)
    (hns : ns.filterMap Notice.handedOver = []) :
    (handOvers w').count x = (handOvers w).count x := by
  rw [handOvers_append h, hns, List.append_nil]

theorem Turn.kept (h : Turn ms fs news w w')
    (hnews : (news (cells w'.db.nodes)).filterMap Notice.handedOver = [])
    (hms : ∀ m ∈ ms, m.2 ≠ .standby) : Handing x w w' :=
  .kept (count_of_notices h.notices_eq hnews)
    fun hx => h.rests hx fun _ _ _ hm => hms _ hm rfl

theorem Turn.count_sent (h : Turn ms fs (fun cs => sentAll cs sent) w w') (hsent : sent <+: tasks)
    (hx : x ∉ tasks) : (handOvers w').count x = (handOvers w).count x := by
  have hnone : x ∉ sent := fun hm => hx (hsent.mem hm)
  rw [h.handOvers_sent, List.count_append, List.count_eq_zero_of_not_mem hnone, Nat.add_zero]

theorem Turn.count_le (h : Turn ms fs (fun cs => sentAll cs sent) w w') (hsent : sent <+: tasks)
    (hnodup : tasks.Nodup) : (handOvers w').count x ≤ (handOvers w).count x + 1 := by
  rw [h.handOvers_sent, List.count_append]
  exact Nat.add_le_add_left (count_prefix_le_one hsent hnodup) _

theorem Tasks.home_mem (ht : Tasks w.db.places p entries tasks) (hs : Sound w)
    (hp : p ∈ w.db.plans) (hx : x ∈ tasks) : ∀ c ∈ w.db.places, c.id = x → c.home ∈ tasks := by
  rintro c hc rfl
  exact (ht.home hs.layout hp hc hx).2.2

theorem Taken.handing {result : TaskResult} (h : Taken w result w') (hs : Sound w) :
    Handing x w w' := by
  cases h with
  | kept c hc hid fs hfs turn =>
    refine turn.kept rfl fun m hm => ?_
    rw [List.mem_singleton.mp hm]
    exact nodeStatus_ne_standby result.status
  | finished p success chosen turn =>
    refine turn.kept rfl fun m hm => ?_
    rw [List.mem_singleton.mp hm]
    exact fun h => NodeInstanceStatus.noConfusion h
  | dispatched flow entries tasks sent success hflow chosen entered htasks hsent turn =>
    have hsplit : (result.id, .finished) :: running tasks =
      [(result.id, .finished)] ++ running tasks := rfl
    rw [hsplit] at turn
    by_cases hx : x ∈ tasks
    · refine .handed (turn.count_le hsent (htasks.nodup hs.layout chosen.plan_mem)) ?_ ?_
      · exact fun hrests => hrests.notMem_tasks hs chosen htasks hx
      · exact turn.rests_running (htasks.home_mem hs chosen.plan_mem hx)
    · refine .kept (turn.count_sent hsent hx) fun hrests => turn.rests hrests fun c _ _ hm => ?_
      rcases List.mem_append.mp hm with hm | hm
      · exact NodeInstanceStatus.noConfusion (congrArg Prod.snd (List.mem_singleton.mp hm))
      · exact NodeInstanceStatus.noConfusion (status_of_mem_running hm).2

theorem Received.handing {result : TaskResult} (h : Received w result w') (hs : Sound w) :
    Handing x w w' := by
  cases h with
  | lost turn => exact turn.kept rfl fun _ hm => absurd hm List.not_mem_nil
  | taken h => exact h.handing hs

theorem Operated.handing {flowStatus : WorkflowInstanceStatus} {status : NodeInstanceStatus}
    {affected : NodeInstanceStatus → Bool} {id : Uuid}
    (h : Operated w flowStatus status affected id w') (hne : status ≠ .standby) :
    Handing x w w' := by
  cases h with
  | lost turn => exact turn.kept rfl fun _ hm => absurd hm List.not_mem_nil
  | operated rows hrows turn =>
    refine turn.kept rfl fun m hm => ?_
    obtain ⟨c, -, rfl⟩ := List.mem_map.mp hm
    exact hne

theorem pending_ne_standby {rows : List Place} : ∀ m ∈ pending rows, m.2 ≠ .standby := by
  intro m hm
  rw [status_of_mem_pending hm]
  exact fun h => NodeInstanceStatus.noConfusion h

theorem Entering.notMem_standing {id : Uuid} {flow : WorkflowInstance} {ls : List (List Uuid)}
    (h : Entering w.db id flow entries ls) (hs : Sound w) {c : Place} (hc : c ∈ w.db.places)
    (hother : c.flow ≠ id) : (c.home, .standby) ∉ standing ls := by
  intro hm
  obtain ⟨q, hq, hflow, -⟩ := hs.layout.seat c hc
  obtain ⟨r, hr, hid, hrflow, -⟩ := hs.layout.home_row hq hc hflow
  rw [← hid] at hm
  obtain ⟨hhome, -⟩ := h.standing_home hs.layout hr hm
  apply hother
  rw [hflow, ← hrflow, hs.layout.flow_of_home h.flow_plan hr hhome]
  exact h.flow_id

theorem Started.handing {id : Uuid} (h : Started w id w') (hs : Sound w)
    (hother : ∀ c ∈ w.db.places, c.id = x → c.flow ≠ id) : Handing x w w' := by
  cases h with
  | lost turn => exact turn.kept rfl fun _ hm => absurd hm List.not_mem_nil
  | reset rows fs hrows hfs turn => exact turn.kept rfl pending_ne_standby
  | carried h =>
    cases h with
    | finished rows flow ls fs hrows entering hfs turn =>
      refine .kept (count_of_notices turn.notices_eq rfl) fun hrests => turn.rests hrests ?_
      intro c hc hid hm
      rcases List.mem_append.mp hm with hm | hm
      · exact pending_ne_standby _ hm rfl
      · exact entering.notMem_standing hs hc (hother c hc hid) hm
    | dispatched rows flow entries ls tasks sent fs hrows entering entered htasks hsent hwhole hfs
        turn =>
      have hx : x ∉ tasks := by
        intro hx
        obtain ⟨c, hc, rfl⟩ := htasks.seated x hx
        obtain ⟨hhome, -⟩ := htasks.home hs.layout entering.flow_plan hc hx
        apply hother c hc rfl
        rw [hs.layout.flow_of_home entering.flow_plan hc hhome]
        exact entering.flow_id
      refine .kept (turn.count_sent hsent hx) fun hrests => turn.rests hrests ?_
      intro c hc hid hm
      rcases List.mem_append.mp hm with hm | hm
      · exact pending_ne_standby _ hm rfl
      rcases List.mem_append.mp hm with hm | hm
      · exact entering.notMem_standing hs hc (hother c hc hid) hm
      · exact NodeInstanceStatus.noConfusion (status_of_mem_running hm).2

theorem Submission.handing {draftId : Uuid} (h : Submission env w.db.used draftId w w')
    (hs : Sound w) : Handing x w w' := by
  have hs' := h.sound hs
  cases h with
  | lost turn => exact turn.kept rfl fun _ hm => absurd hm List.not_mem_nil
  | inserted draft k flow rows kept hdraft entry hkept inserted =>
    have hnone := inserted.notices_eq
    rw [← List.append_nil (notices w.trace)] at hnone
    refine .kept (count_of_notices hnone rfl) fun hrests c hc hid d hd hhome hstandby => ?_
    have hcplace := mem_places_of_cells hc
    rw [inserted.nodes, cells, List.map_append, List.mem_append] at hc hd
    rcases hd with hd | hd
    · rcases hc with hc | hc
      · exact hrests c hc hid d hd hhome hstandby
      · obtain ⟨row, hrow, rfl⟩ := List.mem_map.mp hc
        have hflow : row.place.flow = flow.plan.id :=
          (entry.parsed.flow row (kept_subset hkept hrow)).1
        have hplan : flow.plan ∈ w'.db.plans := by
          rw [inserted.plans]
          exact List.mem_append_right _ (List.mem_singleton_self _)
        have hmem := hs'.layout.home_mem hplan hcplace hflow
        apply entry.fresh.2 _ hmem
        rw [← hhome]
        exact Tables.place_mem_used (mem_places_of_cells hd)
    · obtain ⟨row, hrow, rfl⟩ := List.mem_map.mp hd
      have hcreated := (entry.parsed.flow row (kept_subset hkept hrow)).2
      change row.status = .standby at hstandby
      rw [hcreated] at hstandby
      exact NodeInstanceStatus.noConfusion hstandby

def Request.starts (flow : Uuid) : Request → Bool
  | .start _ id => id == flow
  | _ => false

theorem step_handing (hs : Sound w) {q : Request}
    (hq : ∀ c ∈ w.db.places, c.id = x → q.starts c.flow = false) :
    Handing x w (step env w q) := by
  have hk := hs.keyed
  cases q with
  | submit user draftId => exact (step_submit hs.supply user draftId).handing hs
  | start user id =>
    refine (step_start hk user id).handing hs fun c hc hid heq => ?_
    have hfalse := hq c hc hid
    rw [Request.starts, heq, beq_self_eq_true] at hfalse
    cases hfalse
  | pause user id => exact (step_pause hk user id).handing fun h => NodeInstanceStatus.noConfusion h
  | «continue» user id =>
    exact (step_continue hk user id).handing fun h => NodeInstanceStatus.noConfusion h
  | terminate user id =>
    exact (step_terminate hk user id).handing fun h => NodeInstanceStatus.noConfusion h
  | receive result => exact (step_receive hk result).handing hs

def Within (k : Nat) (x : Uuid) (w : World) : Prop :=
  (handOvers w).count x < k ∨ (handOvers w).count x = k ∧ Rests w x

theorem Within.count_le (h : Within k x w) : (handOvers w).count x ≤ k := by
  rcases h with h | ⟨h, -⟩
  · exact h.le
  · exact h.le

theorem Handing.within (h : Handing x w w') (hk : Within k x w) : Within k x w' := by
  unfold Within at hk ⊢
  cases h with
  | kept same rests =>
    rw [same]
    exact hk.imp_right fun ⟨heq, hx⟩ => ⟨heq, rests hx⟩
  | handed once waits rests =>
    have hlt := hk.resolve_right fun h => waits h.2
    by_cases heq : (handOvers w').count x = k
    · exact .inr ⟨heq, rests⟩
    · left
      omega

theorem Started.within {id : Uuid} (h : Started w id w') (hs : Sound w)
    (hk : (handOvers w).count x ≤ k) : Within (k + 1) x w' := by
  have hsame : (handOvers w').count x = (handOvers w).count x → Within (k + 1) x w' := by
    intro heq
    left
    omega
  cases h with
  | lost turn => exact hsame (count_of_notices turn.notices_eq rfl)
  | reset rows fs hrows hfs turn => exact hsame (count_of_notices turn.notices_eq rfl)
  | carried h =>
    cases h with
    | finished rows flow ls fs hrows entering hfs turn =>
      exact hsame (count_of_notices turn.notices_eq rfl)
    | dispatched rows flow entries ls tasks sent fs hrows entering entered htasks hsent hwhole hfs
        turn =>
      have hplan := entering.flow_plan
      by_cases hx : x ∈ tasks
      · have hle : (handOvers w').count x ≤ (handOvers w).count x + 1 :=
          turn.count_le hsent (htasks.nodup hs.layout hplan)
        rw [← List.append_assoc] at turn
        have hrests := turn.rests_running (htasks.home_mem hs hplan hx)
        by_cases heq : (handOvers w').count x = k + 1
        · exact .inr ⟨heq, hrests⟩
        · left
          omega
      · exact hsame (turn.count_sent hsent hx)

theorem step_within (hs : Sound w) (q : Request) (hk : (handOvers w).count x ≤ k) :
    Within (k + 1) x (step env w q) := by
  have hlt : Within (k + 1) x w := .inl (Nat.lt_succ_of_le hk)
  cases q with
  | start user id => exact (step_start hs.keyed user id).within hs hk
  | submit user draftId => exact (step_handing hs fun _ _ _ => rfl).within hlt
  | pause user id => exact (step_handing hs fun _ _ _ => rfl).within hlt
  | «continue» user id => exact (step_handing hs fun _ _ _ => rfl).within hlt
  | terminate user id => exact (step_handing hs fun _ _ _ => rfl).within hlt
  | receive result => exact (step_handing hs fun _ _ _ => rfl).within hlt

theorem run_within {flow : Uuid} (hs : Sound w) (qs : List Request)
    (hflow : ∀ c ∈ (run (step env) w qs).db.places, c.id = x → c.flow = flow)
    (h : Within k x w) :
    Within (k + qs.countP (Request.starts flow)) x (run (step env) w qs) := by
  induction qs generalizing w k with
  | nil => exact h
  | cons q qs ih =>
    have hs' : Sound (step env w q) := step_sound hs q
    rw [List.countP_cons]
    by_cases hq : q.starts flow = true
    · rw [if_pos hq, ← Nat.add_assoc, Nat.add_right_comm]
      exact ih hs' hflow (step_within hs q h.count_le)
    · rw [if_neg hq, Nat.add_zero]
      refine ih hs' hflow ((step_handing hs fun c hc hid => ?_).within h)
      have hfinal : c ∈ (run (step env) w (q :: qs)).db.places := (run_stepped hs (q :: qs)).2.1 c hc
      rw [hflow c hfinal hid]
      exact Bool.eq_false_iff.mpr hq

theorem hands_over_once_a_start {ids : Nat → Uuid} (hids : Function.Injective ids) (files : Files)
    (qs : List Request) {n : NodeInstance}
    (hn : n ∈ (run (step env) (World.start ids files) qs).db.nodes) :
    (handOvers (run (step env) (World.start ids files) qs)).count n.id ≤
        qs.countP (Request.starts n.flowInstanceId) ∧
      ∀ before q after, qs = before ++ q :: after →
        (∀ r ∈ after, r.starts n.flowInstanceId = false) →
        (handOvers (run (step env) (World.start ids files) qs)).count n.id ≤
          (handOvers (run (step env) (World.start ids files) before)).count n.id + 1 := by
  have hstart : Sound (World.start ids files) := start_sound hids files
  have hfinal : Sound (run (step env) (World.start ids files) qs) := run_sound hstart qs
  have hflow : ∀ c ∈ (run (step env) (World.start ids files) qs).db.places,
      c.id = n.id → c.flow = n.flowInstanceId := by
    intro c hc hid
    rw [hfinal.layout.place_eq hc (Tables.mem_places hn) hid]
    rfl
  constructor
  · have hzero : Within 0 n.id (World.start ids files) :=
      .inr ⟨rfl, fun _ hc => absurd hc List.not_mem_nil⟩
    have hrun := (run_within hstart qs hflow hzero).count_le
    rw [Nat.zero_add] at hrun
    exact hrun
  · rintro before q after rfl hafter
    rw [run_append] at hflow ⊢
    have hbefore : Sound (run (step env) (World.start ids files) before) :=
      run_sound hstart before
    generalize run (step env) (World.start ids files) before = w at hflow hbefore ⊢
    have hrun : Within _ n.id (run (step env) (step env w q) after) :=
      run_within (step_sound hbefore q) after hflow (step_within hbefore q le_rfl)
    have hnone : after.countP (Request.starts n.flowInstanceId) = 0 :=
      List.countP_eq_zero.mpr fun r hr => Bool.eq_false_iff.mp (hafter r hr)
    rw [hnone] at hrun
    exact hrun.count_le

section Samples

def repeatedReports : List Request :=
  started ++ [report 101 .success, report 101 .success, report 103 .success, report 101 .failed,
    report 101 .success]

theorem chain_hands_over_once :
    handOvers (runSample chain repeatedReports) = [101, 103] ∧
      ∀ n ∈ (runSample chain repeatedReports).db.nodes,
        (handOvers (runSample chain repeatedReports)).count n.id ≤ 1 := by
  have hflows : ∀ n ∈ (runSample chain repeatedReports).db.nodes,
      n.flowInstanceId = 100 := by decide +kernel
  refine ⟨by decide +kernel, fun n hn => ?_⟩
  have hflow := hflows n hn
  unfold runSample at hn ⊢
  have hcount := (hands_over_once_a_start sampleIds_injective sampleFiles _ hn).1
  rw [hflow] at hcount
  exact hcount

theorem chain_hands_over_twice :
    ∃ n ∈ (runSample chain (started ++ started)).db.nodes,
      (handOvers (runSample chain (started ++ started))).count n.id = 2 := by
  decide +kernel

end Samples

end Kuintessence
