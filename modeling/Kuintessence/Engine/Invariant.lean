import Kuintessence.Engine.Layout
import Kuintessence.Lib.Run

namespace Kuintessence

variable {env : Env} {w w' : World} {ms : List NodeMark} {fs : List FlowMark}
  {news : List Cell → List Notice} {plans : List Plan} {places : List Place} {p : Plan} {c : Place}
  {entries tasks : List Uuid} {id : Uuid}

theorem exists_of_forall₂ {α β : Type} {R : α → β → Prop} {xs : List α} {ys : List β}
    (h : List.Forall₂ R xs ys) {y : β} (hy : y ∈ ys) : ∃ x ∈ xs, R x y := by
  induction h with
  | nil => exact absurd hy List.not_mem_nil
  | cons hone _ ih =>
    rcases List.mem_cons.mp hy with rfl | hy
    · exact ⟨_, List.mem_cons_self, hone⟩
    · obtain ⟨x, hx, hxy⟩ := ih hy
      exact ⟨x, List.mem_cons_of_mem _ hx, hxy⟩

theorem TaskList.belongs {ps : List Place} {node : Uuid × List BatchStrategy} {l : List Uuid}
    (h : TaskList ps entries node l) (hid : id ∈ l) :
    node.1 ∈ entries ∧ node.1 ∈ l ∧ Belongs ps node.1 id := by
  unfold TaskList at h
  split at h
  · next hentry =>
    obtain ⟨subs, k, hsubs, -, rfl⟩ := h
    refine ⟨hentry, List.mem_cons_self, ?_⟩
    rcases List.mem_cons.mp hid with rfl | hid
    · exact .inl rfl
    · exact hsubs.belongs (List.mem_of_mem_take hid)
  · rw [h] at hid
    exact absurd hid List.not_mem_nil

theorem Tasks.mem (h : Tasks places p entries tasks) (hid : id ∈ tasks) :
    ∃ x ∈ p.ids, x ∈ entries ∧ x ∈ tasks ∧ Belongs places x id := by
  obtain ⟨ls, hls, rfl⟩ := h.listed
  obtain ⟨l, hl, hmem⟩ := List.mem_flatten.mp hid
  obtain ⟨node, hnode, hlist⟩ := exists_of_forall₂ hls hl
  obtain ⟨hentry, hself, hbelongs⟩ := hlist.belongs hmem
  exact ⟨node.1, List.mem_map_of_mem hnode, hentry, List.mem_flatten.mpr ⟨l, hl, hself⟩, hbelongs⟩

theorem Tasks.home (h : Tasks places p entries tasks) (hl : Layout plans places) (hp : p ∈ plans)
    (hc : c ∈ places) (hid : c.id ∈ tasks) :
    c.home ∈ p.ids ∧ c.home ∈ entries ∧ c.home ∈ tasks := by
  obtain ⟨x, hx, hentry, htask, hbelongs⟩ := h.mem hid
  rw [hl.home_of_belongs hp hc hx hbelongs]
  exact ⟨hx, hentry, htask⟩

theorem Stands.belongs {ps : List Place} {node : Uuid × List BatchStrategy} {l : List Uuid}
    (h : Stands ps entries node l) (hid : id ∈ l) : node.1 ∉ entries ∧ Belongs ps node.1 id := by
  unfold Stands at h
  split at h
  · rw [h] at hid
    exact absurd hid List.not_mem_nil
  · next hout =>
    obtain ⟨subs, hsubs, rfl⟩ := h
    refine ⟨hout, ?_⟩
    rcases List.mem_cons.mp hid with rfl | hid
    · exact .inl rfl
    · exact hsubs.belongs hid

theorem Entering.mem_standing {db : Tables} {flow : WorkflowInstance} {ls : List (List Uuid)}
    (h : Entering db id flow entries ls) {m : NodeMark} (hm : m ∈ standing ls) :
    m.2 = .standby ∧ ∃ x ∈ flow.plan.ids, x ∉ entries ∧ Belongs db.places x m.1 := by
  obtain ⟨i, hi, rfl⟩ := List.mem_map.mp hm
  refine ⟨rfl, ?_⟩
  obtain ⟨l, hl, hmem⟩ := List.mem_flatten.mp hi
  obtain ⟨node, hnode, hstands⟩ := exists_of_forall₂ h.stands hl
  obtain ⟨hout, hbelongs⟩ := hstands.belongs hmem
  exact ⟨node.1, List.mem_map_of_mem hnode, hout, hbelongs⟩

theorem Entering.standing_home {db : Tables} {flow : WorkflowInstance} {ls : List (List Uuid)}
    (h : Entering db id flow entries ls) (hl : Layout db.plans db.places) (hc : c ∈ db.places)
    {status : NodeInstanceStatus} (hm : (c.id, status) ∈ standing ls) :
    c.home ∈ flow.plan.ids ∧ ∃ e ∈ flow.plan.edges, e.2 = c.home := by
  obtain ⟨-, x, hx, hout, hbelongs⟩ := h.mem_standing hm
  rw [hl.home_of_belongs h.flow_plan hc hx hbelongs]
  refine ⟨hx, ?_⟩
  by_contra hnone
  apply hout
  rw [h.unfed]
  exact ⟨hx, fun e he heq => hnone ⟨e, he, heq⟩⟩

def Waits (plans : List Plan) (cs : List Cell) : Prop :=
  ∀ c ∈ cs, c.2 = .standby → c.1.parent = none → ∃ p ∈ plans, ∃ e ∈ p.edges, e.2 = c.1.id

structure Sound (w : World) : Prop where
  layout : Layout w.db.plans w.db.places
  supply : Supply w.db.used w.ids
  waits : Waits w.db.plans (cells w.db.nodes)

theorem Sound.keyed (h : Sound w) : w.db.Keyed := h.layout.keyed

theorem Turn.mem_cells (h : Turn ms fs news w w') {d : Cell} :
    d ∈ cells w'.db.nodes ↔ ∃ c ∈ cells w.db.nodes, settle ms c = d := by
  rw [h.commit.cells_eq, List.mem_map]

theorem mem_places_of_cells {t : Tables} {c : Cell} (hc : c ∈ cells t.nodes) : c.1 ∈ t.places := by
  rw [← Tables.cells_fst]
  exact List.mem_map_of_mem hc

theorem cell_of_place {t : Tables} (hc : c ∈ t.places) : ∃ d ∈ cells t.nodes, d.1 = c := by
  rw [← Tables.cells_fst] at hc
  exact List.mem_map.mp hc

theorem Tables.used_congr {t t' : Tables} (hplans : t'.plans = t.plans)
    (hplaces : t'.places = t.places) : t'.used = t.used := by
  rw [Tables.used, Tables.used, hplans, hplaces]

theorem Turn.sound (h : Turn ms fs news w w') (hs : Sound w)
    (hms : ∀ c ∈ w.db.places, (c.id, .standby) ∈ ms → c.parent = none →
      ∃ p ∈ w.db.plans, ∃ e ∈ p.edges, e.2 = c.id) : Sound w' := by
  have hplaces := h.commit.places
  have hplans := h.commit.plans_eq
  refine ⟨?_, ?_, ?_⟩
  · rw [hplaces, hplans]
    exact hs.layout
  · rw [Tables.used_congr hplans hplaces]
    exact hs.supply.tail h.ids
  · intro d hd hstandby hroot
    obtain ⟨c, hc, rfl⟩ := h.mem_cells.mp hd
    rw [hplans]
    change overwrite ms c.1.id c.2 = .standby at hstandby
    rcases @overwrite_mem ms c.1.id c.2 with hsame | hmark
    · rw [hsame] at hstandby
      exact hs.waits c hc hstandby hroot
    · rw [hstandby] at hmark
      exact hms c.1 (mem_places_of_cells hc) hmark hroot

theorem Turn.sound_of_notMem (h : Turn ms fs news w w') (hs : Sound w)
    (hms : ∀ m ∈ ms, m.2 ≠ .standby) : Sound w' :=
  h.sound hs fun _ _ hm _ => absurd rfl (hms _ hm)

theorem status_of_mem_running {m : NodeMark} (h : m ∈ running tasks) :
    m.1 ∈ tasks ∧ m.2 = .running := by
  obtain ⟨i, hi, rfl⟩ := List.mem_map.mp h
  exact ⟨hi, rfl⟩

theorem nodeStatus_ne_standby (status : TaskResultStatus) :
    StatusReceiver.nodeStatus status ≠ .standby := by
  cases status <;> simp [StatusReceiver.nodeStatus]

theorem Taken.turned {result : TaskResult} (h : Taken w result w') :
    ∃ ms fs news, Turn ms fs news w w' ∧ ∀ m ∈ ms, m.2 ≠ .standby := by
  cases h with
  | kept c hc hid fs hfs turn =>
    refine ⟨_, _, _, turn, fun m hm => ?_⟩
    rw [List.mem_singleton.mp hm]
    exact nodeStatus_ne_standby result.status
  | finished p success chosen turn =>
    refine ⟨_, _, _, turn, fun m hm => ?_⟩
    rw [List.mem_singleton.mp hm]
    exact fun h => NodeInstanceStatus.noConfusion h
  | dispatched flow entries tasks sent success hflow chosen entered htasks hsent turn =>
    refine ⟨_, _, _, turn, fun m hm => ?_⟩
    rcases List.mem_cons.mp hm with rfl | hm
    · exact fun h => NodeInstanceStatus.noConfusion h
    · rw [(status_of_mem_running hm).2]
      exact fun h => NodeInstanceStatus.noConfusion h

theorem Received.turned {result : TaskResult} (h : Received w result w') :
    ∃ ms fs news, Turn ms fs news w w' ∧ ∀ m ∈ ms, m.2 ≠ .standby := by
  cases h with
  | lost turn => exact ⟨_, _, _, turn, by simp⟩
  | taken h => exact h.turned

theorem Received.sound {result : TaskResult} (h : Received w result w') (hs : Sound w) :
    Sound w' := by
  obtain ⟨ms, fs, news, turn, hms⟩ := h.turned
  exact turn.sound_of_notMem hs hms

theorem status_of_mem_pending {rows : List Place} {m : NodeMark} (h : m ∈ pending rows) :
    m.2 = .pending := by
  obtain ⟨c, -, rfl⟩ := List.mem_map.mp h
  rfl

theorem Entering.waits {flow : WorkflowInstance} {ls : List (List Uuid)}
    (h : Entering w.db id flow entries ls) (hs : Sound w) {rows : List Place}
    (hms : ∀ m ∈ ms, m.2 = .standby → m ∈ standing ls) :
    ∀ c ∈ w.db.places, (c.id, .standby) ∈ pending rows ++ ms → c.parent = none →
      ∃ p ∈ w.db.plans, ∃ e ∈ p.edges, e.2 = c.id := by
  intro c hc hm hroot
  rcases List.mem_append.mp hm with hm | hm
  · exact absurd (status_of_mem_pending hm) (fun h => NodeInstanceStatus.noConfusion h)
  · obtain ⟨-, hedge⟩ := h.standing_home hs.layout hc (hms _ hm rfl)
    rw [Layout.home_of_root hroot] at hedge
    exact ⟨flow.plan, h.flow_plan, hedge⟩

theorem Carried.sound {whole : Prop} (h : Carried w id whole w') (hs : Sound w) : Sound w' := by
  cases h with
  | finished rows flow ls fs hrows entering hfs turn =>
    exact turn.sound hs (entering.waits hs fun _ hm _ => hm)
  | dispatched rows flow entries ls tasks sent fs hrows entering entered htasks hsent hwhole hfs
      turn =>
    refine turn.sound hs (entering.waits hs fun m hm hstandby => ?_)
    rcases List.mem_append.mp hm with hm | hm
    · exact hm
    · rw [(status_of_mem_running hm).2] at hstandby
      exact NodeInstanceStatus.noConfusion hstandby

theorem Started.sound (h : Started w id w') (hs : Sound w) : Sound w' := by
  cases h with
  | lost turn => exact turn.sound_of_notMem hs (by simp)
  | reset rows fs hrows hfs turn =>
    refine turn.sound_of_notMem hs fun m hm => ?_
    rw [status_of_mem_pending hm]
    exact fun h => NodeInstanceStatus.noConfusion h
  | carried h => exact h.sound hs

theorem Operated.sound {flowStatus : WorkflowInstanceStatus} {status : NodeInstanceStatus}
    {affected : NodeInstanceStatus → Bool} (h : Operated w flowStatus status affected id w')
    (hs : Sound w) (hne : status ≠ .standby) : Sound w' := by
  cases h with
  | lost turn => exact turn.sound_of_notMem hs (by simp)
  | operated rows hrows turn =>
    refine turn.sound_of_notMem hs fun m hm => ?_
    obtain ⟨c, -, rfl⟩ := List.mem_map.mp hm
    exact hne

theorem Submission.sound {draftId : Uuid} (h : Submission env w.db.used draftId w w')
    (hs : Sound w) : Sound w' := by
  cases h with
  | lost turn => exact turn.sound_of_notMem hs (by simp)
  | inserted draft k flow rows kept hdraft entry hkept inserted =>
    refine ⟨inserted.layout hs.layout entry hkept, inserted.supply entry hkept, ?_⟩
    intro c hc hstandby hroot
    rw [inserted.nodes, cells, List.map_append] at hc
    rcases List.mem_append.mp hc with hc | hc
    · obtain ⟨p, hp, hedge⟩ := hs.waits c hc hstandby hroot
      refine ⟨p, ?_, hedge⟩
      rw [inserted.plans]
      exact List.mem_append_left _ hp
    · obtain ⟨row, hrow, rfl⟩ := List.mem_map.mp hc
      have hcreated := (entry.parsed.flow row (kept_subset hkept hrow)).2
      change row.status = .standby at hstandby
      rw [hcreated] at hstandby
      exact NodeInstanceStatus.noConfusion hstandby

theorem step_sound (hs : Sound w) (q : Request) : Sound (step env w q) := by
  have hk := hs.keyed
  cases q with
  | submit user draftId => exact (step_submit hs.supply user draftId).sound hs
  | start user id => exact (step_start hk user id).sound hs
  | pause user id => exact (step_pause hk user id).sound hs fun h => NodeInstanceStatus.noConfusion h
  | «continue» user id =>
    exact (step_continue hk user id).sound hs fun h => NodeInstanceStatus.noConfusion h
  | terminate user id =>
    exact (step_terminate hk user id).sound hs fun h => NodeInstanceStatus.noConfusion h
  | receive result => exact (step_receive hk result).sound hs

inductive Stepped (w w' : World) : Prop where
  | turned (ms : List NodeMark) (fs : List FlowMark) (news : List Cell → List Notice)
      (turn : Turn ms fs news w w')
  | inserted (flow : WorkflowInstance) (kept : List NodeInstance) (inserted : Inserted flow kept w w')

theorem Operated.turned {flowStatus : WorkflowInstanceStatus} {status : NodeInstanceStatus}
    {affected : NodeInstanceStatus → Bool} (h : Operated w flowStatus status affected id w') :
    ∃ ms fs news, Turn ms fs news w w' := by
  cases h with
  | lost turn => exact ⟨_, _, _, turn⟩
  | operated rows hrows turn => exact ⟨_, _, _, turn⟩

theorem Started.turned (h : Started w id w') : ∃ ms fs news, Turn ms fs news w w' := by
  cases h with
  | lost turn => exact ⟨_, _, _, turn⟩
  | reset rows fs hrows hfs turn => exact ⟨_, _, _, turn⟩
  | carried h =>
    cases h with
    | finished rows flow ls fs hrows entering hfs turn => exact ⟨_, _, _, turn⟩
    | dispatched rows flow entries ls tasks sent fs hrows entering entered htasks hsent hwhole hfs
        turn => exact ⟨_, _, _, turn⟩

theorem step_turned (hs : Sound w) {q : Request} (hq : ∀ user draftId, q ≠ .submit user draftId) :
    ∃ ms fs news, Turn ms fs news w (step env w q) := by
  have hk := hs.keyed
  cases q with
  | submit user draftId => exact absurd rfl (hq user draftId)
  | start user id => exact (step_start hk user id).turned
  | pause user id => exact (step_pause hk user id).turned
  | «continue» user id => exact (step_continue hk user id).turned
  | terminate user id => exact (step_terminate hk user id).turned
  | receive result =>
    obtain ⟨ms, fs, news, turn, -⟩ := (step_receive hk result).turned
    exact ⟨ms, fs, news, turn⟩

theorem step_stepped (hs : Sound w) (q : Request) : Stepped w (step env w q) := by
  by_cases hq : ∀ user draftId, q ≠ .submit user draftId
  · obtain ⟨ms, fs, news, turn⟩ := step_turned hs hq
    exact .turned ms fs news turn
  · simp only [not_forall, not_not] at hq
    obtain ⟨user, draftId, rfl⟩ := hq
    cases (step_submit hs.supply user draftId : Submission env _ _ w _) with
    | lost turn => exact .turned _ _ _ turn
    | inserted draft k flow rows kept hdraft entry hkept inserted => exact .inserted _ _ inserted

theorem Stepped.plan_mem (h : Stepped w w') : ∀ p ∈ w.db.plans, p ∈ w'.db.plans := by
  intro p hp
  cases h with
  | turned ms fs news turn =>
    rw [turn.commit.plans_eq]
    exact hp
  | inserted flow kept inserted =>
    rw [inserted.plans]
    exact List.mem_append_left _ hp

theorem Stepped.place_mem (h : Stepped w w') : ∀ c ∈ w.db.places, c ∈ w'.db.places := by
  intro c hc
  cases h with
  | turned ms fs news turn =>
    rw [turn.commit.places]
    exact hc
  | inserted flow kept inserted =>
    rw [inserted.places]
    exact List.mem_append_left _ hc

theorem Stepped.ids (h : Stepped w w') : Tail w.ids w'.ids := by
  cases h with
  | turned ms fs news turn => exact turn.ids
  | inserted flow kept inserted => exact inserted.ids

theorem start_sound {ids : Nat → Uuid} (hids : Function.Injective ids) (files : Files) :
    Sound (World.start ids files) := by
  refine ⟨⟨List.nodup_nil, List.nodup_nil, ?_, ?_, ?_, ?_, ?_⟩, ⟨hids, ?_⟩, ?_⟩
  all_goals exact fun _ h => absurd h List.not_mem_nil

theorem run_sound (hs : Sound w) (qs : List Request) : Sound (run (step env) w qs) :=
  run_preserves (I := Sound) (fun _ q hs => step_sound hs q) hs qs

theorem run_stepped (hs : Sound w) (qs : List Request) :
    (∀ p ∈ w.db.plans, p ∈ (run (step env) w qs).db.plans) ∧
      (∀ c ∈ w.db.places, c ∈ (run (step env) w qs).db.places) ∧
      Tail w.ids (run (step env) w qs).ids := by
  induction qs generalizing w with
  | nil => exact ⟨fun _ hp => hp, fun _ hc => hc, .refl _⟩
  | cons q qs ih =>
    have hstep : Stepped w (step env w q) := step_stepped hs q
    obtain ⟨hplans, hplaces, htail⟩ := ih (step_sound hs q)
    refine ⟨fun p hp => ?_, fun c hc => ?_, ?_⟩
    · exact hplans p (hstep.plan_mem p hp)
    · exact hplaces c (hstep.place_mem c hc)
    · exact hstep.ids.trans htail

end Kuintessence
