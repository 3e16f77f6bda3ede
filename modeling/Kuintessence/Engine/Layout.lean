import Kuintessence.Draft.Checks
import Kuintessence.Engine.Submission

namespace Kuintessence

def Place.home (c : Place) : Uuid := c.parent.getD c.id

def Root (p : Plan) (c : Place) : Prop := c.parent = none ∧ c.id ∈ p.ids

def Sub (plans : List Plan) (p : Plan) (c : Place) : Prop :=
  (∃ x bs, c.parent = some x ∧ (x, bs) ∈ p.nodes ∧ bs ≠ []) ∧ ∀ q ∈ plans, c.id ∉ q.ids

structure Layout (plans : List Plan) (places : List Place) : Prop where
  nodes : (places.map Place.id).Nodup
  flows : (plans.map Plan.id).Nodup
  specs : ∀ p ∈ plans, p.ids.Nodup
  apart : ∀ p ∈ plans, ∀ q ∈ plans, ∀ x ∈ p.ids, x ∈ q.ids → p = q
  ends : ∀ p ∈ plans, ∀ e ∈ p.edges, e.1 ∈ p.ids ∧ e.2 ∈ p.ids
  seat : ∀ c ∈ places, ∃ p ∈ plans, c.flow = p.id ∧ (Root p c ∨ Sub plans p c)
  rows : ∀ p ∈ plans, ∀ c ∈ places, c.flow = p.id → ∀ x ∈ p.ids,
    ∃ r ∈ places, r.id = x ∧ r.flow = p.id ∧ r.parent = none

namespace Layout

variable {plans : List Plan} {places : List Place} {p q : Plan} {c r : Place}

theorem plan_eq (h : Layout plans places) (hp : p ∈ plans) (hq : q ∈ plans) (hid : p.id = q.id) :
    p = q := List.inj_on_of_nodup_map h.flows hp hq hid

theorem place_eq (h : Layout plans places) (hc : c ∈ places) (hr : r ∈ places)
    (hid : c.id = r.id) : c = r := List.inj_on_of_nodup_map h.nodes hc hr hid

theorem seat_of (h : Layout plans places) (hp : p ∈ plans) (hc : c ∈ places)
    (hflow : c.flow = p.id) : Root p c ∨ Sub plans p c := by
  obtain ⟨q, hq, hid, hseat⟩ := h.seat c hc
  have heq : q = p := h.plan_eq hq hp (hid.symm.trans hflow)
  rw [heq] at hseat
  exact hseat

theorem root_of_id (h : Layout plans places) (hp : p ∈ plans) (hc : c ∈ places)
    (hid : c.id ∈ p.ids) : c.parent = none ∧ c.flow = p.id := by
  obtain ⟨q, hq, hflow, ⟨hnone, hroot⟩ | ⟨-, hsub⟩⟩ := h.seat c hc
  · have heq : p = q := h.apart p hp q hq c.id hid hroot
    rw [heq]
    exact ⟨hnone, hflow⟩
  · exact absurd hid (hsub p hp)

theorem home_mem (h : Layout plans places) (hp : p ∈ plans) (hc : c ∈ places)
    (hflow : c.flow = p.id) : c.home ∈ p.ids := by
  rcases h.seat_of hp hc hflow with ⟨hnone, hid⟩ | ⟨⟨x, bs, hparent, hx, -⟩, -⟩
  · rw [Place.home, hnone]
    exact hid
  · rw [Place.home, hparent]
    exact List.mem_map_of_mem hx

theorem flow_of_home (h : Layout plans places) (hp : p ∈ plans) (hc : c ∈ places)
    (hhome : c.home ∈ p.ids) : c.flow = p.id := by
  obtain ⟨q, hq, hflow, -⟩ := h.seat c hc
  rw [h.apart p hp q hq c.home hhome (h.home_mem hq hc hflow)]
  exact hflow

theorem home_of_belongs (h : Layout plans places) (hp : p ∈ plans) (hc : c ∈ places) {x : Uuid}
    (hx : x ∈ p.ids) (hb : Belongs places x c.id) : c.home = x := by
  rcases hb with rfl | ⟨r, hr, hid, hparent⟩
  · rw [Place.home, (h.root_of_id hp hc hx).1]
    rfl
  · rw [Place.home, ← h.place_eq hr hc hid, hparent]
    rfl

theorem home_of_root (hnone : c.parent = none) : c.home = c.id := by
  rw [Place.home, hnone]
  rfl

theorem home_row (h : Layout plans places) (hp : p ∈ plans) (hc : c ∈ places)
    (hflow : c.flow = p.id) : ∃ r ∈ places, r.id = c.home ∧ r.flow = p.id ∧ r.parent = none :=
  h.rows p hp c hc hflow c.home (h.home_mem hp hc hflow)

end Layout

theorem Layout.keyed {t : Tables} (h : Layout t.plans t.places) : t.Keyed := ⟨h.nodes, h.flows⟩

theorem seat_mono {plans plans' : List Plan} {p : Plan} {c : Place}
    (h : Root p c ∨ Sub plans p c) (hnew : ∀ q ∈ plans', q ∈ plans ∨ c.id ∉ q.ids) :
    Root p c ∨ Sub plans' p c := by
  rcases h with h | ⟨hparent, hsub⟩
  · exact .inl h
  · refine .inr ⟨hparent, fun q hq => ?_⟩
    rcases hnew q hq with hq | hq
    · exact hsub q hq
    · exact hq

def Tables.used (t : Tables) : List Uuid :=
  t.plans.flatMap (fun p => p.id :: p.ids) ++ t.places.map Place.id

theorem Tables.id_mem_used {t : Tables} {p : Plan} (hp : p ∈ t.plans) : p.id ∈ t.used :=
  List.mem_append_left _ (List.mem_flatMap.mpr ⟨p, hp, List.mem_cons_self⟩)

theorem Tables.spec_mem_used {t : Tables} {p : Plan} (hp : p ∈ t.plans) {x : Uuid}
    (hx : x ∈ p.ids) : x ∈ t.used :=
  List.mem_append_left _ (List.mem_flatMap.mpr ⟨p, hp, List.mem_cons_of_mem _ hx⟩)

theorem Tables.place_mem_used {t : Tables} {c : Place} (hc : c ∈ t.places) : c.id ∈ t.used :=
  List.mem_append_right _ (List.mem_map_of_mem hc)

theorem Accepted.ends {spec : WorkflowDraftSpec} (h : Accepted spec) :
    ∀ r ∈ spec.nodeRelations,
      (∃ n, spec.getNode r.fromId = some n) ∧ ∃ n, spec.getNode r.toId = some n := by
  obtain ⟨fileExists, hok⟩ := h
  have hholds := WorkflowDraftSpec.validateWorkflowDraft_ok_iff.mp hok
  exact fun r hr => (hholds.1 r hr).ends

section Submission

variable {w w' : World} {spec : WorkflowDraftSpec} {flow : WorkflowInstance}
  {rows kept : List NodeInstance} {iter : Nat → Uuid}

theorem Inserted.plans (h : Inserted flow kept w w') : w'.db.plans = w.db.plans ++ [flow.plan] := by
  obtain ⟨user, time, hflows⟩ := h.flows
  rw [Tables.plans, hflows, List.map_append]
  rfl

theorem Inserted.places (h : Inserted flow kept w w') :
    w'.db.places = w.db.places ++ kept.map NodeInstance.place := by
  rw [Tables.places, h.nodes, List.map_append]
  rfl

theorem Entry.fresh (h : Entry w.db.used spec flow rows iter) :
    flow.plan.id ∉ w.db.used ∧ ∀ x ∈ flow.plan.ids, x ∉ w.db.used := by
  obtain ⟨order, iter', hsub⟩ := h.submitted
  refine ⟨hsub.id_fresh, fun x hx hused => ?_⟩
  rw [WorkflowInstance.plan_ids] at hx
  obtain ⟨n, hn, rfl⟩ := List.mem_map.mp hx
  exact hsub.fresh n hn (List.mem_cons_of_mem _ hused)

theorem Entry.row_fresh (h : Entry w.db.used spec flow rows iter) {row : NodeInstance}
    (hrow : row ∈ rows) : row.id ∉ w.db.used := by
  obtain ⟨n, hn, ⟨-, hid⟩ | ⟨-, -, hid⟩⟩ := h.parsed.place row hrow
  · rw [hid]
    apply h.fresh.2
    rw [WorkflowInstance.plan_ids]
    exact List.mem_map_of_mem hn
  · exact fun hused => hid (List.mem_append_right _ (List.mem_cons_of_mem _ hused))

theorem Entry.ends (h : Entry w.db.used spec flow rows iter) :
    ∀ e ∈ flow.plan.edges, e.1 ∈ flow.plan.ids ∧ e.2 ∈ flow.plan.ids := by
  obtain ⟨order, iter', hsub⟩ := h.submitted
  rw [WorkflowInstance.plan_ids]
  intro e he
  obtain ⟨r, hr, rfl⟩ := List.mem_map.mp he
  exact hsub.relation_ends h.accepted.ends r hr

theorem Entry.seat (h : Entry w.db.used spec flow rows iter) {row : NodeInstance}
    (hrow : row ∈ rows) :
    Root flow.plan row.place ∨ Sub (w.db.plans ++ [flow.plan]) flow.plan row.place := by
  obtain ⟨n, hn, ⟨hnone, hid⟩ | ⟨hparent, hbatch, hid⟩⟩ := h.parsed.place row hrow
  · refine .inl ⟨hnone, ?_⟩
    rw [WorkflowInstance.plan_ids]
    exact List.mem_map.mpr ⟨n, hn, hid.symm⟩
  · have houtline : (n.id, n.batchStrategies) ∈ flow.plan.nodes := List.mem_map_of_mem hn
    refine .inr ⟨⟨n.id, _, hparent, houtline, hbatch⟩, fun q hq hmem => ?_⟩
    · rcases List.mem_append.mp hq with hq | hq
      · exact h.row_fresh hrow (Tables.spec_mem_used hq hmem)
      · rw [List.mem_singleton.mp hq, WorkflowInstance.plan_ids] at hmem
        exact hid (List.mem_append_left _ hmem)

theorem kept_subset (hkept : kept = [] ∨ kept = rows) {row : NodeInstance} (hrow : row ∈ kept) :
    row ∈ rows := by
  rcases hkept with rfl | rfl
  · exact absurd hrow List.not_mem_nil
  · exact hrow

theorem Inserted.mem_places (h : Inserted flow kept w w') (hkept : kept = [] ∨ kept = rows)
    {c : Place} (hc : c ∈ w'.db.places) :
    c ∈ w.db.places ∨ kept = rows ∧ ∃ row ∈ rows, row.place = c := by
  rw [h.places] at hc
  rcases List.mem_append.mp hc with hc | hc
  · exact .inl hc
  · obtain ⟨row, hrow, hplace⟩ := List.mem_map.mp hc
    rcases hkept with rfl | rfl
    · exact absurd hrow List.not_mem_nil
    · exact .inr ⟨rfl, row, hrow, hplace⟩

theorem Inserted.mem_plans (h : Inserted flow kept w w') {p : Plan} (hp : p ∈ w'.db.plans) :
    p ∈ w.db.plans ∨ p = flow.plan := by
  rw [h.plans] at hp
  rcases List.mem_append.mp hp with hp | hp
  · exact .inl hp
  · exact .inr (List.mem_singleton.mp hp)

theorem Inserted.nodup (h : Inserted flow kept w w') (hl : Layout w.db.plans w.db.places)
    (he : Entry w.db.used spec flow rows iter) (hkept : kept = [] ∨ kept = rows) :
    (w'.db.places.map Place.id).Nodup := by
  have hkeys : (kept.map NodeInstance.place).map Place.id = kept.map NodeInstance.id := by
    rw [List.map_map]
    rfl
  rw [h.places, List.map_append, hkeys]
  refine hl.nodes.append ?_ ?_
  · rcases hkept with rfl | rfl
    · exact List.nodup_nil
    · exact he.parsed.nodup
  · intro x hx hx'
    obtain ⟨c, hc, rfl⟩ := List.mem_map.mp hx
    obtain ⟨row, hrow, hid⟩ := List.mem_map.mp hx'
    apply he.row_fresh (kept_subset hkept hrow)
    rw [hid]
    exact Tables.place_mem_used hc

theorem Inserted.layout (h : Inserted flow kept w w') (hl : Layout w.db.plans w.db.places)
    (he : Entry w.db.used spec flow rows iter) (hkept : kept = [] ∨ kept = rows) :
    Layout w'.db.plans w'.db.places := by
  obtain ⟨hid, hids⟩ := he.fresh
  have hnew : flow.plan ∈ w'.db.plans := by
    rw [h.plans]
    exact List.mem_append_right _ (List.mem_singleton_self _)
  have hold : ∀ p ∈ w.db.plans, p ∈ w'.db.plans := by
    intro p hp
    rw [h.plans]
    exact List.mem_append_left _ hp
  have hflow_old : ∀ c ∈ w.db.places, ∃ p ∈ w.db.plans, c.flow = p.id := by
    intro c hc
    obtain ⟨p, hp, hflow, -⟩ := hl.seat c hc
    exact ⟨p, hp, hflow⟩
  refine ⟨h.nodup hl he hkept, ?_, ?_, ?_, ?_, ?_, ?_⟩
  · rw [h.plans]
    refine nodup_map_snoc hl.flows fun hm => ?_
    obtain ⟨p, hp, heq⟩ := List.mem_map.mp hm
    apply hid
    rw [← heq]
    exact Tables.id_mem_used hp
  · intro p hp
    rcases h.mem_plans hp with hp | rfl
    · exact hl.specs p hp
    · obtain ⟨order, iter', hsub⟩ := he.submitted
      rw [WorkflowInstance.plan_ids]
      exact hsub.nodup
  · intro p hp q hq x hxp hxq
    rcases h.mem_plans hp with hp | rfl
    · rcases h.mem_plans hq with hq | rfl
      · exact hl.apart p hp q hq x hxp hxq
      · exact absurd (Tables.spec_mem_used hp hxp) (hids x hxq)
    · rcases h.mem_plans hq with hq | rfl
      · exact absurd (Tables.spec_mem_used hq hxq) (hids x hxp)
      · rfl
  · intro p hp
    rcases h.mem_plans hp with hp | rfl
    · exact hl.ends p hp
    · exact he.ends
  · intro c hc
    rcases h.mem_places hkept hc with hc | ⟨-, row, hrow, rfl⟩
    · obtain ⟨p, hp, hflow, hseat⟩ := hl.seat c hc
      refine ⟨p, hold p hp, hflow, seat_mono hseat fun q hq => ?_⟩
      rcases h.mem_plans hq with hq | rfl
      · exact .inl hq
      · exact .inr fun hm => hids _ hm (Tables.place_mem_used hc)
    · refine ⟨flow.plan, hnew, (he.parsed.flow row hrow).1, ?_⟩
      rw [h.plans]
      exact he.seat hrow
  · intro p hp c hc hflow x hx
    rcases h.mem_places hkept hc with hc | ⟨heq, row, hrow, rfl⟩
    · rcases h.mem_plans hp with hp | rfl
      · obtain ⟨r, hr, hroot⟩ := hl.rows p hp c hc hflow x hx
        refine ⟨r, ?_, hroot⟩
        rw [h.places]
        exact List.mem_append_left _ hr
      · obtain ⟨q, hq, hid'⟩ := hflow_old c hc
        apply absurd (Tables.id_mem_used hq)
        rw [← hid', hflow]
        exact hid
    · rcases h.mem_plans hp with hp | rfl
      · have hrowflow : row.place.flow = flow.plan.id := (he.parsed.flow row hrow).1
        apply absurd (Tables.id_mem_used hp)
        rw [← hflow, hrowflow]
        exact hid
      · rw [WorkflowInstance.plan_ids] at hx
        obtain ⟨n, hn, rfl⟩ := List.mem_map.mp hx
        obtain ⟨r, hr, hnone, hrid⟩ := he.parsed.roots n hn
        refine ⟨r.place, ?_, hrid, (he.parsed.flow r hr).1, hnone⟩
        rw [h.places, heq]
        exact List.mem_append_right _ (List.mem_map_of_mem hr)

theorem Inserted.supply (h : Inserted flow kept w w') (he : Entry w.db.used spec flow rows iter)
    (hkept : kept = [] ∨ kept = rows) : Supply w'.db.used iter := by
  refine he.parsed.supply.mono fun a ha => ?_
  have hids : flow.plan.ids = flow.spec.nodeSpecs.map NodeSpec.id := flow.plan_ids
  simp only [Tables.used, h.plans, h.places, List.flatMap_append, List.flatMap_singleton,
    List.map_append, List.mem_append, List.mem_cons, hids] at ha
  rcases ha with (ha | rfl | ha) | ha | ha
  · exact List.mem_append_right _ (List.mem_append_right _ (List.mem_cons_of_mem _
      (List.mem_append_left _ ha)))
  · exact List.mem_append_right _ (List.mem_append_right _ List.mem_cons_self)
  · exact List.mem_append_right _ (List.mem_append_left _ ha)
  · exact List.mem_append_right _ (List.mem_append_right _ (List.mem_cons_of_mem _
      (List.mem_append_right _ ha)))
  · rw [List.map_map] at ha
    obtain ⟨row, hrow, rfl⟩ := List.mem_map.mp ha
    exact List.mem_append_left _ (List.mem_map_of_mem (kept_subset hkept hrow))

end Submission

end Kuintessence
