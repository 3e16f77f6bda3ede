import Kuintessence.Engine.Invariant
import Kuintessence.Instance.SubNodes

namespace Kuintessence

open Outcome

section Counts

variable {w w' : WorkflowInstanceSpec} {sub sub' : Uuid → Anyhow Nat} {n n' : NodeSpec}

def Plain (bs : List BatchStrategy) : Prop := ∀ b ∈ bs, b.kind ≠ .originalBatch

theorem find?_outline (specs : List NodeSpec) (x : Uuid) :
    (specs.find? (fun n => n.id == x)).map NodeSpec.outline =
      (specs.map NodeSpec.outline).find? (fun o => o.1 == x) := by
  rw [List.find?_map]
  rfl

theorem strategyCount_congr (hid : n.id = n'.id) (hrel : w.nodeRelations = w'.nodeRelations)
    (hsub : ∀ x, sub x = sub' x) {b : BatchStrategy} (hb : b.kind ≠ .originalBatch) :
    w.strategyCount sub n b = w'.strategyCount sub' n' b := by
  unfold WorkflowInstanceSpec.strategyCount
  cases hkind : b.kind with
  | originalBatch => exact absurd hkind hb
  | matchRegex regexToMatch fillCount filler => rfl
  | fromBatchOutputs =>
    have hdeps : w.nodeDependencyRelations n.id = w'.nodeDependencyRelations n'.id := by
      rw [WorkflowInstanceSpec.nodeDependencyRelations, hrel, hid]
      rfl
    simp only [hdeps, hsub]

theorem countStrategies_congr (hid : n.id = n'.id) (hrel : w.nodeRelations = w'.nodeRelations)
    (hsub : ∀ x, sub x = sub' x) {bs : List BatchStrategy} (hbs : Plain bs) (acc : Nat) :
    w.countStrategies sub n bs acc = w'.countStrategies sub' n' bs acc := by
  induction bs generalizing acc with
  | nil => rfl
  | cons b bs ih =>
    have hrest : Plain bs := fun b' hb' => hbs b' (List.mem_cons_of_mem b hb')
    simp only [WorkflowInstanceSpec.countStrategies,
      strategyCount_congr hid hrel hsub (hbs b List.mem_cons_self), ih hrest]

theorem subNodeCountAux_congr (hnodes : w.nodeSpecs.map NodeSpec.outline = w'.nodeSpecs.map NodeSpec.outline)
    (hrel : w.nodeRelations = w'.nodeRelations) (hplain : ∀ n ∈ w.nodeSpecs, Plain n.batchStrategies)
    (fuel : Nat) (x : Uuid) : w.subNodeCountAux fuel x = w'.subNodeCountAux fuel x := by
  induction fuel generalizing x with
  | zero => rfl
  | succ fuel ih =>
    have hfind := find?_outline w.nodeSpecs x
    rw [hnodes, ← find?_outline] at hfind
    unfold WorkflowInstanceSpec.subNodeCountAux WorkflowInstanceSpec.node
    cases hn : w.nodeSpecs.find? (fun n => n.id == x) with
    | none =>
      rw [hn, Option.map_none, eq_comm, Option.map_eq_none_iff] at hfind
      rw [hfind]
      rfl
    | some n =>
      rw [hn, Option.map_some, eq_comm, Option.map_eq_some_iff] at hfind
      obtain ⟨n', hn', houtline⟩ := hfind
      have hid : n.id = n'.id := (congrArg Prod.fst houtline).symm
      have hbs : n'.batchStrategies = n.batchStrategies := congrArg Prod.snd houtline
      rw [hn']
      change w.countStrategies _ n n.batchStrategies 1 = w'.countStrategies _ n' n'.batchStrategies 1
      rw [hbs]
      exact countStrategies_congr hid hrel ih (hplain n (List.mem_of_find?_eq_some hn)) 1

theorem subNodeCount_congr (hnodes : w.nodeSpecs.map NodeSpec.outline = w'.nodeSpecs.map NodeSpec.outline)
    (hrel : w.nodeRelations = w'.nodeRelations) (hplain : ∀ n ∈ w.nodeSpecs, Plain n.batchStrategies)
    (x : Uuid) : w.subNodeCount x = w'.subNodeCount x := by
  have hlen : w.nodeSpecs.length = w'.nodeSpecs.length := by
    rw [← List.length_map NodeSpec.outline, hnodes, List.length_map]
  rw [WorkflowInstanceSpec.subNodeCount, hlen]
  exact subNodeCountAux_congr hnodes hrel hplain _ x

section Nodes

open WorkflowInstanceSpec

variable {n : NodeSpec}

theorem node_of_mem {spec : WorkflowInstanceSpec} (hnodup : (spec.nodeSpecs.map NodeSpec.id).Nodup)
    (hn : n ∈ spec.nodeSpecs) : spec.node n.id = .ok n := by
  rw [node, unwrap_ok_iff]
  cases hfind : spec.nodeSpecs.find? (fun el => el.id == n.id) with
  | none =>
    rw [List.find?_eq_none] at hfind
    exact absurd (beq_self_eq_true _) (hfind n hn)
  | some m =>
    have hid := List.find?_some hfind
    rw [List.inj_on_of_nodup_map hnodup (List.mem_of_find?_eq_some hfind) hn (beq_iff_eq.mp hid)]

theorem subNodeCount_ok_iff {spec : WorkflowInstanceSpec} {count : Nat}
    (hnodup : (spec.nodeSpecs.map NodeSpec.id).Nodup) (hn : n ∈ spec.nodeSpecs) :
    spec.subNodeCount n.id = .ok count ↔
      spec.countStrategies (spec.subNodeCountAux spec.nodeSpecs.length) n n.batchStrategies 1 =
        .ok count := by
  rw [subNodeCount, subNodeCountAux, node_of_mem hnodup hn, ok_bind]

end Nodes

end Counts

variable {env : Env} {w w' : World} {f f' : WorkflowInstance} {ms : List NodeMark}
  {fs : List FlowMark} {news : List Cell → List Notice} {n : NodeSpec}

def rowsOf (places : List Place) (x : Uuid) : List Place :=
  places.filter (fun c => c.parent == some x)

theorem mem_rowsOf {places : List Place} {x : Uuid} {c : Place} :
    c ∈ rowsOf places x ↔ c ∈ places ∧ c.parent = some x := by
  rw [rowsOf, List.mem_filter, beq_iff_eq]

structure Stocked (w : World) : Prop where
  plain : ∀ f ∈ w.db.flows, ∀ n ∈ f.spec.nodeSpecs, Plain n.batchStrategies
  counted : ∀ f ∈ w.db.flows, (∃ c ∈ w.db.places, c.flow = f.id) → ∀ n ∈ f.spec.nodeSpecs,
    n.batchStrategies ≠ [] → f.spec.subNodeCount n.id = .ok (rowsOf w.db.places n.id).length

theorem exists_spec_of_plan (h : f'.plan = f.plan) (hn : n ∈ f'.spec.nodeSpecs) :
    ∃ m ∈ f.spec.nodeSpecs, m.outline = n.outline := by
  have hmem : n.outline ∈ f'.plan.nodes := List.mem_map_of_mem hn
  rw [h] at hmem
  exact List.mem_map.mp hmem

theorem Turn.stocked (h : Turn ms fs news w w') (hs : Stocked w) : Stocked w' := by
  refine ⟨fun f' hf' n hn => ?_, fun f' hf' hrows n hn hbatch => ?_⟩
  · obtain ⟨f, hf, hplan, -⟩ := h.commit.moves f' hf'
    obtain ⟨m, hm, houtline⟩ := exists_spec_of_plan hplan hn
    have hbs : m.batchStrategies = n.batchStrategies := congrArg Prod.snd houtline
    rw [← hbs]
    exact hs.plain f hf m hm
  · obtain ⟨f, hf, hplan, -⟩ := h.commit.moves f' hf'
    obtain ⟨m, hm, houtline⟩ := exists_spec_of_plan hplan hn
    have hid : m.id = n.id := congrArg Prod.fst houtline
    have hbs : m.batchStrategies = n.batchStrategies := congrArg Prod.snd houtline
    have hflow : f'.id = f.id := congrArg Plan.id hplan
    rw [h.commit.places, hflow] at hrows
    rw [← hbs] at hbatch
    have hcount := hs.counted f hf hrows m hm hbatch
    rw [subNodeCount_congr (congrArg Plan.nodes hplan).symm (congrArg Plan.relations hplan).symm
      (hs.plain f hf), hid] at hcount
    rw [h.commit.places]
    exact hcount

section Submission

variable {spec : WorkflowDraftSpec} {rows kept : List NodeInstance} {iter : Nat → Uuid}

theorem Accepted.plain {d : WorkflowDraftSpec} (h : Accepted d) : NoOriginalBatch d := by
  obtain ⟨fileExists, hok⟩ := h
  exact (WorkflowDraftSpec.validateWorkflowDraft_ok_iff.mp hok).noOriginalBatch

theorem Entry.plain (h : Entry w.db.used spec f rows iter) (hn : n ∈ f.spec.nodeSpecs) :
    Plain n.batchStrategies := by
  obtain ⟨order, iter', hsub⟩ := h.submitted
  obtain ⟨l, hl, hcopied⟩ := exists_of_forall₂ hsub.specs hn
  rw [hcopied.batchStrategies]
  exact h.accepted.plain l hl

theorem Layout.parent_used {t : Tables} (hl : Layout t.plans t.places) {c : Place}
    (hc : c ∈ t.places) {x : Uuid} (hparent : c.parent = some x) : x ∈ t.used := by
  obtain ⟨p, hp, hflow, -⟩ := hl.seat c hc
  have hhome := hl.home_mem hp hc hflow
  rw [Place.home, hparent] at hhome
  exact Tables.spec_mem_used hp hhome

theorem rowsOf_place (rows : List NodeInstance) (x : Uuid) :
    rowsOf (rows.map NodeInstance.place) x = (subsOf rows x).map NodeInstance.place := by
  rw [rowsOf, List.filter_map]
  rfl

theorem Inserted.rowsOf_eq (h : Inserted f kept w w') (x : Uuid) :
    rowsOf w'.db.places x = rowsOf w.db.places x ++ (subsOf kept x).map NodeInstance.place := by
  rw [h.places, rowsOf, List.filter_append, ← rowsOf, ← rowsOf, rowsOf_place]

theorem entry_subs_nil (he : Entry w.db.used spec f rows iter) (hkept : kept = [] ∨ kept = rows)
    {x : Uuid} (hx : x ∈ w.db.used) : subsOf kept x = [] := by
  refine subsOf_eq_nil fun row hrow hparent => ?_
  obtain ⟨m, hm, ⟨hroot, -⟩ | ⟨hsub, -, -⟩⟩ := he.parsed.place row (kept_subset hkept hrow)
  · rw [hroot] at hparent
    cases hparent
  · rw [hsub, Option.some.injEq] at hparent
    apply he.fresh.2 m.id (WorkflowInstance.spec_mem hm)
    rw [hparent]
    exact hx

theorem Inserted.stocked (h : Inserted f kept w w') (hs : Sound w) (hstock : Stocked w)
    (he : Entry w.db.used spec f rows iter) (hkept : kept = [] ∨ kept = rows) : Stocked w' := by
  obtain ⟨user, time, hflows⟩ := h.flows
  have hold : ∀ g ∈ w.db.flows, g.id ≠ f.id := by
    intro g hg heq
    have hused := Tables.id_mem_used (Tables.mem_plans hg)
    change g.id ∈ w.db.used at hused
    rw [heq] at hused
    exact he.fresh.1 hused
  refine ⟨fun g hg n hn => ?_, fun g hg hrows n hn hbatch => ?_⟩
  · rw [hflows] at hg
    rcases List.mem_append.mp hg with hg | hg
    · exact hstock.plain g hg n hn
    · rw [List.mem_singleton.mp hg] at hn
      exact he.plain hn
  · rw [hflows] at hg
    rw [h.rowsOf_eq, List.length_append, List.length_map]
    rcases List.mem_append.mp hg with hg | hg
    · have hnone : subsOf kept n.id = [] := by
        refine entry_subs_nil he hkept (Tables.spec_mem_used (Tables.mem_plans hg) ?_)
        exact WorkflowInstance.spec_mem hn
      have hrows' : ∃ c ∈ w.db.places, c.flow = g.id := by
        obtain ⟨c, hc, hflow⟩ := hrows
        rcases h.mem_places hkept hc with hc | ⟨-, row, hrow, rfl⟩
        · exact ⟨c, hc, hflow⟩
        · exact absurd (hflow.symm.trans (he.parsed.flow row hrow).1) (hold g hg)
      rw [hnone, List.length_nil, Nat.add_zero]
      exact hstock.counted g hg hrows' n hn hbatch
    · obtain rfl := List.mem_singleton.mp hg
      have hnone : rowsOf w.db.places n.id = [] := by
        rw [List.eq_nil_iff_forall_not_mem]
        intro c hc
        obtain ⟨hc, hparent⟩ := mem_rowsOf.mp hc
        apply he.fresh.2 n.id
        · rw [WorkflowInstance.plan_ids]
          exact List.mem_map_of_mem hn
        · exact hs.layout.parent_used hc hparent
      have hall : kept = rows := by
        obtain ⟨c, hc, hflow⟩ := hrows
        rcases h.mem_places hkept hc with hc | ⟨hall, -⟩
        · obtain ⟨p, hp, hid, -⟩ := hs.layout.seat c hc
          have hused := Tables.id_mem_used hp
          rw [← hid, hflow] at hused
          exact absurd hused he.fresh.1
        · exact hall
      rw [hnone, List.length_nil, Nat.zero_add, hall]
      exact he.parsed.counted n hn hbatch

end Submission

theorem step_stocked (hs : Sound w) (hstock : Stocked w) (q : Request) :
    Stocked (step env w q) := by
  by_cases hq : ∀ user draftId, q ≠ .submit user draftId
  · obtain ⟨ms, fs, news, turn⟩ := step_turned hs hq
    exact turn.stocked hstock
  · simp only [not_forall, not_not] at hq
    obtain ⟨user, draftId, rfl⟩ := hq
    cases (step_submit hs.supply user draftId : Submission env _ _ w _) with
    | lost turn => exact turn.stocked hstock
    | inserted draft k flow rows kept hdraft entry hkept inserted =>
      exact inserted.stocked hs hstock entry hkept

theorem start_stocked (ids : Nat → Uuid) (files : Files) : Stocked (World.start ids files) :=
  ⟨fun _ hf => absurd hf List.not_mem_nil, fun _ hf => absurd hf List.not_mem_nil⟩

theorem run_stocked {ids : Nat → Uuid} (hids : Function.Injective ids) (files : Files)
    (qs : List Request) : Stocked (run (step env) (World.start ids files) qs) := by
  refine (run_preserves (I := fun w => Sound w ∧ Stocked w) ?_
    ⟨start_sound hids files, start_stocked ids files⟩ qs).2
  exact fun w q ⟨hs, hstock⟩ => ⟨step_sound hs q, step_stocked hs hstock q⟩

end Kuintessence
