import Kuintessence.Engine.Respecs
import Kuintessence.Workflow.Opening
import Kuintessence.Workflow.Precedence

namespace Kuintessence

open Effect Outcome

variable {ids iter : Nat → Uuid} {env : Env} {w s t u : World} {db db' : Tables}
  {mode : ScheduleMode} {flow : WorkflowInstance} {n task : NodeSpec} {entries : List Uuid}
  {outs : List (NodeSpec × List NodeSpec)} {out : NodeSpec × List NodeSpec}
  {static : WorkflowInstanceSpec} {given kept : List NodeSpec}

def Tables.Running (t : Tables) (x : Uuid) : Prop := ∃ n ∈ t.nodes, n.id = x ∧ n.status = .running

def Tables.SubNode (t : Tables) (x : Uuid) : Prop := ∃ c ∈ t.places, c.id = x ∧ c.parent ≠ none

-- The instance keeps, in the node the task stands for, every id prepared for the task's outputs.
def Tables.Stores (t : Tables) (task : NodeSpec) : Prop :=
  ∃ c ∈ t.places, c.id = task.id ∧ ∃ p ∈ t.specs, p.1 = c.flow ∧ ∃ m ∈ p.2.nodeSpecs, m.id = c.home ∧
    ∀ slot ∈ task.outputSlots, ∃ slot' ∈ m.outputSlots, slot'.descriptor = slot.descriptor ∧
      ∀ id ∈ slot.prepared, id ∈ slot'.prepared

structure Settled (given : List NodeSpec) (s t : World) : Prop where
  running : ∀ n ∈ t.db.nodes, n.status = .running →
    n.id ∈ given.map NodeSpec.id ∨ s.db.Running n.id
  stores : ∀ task ∈ given, t.db.Stores task

section Settling

theorem Readied.running (h : Readied ids db flow outs t) {n : NodeInstance} (hn : n ∈ t.db.nodes)
    (hrunning : n.status = .running) : n.id ∈ taskIds outs ∨ db.Running n.id := by
  obtain ⟨ms, fs, hms, hc⟩ := h.saved
  have hcell := mem_cells hn
  rw [hc.cells_eq] at hcell
  obtain ⟨c, hc', hsettle⟩ := List.mem_map.mp hcell
  obtain ⟨m, hm, rfl⟩ := List.mem_map.mp hc'
  have hplace : m.place = n.place := congrArg Prod.fst hsettle
  have hid : m.id = n.id := congrArg Place.id hplace
  have hstatus : overwrite (ms ++ Kuintessence.running (taskIds outs)) m.id m.status = .running :=
    (congrArg Prod.snd hsettle).trans hrunning
  rcases @overwrite_mem (ms ++ Kuintessence.running (taskIds outs)) m.id m.status with hsame | hmark
  · rw [hsame] at hstatus
    exact .inr ⟨m, hm, hid, hstatus⟩
  · rw [hstatus] at hmark
    rcases List.mem_append.mp hmark with hmark | hmark
    · exact NodeInstanceStatus.noConfusion (hms _ hmark)
    · rw [← hid]
      exact .inl (status_of_mem_running hmark).1

theorem running_iff_cells {x : Uuid} :
    db.Running x ↔ ∃ c ∈ cells db.nodes, c.1.id = x ∧ c.2 = .running := by
  rw [exists_cells]
  rfl

theorem Readied.marked (h : Readied ids db flow outs t) {x : Uuid} (hx : x ∈ taskIds outs) :
    t.db.Running x := by
  obtain ⟨ms, fs, -, hc⟩ := h.saved
  obtain ⟨c, hplace, rfl⟩ := h.gives.seated x hx
  obtain ⟨d, hd, rfl⟩ := cell_of_place hplace
  rw [running_iff_cells, hc.cells_eq]
  refine ⟨_, List.mem_map_of_mem hd, rfl, ?_⟩
  change overwrite (ms ++ Kuintessence.running (taskIds outs)) d.1.id d.2 = .running
  rw [overwrite_append, Kuintessence.running, overwrite_same, if_pos hx]

theorem Gives.tasks (h : Gives ids iter db flow outs) :
    ∃ entries, Tasks db.places flow.plan entries (taskIds outs) := by
  obtain ⟨entries, db', hplaces, -, houts⟩ := h.prepares
  have hlisted := houts.listed
  rw [hplaces] at hlisted
  exact ⟨entries, hlisted, h.seated⟩

theorem places_of_cells (h : cells db'.nodes = cells db.nodes) : db'.places = db.places := by
  rw [← Tables.cells_fst, ← Tables.cells_fst, h]

theorem Readied.places (h : Readied ids db flow outs t) : t.db.places = db.places := by
  obtain ⟨ms, fs, -, hc⟩ := h.saved
  exact hc.places

theorem Gives.stores_iff (h : Gives ids iter db flow outs) (hl : Layout db.plans db.places)
    (hfresh : ∀ k, ¬db.specs.Prepared (ids k)) (hplaces : db'.places = db.places)
    (hspecs : db'.specs = db.specs) (htask : task ∈ outs.flatMap Prod.snd) :
    db'.Stores task ↔ (db.SubNode task.id → task.outputSlots = []) := by
  have hplan := Tables.plan_of_specs h.spec
  have hhome : ∀ c ∈ db.places, ∀ n ∈ flow.spec.nodeSpecs, c.home = n.id → flow.id = c.flow := by
    intro c hc n hn hid
    have hin := WorkflowInstance.spec_mem hn
    rw [← hid] at hin
    exact (hl.flow_of_home hplan hc hin).symm
  unfold Tables.Stores
  rw [hplaces, hspecs]
  cases h.origin htask with
  | root n hn hid hslots =>
    have hin := WorkflowInstance.spec_mem hn
    constructor
    · rintro - ⟨c, hc, hcid, hparent⟩
      rw [← hid, ← hcid] at hin
      exact absurd (hl.root_of_id hplan hc hin).1 hparent
    · rintro -
      obtain ⟨c, hc, hcid⟩ := h.seated task.id (List.mem_map_of_mem htask)
      rw [← hid, ← hcid] at hin
      have hself : c.home = n.id := by
        rw [Layout.home_of_root (hl.root_of_id hplan hc hin).1, hcid, hid]
      refine ⟨c, hc, hcid, _, h.spec, hhome c hc n hn hself, n, hn, hself.symm, ?_⟩
      rw [hslots]
      exact fun slot hslot => ⟨slot, hslot, rfl, fun _ hmem => hmem⟩
  | sub n hn c hc hid hparent hdrawn =>
    have hself : c.home = n.id := by
      rw [Place.home, hparent]
      rfl
    constructor
    · rintro ⟨-, -, -, p, hp, -, m, hm, -, hstores⟩ -
      rw [List.eq_nil_iff_forall_not_mem]
      intro slot hslot
      obtain ⟨_, hown, k, l, -, -, rfl⟩ := hdrawn slot hslot
      obtain ⟨slot', hslot', -, hsub⟩ := hstores slot hslot
      exact hfresh k ⟨p, hp, m, hm, slot', hslot', hsub _ (by simp [hown])⟩
    · intro hnone
      rw [hnone ⟨c, hc, hid, by rw [hparent]; exact Option.some_ne_none _⟩]
      exact ⟨c, hc, hid, _, h.spec, hhome c hc n hn hself, n, hn, hself.symm,
        fun _ hslot => absurd hslot List.not_mem_nil⟩

theorem Readied.settled_iff (h : Readied ids s.db flow outs t)
    (hl : Layout s.db.plans s.db.places) (hfresh : ∀ k, ¬s.db.specs.Prepared (ids k))
    (hcells : cells u.db.nodes = cells t.db.nodes) (hspecs : u.db.specs = s.db.specs)
    (htasks : outs.flatMap Prod.snd = given ++ kept) :
    Settled given s u ↔ (∀ task ∈ kept, s.db.Running task.id) ∧
      ∀ task ∈ given, s.db.SubNode task.id → task.outputSlots = [] := by
  have hplaces : u.db.places = s.db.places := (places_of_cells hcells).trans h.places
  have hids : taskIds outs = given.map NodeSpec.id ++ kept.map NodeSpec.id := by
    rw [taskIds, htasks, List.map_append]
  have hstores : ∀ task ∈ given,
      u.db.Stores task ↔ (s.db.SubNode task.id → task.outputSlots = []) := by
    intro task htask
    refine h.gives.stores_iff hl hfresh hplaces hspecs ?_
    rw [htasks]
    exact List.mem_append_left _ htask
  constructor
  · rintro ⟨hrunning, hall⟩
    refine ⟨fun task htask => ?_, fun task htask => (hstores task htask).mp (hall task htask)⟩
    obtain ⟨entries, hlist⟩ := h.gives.tasks
    have hnodup := hlist.nodup hl (Tables.plan_of_specs h.gives.spec)
    rw [hids] at hnodup
    have hmem : task.id ∈ kept.map NodeSpec.id := List.mem_map_of_mem htask
    have hmarked := h.marked (hids ▸ List.mem_append_right _ hmem)
    rw [running_iff_cells, ← hcells, ← running_iff_cells] at hmarked
    obtain ⟨n, hn, hid, hstatus⟩ := hmarked
    have hcase := hrunning n hn hstatus
    rw [hid] at hcase
    exact hcase.resolve_left fun hgiven => List.disjoint_of_nodup_append hnodup hgiven hmem
  · rintro ⟨hkept, hgiven⟩
    refine ⟨fun n hn hstatus => ?_, fun task htask => (hstores task htask).mpr (hgiven task htask)⟩
    have hrun : u.db.Running n.id := ⟨n, hn, rfl, hstatus⟩
    rw [running_iff_cells, hcells, ← running_iff_cells] at hrun
    obtain ⟨m, hm, hid, hmstatus⟩ := hrun
    rcases h.running hm hmstatus with hmem | hbefore
    · rw [hid, hids] at hmem
      rcases List.mem_append.mp hmem with hmem | hmem
      · exact .inl hmem
      · obtain ⟨task, htask, hid⟩ := List.mem_map.mp hmem
        rw [← hid]
        exact .inr (hkept task htask)
    · rw [hid] at hbefore
      exact .inr hbefore

end Settling

-- Where a scheduling call breaks off: before the `Running` statuses are saved, or after it with the
-- tasks sent so far and the ones from the first failing send on (none where only the last save fails).
inductive Stop where
  | early
  | late (sent unsent : List NodeSpec)
  deriving DecidableEq, Repr

def stopOf (env : Env) (mode : ScheduleMode) (s : World) : Stop :=
  (ready mode).outcome env s
    (fun out t => match out with
      | none => .early
      | some p =>
        .late (sendUntil env (p.2.flatMap Prod.snd) t).1 (sendUntil env (p.2.flatMap Prod.snd) t).2)
    (fun _ => .early)

namespace Stop

-- `counted` says whether a task whose own send fails counts as handed over.
def gave (counted : Bool) : Stop → List NodeSpec
  | .early => []
  | .late sent unsent => if counted then sent ++ unsent.take 1 else sent

def left (counted : Bool) : Stop → List NodeSpec
  | .early => []
  | .late _ unsent => if counted then unsent.drop 1 else unsent

structure Harmless (counted : Bool) (stop : Stop) (db : Tables) : Prop where
  left : ∀ task ∈ stop.left counted, db.Running task.id
  gave : ∀ task ∈ stop.gave counted, db.SubNode task.id → task.outputSlots = []

theorem gave_append_left (counted : Bool) (sent unsent : List NodeSpec) :
    (Stop.late sent unsent).gave counted ++ (Stop.late sent unsent).left counted =
      sent ++ unsent := by
  cases counted with
  | true =>
    change (sent ++ unsent.take 1) ++ unsent.drop 1 = _
    rw [List.append_assoc, List.take_append_drop]
  | false => rfl

end Stop

structure Broken (s : World) (stop : Stop) (t : World) : Prop where
  handed_eq : handed t = handed s ++ stop.gave true
  settled : ∀ counted, Settled (stop.gave counted) s t ↔ stop.Harmless counted s.db

theorem Unready.broken (h : Unready s.db t) (hsent : handed t = handed s) : Broken s .early t := by
  refine ⟨by rw [hsent, Stop.gave, List.append_nil], fun counted => iff_of_true ⟨?_, ?_⟩ ⟨?_, ?_⟩⟩
  · intro n hn hstatus
    obtain ⟨fs, hc⟩ := h
    have hrun : t.db.Running n.id := ⟨n, hn, rfl, hstatus⟩
    rw [running_iff_cells, hc.cells_eq, map_settle_nil, ← running_iff_cells] at hrun
    exact .inr hrun
  · exact fun _ htask => absurd htask List.not_mem_nil
  · exact fun _ htask => absurd htask List.not_mem_nil
  · exact fun _ htask => absurd htask List.not_mem_nil

section Session

variable {sent unsent : List NodeSpec}

structure Poised (s : World) : Prop where
  layout : Layout s.db.plans s.db.places
  statements : s.statements = []
  fresh : ∀ k, ¬s.db.specs.Prepared (s.ids k)

theorem Poised.still (h : Poised s) : Still s.db.specs (handed s) s := by
  refine ⟨⟨rfl, fun f hf => ?_⟩, rfl⟩
  rw [h.statements] at hf
  exact absurd hf List.not_mem_nil

theorem Readied.broken (h : Readied s.ids s.db flow outs t) (hp : Poised s)
    (hcells : cells u.db.nodes = cells t.db.nodes) (hspecs : u.db.specs = s.db.specs)
    (htasks : outs.flatMap Prod.snd = sent ++ unsent)
    (hsent : handed u = handed s ++ (sent ++ unsent.take 1)) : Broken s (.late sent unsent) u := by
  refine ⟨hsent, fun counted => ?_⟩
  rw [h.settled_iff hp.layout hp.fresh hcells hspecs
    (htasks.trans (Stop.gave_append_left counted sent unsent).symm)]
  exact ⟨fun ⟨hkept, hgiven⟩ => ⟨hkept, hgiven⟩, fun ⟨hkept, hgiven⟩ => ⟨hkept, hgiven⟩⟩

theorem wp_broken (hp : Poised s) (mode : ScheduleMode) :
    wp (scheduleNextNodes mode) env (fun _ _ => True) (Broken s (stopOf env mode s)) s := by
  have hk := hp.layout.keyed
  rw [scheduleNextNodes_eq, wp_bind]
  refine wp_mono (wp_and (wp_result (ready mode) env s) (wp_ready (.idle hp.statements) hk hp.still mode)) ?_ ?_
  · rintro out t ⟨hrun, hstill, hready⟩
    cases out with
    | none => trivial
    | some p =>
      obtain ⟨flow, outs⟩ := p
      have hreadied := hready _ rfl
      have hstop : stopOf env mode s = .late (sendUntil env (outs.flatMap Prod.snd) t).1
          (sendUntil env (outs.flatMap Prod.snd) t).2 := outcome_ok hrun
      have hspecs : t.db.specs = s.db.specs := hstill.steady.specs_eq
      have hkt : t.db.Keyed := by
        obtain ⟨ms, fs, -, hc⟩ := hreadied.saved
        exact hc.keyed hk
      rw [← hspecs] at hstill
      change wp (Effect.each sendUsecase (outs.flatMap Prod.snd) >>= fun _ => store flow outs) env _ _ t
      rw [wp_bind]
      refine wp_mono (wp_sends hreadied.mid hkt hstill _) ?_ ?_
      · rintro _ u ⟨hcut, hmid, hsending⟩
        have hknown : (flow.id, flow.spec) ∈ t.db.specs := hspecs ▸ hreadied.gives.spec
        refine wp_mono (wp_store hmid hsending.still hkt.specs hknown) (fun _ _ _ => trivial) ?_
        rintro v ⟨hdb, hsent, -⟩
        rw [hstop, hcut]
        refine hreadied.broken hp ?_ ?_ (List.append_nil _).symm ?_
        · rw [hdb]
          exact hsending.cells_eq
        · rw [hdb]
          exact hsending.still.steady.specs_eq.trans hspecs
        · rw [hsent, List.take_nil, List.append_nil]
      · rintro u ⟨done, failed, rest, hcut, heq, hsending⟩
        rw [hstop, hcut]
        exact hreadied.broken hp hsending.cells_eq (hsending.still.steady.specs_eq.trans hspecs) heq
          hsending.still.handed_eq
  · rintro t ⟨hfail, hstill, hunready⟩
    have hstop : stopOf env mode s = .early := outcome_lost hfail
    rw [hstop]
    exact hunready.broken hstill.handed_eq

theorem Tables.plans_of_specs (t : Tables) : t.plans =
    t.specs.map fun p => ⟨p.1, p.2.nodeSpecs.map NodeSpec.outline, p.2.nodeRelations⟩ := by
  rw [Tables.plans, Tables.specs, List.map_map]
  rfl

theorem Session.poised (h : Session w s) (hs : Sound w) (hu : Unspent w) : Poised s := by
  refine ⟨?_, h.statements, fun k => ?_⟩
  · rw [Tables.plans_of_specs, h.specs, h.places, ← Tables.plans_of_specs]
    exact hs.layout
  · obtain ⟨l, hl⟩ := h.ids
    rw [h.specs, hl]
    exact hu (l + k)

theorem breaks_off_settled_iff {ids : Nat → Uuid} (hids : Function.Injective ids) (files : Files)
    (qs : List Request) (hsession : Session (run (step env) (World.start ids files) qs) s)
    (env' : Env) (mode : ScheduleMode) (hfail : ∀ a, (scheduleNextNodes mode env' s).1 ≠ .ok a) :
    handed (scheduleNextNodes mode env' s).2 = handed s ++ (stopOf env' mode s).gave true ∧
      ∀ counted, Settled ((stopOf env' mode s).gave counted) s (scheduleNextNodes mode env' s).2 ↔
        (stopOf env' mode s).Harmless counted s.db := by
  have hpoised := hsession.poised (run_sound (start_sound hids files) qs)
    (run_unspent hids files qs)
  have hwp : wp (scheduleNextNodes mode) env' _ _ s := wp_broken hpoised mode
  rcases wp_run hwp with ⟨a, hok, -⟩ | ⟨-, hbroken⟩
  · exact absurd hok (hfail a)
  · exact ⟨hbroken.handed_eq, hbroken.settled⟩

end Session

section Samples

instance (t : Tables) (x : Uuid) : Decidable (t.Running x) :=
  inferInstanceAs (Decidable (∃ n ∈ t.nodes, n.id = x ∧ n.status = .running))

instance (t : Tables) (task : NodeSpec) : Decidable (t.Stores task) :=
  inferInstanceAs (Decidable (∃ c ∈ t.places, c.id = task.id ∧ ∃ p ∈ t.specs, p.1 = c.flow ∧
    ∃ m ∈ p.2.nodeSpecs, m.id = c.home ∧ ∀ slot ∈ task.outputSlots, ∃ slot' ∈ m.outputSlots,
      slot'.descriptor = slot.descriptor ∧ ∀ id ∈ slot.prepared, id ∈ slot'.prepared))

def breakingAt (k : Nat) : Env := { sampleEnv [batched] with fails := fun c => c == k }

def submittedBatched : World := (runSample batched []).open (some 5)

def brokenAt (k : Nat) : Anyhow Unit × World :=
  scheduleNextNodes (.workflowInstanceId 100) (breakingAt k) submittedBatched

theorem batched_breaks_off_early : Settled [] submittedBatched (brokenAt 20).2 := by
  have hfail : (brokenAt 20).1 ≠ .ok () := by decide +kernel
  have hstop : stopOf (breakingAt 20) (.workflowInstanceId 100) submittedBatched = .early := by
    decide +kernel
  have hsession : Session (runSample batched []) submittedBatched := ⟨rfl, rfl, rfl, .refl _⟩
  unfold runSample at hsession
  obtain ⟨-, hsettled⟩ :=
    breaks_off_settled_iff sampleIds_injective sampleFiles _ hsession (breakingAt 20) _
      fun _ => hfail
  rw [hstop] at hsettled
  exact (hsettled true).mpr ⟨fun _ h => absurd h List.not_mem_nil, fun _ h => absurd h List.not_mem_nil⟩

theorem batched_breaks_off_late :
    ((brokenAt 48).1 ≠ .ok () ∧ ∃ n ∈ (brokenAt 48).2.db.nodes, n.status = .running ∧
      n.id ∉ (handed (brokenAt 48).2).map NodeSpec.id ∧ ¬submittedBatched.db.Running n.id) ∧
    (brokenAt 70).1 ≠ .ok () ∧ ∃ task ∈ handed (brokenAt 70).2, ¬(brokenAt 70).2.db.Stores task := by
  decide +kernel

end Samples

end Kuintessence
