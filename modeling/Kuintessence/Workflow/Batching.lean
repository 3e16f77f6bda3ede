import Kuintessence.Engine.Ledger
import Kuintessence.Workflow.Opening

namespace Kuintessence

open Effect Outcome

variable {ids iter : Nat → Uuid} {env : Env} {w s : World} {db : Tables} {f : WorkflowInstance}
  {n : NodeSpec} {relations : List NodeRelation} {tasks : List NodeSpec}
  {slots : List (String × List Input)}

structure Reckoned (w : World) : Prop where
  sound : Sound w
  stocked : Stocked w
  primed : Primed w
  known : Known w
  ledger : Ledger w

theorem start_reckoned (hids : Function.Injective ids) (files : Files) :
    Reckoned (World.start ids files) :=
  ⟨start_sound hids files, start_stocked ids files, start_primed ids files,
    fun _ hx => absurd hx List.not_mem_nil, ⟨fun _ hp => absurd hp List.not_mem_nil⟩⟩

theorem step_reckoned (h : Reckoned w) (q : Request) (hbooked : Booked w (step env w q)) :
    Reckoned (step env w q) :=
  ⟨step_sound h.sound q, step_stocked h.sound h.stocked q, step_primed h.sound h.primed q,
    step_known h.sound h.known q, step_ledger h.ledger h.sound h.stocked h.primed h.known q hbooked⟩

-- As many combinations as rows: each row gets a task.
theorem Debatched.perm (h : Debatched ids iter db relations n tasks)
    (hcombos : ∀ slots, List.Forall₂ (SlotFor db relations n) n.batchStrategies slots →
      (allPossibleInputs slots).length = (rowsOf db.places n.id).length) :
    (tasks.map NodeSpec.id).Perm ((rowsOf db.places n.id).map Place.id) := by
  obtain ⟨slots, hslots, subs, hperm, htasks⟩ := h.split
  have hlen := hcombos slots hslots
  rw [← List.length_map Place.id, rowsOf_ids, ← (hperm.map _).length_eq] at hlen
  have hids : ((subs.map NodeInstance.id).zip (allPossibleInputs slots)).map Prod.fst =
      tasks.map NodeSpec.id := map_eq_of_forall₂ (htasks.imp fun _ _ hsub => hsub.id.symm)
  rw [map_fst_zip_take, hlen, List.take_length] at hids
  rw [← hids, rowsOf_ids]
  exact hperm.map _

theorem combos_match_sub_nodes (hids : Function.Injective ids) (files : Files) (qs : List Request)
    (hbooked : Along (step env) (fun w q => Booked w (step env w q)) (World.start ids files) qs)
    (hw : run (step env) (World.start ids files) qs = w) (hstood : Stood w f.id f.spec)
    (hn : n ∈ f.spec.nodeSpecs) (hbatch : n.batchStrategies ≠ []) (hfed : Fed w f.spec n) :
    f.spec.subNodeCount n.id = .ok (rowsOf w.db.places n.id).length ∧
      ∀ s, Session w s → ∀ env',
        (∀ slots t, batchSlots (f.spec.nodeDependencyRelations n.id) n env' s = (.ok slots, t) →
          (allPossibleInputs slots).length = (rowsOf w.db.places n.id).length) ∧
        ∀ tasks t, debatch (f.spec.nodeDependencyRelations n.id) n env' s = (.ok tasks, t) →
          (tasks.map NodeSpec.id).Perm ((rowsOf w.db.places n.id).map Place.id) := by
  obtain ⟨hs, hstock, hprimed, -, hledger⟩ : Reckoned w := by
    rw [← hw]
    exact run_invariant (I := Reckoned) (fun _ q h hb => step_reckoned h q hb)
      (start_reckoned hids files) hbooked
  refine ⟨hstood.counted hstock hn hbatch, ?_⟩
  intro s hsession env'
  have hcombos : ∀ slots, List.Forall₂
      (SlotFor s.db (f.spec.nodeDependencyRelations n.id) n) n.batchStrategies slots →
      (allPossibleInputs slots).length = (rowsOf w.db.places n.id).length := fun slots hslots =>
    hstood.combos hs hstock hprimed hledger hn hbatch hfed hsession.places hsession.specs hslots
  have hmid : Mid s.ids s.db (notices s.trace) [] [] s := .idle hsession.statements
  refine ⟨fun slots t hrun => ?_, fun tasks t hrun => ?_⟩
  · have hwp : wp (batchSlots (f.spec.nodeDependencyRelations n.id) n) env' _ _ s :=
      wp_batchSlots hmid _ n
    rw [wp_of_eq hrun] at hwp
    exact hcombos slots hwp.2
  · have hwp : wp (debatch (f.spec.nodeDependencyRelations n.id) n) env' _ _ s :=
      wp_debatch hmid _ n
    rw [wp_of_eq hrun] at hwp
    rw [← hsession.places] at hcombos ⊢
    exact hwp.2.perm hcombos

section Samples

instance (k : BatchStrategyKind) : Decidable k.Vain :=
  match k with
  | .originalBatch => .isFalse id
  | .matchRegex _ fillCount _ => inferInstanceAs (Decidable (fillCount = 0))
  | .fromBatchOutputs => .isFalse id

instance (w : World) (spec : WorkflowInstanceSpec) (n : NodeSpec) : Decidable (Fed w spec n) :=
  decidable_of_iff
    ((∀ b ∈ n.batchStrategies, b.kind = .fromBatchOutputs →
      ∀ r ∈ (spec.nodeDependencyRelations n.id).find? (WorkflowDraftSpec.feeds b.inputSlotDescriptor),
        ∀ feed ∈ lastFeed (spec.nodeDependencyRelations n.id) b.inputSlotDescriptor,
          feed.1 = r.fromId) ∧
    (∀ b ∈ n.batchStrategies, b.kind = .fromBatchOutputs →
      ∀ r ∈ (spec.nodeDependencyRelations n.id).find? (WorkflowDraftSpec.feeds b.inputSlotDescriptor),
        ∀ m ∈ spec.nodeSpecs, m.id = r.fromId → m.batchStrategies ≠ [] →
          m.id ∈ (handed w).map NodeSpec.id ∧ rowsOf w.db.places m.id ≠ []) ∧
    ∀ b ∈ n.batchStrategies.dropLast, ¬b.kind.Vain)
    ⟨fun ⟨h, h', h''⟩ => ⟨h, h', h''⟩, fun h => ⟨h.alone, h.handed, h.positive⟩⟩

instance (w w' : World) : Decidable (Booked w w') :=
  decidable_of_iff
    ((∀ p ∈ w.db.specs, ∀ n ∈ p.2.nodeSpecs, n.batchStrategies ≠ [] →
      n.id ∈ (newly w w').map NodeSpec.id → Fed w p.2 n) ∧
    ∀ p ∈ w'.db.specs, ∀ m ∈ p.2.nodeSpecs, m.batchStrategies ≠ [] →
      rowsOf w'.db.places m.id ≠ [] → ∀ task ∈ newly w w', task.id = m.id →
        m.outputSlots = task.outputSlots → m.outputSlots = [])
    ⟨fun ⟨h, h'⟩ => ⟨h, h'⟩, fun h => ⟨h.fed, h.stored⟩⟩

def reporting : List Request := started ++ [105, 106, 107].map (fun id => report id .success)

def reportedSameSecond : World :=
  run (step (sameSecond twoStages)) (.start sampleIds sampleFiles) (sampleRequests twoStages reporting)

def debatchIn (env : Env) (w : World) (f : WorkflowInstance) (n : NodeSpec) :
    Anyhow (List NodeSpec) × World :=
  debatch (f.spec.nodeDependencyRelations n.id) n env (w.open none)

def Debatches (env : Env) (w : World) (f : WorkflowInstance) (n : NodeSpec) : Bool :=
  match (debatchIn env w f n).1 with
  | .ok _ => true
  | _ => false

theorem Debatches.exists_tasks {env : Env} {w : World} {f : WorkflowInstance} {n : NodeSpec}
    (h : Debatches env w f n = true) : ∃ tasks t, debatchIn env w f n = (.ok tasks, t) := by
  unfold Debatches at h
  generalize debatchIn env w f n = out at h ⊢
  obtain ⟨o, t⟩ := out
  cases o with
  | ok tasks => exact ⟨tasks, t, rfl⟩
  | err e => cases h
  | panic => cases h

theorem twoStages_combos_match : ∃ f ∈ reportedSameSecond.db.flows, ∃ n ∈ f.spec.nodeSpecs,
    n.id = 103 ∧ f.spec.subNodeCount n.id = .ok (rowsOf reportedSameSecond.db.places n.id).length ∧
      ∃ tasks t, debatchIn (sameSecond twoStages) reportedSameSecond f n = (.ok tasks, t) ∧
        (tasks.map NodeSpec.id).Perm ((rowsOf reportedSameSecond.db.places n.id).map Place.id) := by
  have hbooked : Along (step (sameSecond twoStages))
      (fun w q => Booked w (step (sameSecond twoStages) w q)) (.start sampleIds sampleFiles)
      (sampleRequests twoStages reporting) := by decide +kernel
  have hnode : ∃ f ∈ reportedSameSecond.db.flows, ∃ n ∈ f.spec.nodeSpecs, n.id = 103 ∧
      (∃ c ∈ reportedSameSecond.db.places, c.flow = f.id) ∧ n.batchStrategies ≠ [] ∧
      Fed reportedSameSecond f.spec n ∧
      Debatches (sameSecond twoStages) reportedSameSecond f n = true := by decide +kernel
  have hrun : run (step (sameSecond twoStages)) (.start sampleIds sampleFiles)
      (sampleRequests twoStages reporting) = reportedSameSecond := rfl
  generalize reportedSameSecond = w at hnode hrun ⊢
  obtain ⟨f, hf, n, hn, hid, hrows, hbatch, hfed, hok⟩ := hnode
  obtain ⟨tasks, t, hdebatch⟩ := Debatches.exists_tasks hok
  obtain ⟨hcount, hmatch⟩ := combos_match_sub_nodes sampleIds_injective sampleFiles _ hbooked hrun
    ⟨Tables.mem_specs hf, hrows⟩ hn hbatch hfed
  have hsession : Session w (w.open none) := ⟨rfl, rfl, rfl, .refl _⟩
  exact ⟨f, hf, n, hn, hid, hcount, tasks, t, hdebatch, (hmatch _ hsession _).2 tasks t hdebatch⟩

def combosIn (env : Env) (w : World) (f : WorkflowInstance) (n : NodeSpec) : Anyhow Nat := do
  let slots ← (batchSlots (f.spec.nodeDependencyRelations n.id) n env (w.open none)).1
  .ok (allPossibleInputs slots).length

def vain : WorkflowDraft := sampleDraft
  [{ sampleNode 1 (filledSlot "t") none "o" with
    inputSlots := [filledSlot "t", filledSlot "u"]
    batchStrategies := some [⟨"t", none, .matchRegex "#" 0 (.autoNumber 0 1)⟩,
      ⟨"u", none, sampleFiller⟩] }]
  []

theorem combos_differ :
    (∃ f ∈ (runSample twoStages reporting).db.flows, ∃ n ∈ f.spec.nodeSpecs,
      f.spec.subNodeCount n.id = .ok 3 ∧
        combosIn (sampleEnv [twoStages]) (runSample twoStages reporting) f n = .ok 1) ∧
    (handed (runSample twoStages (reporting ++ [report 101 .success]))).map NodeSpec.id =
      [101, 105, 106, 107, 103, 108] ∧
    ∃ f ∈ (runSample vain started).db.flows, ∃ n ∈ f.spec.nodeSpecs,
      f.spec.subNodeCount n.id = .ok 0 ∧
        combosIn (sampleEnv [vain]) (runSample vain started) f n = .ok 3 := by
  decide +kernel

end Samples

end Kuintessence
