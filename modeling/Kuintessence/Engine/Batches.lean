import Kuintessence.Engine.Selection
import Mathlib.Algebra.BigOperators.Ring.List

namespace Kuintessence

open Effect Outcome

section Counting

def comboCount (sizes : List Nat) : Nat :=
  sizes.foldl (fun acc k => if acc = 0 then k else k * acc) 0

theorem length_foldl_combos (slots : List (String × List Input))
    (all : List (List (String × Input))) :
    (slots.foldl (fun all slot =>
      if all.isEmpty then slot.2.map (fun j => [(slot.1, j)])
      else slot.2.flatMap (fun j => all.map (fun k => k ++ [(slot.1, j)]))) all).length =
      (slots.map fun slot => slot.2.length).foldl (fun acc k => if acc = 0 then k else k * acc)
        all.length := by
  induction slots generalizing all with
  | nil => rfl
  | cons slot slots ih =>
    rw [List.foldl_cons, ih, List.map_cons, List.foldl_cons]
    congr 1
    cases all with
    | nil => simp
    | cons combo all =>
      simp only [List.isEmpty_cons, Bool.false_eq_true, if_false, List.length_flatMap,
        List.length_map, List.map_const', List.sum_replicate_nat, List.length_cons,
        Nat.add_eq_zero_iff, Nat.one_ne_zero, and_false]

theorem length_allPossibleInputs (slots : List (String × List Input)) :
    (allPossibleInputs slots).length = comboCount (slots.map fun slot => slot.2.length) :=
  length_foldl_combos slots []

theorem foldl_combos_pos {sizes : List Nat} {acc : Nat} (hacc : acc ≠ 0)
    (h : ∀ k ∈ sizes, k ≠ 0) :
    sizes.foldl (fun acc k => if acc = 0 then k else k * acc) acc = acc * sizes.prod := by
  induction sizes generalizing acc with
  | nil => simp
  | cons k sizes ih =>
    have hk : k ≠ 0 := h k List.mem_cons_self
    rw [List.foldl_cons, if_neg hacc, ih (Nat.mul_ne_zero hk hacc), List.prod_cons,
      Nat.mul_comm k acc, Nat.mul_assoc]
    exact fun k' hk' => h k' (List.mem_cons_of_mem k hk')

theorem comboCount_eq_prod {sizes : List Nat} (hne : sizes ≠ []) (h : ∀ k ∈ sizes, k ≠ 0) :
    comboCount sizes = sizes.prod := by
  cases sizes with
  | nil => exact absurd rfl hne
  | cons k sizes =>
    have hk : k ≠ 0 := h k List.mem_cons_self
    rw [comboCount, List.foldl_cons, if_pos rfl, List.prod_cons]
    exact foldl_combos_pos hk fun k' hk' => h k' (List.mem_cons_of_mem k hk')

theorem prod_le_comboCount {sizes : List Nat} (hne : sizes ≠ []) :
    sizes.prod ≤ comboCount sizes := by
  by_cases hzero : 0 ∈ sizes
  · rw [List.prod_eq_zero hzero]
    exact Nat.zero_le _
  · rw [comboCount_eq_prod hne fun k hk heq => hzero (heq ▸ hk)]

theorem comboCount_concat_zero (sizes : List Nat) : comboCount (sizes ++ [0]) = 0 := by
  rw [comboCount, List.foldl_append]
  simp

end Counting

section Filling

variable {content regexToMatch : String} {texts : List String}

theorem length_fillAutoNumber {step : Int32} {n : Nat} {current : Int32}
    (h : (Filler.fillAutoNumber content regexToMatch step n current : Anyhow _) = .ok texts) :
    texts.length = n := by
  induction n generalizing current texts with
  | zero =>
    cases h
    rfl
  | succ n ih =>
    obtain ⟨next, -, h⟩ := bind_ok_iff.mp h
    obtain ⟨rest, hrest, h⟩ := bind_ok_iff.mp h
    cases h
    rw [List.length_cons, ih hrest]

theorem length_fillEnumeration {items : List String} {random : Nat → Nat} {n : Nat}
    (h : (Filler.fillEnumeration content regexToMatch items random n : Anyhow _) = .ok texts) :
    texts.length = n := by
  induction n generalizing texts with
  | zero =>
    cases h
    rfl
  | succ n ih =>
    obtain ⟨item, -, h⟩ := bind_ok_iff.mp h
    obtain ⟨rest, hrest, h⟩ := bind_ok_iff.mp h
    cases h
    rw [List.length_cons, ih hrest]

theorem length_fillMatchRegex {random : Nat → Nat} {fillCount : Nat} {filler : Filler}
    (h : (filler.fillMatchRegex random content regexToMatch fillCount : Anyhow _) = .ok texts) :
    texts.length = fillCount := by
  cases filler with
  | autoNumber start step => exact length_fillAutoNumber h
  | enumeration items => exact length_fillEnumeration h

theorem inputs_length {s : NodeInputSlot} {inputs : List Input}
    (h : (s.inputs : Anyhow _) = .ok inputs) : (s.inputsCount : Anyhow Nat) = .ok inputs.length := by
  cases hk : s.kind with
  | text contents =>
    simp only [NodeInputSlot.inputs, hk, bind_ok_iff, ok.injEq] at h
    obtain ⟨c, hc, rfl⟩ := h
    simp only [NodeInputSlot.inputsCount, hk, bind_ok_iff, ok.injEq]
    exact ⟨c, hc, by rw [List.length_map]⟩
  | file contents name isBatch =>
    simp only [NodeInputSlot.inputs, hk, bind_ok_iff, ok.injEq] at h
    obtain ⟨c, hc, rfl⟩ := h
    simp only [NodeInputSlot.inputsCount, hk, bind_ok_iff, ok.injEq]
    exact ⟨c, hc, by rw [List.length_map]⟩
  | unknown => simp [NodeInputSlot.inputs, hk] at h

end Filling

variable {α β : Type} {ids : Nat → Uuid} {db : Tables} {ns : List Notice} {ms : List NodeMark}
  {fs : List FlowMark} {s t : World} {env : Env} {n n' : NodeSpec}

theorem wp_lift_mid (h : Mid ids db ns ms fs s) (o : Anyhow α) :
    wp (.lift o : Svc α) env (fun a t => Mid ids db ns ms fs t ∧ o = .ok a) (Left ids db ns) s := by
  rw [wp_lift]
  exact ⟨fun a ha => ⟨h, ha⟩, fun _ => h.left⟩

theorem wp_gen {m : Gen α} {Q : α → (Nat → Uuid) → Prop} (h : Mid ids db ns ms fs s)
    (hm : Keeps tailFrame m) (hwp : wp m () Q (fun _ => True) s.ids) :
    wp (gen m) env (fun a t => Mid ids db ns ms fs t ∧ Q a t.ids) (Left ids db ns) s := by
  have hcalm := h.calm (keeps_gen hm env s)
  unfold wp at hwp ⊢
  unfold gen at hcalm ⊢
  generalize m () s.ids = out at hwp hcalm ⊢
  obtain ⟨o, t⟩ := out
  cases o with
  | ok a => exact ⟨hcalm, hwp⟩
  | err e => exact hcalm.left
  | panic => exact hcalm.left

section Sizes

theorem wp_mapEach_length {f : α → Svc β} (xs : List α) :
    wp (Effect.mapEach f xs) env (fun ys _ => ys.length = xs.length) (fun _ => True) s := by
  refine wp_mapEach (fun pre ys _ => ys.length = pre.length) xs ?_ rfl
  rintro pre x post ys - t hlen
  refine wp_mono (wp_true (f x)) (fun y u _ => ?_) (fun _ he => he)
  rw [List.length_append, List.length_append, hlen]
  rfl

theorem wp_any {m : Svc α} {Q : α → World → Prop} (h : ∀ a t, Q a t) :
    wp m env Q (fun _ => True) s := wp_mono (wp_true m) (fun a t _ => h a t) (fun _ he => he)

theorem wp_bind_any {m : Svc α} {f : α → Svc β} {Q : β → World → Prop}
    (h : ∀ a t, wp (f a) env Q (fun _ => True) t) : wp (m >>= f) env Q (fun _ => True) s := by
  rw [wp_bind]
  exact wp_any h

theorem wp_matchRegexInputs (b : BatchStrategy) (regexToMatch : String) (fillCount : Nat)
    (filler : Filler) (slot : NodeInputSlot) :
    wp (matchRegexInputs b regexToMatch fillCount filler slot) env
      (fun inputs _ => inputs.length = fillCount) (fun _ => True) s := by
  unfold matchRegexInputs
  rw [wp_bind, wp_read]
  have hstore {f : String → Svc Input} {texts : List String} {content : String}
      {random : Nat → Nat} {t : World}
      (htexts : (filler.fillMatchRegex random content regexToMatch fillCount : Anyhow _) = .ok texts) :
      wp (Effect.mapEach f texts) env (fun inputs _ => inputs.length = fillCount)
        (fun _ => True) t := by
    refine wp_mono (wp_mapEach_length texts) (fun inputs _ hlen => ?_) (fun _ he => he)
    rw [hlen, length_fillMatchRegex htexts]
  split
  · refine wp_bind_any fun _ _ => wp_bind_any fun _ _ => wp_bind_any fun content t => ?_
    rw [wp_bind, wp_get, wp_bind, wp_lift]
    exact ⟨fun texts htexts => hstore htexts, fun _ => trivial⟩
  · refine wp_bind_any fun _ _ => wp_bind_any fun _ _ => wp_bind_any fun content t => ?_
    rw [wp_bind, wp_get, wp_bind, wp_lift]
    exact ⟨fun texts htexts => wp_bind_any fun _ _ => hstore htexts, fun _ => trivial⟩
  · exact trivial

theorem wp_originalInputs (b : BatchStrategy) (slot : NodeInputSlot) :
    wp (originalInputs b slot) env
      (fun inputs _ => (slot.inputsCount : Anyhow Nat) = .ok inputs.length) (fun _ => True) s := by
  unfold originalInputs
  rw [wp_bind, wp_lift]
  refine ⟨fun inputs hinputs => ?_, fun _ => trivial⟩
  split
  · refine wp_mono (wp_mapEach_length inputs) (fun out _ hlen => ?_) (fun _ he => he)
    rw [hlen]
    exact inputs_length hinputs
  · exact trivial

end Sizes

def Gathers (db : Tables) (relations : List NodeRelation) (b : BatchStrategy)
    (slot : NodeInputSlot) (inputs : List Input) : Prop :=
  match b.kind with
  | .originalBatch => (slot.inputsCount : Anyhow Nat) = .ok inputs.length
  | .matchRegex _ fillCount _ => inputs.length = fillCount
  | .fromBatchOutputs => ∃ feed, lastFeed relations b.inputSlotDescriptor = some feed ∧
      ∃ flow ∈ db.flows, (∃ node ∈ db.nodes, node.id = feed.1 ∧ flow.id = node.flowInstanceId) ∧
        ∃ m, flow.spec.node feed.1 = .ok m ∧ ∃ out, m.outputSlot feed.2 = .ok out ∧
          inputs = outputInputs out

theorem wp_getBatchInputs (h : Mid ids db ns ms fs s) (relations : List NodeRelation)
    (b : BatchStrategy) (slot : NodeInputSlot) :
    wp (getBatchInputs relations b slot) env
      (fun inputs t => Mid ids db ns ms fs t ∧ Gathers db relations b slot inputs)
      (Left ids db ns) s := by
  have hcalm : ∀ {m : Svc (List Input)} {Q : List Input → Prop}, Keeps calmFrame m →
      wp m env (fun inputs _ => Q inputs) (fun _ => True) s →
      wp m env (fun inputs t => Mid ids db ns ms fs t ∧ Q inputs) (Left ids db ns) s :=
    fun hkeeps hwp => wp_mono (wp_and (wp_calm hkeeps h) hwp) (fun _ _ hq => hq) (fun _ he => he.1)
  unfold getBatchInputs Gathers
  cases b.kind with
  | originalBatch => exact hcalm (keeps_originalInputs b slot) (wp_originalInputs b slot)
  | matchRegex regexToMatch fillCount filler =>
    exact hcalm (keeps_matchRegexInputs b _ _ _ slot) (wp_matchRegexInputs b _ _ _ slot)
  | fromBatchOutputs =>
    change wp (fromBatchInputs relations b) env _ _ s
    unfold fromBatchInputs
    rw [wp_bind]
    refine wp_mono (wp_lift_mid h _) (fun feed t ⟨ht, hfeed⟩ => ?_) (fun _ he => he)
    rw [wp_bind]
    refine wp_mono (wp_getFlowByNodeId ht feed.1) (fun flow u ⟨hu, hflow, hof⟩ => ?_)
      (fun _ he => he)
    rw [wp_bind]
    refine wp_mono (wp_lift_mid hu _) (fun m v ⟨hv, hm⟩ => ?_) (fun _ he => he)
    rw [wp_bind]
    refine wp_mono (wp_lift_mid hv _) (fun out w ⟨hw, hout⟩ => ?_) (fun _ he => he)
    rw [wp_pure]
    exact ⟨hw, feed, unwrap_ok_iff.mp hfeed, flow, hflow, hof, m, hm, out, hout, rfl⟩

def batchSlots (relations : List NodeRelation) (n : NodeSpec) : Svc (List (String × List Input)) :=
  Effect.mapEach (fun b => do
    let inputSlot ← .lift (n.inputSlot b.inputSlotDescriptor)
    let inputs ← getBatchInputs relations b inputSlot
    pure (b.inputSlotDescriptor, inputs)) n.batchStrategies

def SlotFor (db : Tables) (relations : List NodeRelation) (n : NodeSpec) (b : BatchStrategy)
    (slot : String × List Input) : Prop :=
  slot.1 = b.inputSlotDescriptor ∧
    ∃ s, n.inputSlot b.inputSlotDescriptor = .ok s ∧ Gathers db relations b s slot.2

theorem wp_batchSlots (h : Mid ids db ns ms fs s) (relations : List NodeRelation) (n : NodeSpec) :
    wp (batchSlots relations n) env
      (fun slots t => Mid ids db ns ms fs t ∧
        List.Forall₂ (SlotFor db relations n) n.batchStrategies slots) (Left ids db ns) s := by
  refine wp_mapEach (fun pre slots t => Mid ids db ns ms fs t ∧
    List.Forall₂ (SlotFor db relations n) pre slots) n.batchStrategies ?_ ⟨h, .nil⟩
  rintro pre b post slots - t ⟨ht, hslots⟩
  rw [wp_bind]
  refine wp_mono (wp_lift_mid ht _) (fun slot u ⟨hu, hslot⟩ => ?_) (fun _ he => he)
  rw [wp_bind]
  refine wp_mono (wp_getBatchInputs hu relations b slot) (fun inputs v ⟨hv, hinputs⟩ => ?_)
    (fun _ he => he)
  rw [wp_pure]
  exact ⟨hv, List.rel_append hslots (.cons ⟨rfl, slot, hslot, hinputs⟩ .nil)⟩

structure Subtask (ids iter : Nat → Uuid) (n : NodeSpec) (task : Uuid × List (String × Input))
    (sub : NodeSpec) : Prop where
  filled : ∃ m, ({ n with id := task.1 } : NodeSpec).updateWithInputs task.2 = .ok m ∧
    sub = { m with outputSlots := sub.outputSlots } ∧
    List.Forall₂ (fun s s' => ∃ id, s' = s.setPrepared [id] ∧ Drawn ids iter id)
      m.outputSlots sub.outputSlots

theorem Subtask.later {iter iter' : Nat → Uuid} {task : Uuid × List (String × Input)}
    {sub : NodeSpec} (h : Subtask ids iter n task sub) (ht : Tail iter iter') :
    Subtask ids iter' n task sub := by
  obtain ⟨m, hm, hsub, hslots⟩ := h.filled
  exact ⟨m, hm, hsub, hslots.imp fun _ _ ⟨id, hid, hdrawn⟩ => ⟨id, hid, hdrawn.later ht⟩⟩

theorem wp_updateOutputSlots (n : NodeSpec) {iter : Nat → Uuid} (h : Tail ids iter) :
    wp n.updateOutputSlots () (fun n' iter' => n' = { n with outputSlots := n'.outputSlots } ∧
      List.Forall₂ (fun s s' => ∃ id, s' = NodeSpecOutputSlot.setPrepared s [id] ∧ Drawn ids iter' id)
        n.outputSlots n'.outputSlots) (fun _ => True) iter := by
  unfold NodeSpec.updateOutputSlots
  rw [wp_bind]
  refine wp_mono (wp_mapEach (fun pre slots iter' => Tail ids iter' ∧
    List.Forall₂ (fun s s' => ∃ id, s' = NodeSpecOutputSlot.setPrepared s [id] ∧ Drawn ids iter' id)
      pre slots) n.outputSlots ?_ ⟨h, .nil⟩) (fun slots _ ⟨_, hslots⟩ => ⟨rfl, hslots⟩)
    (fun _ he => he)
  rintro pre slot post slots - iter' ⟨hiter, hslots⟩
  have hnext : Tail iter' fun k => iter' (k + 1) := keeps_newV4 () iter'
  refine ⟨hiter.trans hnext, List.rel_append ?_ (.cons ⟨iter' 0, rfl, hiter.drawn⟩ .nil)⟩
  exact hslots.imp fun _ _ ⟨id, hid, hdrawn⟩ => ⟨id, hid, hdrawn.later hnext⟩

theorem wp_parseSubNode (h : Mid ids db ns ms fs s) (n : NodeSpec)
    (task : Uuid × List (String × Input)) :
    wp (parseSubNode n task) env
      (fun sub t => Mid ids db ns ms fs t ∧ Subtask ids t.ids n task sub) (Left ids db ns) s := by
  unfold parseSubNode
  rw [wp_bind]
  refine wp_mono (wp_lift_mid h _) (fun m t ⟨ht, hm⟩ => ?_) (fun _ he => he)
  refine wp_mono (wp_gen ht (keeps_updateOutputSlots m) (wp_updateOutputSlots m ht.ids))
    (fun sub u ⟨hu, hsub, hslots⟩ => ?_) (fun _ he => he)
  exact ⟨hu, m, hm, hsub, hslots⟩

structure Debatched (ids iter : Nat → Uuid) (db : Tables) (relations : List NodeRelation)
    (n : NodeSpec) (tasks : List NodeSpec) : Prop where
  split : ∃ slots, List.Forall₂ (SlotFor db relations n) n.batchStrategies slots ∧
    ∃ subs : List NodeInstance, subs.Perm (db.nodes.filter (fun el => el.batchParentId == some n.id)) ∧
      List.Forall₂ (Subtask ids iter n) ((subs.map NodeInstance.id).zip (allPossibleInputs slots)) tasks

theorem Debatched.later {iter iter' : Nat → Uuid} {relations : List NodeRelation}
    {tasks : List NodeSpec} (h : Debatched ids iter db relations n tasks) (ht : Tail iter iter') :
    Debatched ids iter' db relations n tasks := by
  obtain ⟨slots, hslots, subs, hperm, htasks⟩ := h.split
  exact ⟨slots, hslots, subs, hperm, htasks.imp fun _ _ hsub => hsub.later ht⟩

theorem wp_debatch (h : Mid ids db ns ms fs s) (relations : List NodeRelation) (n : NodeSpec) :
    wp (debatch relations n) env
      (fun tasks t => Mid ids db ns ms fs t ∧ Debatched ids t.ids db relations n tasks)
      (Left ids db ns) s := by
  change wp (batchSlots relations n >>= subNodes n) env _ _ s
  rw [wp_bind]
  refine wp_mono (wp_batchSlots h relations n) (fun slots t ⟨ht, hslots⟩ => ?_) (fun _ he => he)
  unfold subNodes
  rw [wp_bind]
  refine wp_mono (wp_selectNodes ht _) (fun subs u ⟨hu, hperm⟩ => ?_) (fun _ he => he)
  generalize htasks : (subs.map NodeInstance.id).zip (allPossibleInputs slots) = tasks
  refine wp_mono (wp_mapEach (fun pre outs v => Mid ids db ns ms fs v ∧
    List.Forall₂ (Subtask ids v.ids n) pre outs) tasks ?_ ⟨hu, .nil⟩)
    (fun outs v ⟨hv, houts⟩ => ⟨hv, slots, hslots, subs, hperm, ?_⟩) (fun _ he => he)
  · rintro pre task post outs - v ⟨hv, houts⟩
    refine wp_mono (wp_and (wp_parseSubNode hv n task) ((keeps_parseSubNode n task).wp env v))
      (fun sub w ⟨⟨hw, hsub⟩, hcalm⟩ => ⟨hw, List.rel_append ?_ (.cons hsub .nil)⟩)
      (fun _ he => he.1)
    exact houts.imp fun _ _ hout => hout.later hcalm.ids
  · rw [htasks]
    exact houts

section Collecting

variable {first : Bool} {task : NodeSpec} {tasks : List NodeSpec} {slot slot' : NodeSpecOutputSlot}
  {slots slots' : List NodeSpecOutputSlot}

theorem forall₂_compose {α β γ : Type} {R : α → β → Prop} {S : β → γ → Prop} {T : α → γ → Prop}
    {xs : List α} {ys : List β} {zs : List γ} (h : List.Forall₂ R xs ys) (h' : List.Forall₂ S ys zs)
    (hT : ∀ x y z, R x y → S y z → T x z) : List.Forall₂ T xs zs := by
  induction h generalizing zs with
  | nil =>
    cases h'
    exact .nil
  | cons hone _ ih =>
    cases h' with
    | cons hone' hrest => exact .cons (hT _ _ _ hone hone') (ih hrest)

def Puts (task : NodeSpec) (id : Uuid) : Prop := ∃ slot ∈ task.outputSlots, id ∈ slot.prepared

theorem outputSlot_mem {descriptor : String} (h : task.outputSlot descriptor = .ok slot) :
    slot ∈ task.outputSlots := List.mem_of_find?_eq_some (unwrap_ok_iff.mp h)

-- The id a task has prepared for a slot.
def Heads (descriptor : String) (task : NodeSpec) (id : Uuid) : Prop :=
  ∃ own, task.outputSlot descriptor = .ok own ∧ own.prepared.head? = some id

theorem Heads.puts {descriptor : String} {id : Uuid} (h : Heads descriptor task id) : Puts task id := by
  obtain ⟨own, hown, hid⟩ := h
  exact ⟨own, outputSlot_mem hown, List.mem_of_mem_head? hid⟩

theorem pushPrepared_ok (h : pushPrepared first task slot = .ok slot') :
    slot'.descriptor = slot.descriptor ∧ ∃ id, Heads slot.descriptor task id ∧
      slot'.prepared = (if first then [] else slot.prepared) ++ [id] := by
  unfold pushPrepared at h
  obtain ⟨source, hsource, h⟩ := bind_ok_iff.mp h
  cases hkind : slot.kind with
  | file origin isBatch ids =>
    simp only [hkind, bind_ok_iff, unwrap_ok_iff] at h
    obtain ⟨outputs, houtputs, id, hid, h⟩ := h
    cases h
    refine ⟨rfl, id, ⟨source, hsource, ?_⟩, by simp only [NodeSpecOutputSlot.prepared, hkind]⟩
    cases hsourceKind : source.kind with
    | file _ _ own =>
      simp only [NodeSpecOutputSlot.allTasksFileOutputs, hsourceKind, ok.injEq] at houtputs
      rw [NodeSpecOutputSlot.prepared, hsourceKind, houtputs, hid]
    | text own => simp [NodeSpecOutputSlot.allTasksFileOutputs, hsourceKind] at houtputs
  | text keys =>
    simp only [hkind, bind_ok_iff, unwrap_ok_iff] at h
    obtain ⟨outputs, houtputs, id, hid, h⟩ := h
    cases h
    refine ⟨rfl, id, ⟨source, hsource, ?_⟩, by simp only [NodeSpecOutputSlot.prepared, hkind]⟩
    cases hsourceKind : source.kind with
    | file _ _ own => simp [NodeSpecOutputSlot.allTasksTextOutputs, hsourceKind] at houtputs
    | text own =>
      simp only [NodeSpecOutputSlot.allTasksTextOutputs, hsourceKind, ok.injEq] at houtputs
      rw [NodeSpecOutputSlot.prepared, hsourceKind, houtputs, hid]

theorem collectPrepared_heads (h : collectPrepared first tasks slots = .ok slots') :
    List.Forall₂ (fun slot slot' => slot'.descriptor = slot.descriptor ∧
      ∃ news, List.Forall₂ (Heads slot.descriptor) tasks news ∧
        slot'.prepared = (if first && !tasks.isEmpty then [] else slot.prepared) ++ news)
      slots slots' := by
  induction tasks generalizing first slots with
  | nil =>
    cases h
    exact List.forall₂_same.mpr fun slot _ => ⟨rfl, [], .nil, by simp⟩
  | cons task tasks ih =>
    obtain ⟨mids, hmids, h⟩ := bind_ok_iff.mp h
    refine forall₂_compose (mapEach_forall₂ hmids) (ih h) fun slot mid slot' hpush hrest => ?_
    obtain ⟨hdescriptor, id, hheads, hprepared⟩ := pushPrepared_ok hpush
    obtain ⟨hrestDescriptor, news, hnews, hlist⟩ := hrest
    rw [hdescriptor] at hnews
    refine ⟨hrestDescriptor.trans hdescriptor, id :: news, .cons hheads hnews, ?_⟩
    simp only [hlist, hprepared, Bool.false_and, Bool.false_eq_true, if_false, List.isEmpty_cons,
      Bool.not_false, Bool.and_true, List.append_assoc, List.singleton_append]

-- The ids a slot comes with, and one of each task; the first task clears the slot.
structure Collects (first : Bool) (tasks : List NodeSpec) (slot slot' : NodeSpecOutputSlot) : Prop where
  descriptor : slot'.descriptor = slot.descriptor
  prepared : ∃ news, List.Forall₂ Puts tasks news ∧
    slot'.prepared = (if first && !tasks.isEmpty then [] else slot.prepared) ++ news

theorem collectPrepared_ok (h : collectPrepared first tasks slots = .ok slots') :
    List.Forall₂ (Collects first tasks) slots slots' :=
  (collectPrepared_heads h).imp fun _ _ ⟨hdescriptor, news, hnews, hlist⟩ =>
    ⟨hdescriptor, news, hnews.imp fun _ _ hheads => hheads.puts, hlist⟩

end Collecting

end Kuintessence
