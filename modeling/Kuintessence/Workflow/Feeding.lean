import Kuintessence.Engine.Filling
import Kuintessence.Workflow.Batching

namespace Kuintessence

open Outcome

variable {ids iter : Nat → Uuid} {env : Env} {w : World} {db' : Tables} {flow : Uuid}
  {static : WorkflowInstanceSpec} {n task : NodeSpec} {tasks : List NodeSpec} {single : Bool}
  {source : Uuid × String} {b : BatchStrategy} {slot : String × List Input}

def WorkflowInstanceSpec.feeds (static : WorkflowInstanceSpec) (n : NodeSpec) :
    List (String × Uuid × String) := feeding (static.nodeDependencyRelations n.id)

-- The strategy that decides what a combination leaves in the slot.
def NodeSpec.strategy (n : NodeSpec) (descriptor : String) : Option BatchStrategy :=
  assigned (n.batchStrategies.map fun b => (b.inputSlotDescriptor, b)) descriptor

def Unmixed (static : WorkflowInstanceSpec) (n : NodeSpec) : Prop :=
  ∀ feed ∈ static.feeds n, ∀ feed' ∈ static.feeds n, feed.1 = feed'.1 → feed = feed'

structure RootFits (single : Bool) (static : WorkflowInstanceSpec) (n : NodeSpec) : Prop where
  unmixed : Unmixed static n
  plain : n.batchStrategies = [] ∨ static.feeds n = []
  lone : single = true → ∀ feed ∈ static.feeds n, ∀ inputs,
    static.produced feed.2 = .ok inputs → inputs.length = 1

structure SubFits (static : WorkflowInstanceSpec) (n : NodeSpec) : Prop where
  unmixed : Unmixed static n
  covered : ∀ feed ∈ static.feeds n, ∃ b ∈ n.strategy feed.1, b.kind = .fromBatchOutputs

-- `single`: whether a slot may be fed by an output slot that holds several ids.
structure Fits (single : Bool) (w : World) (task : NodeSpec) : Prop where
  root : ∀ p ∈ w.db.specs, ∀ n ∈ p.2.nodeSpecs, task.id = n.id → RootFits single p.2 n
  sub : ∀ p ∈ w.db.specs, ∀ n ∈ p.2.nodeSpecs,
    (∃ c ∈ w.db.places, c.id = task.id ∧ c.parent = some n.id) → SubFits p.2 n

-- The first id of the producer's output slot; its only one if it must be or is a plain node's.
def RootFilled (single : Bool) (static : WorkflowInstanceSpec) (n task : NodeSpec) : Prop :=
  ∀ feed ∈ static.feeds n, ∃ input rest, static.produced feed.2 = .ok (input :: rest) ∧
    task.contents feed.1 = .ok [input] ∧
    (single = true ∨ (∃ m, static.node feed.2.1 = .ok m ∧ m.batchStrategies = []) → rest = [])

def Gathered (static : WorkflowInstanceSpec) (n : NodeSpec) (b : BatchStrategy)
    (slot : String × List Input) : Prop :=
  slot.1 = b.inputSlotDescriptor ∧ (b.kind = .fromBatchOutputs → ∃ source,
    assigned (static.feeds n) b.inputSlotDescriptor = some source ∧
      static.produced source = .ok slot.2)

structure SubFilled (places : List Place) (static : WorkflowInstanceSpec) (n task : NodeSpec)
    (slots : List (String × List Input)) (subs : List Uuid) (i : Nat)
    (combo : List (String × Input)) : Prop where
  gathered : List.Forall₂ (Gathered static n) n.batchStrategies slots
  rows : subs.Perm ((rowsOf places n.id).map Place.id)
  nth : (subs.zip (allPossibleInputs slots))[i]? = some (task.id, combo)
  filled : ∀ feed ∈ static.feeds n, ∃ input inputs, assigned combo feed.1 = some input ∧
    task.contents feed.1 = .ok [input] ∧ static.produced feed.2 = .ok inputs ∧ input ∈ inputs

inductive Filled (single : Bool) (w : World) (task : NodeSpec) : Prop where
  | root (p : Uuid × WorkflowInstanceSpec) (hp : p ∈ w.db.specs) (n : NodeSpec)
      (hn : n ∈ p.2.nodeSpecs) (hid : task.id = n.id) (h : RootFilled single p.2 n task)
  | sub (p : Uuid × WorkflowInstanceSpec) (hp : p ∈ w.db.specs) (n : NodeSpec)
      (hn : n ∈ p.2.nodeSpecs) (hbatch : n.batchStrategies ≠ []) (slots : List (String × List Input))
      (subs : List Uuid) (i : Nat) (combo : List (String × Input))
      (h : SubFilled w.db.places p.2 n task slots subs i combo)

theorem Unmixed.assigned (h : Unmixed static n) {descriptor : String}
    (hfeed : (descriptor, source) ∈ static.feeds n) :
    Kuintessence.assigned (static.feeds n) descriptor = some source :=
  assigned_of_alone hfeed fun feed hmem hkey => h feed hmem _ hfeed hkey

theorem produced_ok {inputs : List Input} (h : static.produced source = .ok inputs) :
    ∃ m ∈ static.nodeSpecs, static.node source.1 = .ok m ∧
      ∃ out ∈ m.outputSlots, inputs = outputInputs out := by
  obtain ⟨m, hm, h⟩ := bind_ok_iff.mp h
  obtain ⟨out, hout, h⟩ := bind_ok_iff.mp h
  cases h
  exact ⟨m, (node_ok hm).1, hm, out, outputSlot_mem hout, rfl⟩

section Root

theorem Primed.only (hprimed : Primed w) (hp : (flow, static) ∈ w.db.specs) {m : NodeSpec}
    {inputs : List Input} (hproduced : static.produced source = .ok inputs)
    (hm : static.node source.1 = .ok m) (hplain : m.batchStrategies = []) : inputs.length = 1 := by
  obtain ⟨m', hmem, hm', out, hout, rfl⟩ := produced_ok hproduced
  rw [hm, ok.injEq] at hm'
  subst hm'
  rw [length_outputInputs]
  exact (hprimed _ hp m hmem).plain hplain out hout

theorem Primed.produces (hprimed : Primed w) (hp : (flow, static) ∈ w.db.specs)
    {inputs : List Input} (hproduced : static.produced source = .ok inputs) : inputs ≠ [] := by
  obtain ⟨m, hmem, -, out, hout, rfl⟩ := produced_ok hproduced
  intro hnil
  have hlen := length_outputInputs out
  rw [hnil, List.length_nil, eq_comm, List.length_eq_zero_iff] at hlen
  exact (hprimed _ hp m hmem).filled out hout hlen

theorem fillRelations_filled (hprimed : Primed w) (hp : (flow, static) ∈ w.db.specs)
    (hfits : RootFits single static n)
    (h : fillRelations static n (static.nodeDependencyRelations n.id) = .ok task) :
    RootFilled single static n task := by
  rintro ⟨descriptor, source⟩ hfeed
  obtain ⟨input, rest, hproduced, hcontents⟩ :=
    fillRelations_contents h (hfits.unmixed.assigned hfeed)
  refine ⟨input, rest, hproduced, hcontents, fun hone => ?_⟩
  have hlen : (input :: rest).length = 1 := by
    rcases hone with hsingle | ⟨m, hm, hplain⟩
    · exact hfits.lone hsingle _ hfeed _ hproduced
    · exact hprimed.only hp hproduced hm hplain
  rw [List.length_cons, Nat.add_eq_right, List.length_eq_zero_iff] at hlen
  exact hlen

theorem RootFits.unfed (h : RootFits single static n) (hbatch : n.batchStrategies ≠ []) :
    RootFilled single static n task := by
  intro feed hfeed
  rw [h.plain.resolve_left hbatch] at hfeed
  exact absurd hfeed List.not_mem_nil

end Root

section Sub

theorem Sound.feed_node (hs : Sound w) (hp : (flow, static) ∈ w.db.specs) {feed : String × Uuid × String}
    (hfeed : feed ∈ static.feeds n) : ∃ m ∈ static.nodeSpecs, m.id = feed.2.1 := by
  obtain ⟨f, hf, -, rfl⟩ := Tables.flow_of_specs hp
  obtain ⟨r, hr, hfeed⟩ := List.mem_flatMap.mp hfeed
  obtain ⟨s, -, rfl⟩ := List.mem_map.mp hfeed
  have hedge : r.ends ∈ f.plan.edges := List.mem_map_of_mem (List.mem_of_mem_filter hr)
  have hin := (hs.layout.ends _ (Tables.mem_plans hf) _ hedge).1
  rw [WorkflowInstance.plan_ids] at hin
  exact List.mem_map.mp hin

theorem SlotFor.gathered (hs : Sound w) (hstood : Stood w flow static)
    (hplaces : db'.places = w.db.places) (hspecs : db'.specs = w.db.specs)
    (h : SlotFor db' (static.nodeDependencyRelations n.id) n b slot) : Gathered static n b slot := by
  obtain ⟨hkey, s, -, hgathers⟩ := h
  refine ⟨hkey, fun hkind => ?_⟩
  simp only [Gathers, hkind] at hgathers
  obtain ⟨source, hsource, g, hg, ⟨node, hnode, hid, hflow⟩, m, hm, out, hout, hinputs⟩ := hgathers
  rw [lastFeed_eq] at hsource
  obtain ⟨m', hm', hmid⟩ := hs.feed_node hstood.spec_mem (n := n) (mem_of_assigned hsource)
  have hgspec : g.spec = static :=
    hstood.spec_eq hs hm' hplaces hspecs hg hnode (hid.trans hmid.symm) hflow
  rw [hgspec] at hm
  refine ⟨source, hsource, ?_⟩
  simp only [WorkflowInstanceSpec.produced, hm, hout, ok_bind, hinputs]

theorem Stood.sizes_pos (h : Stood w flow static) (hs : Sound w) (hstock : Stocked w)
    (hn : n ∈ static.nodeSpecs) (hbatch : n.batchStrategies ≠ []) (hrows : rowsOf w.db.places n.id ≠ [])
    (hb : b ∈ n.batchStrategies) : ∃ k, k ≠ 0 ∧
      static.strategyCount (static.subNodeCountAux static.nodeSpecs.length) n b = .ok k := by
  have hcount := h.counted hstock hn hbatch
  rw [subNodeCount_ok_iff (h.nodup hs) hn] at hcount
  obtain ⟨ks, hks, hprod⟩ := countStrategies_sizes hcount
  obtain ⟨k, hk, hcount⟩ := exists_of_forall₂ hks.flip hb
  refine ⟨k, fun hzero => hrows ?_, hcount⟩
  rw [hzero] at hk
  rw [List.prod_eq_zero hk, Nat.mul_zero] at hprod
  exact List.eq_nil_of_length_eq_zero hprod

-- Each strategy of a node with sub-nodes gives at least one input.
theorem SlotFor.filled (hstood : Stood w flow static) (hs : Sound w) (hstock : Stocked w)
    (hprimed : Primed w) (hn : n ∈ static.nodeSpecs) (hbatch : n.batchStrategies ≠ [])
    (hrows : rowsOf w.db.places n.id ≠ []) (hb : b ∈ n.batchStrategies)
    (h : SlotFor db' (static.nodeDependencyRelations n.id) n b slot)
    (hgathered : Gathered static n b slot) : slot.2 ≠ [] := by
  cases hkind : b.kind with
  | originalBatch => exact absurd hkind (hstood.plain hstock hn b hb)
  | matchRegex regexToMatch fillCount filler =>
    obtain ⟨k, hk, hcount⟩ := hstood.sizes_pos hs hstock hn hbatch hrows hb
    obtain ⟨-, s, -, hgathers⟩ := h
    simp only [WorkflowInstanceSpec.strategyCount, hkind, ok.injEq] at hcount
    simp only [Gathers, hkind] at hgathers
    intro hnil
    rw [hnil, List.length_nil, hcount] at hgathers
    exact hk hgathers.symm
  | fromBatchOutputs =>
    obtain ⟨source, -, hproduced⟩ := hgathered.2 hkind
    exact hprimed.produces hstood.spec_mem hproduced

theorem Subtask.contents {entry : Uuid × List (String × Input)} (h : Subtask ids iter n entry task)
    (hslots : ∀ c ∈ entry.2, ∃ s, n.inputSlot c.1 = .ok s) : Holding task entry.2 := by
  obtain ⟨m, hm, htask, -⟩ := h.filled
  have hinputs : task.inputSlots = m.inputSlots := by rw [htask]
  have hheld := updateWithInputs_holding hm (Latest.nil _) hslots
  intro descriptor input hassigned
  have hcontents := hheld descriptor input hassigned
  simp only [NodeSpec.contents, NodeSpec.inputSlot] at hcontents ⊢
  rw [hinputs]
  exact hcontents

-- What a combination leaves in a slot is one of the inputs of the strategy that decides the slot.
theorem combo_source {slots : List (String × List Input)} {combo : List (String × Input)}
    (hgathered : List.Forall₂ (Gathered static n) n.batchStrategies slots)
    (hcombo : List.Forall₂ (fun slot c => c.1 = slot.1 ∧ c.2 ∈ slot.2) slots combo)
    {descriptor : String} (hb : n.strategy descriptor = some b) (hkind : b.kind = .fromBatchOutputs) :
    ∃ input inputs source, assigned combo descriptor = some input ∧ input ∈ inputs ∧
      assigned (static.feeds n) descriptor = some source ∧ static.produced source = .ok inputs := by
  have hkeyed : List.Forall₂ (fun keyed slot => slot.1 = keyed.1 ∧
      Gathered static n keyed.2 slot ∧ keyed.1 = keyed.2.inputSlotDescriptor)
      (n.batchStrategies.map fun b => (b.inputSlotDescriptor, b)) slots := by
    rw [List.forall₂_map_left_iff]
    exact hgathered.imp fun b slot h => ⟨h.1, h, rfl⟩
  obtain ⟨inputs, hinputs, -, hslot, hdescriptor⟩ := assigned_of_forall₂ hkeyed (fun _ _ h => h.1) hb
  obtain ⟨input, hinput, -, hmem⟩ := assigned_of_forall₂ hcombo (fun _ _ h => h.1) hinputs
  obtain ⟨source, hsource, hproduced⟩ := hslot.2 hkind
  rw [← hdescriptor] at hsource
  exact ⟨input, inputs, source, hinput, hmem, hsource, hproduced⟩

theorem Debatched.filled (h : Debatched ids iter db' (static.nodeDependencyRelations n.id) n tasks)
    (hs : Sound w) (hstock : Stocked w) (hprimed : Primed w) (hp : (flow, static) ∈ w.db.specs)
    (hn : n ∈ static.nodeSpecs) (hbatch : n.batchStrategies ≠ []) (hplaces : db'.places = w.db.places)
    (hspecs : db'.specs = w.db.specs) (hfits : SubFits static n) (htask : task ∈ tasks) :
    ∃ slots subs i combo, SubFilled w.db.places static n task slots subs i combo := by
  obtain ⟨⟨c, hc, -, hparent⟩, -⟩ := h.parent htask
  rw [hplaces] at hc
  have hrows : rowsOf w.db.places n.id ≠ [] := List.ne_nil_of_mem (mem_rowsOf.mpr ⟨hc, hparent⟩)
  have hstood : Stood w flow static := hs.stood hp hn hrows
  obtain ⟨slots, hslots, subs, hperm, htasks⟩ := h.split
  obtain ⟨⟨x, combo⟩, hentry, hsub⟩ := exists_of_forall₂ htasks htask
  have hgathered : List.Forall₂ (Gathered static n) n.batchStrategies slots :=
    hslots.imp fun _ _ hslot => hslot.gathered hs hstood hplaces hspecs
  have hne : ∀ slot ∈ slots, slot.2 ≠ [] := by
    intro slot hslot
    have hmem := (List.forall₂_and_left _ _).mpr ⟨fun _ hb => hb, hslots⟩
    obtain ⟨b, -, hb, hfor⟩ := exists_of_forall₂ hmem hslot
    exact hfor.filled hstood hs hstock hprimed hn hbatch hrows hb
      (hfor.gathered hs hstood hplaces hspecs)
  have hcombo := combo_forall₂ hne (List.of_mem_zip hentry).2
  have hinputSlots : ∀ c ∈ combo, ∃ s, n.inputSlot c.1 = .ok s := by
    intro c hc
    obtain ⟨slot, hslot, hkey, -⟩ := exists_of_forall₂ hcombo hc
    obtain ⟨b, -, hdescriptor, s, hs, -⟩ := exists_of_forall₂ hslots hslot
    exact ⟨s, by rw [hkey, hdescriptor, hs]⟩
  obtain ⟨i, hi⟩ := List.getElem?_of_mem hentry
  refine ⟨slots, subs.map NodeInstance.id, i, combo, hgathered, ?_, by rw [hi, hsub.id], ?_⟩
  · rw [← hplaces, rowsOf_ids]
    exact hperm.map _
  · rintro ⟨descriptor, source⟩ hfeed
    obtain ⟨b, hb, hkind⟩ := hfits.covered _ hfeed
    obtain ⟨input, inputs, source', hinput, hmem, hsource, hproduced⟩ :=
      combo_source hgathered hcombo hb hkind
    rw [hfits.unmixed.assigned hfeed, Option.some.injEq] at hsource
    subst hsource
    exact ⟨input, inputs, hinput, hsub.contents hinputSlots descriptor input hinput, hproduced, hmem⟩

end Sub

section Runs

variable {flowInstance : WorkflowInstance} {outs : List (NodeSpec × List NodeSpec)}

theorem Gives.filled (h : Gives ids iter w.db flowInstance outs) (hs : Sound w) (hstock : Stocked w)
    (hprimed : Primed w) (htask : task ∈ outs.flatMap Prod.snd) (hfits : Fits single w task) :
    Filled single w task := by
  obtain ⟨entries, db', hplaces, hspecs, houts⟩ := h.prepares
  obtain ⟨out, hout, hmem⟩ := List.mem_flatMap.mp htask
  obtain ⟨n, hn, hprepares⟩ := exists_of_forall₂ houts hout
  cases hprepares with
  | waiting hwaiting => exact absurd hmem List.not_mem_nil
  | plain n' hentry hplain hfill =>
    rw [List.mem_singleton] at hmem
    subst hmem
    have hid : task.id = n.id := (fillRelations_same hfill).1
    exact .root _ h.spec n hn hid
      (fillRelations_filled hprimed h.spec (hfits.root _ h.spec n hn hid) hfill)
  | batch tasks slots hentry hbatch htasks hcollect =>
    rcases List.mem_cons.mp hmem with rfl | hmem
    · exact .root _ h.spec task hn rfl ((hfits.root _ h.spec task hn rfl).unfed hbatch)
    · obtain ⟨⟨c, hc, hid, hparent⟩, -⟩ := htasks.parent hmem
      rw [hplaces] at hc
      have hsub := hfits.sub _ h.spec n hn ⟨c, hc, hid, hparent⟩
      obtain ⟨slots, subs, i, combo, hfilled⟩ :=
        htasks.filled hs hstock hprimed h.spec hn hbatch hplaces hspecs hsub hmem
      exact .sub _ h.spec n hn hbatch slots subs i combo hfilled

theorem step_filled (hs : Sound w) (hstock : Stocked w) (hprimed : Primed w) (q : Request)
    (htask : task ∈ newly w (step env w q)) (hfits : Fits single w task) : Filled single w task := by
  cases step_respecced hs q with
  | scheduled hsched hplaces =>
    obtain ⟨given, hgiven, hgives⟩ := hsched.sends
    rw [newly_of_append hgiven] at htask
    obtain ⟨flow, outs, gives, hmem⟩ := hgives task htask
    exact gives.filled hs hstock hprimed hmem hfits
  | entered spec flow rows kept entry hkept inserted handed_eq =>
    have hnone : newly w (step env w q) = [] := newly_of_append (by rw [handed_eq, List.append_nil])
    rw [hnone] at htask
    exact absurd htask List.not_mem_nil

theorem dispatched_filled (hids : Function.Injective ids) (files : Files) (single : Bool)
    (qs : List Request) : Along (step env)
      (fun w q => ∀ task ∈ newly w (step env w q), Fits single w task → Filled single w task)
      (World.start ids files) qs := by
  refine Along.of_invariant (I := fun w => Sound w ∧ Stocked w ∧ Primed w)
    (fun w q ⟨hs, hstock, hprimed⟩ => ?_) (fun w q ⟨hs, hstock, hprimed⟩ task htask hfits => ?_)
    ⟨start_sound hids files, start_stocked ids files, start_primed ids files⟩ qs
  · exact ⟨step_sound hs q, step_stocked hs hstock q, step_primed hs hprimed q⟩
  · exact step_filled hs hstock hprimed q htask hfits

end Runs

section Samples

instance (static : WorkflowInstanceSpec) (n : NodeSpec) : Decidable (Unmixed static n) :=
  inferInstanceAs (Decidable (∀ feed ∈ static.feeds n, ∀ feed' ∈ static.feeds n,
    feed.1 = feed'.1 → feed = feed'))

instance (static : WorkflowInstanceSpec) (n : NodeSpec) : Decidable (SubFits static n) :=
  decidable_of_iff (Unmixed static n ∧
    ∀ feed ∈ static.feeds n, ∃ b ∈ n.strategy feed.1, b.kind = .fromBatchOutputs)
    ⟨fun ⟨h, h'⟩ => ⟨h, h'⟩, fun h => ⟨h.unmixed, h.covered⟩⟩

theorem twoStages_filled : ∃ task ∈ newly reportedSameSecond
    (step (sameSecond twoStages) reportedSameSecond (report 101 .success)),
      task.id = 108 ∧ Filled true reportedSameSecond task := by
  have hnew : ∃ task ∈ newly reportedSameSecond
      (step (sameSecond twoStages) reportedSameSecond (report 101 .success)), task.id = 108 ∧
      (∀ p ∈ reportedSameSecond.db.specs, ∀ n ∈ p.2.nodeSpecs, n.id ≠ 108) ∧
      ∀ p ∈ reportedSameSecond.db.specs, ∀ n ∈ p.2.nodeSpecs,
        (∃ c ∈ reportedSameSecond.db.places, c.id = 108 ∧ c.parent = some n.id) →
          SubFits p.2 n := by decide +kernel
  have hrun : run (step (sameSecond twoStages)) (.start sampleIds sampleFiles)
      (sampleRequests twoStages reporting) = reportedSameSecond := rfl
  generalize reportedSameSecond = w at hnew hrun ⊢
  obtain ⟨task, htask, hid, hroot, hsub⟩ := hnew
  have hfilled : Along (step (sameSecond twoStages)) _ _ _ := dispatched_filled sampleIds_injective
    sampleFiles true (sampleRequests twoStages reporting ++ [report 101 .success])
  rw [along_append, hrun] at hfilled
  refine ⟨task, htask, hid, hfilled.2.1 task htask ⟨fun p hp n hn hnid => ?_, ?_⟩⟩
  · exact absurd (hnid.symm.trans hid) (hroot p hp n hn)
  · rw [hid]
    exact hsub

def aside : WorkflowDraft := sampleDraft
  [sampleNode 1 (filledSlot "t") none "o",
    { sampleNode 2 (filledSlot "t") (some sampleFiller) "o" with
      inputSlots := [filledSlot "t", emptySlot "s"] }]
  [⟨1, 2, [⟨"o", "s", .network⟩]⟩]

def contested : WorkflowDraft := sampleDraft
  [{ sampleNode 1 (filledSlot "t") none "o" with
      outputSlots := [{ kind := .text, descriptor := "o" }, { kind := .text, descriptor := "p" }] },
    sampleNode 2 (emptySlot "s") none "o"]
  [⟨1, 2, [⟨"o", "s", .network⟩, ⟨"p", "s", .network⟩]⟩]

def fedEmpty (w : World) : List Uuid :=
  ((handed w).filter fun task => w.db.flows.any fun f => f.spec.nodeSpecs.any fun n =>
    (task.id == n.id || w.db.places.any (fun c => c.id == task.id && c.parent == some n.id)) &&
      (f.spec.feeds n).any fun feed => task.contents feed.1 == .ok []).map NodeSpec.id

def givenTo (w : World) (id : Uuid) (descriptor : String) : List (Anyhow (List Input)) :=
  ((handed w).filter (fun task => task.id == id)).map fun task => task.contents descriptor

theorem fed_slots_left_empty :
    fedEmpty (runSample twoStages (reporting ++ [report 101 .success])) = [103] ∧
    fedEmpty (runSample aside (started ++ [report 101 .success])) = [103, 105, 106, 107] ∧
    (∃ f ∈ (runSample contested (started ++ [report 101 .success])).db.flows,
      f.spec.produced (101, "o") = .ok [.text 102] ∧ f.spec.produced (101, "p") = .ok [.text 103]) ∧
    givenTo (runSample contested (started ++ [report 101 .success])) 104 "s" = [.ok [.text 103]] := by
  decide +kernel

end Samples

end Kuintessence
