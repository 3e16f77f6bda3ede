import Kuintessence.Workflow.Inputs
import Kuintessence.Workflow.Registration

namespace Kuintessence

open Effect Outcome

variable {env : Env} {w t : World} {relations : List NodeRelation} {b : BatchStrategy}
  {slot : NodeInputSlot} {regexToMatch : String} {fillCount : Nat} {filler : Filler}

section Panics

theorem panicless_attempt : Panicless attempt :=
  panicless_read.bind fun _ => panicless_get.bind fun _ => (panicless_modify _).bind fun _ =>
    panicless_pure _

theorem panicless_call : Panicless call := by
  refine panicless_get.bind fun w => panicless_attempt.bind fun up => ?_
  cases up with
  | true => exact panicless_pure _
  | false => exact panicless_throw _

theorem panicless_gen {α : Type} {m : Gen α} (h : Panicless m) : Panicless (gen m) :=
  fun _ w => h () w.ids

theorem panicless_newV4 : Panicless newV4 := fun _ _ => ok_ne_panic _

theorem panicless_insertText (key : Uuid) (value : String) : Panicless (insertText key value) :=
  panicless_call.bind fun _ => panicless_modify _

theorem panicless_registerMove (info : MoveRegistration) : Panicless (registerMove info) := by
  refine panicless_call.bind fun _ => panicless_get.bind fun w => ?_
  cases info.userId.or w.user with
  | none => exact panicless_throw _
  | some user => exact panicless_modify _

theorem panicless_doRegisteredMoves (metaId : Uuid) : Panicless (doRegisteredMoves metaId) :=
  panicless_call.bind fun _ => panicless_get.bind fun _ =>
    Panicless.each (fun _ => panicless_call.bind fun _ => panicless_modify _) _

theorem panicless_storeText (text : String) : Panicless (storeText text) :=
  (panicless_gen panicless_newV4).bind fun _ => (panicless_insertText _ _).bind fun _ =>
    panicless_pure _

theorem panicless_storeFile (fileName content : String) : Panicless (storeFile fileName content) :=
  panicless_read.bind fun _ => (panicless_gen panicless_newV4).bind fun _ =>
    (panicless_gen panicless_newV4).bind fun _ => (panicless_registerMove _).bind fun _ =>
      (panicless_doRegisteredMoves _).bind fun _ => panicless_pure _

def found {α : Type} (message : String) : Option α → Svc α
  | some a => pure a
  | none => fail message

theorem panicless_found {α : Type} (message : String) (o : Option α) :
    Panicless (found message o) := by
  cases o with
  | some a => exact panicless_pure a
  | none => exact panicless_throw _

theorem found_ok_iff {α : Type} {message : String} {o : Option α} {a : α} :
    found message o env w = (.ok a, t) ↔ o = some a ∧ w = t := by
  cases o with
  | some b => simp [found, Pure.pure]
  | none => simp [found, fail, Effect.throw]

theorem getText_eq (key : Uuid) : getText key = call >>= fun _ => .get >>= fun w =>
    found "No such text key!" (Assoc.get w.files.texts key) := by
  refine bind_congr fun _ => bind_congr fun w => ?_
  cases Assoc.get w.files.texts key with
  | some _ => rfl
  | none => rfl

theorem getFileText_eq (id : Uuid) : getFileText id = .read >>= fun env => call >>= fun k =>
    found "no such file" (env.fileText k id) := by
  refine bind_congr fun env => bind_congr fun k => ?_
  cases env.fileText k id with
  | some _ => rfl
  | none => rfl

theorem getNodeById_eq (id : Uuid) : getNodeById id = call >>= fun _ => .get >>= fun w =>
    found s!"There is no such node_instance with id: {id}"
      (w.db.nodes.find? fun row => row.id == id) := by
  refine bind_congr fun _ => bind_congr fun w => ?_
  cases w.db.nodes.find? fun row => row.id == id with
  | some _ => rfl
  | none => rfl

theorem getFlowById_eq (id : Uuid) : getFlowById id = call >>= fun _ => .get >>= fun w =>
    found s!"There is no such flow_instance id: {id}"
      (w.db.flows.find? fun row => row.id == id) := by
  refine bind_congr fun _ => bind_congr fun w => ?_
  cases w.db.flows.find? fun row => row.id == id with
  | some _ => rfl
  | none => rfl

theorem panicless_getText (key : Uuid) : Panicless (getText key) :=
  getText_eq key ▸ panicless_call.bind fun _ => panicless_get.bind fun _ => panicless_found _ _

theorem panicless_getFileText (id : Uuid) : Panicless (getFileText id) :=
  getFileText_eq id ▸ panicless_read.bind fun _ => panicless_call.bind fun _ => panicless_found _ _

theorem panicless_getNodeById (id : Uuid) : Panicless (getNodeById id) :=
  getNodeById_eq id ▸ panicless_call.bind fun _ => panicless_get.bind fun _ => panicless_found _ _

theorem panicless_getFlowById (id : Uuid) : Panicless (getFlowById id) :=
  getFlowById_eq id ▸ panicless_call.bind fun _ => panicless_get.bind fun _ => panicless_found _ _

theorem panicless_getFlowByNodeId (id : Uuid) : Panicless (getFlowByNodeId id) :=
  (panicless_getNodeById id).bind fun _ => panicless_getFlowById _

end Panics

section Reading

variable {key id : Uuid}

theorem call_ok_iff {k : Nat} : call env w = (.ok k, t) ↔
    env.fails w.calls = false ∧ w.calls = k ∧ w.called = t := by
  have hcall := wp_call_exact env w
  unfold wp at hcall
  generalize call env w = out at hcall ⊢
  obtain ⟨o, u⟩ := out
  cases o with
  | ok k' =>
    obtain ⟨hup, rfl, rfl⟩ := hcall
    simp [hup]
  | err e => simp [hcall.1]
  | panic => simp [hcall.1]

theorem call_bind_ok_iff {α : Type} {f : Nat → Svc α} {a : α} : (call >>= f) env w = (.ok a, t) ↔
    env.fails w.calls = false ∧ f w.calls env w.called = (.ok a, t) := by
  rw [bound_ok_iff]
  constructor
  · rintro ⟨k, u, hcall, h⟩
    obtain ⟨hup, rfl, rfl⟩ := call_ok_iff.mp hcall
    exact ⟨hup, h⟩
  · rintro ⟨hup, h⟩
    exact ⟨_, _, call_ok_iff.mpr ⟨hup, rfl, rfl⟩, h⟩

def TextReadable (env : Env) (w : World) (key : Uuid) : Prop :=
  env.fails w.calls = false ∧ (Assoc.get w.files.texts key).isSome = true

def FileReadable (env : Env) (w : World) (id : Uuid) : Prop :=
  env.fails w.calls = false ∧ (env.fileText w.calls id).isSome = true

def FlowReadable (env : Env) (w : World) (id : Uuid) (flow : WorkflowInstance) : Prop :=
  env.fails w.calls = false ∧ env.fails (w.calls + 1) = false ∧
    ∃ node, w.db.nodes.find? (fun row => row.id == id) = some node ∧
      w.db.flows.find? (fun row => row.id == node.flowInstanceId) = some flow

theorem getText_ok_iff : (∃ text t, getText key env w = (.ok text, t)) ↔ TextReadable env w key := by
  have hget (text : String) (t : World) : getText key env w = (.ok text, t) ↔
      env.fails w.calls = false ∧ Assoc.get w.files.texts key = some text ∧ w.called = t := by
    rw [getText_eq, call_bind_ok_iff]
    exact and_congr_right fun _ => found_ok_iff
  simp only [hget, TextReadable, Option.isSome_iff_exists]
  constructor
  · rintro ⟨text, _, hup, htext, _⟩
    exact ⟨hup, text, htext⟩
  · rintro ⟨hup, text, htext⟩
    exact ⟨text, _, hup, htext, rfl⟩

theorem getFileText_ok_iff :
    (∃ text t, getFileText id env w = (.ok text, t)) ↔ FileReadable env w id := by
  have hget (text : String) (t : World) : getFileText id env w = (.ok text, t) ↔
      env.fails w.calls = false ∧ env.fileText w.calls id = some text ∧ w.called = t := by
    rw [getFileText_eq]
    exact call_bind_ok_iff.trans (and_congr_right fun _ => found_ok_iff)
  simp only [hget, FileReadable, Option.isSome_iff_exists]
  exact ⟨fun ⟨text, _, hup, htext, _⟩ => ⟨hup, text, htext⟩,
    fun ⟨hup, text, htext⟩ => ⟨text, _, hup, htext, rfl⟩⟩

theorem getNodeById_ok_iff {node : NodeInstance} : getNodeById id env w = (.ok node, t) ↔
    env.fails w.calls = false ∧ w.db.nodes.find? (fun row => row.id == id) = some node ∧
      w.called = t := by
  rw [getNodeById_eq, call_bind_ok_iff]
  exact and_congr_right fun _ => found_ok_iff

theorem getFlowById_ok_iff {flow : WorkflowInstance} : getFlowById id env w = (.ok flow, t) ↔
    env.fails w.calls = false ∧ w.db.flows.find? (fun row => row.id == id) = some flow ∧
      w.called = t := by
  rw [getFlowById_eq, call_bind_ok_iff]
  exact and_congr_right fun _ => found_ok_iff

theorem getFlowByNodeId_ok_iff {flow : WorkflowInstance} :
    (∃ t, getFlowByNodeId id env w = (.ok flow, t)) ↔ FlowReadable env w id flow := by
  constructor
  · rintro ⟨t, h⟩
    obtain ⟨node, u, hnode, hflow⟩ := bound_ok_iff.mp h
    obtain ⟨hup, hfind, rfl⟩ := getNodeById_ok_iff.mp hnode
    obtain ⟨hup', hfind', -⟩ := getFlowById_ok_iff.mp hflow
    exact ⟨hup, hup', node, hfind, hfind'⟩
  · rintro ⟨hup, hup', node, hfind, hfind'⟩
    exact ⟨_, bound_ok_iff.mpr ⟨node, _, getNodeById_ok_iff.mpr ⟨hup, hfind, rfl⟩,
      getFlowById_ok_iff.mpr ⟨hup', hfind', rfl⟩⟩⟩

end Reading

section Filling

variable {content : String} {random : Nat → Nat}

theorem errorless_fillAutoNumber (step : Int32) (n : Nat) (current : Int32) :
    Errorless (Filler.fillAutoNumber content regexToMatch step n current : Anyhow _) := by
  induction n generalizing current with
  | zero => exact errorless_ok []
  | succ n ih =>
    have hnext : Errorless (checkedAddI32 current step : Anyhow Int32) := by
      unfold checkedAddI32
      split
      · exact errorless_ok _
      · exact errorless_panic
    exact hnext.bind fun next => (ih next).bind fun _ => errorless_ok _

theorem errorless_fillEnumeration (items : List String) (n : Nat) :
    Errorless (Filler.fillEnumeration content regexToMatch items random n : Anyhow _) := by
  induction n with
  | zero => exact errorless_ok []
  | succ n ih => exact (errorless_unwrap _).bind fun _ => ih.bind fun _ => errorless_ok _

theorem errorless_fillMatchRegex (filler : Filler) :
    Errorless (filler.fillMatchRegex random content regexToMatch fillCount : Anyhow _) := by
  cases filler with
  | autoNumber start step => exact errorless_fillAutoNumber step fillCount start
  | enumeration items => exact errorless_fillEnumeration items fillCount

theorem fillMatchRegex_ne_panic_iff :
    (filler.fillMatchRegex random content regexToMatch fillCount : Anyhow _) ≠ .panic ↔
      filler.Fits fillCount := by
  constructor
  · intro h
    cases hfill : (filler.fillMatchRegex random content regexToMatch fillCount : Anyhow _) with
    | ok texts => exact fillMatchRegex_fits hfill
    | err e => exact absurd hfill (errorless_fillMatchRegex filler e)
    | panic => exact absurd hfill h
  · intro h
    obtain ⟨texts, htexts, -⟩ := fillMatchRegex_fills random content regexToMatch h
    rw [htexts]
    exact ok_ne_panic texts

end Filling

section Serving

def Input.Identical : Input → Input → Prop
  | .text key, .text key' => key' = key
  | .file f, .file f' =>
    f'.fileMetadataId = f.fileMetadataId ∧ f'.hash = f.hash ∧ f'.size = f.size
  | _, _ => False

structure Served (env : Env) (w : World) (relations : List NodeRelation) (b : BatchStrategy)
    (slot : NodeInputSlot) : Prop where
  spared : Spares (getBatchInputs relations b slot) env w
  identical : b.kind = .originalBatch → ∃ contents inputs t, (slot.inputs : Anyhow _) = .ok contents ∧
    getBatchInputs relations b slot env w = (.ok inputs, t) ∧
      List.Forall₂ Input.Identical contents inputs

def Refillable (env : Env) (w : World) (b : BatchStrategy) (fillCount : Nat) (filler : Filler) :
    NodeInputSlotKind → Prop
  | .text contents => ∃ c key rest, contents = some c ∧ c.toList = key :: rest ∧
      (TextReadable env w key → filler.Fits fillCount)
  | .file contents _ _ => ∃ c file rest, contents = some c ∧ c.toList = file :: rest ∧
      (FileReadable env w file.fileMetadataId → filler.Fits fillCount ∧ b.renamingPattern ≠ none)
  | .unknown => False

def Renamable (b : BatchStrategy) (slot : NodeInputSlot) : Prop :=
  ∃ c name isBatch, slot.kind = .file (some c) name isBatch ∧
    (c.toList = [] ∨ b.renamingPattern ≠ none)

def Sourced (env : Env) (w : World) (relations : List NodeRelation) (b : BatchStrategy) : Prop :=
  ∃ feed, lastFeed relations b.inputSlotDescriptor = some feed ∧
    ∀ flow, FlowReadable env w feed.1 flow →
      ∃ m, flow.spec.node feed.1 = .ok m ∧ ∃ out, m.outputSlot feed.2 = .ok out

def Servable (env : Env) (w : World) (relations : List NodeRelation) (b : BatchStrategy)
    (slot : NodeInputSlot) : Prop :=
  match b.kind with
  | .originalBatch => Renamable b slot
  | .matchRegex _ fillCount filler => Refillable env w b fillCount filler slot.kind
  | .fromBatchOutputs => Sourced env w relations b

theorem spares_fromBatchInputs_iff :
    Spares (fromBatchInputs relations b) env w ↔ Sourced env w relations b := by
  unfold fromBatchInputs Sourced
  rw [spares_unwrap_bind_iff]
  refine exists_congr fun feed => and_congr_right fun _ => ?_
  rw [spares_bind_iff, and_iff_right (panicless_getFlowByNodeId feed.1).spares]
  simp only [← getFlowByNodeId_ok_iff, forall_exists_index]
  refine forall_congr' fun flow => forall_congr' fun t => imp_congr_right fun _ => ?_
  simp only [WorkflowInstanceSpec.node, NodeSpec.outputSlot, spares_unwrap_bind_iff,
    unwrap_ok_iff, (panicless_pure _).spares, and_true]

theorem spares_fill_iff {f : List String → Svc (List Input)} {p : Prop} {content : String}
    {random : Nat → Nat} (hf : ∀ texts, Spares (f texts) env w ↔ p) :
    Spares (.lift (filler.fillMatchRegex random content regexToMatch fillCount) >>= f) env w ↔
      filler.Fits fillCount ∧ p := by
  simp only [spares_lift_bind_iff, fillMatchRegex_ne_panic_iff, hf]
  refine and_congr_right fun hfits => ?_
  obtain ⟨texts, htexts, -⟩ := fillMatchRegex_fills random content regexToMatch hfits
  exact ⟨fun h => h texts htexts, fun hp _ _ => hp⟩

theorem spares_head_iff {α : Type} {contents : Option (RVec α)} {f : α → Svc (List Input)}
    {P : α → Prop} (hf : ∀ a, Spares (f a) env w ↔ P a) :
    Spares (.lift (.unwrap contents) >>= fun c => .lift (.unwrap c.toList.head?) >>= f) env w ↔
      ∃ c a rest, contents = some c ∧ c.toList = a :: rest ∧ P a := by
  simp only [spares_unwrap_bind_iff, hf, List.head?_eq_some_iff]
  constructor
  · rintro ⟨c, hc, a, ⟨rest, hlist⟩, ha⟩
    exact ⟨c, a, rest, hc, hlist, ha⟩
  · rintro ⟨c, a, rest, hc, hlist, ha⟩
    exact ⟨c, hc, a, ⟨rest, hlist⟩, ha⟩

theorem spares_matchRegexInputs_iff (regexToMatch : String) :
    Spares (matchRegexInputs b regexToMatch fillCount filler slot) env w ↔
      Refillable env w b fillCount filler slot.kind := by
  unfold matchRegexInputs
  rw [spares_read_bind_iff]
  cases slot.kind with
  | text contents =>
    refine spares_head_iff fun key => ?_
    rw [spares_panicless_bind_iff (p := filler.Fits fillCount) (panicless_getText key),
      getText_ok_iff]
    intro text t
    rw [spares_get_bind_iff, spares_fill_iff (p := True), and_true]
    exact fun texts => iff_true_intro (Panicless.mapEach panicless_storeText texts).spares
  | file contents name isBatch =>
    refine spares_head_iff fun file => ?_
    rw [spares_panicless_bind_iff (p := filler.Fits fillCount ∧ b.renamingPattern ≠ none)
      (panicless_getFileText file.fileMetadataId), getFileText_ok_iff]
    intro text t
    rw [spares_get_bind_iff, spares_fill_iff (p := b.renamingPattern ≠ none)]
    intro texts
    rw [spares_unwrap_bind_iff, Option.ne_none_iff_exists']
    refine exists_congr fun pattern => and_iff_left (Panicless.spares ?_)
    exact Panicless.mapEach (fun text => panicless_get.bind fun _ => panicless_storeFile _ text) texts
  | unknown => exact iff_of_false not_spares_panic id

theorem identical_renamed (env : Env) (w : World) (pattern : String) (inputs : List FileInput) :
    ∃ outs t, Effect.mapEach (renameOriginal (some pattern)) (inputs.map .file) env w = (.ok outs, t) ∧
      List.Forall₂ Input.Identical (inputs.map .file) outs := by
  refine exists_of_wp (wp_mapEach (fun pre outs _ => List.Forall₂ Input.Identical pre outs) _ ?_ .nil)
  rintro pre x post outs hsplit t houts
  have hx : x ∈ inputs.map .file := hsplit ▸ List.mem_append_right pre List.mem_cons_self
  obtain ⟨file, -, rfl⟩ := List.mem_map.mp hx
  exact List.rel_append houts (.cons ⟨rfl, rfl, rfl⟩ .nil)

theorem inputs_file {c : RVec FileInput} {name : Option String} {isBatch : Bool}
    (h : slot.kind = .file (some c) name isBatch) :
    (slot.inputs : Anyhow _) = .ok (c.toList.map .file) := by
  rw [NodeInputSlot.inputs, h]
  rfl

theorem nil_of_spares_rename {inputs : List FileInput}
    (h : Spares (Effect.mapEach (renameOriginal none) (inputs.map .file)) env w) : inputs = [] := by
  cases inputs with
  | nil => rfl
  | cons file inputs =>
    obtain ⟨hone, -⟩ := spares_bind_iff.mp h
    obtain ⟨pattern, heq, -⟩ := spares_unwrap_bind_iff.mp hone
    cases heq

theorem renamable_of_spares {contents : List Input} (hinputs : (slot.inputs : Anyhow _) = .ok contents)
    (h : Spares (originalInputs b slot) env w) : Renamable b slot := by
  unfold originalInputs at h
  obtain ⟨-, hrest⟩ := spares_lift_bind_iff.mp h
  have hrun := hrest contents hinputs
  unfold NodeInputSlot.inputs at hinputs
  cases hkind : slot.kind with
  | text keys =>
    rw [hkind] at hrun
    exact absurd hrun not_spares_panic
  | file files name isBatch =>
    rw [hkind] at hrun hinputs
    obtain ⟨c, hc, hlist⟩ := bind_ok_iff.mp hinputs
    cases hlist
    refine ⟨c, name, isBatch, by rw [hkind, unwrap_ok_iff.mp hc], ?_⟩
    cases hpattern : b.renamingPattern with
    | none =>
      rw [hpattern] at hrun
      exact .inl (nil_of_spares_rename hrun)
    | some pattern => exact .inr nofun
  | unknown =>
    rw [hkind] at hrun
    exact absurd hrun not_spares_panic

theorem originalInputs_identical (env : Env) (w : World) (h : Renamable b slot) : ∃ contents inputs t,
    (slot.inputs : Anyhow _) = .ok contents ∧ originalInputs b slot env w = (.ok inputs, t) ∧
      List.Forall₂ Input.Identical contents inputs := by
  obtain ⟨c, name, isBatch, hkind, hpattern⟩ := h
  have hinputs := inputs_file hkind
  have hrun : originalInputs b slot env w =
      Effect.mapEach (renameOriginal b.renamingPattern) (c.toList.map .file) env w := by
    have hlift : (lift slot.inputs : Svc _) env w = (.ok (c.toList.map .file), w) := by
      rw [lift, hinputs]
    rw [originalInputs, bind_of_ok hlift, hkind]
  cases hp : b.renamingPattern with
  | none =>
    have hnil := hpattern.resolve_right (fun hne => hne hp)
    rw [hnil] at hrun hinputs
    exact ⟨[], [], w, hinputs, hrun, .nil⟩
  | some pattern =>
    rw [hp] at hrun
    obtain ⟨inputs, t, hinput, hidentical⟩ :=
      identical_renamed env w pattern c.toList
    exact ⟨_, inputs, t, hinputs, hrun.trans hinput, hidentical⟩

theorem getBatchInputs_served_iff (env : Env) (w : World) (relations : List NodeRelation)
    (b : BatchStrategy) (slot : NodeInputSlot) :
    Served env w relations b slot ↔ Servable env w relations b slot := by
  unfold Servable
  cases hkind : b.kind with
  | originalBatch =>
    have hrun : getBatchInputs relations b slot = originalInputs b slot := by
      rw [getBatchInputs, hkind]
    constructor
    · rintro ⟨hspared, hidentical⟩
      obtain ⟨contents, -, -, hcontents, -⟩ := hidentical hkind
      rw [hrun] at hspared
      exact renamable_of_spares hcontents hspared
    · intro h
      have hidentical := originalInputs_identical env w h
      rw [← hrun] at hidentical
      obtain ⟨-, inputs, t, -, hok, -⟩ := id hidentical
      exact ⟨spares_of_ok hok, fun _ => hidentical⟩
  | matchRegex regexToMatch fillCount filler =>
    have hrun : getBatchInputs relations b slot =
        matchRegexInputs b regexToMatch fillCount filler slot := by
      rw [getBatchInputs, hkind]
    change _ ↔ Refillable env w b fillCount filler slot.kind
    rw [← spares_matchRegexInputs_iff regexToMatch, ← hrun]
    exact ⟨fun h => h.spared, fun h => ⟨h, fun heq => nomatch hkind.symm.trans heq⟩⟩
  | fromBatchOutputs =>
    have hrun : getBatchInputs relations b slot = fromBatchInputs relations b := by
      rw [getBatchInputs, hkind]
    change _ ↔ Sourced env w relations b
    rw [← spares_fromBatchInputs_iff, ← hrun]
    exact ⟨fun h => h.spared, fun h => ⟨h, fun heq => nomatch hkind.symm.trans heq⟩⟩

theorem original_batch_panics :
    (getBatchInputs [] ⟨"in", some "part", .originalBatch⟩
      { kind := .text (some (.single 7)), descriptor := "in" }
      (sampleEnv []) (.start sampleIds sampleFiles)).1 = .panic ∧
    (getBatchInputs [] ⟨"in", none, .originalBatch⟩
      { kind := .file (some (.single { fileMetadataId := 7 })) none true, descriptor := "in" }
      (sampleEnv []) (.start sampleIds sampleFiles)).1 = .panic := by
  decide +kernel

end Serving

end Kuintessence
