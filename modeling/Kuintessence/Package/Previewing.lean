import Kuintessence.Lib.Parallel
import Kuintessence.Package.Dangling
import Kuintessence.Package.Orders

namespace Kuintessence.Package

namespace Previewing

open ParseTask (Draft)
open PackageValidate (Preview)

section Mounts

variable {V V' S S' F F' : Type}

-- One format, and under each placeholder number what belongs together.
structure Like (R : V → V' → Prop) (f : FormatFill V) (f' : FormatFill V') : Prop where
  format : f.format = f'.format
  fills : f.placeholderFillMap.Matches R f'.placeholderFillMap

-- What two functions gather from the same mounts; the flags are seen by the first one only.
structure Depicts (R : V → V' → Prop) (T : S → S' → Prop) (sorts : Nat → Prop) (keys : String → Prop)
    (g : Gathered V S F) (g' : Gathered V' S' F') : Prop where
  arguments : g.argumentFormatsSorts.Alike sorts (Like R) g'.argumentFormatsSorts
  environments : g.environmentFormats.Alike keys (Like R) g'.environmentFormats
  stdIn : T g.stdIn g'.stdIn
  templates : g.templatesKv.Matches (HashMap.Matches R) g'.templatesKv

structure Suits (R : V → V' → Prop) (T : S → S' → Prop) (p : Mounting V S F)
    (p' : Mounting V' S' F') : Prop where
  argumentFormat : ∀ descriptor f f', p.argumentFormat descriptor = .ok f →
    p'.argumentFormat descriptor = .ok f' → Like R f f'
  environmentKvFormat : ∀ descriptor kv kv', p.environmentKvFormat descriptor = .ok kv →
    p'.environmentKvFormat descriptor = .ok kv' → kv.1 = kv'.1 ∧ Like R kv.2 kv'.2
  value : R p.value p'.value
  stdIn : ∀ a a', p.stdIn = .ok a → p'.stdIn = .ok a' → T a a'

variable {R : V → V' → Prop} {T : S → S' → Prop} {sorts : Nat → Prop} {keys : String → Prop}
  {g g₁ : Gathered V S F} {g' g₁' : Gathered V' S' F'} {p : Mounting V S F}
  {p' : Mounting V' S' F'}

theorem Like.fill {f : FormatFill V} {f' : FormatFill V'} (h : Like R f f') {v : V} {v' : V'}
    (hv : R v v') (nth : Nat) : Like R (f.fill nth v) (f'.fill nth v') where
  format := h.format
  fills := h.fills.insert fun _ => hv

theorem insertKeys_matches {v : V} {v' : V'} (hv : R v v') (descriptor : String)
    (refKeys : List String) {m : HashMap String (HashMap String V)}
    {m' : HashMap String (HashMap String V')} (h : m.Matches (HashMap.Matches R) m') :
    (insertKeys v descriptor refKeys m).Matches (HashMap.Matches R)
      (insertKeys v' descriptor refKeys m') := by
  induction refKeys generalizing m m' with
  | nil => exact h
  | cons refKey refKeys ih =>
    refine ih (h.entry HashMap.Alike.empty fun kv kv' hkv => ?_)
    exact hkv.insert fun _ => hv

theorem Depicts.mount (h : Depicts R T sorts keys g g') (hp : Suits R T p p') {ref : FileRef}
    (hg : Package.mount p g ref = .ok g₁) (hg' : Package.mount p' g' ref = .ok g₁') :
    Depicts R T sorts keys g₁ g₁' := by
  cases ref with
  | argRef descriptor placeholderNth sort =>
    obtain ⟨f, hf, hg⟩ := Outcome.bind_ok_iff.mp hg
    obtain ⟨f', hf', hg'⟩ := Outcome.bind_ok_iff.mp hg'
    cases hg
    cases hg'
    have harguments := h.arguments.entry (k := sort) (hp.argumentFormat descriptor f f' hf hf')
      fun _ _ hlike => hlike.fill hp.value placeholderNth
    exact { h with arguments := harguments }
  | envRef descriptor placeholderNth =>
    obtain ⟨kv, hkv, hg⟩ := Outcome.bind_ok_iff.mp hg
    obtain ⟨kv', hkv', hg'⟩ := Outcome.bind_ok_iff.mp hg'
    cases hg
    cases hg'
    obtain ⟨hkey, hlike⟩ := hp.environmentKvFormat descriptor kv kv' hkv hkv'
    have henvironments := h.environments.entry (k := kv.1) hlike
      fun _ _ hlike => hlike.fill hp.value placeholderNth
    rw [hkey] at henvironments
    exact { h with environments := hkey ▸ henvironments }
  | stdIn =>
    obtain ⟨a, ha, hg⟩ := Outcome.bind_ok_iff.mp hg
    obtain ⟨a', ha', hg'⟩ := Outcome.bind_ok_iff.mp hg'
    cases hg
    cases hg'
    exact { h with stdIn := hp.stdIn a a' ha ha' }
  | fileInputRef descriptor =>
    obtain ⟨files, -, hg⟩ := Outcome.bind_ok_iff.mp hg
    obtain ⟨files', -, hg'⟩ := Outcome.bind_ok_iff.mp hg'
    cases hg
    cases hg'
    exact { h with }
  | templateRef descriptor refKeys =>
    obtain ⟨_, -, hg⟩ := Outcome.bind_ok_iff.mp hg
    obtain ⟨_, -, hg'⟩ := Outcome.bind_ok_iff.mp hg'
    cases hg
    cases hg'
    exact { h with templates := insertKeys_matches hp.value descriptor refKeys h.templates }

theorem Depicts.mountEach (h : Depicts R T sorts keys g g') (hp : Suits R T p p')
    {refs : List FileRef} (hg : Package.mountEach p g refs = .ok g₁)
    (hg' : Package.mountEach p' g' refs = .ok g₁') : Depicts R T sorts keys g₁ g₁' :=
  Outcome.foldEach_same (fun _ _ _ _ _ _ h hg hg' => Depicts.mount h hp hg hg') h hg hg'

theorem Depicts.files (h : Depicts R T sorts keys g g') (files : List F) (files' : List F') :
    Depicts R T sorts keys { g with files := files } { g' with files := files' } := { h with }

end Mounts

section Showing

variable (services : Services) (nodeSpec : NodeSpec) (u : SoftwareComputingUsecase)
  (kvs : HashMap String (HashMap String (Option String)))

-- What a template is filled to.
structure Renders (descriptor : String) (info : TemplateFileInfo) (filled : String) : Prop where
  found : u.usecaseData.templateFileInfo descriptor = some info
  rendered : ∃ kv, kvs.get descriptor = some kv ∧ services.render info.content kv = .ok filled

def Shows : Option String → InDescriptor → Prop
  | value, .inputSlot descriptor => ∃ content,
      ParseTask.getContent services nodeSpec descriptor = .ok content ∧
        value = content.map InContent.literal
  | value, .template descriptor => ∃ info filled, Renders services u kvs descriptor info filled ∧
      (value = some filled ∨ value = some info.fileName)
  | _, .none => False

def ShowsStdIn : StdInKind → InDescriptor → Prop
  | stdIn, .inputSlot descriptor => ∃ slot ∈ u.usecaseData.spec.inputSlots,
      slot.descriptor = descriptor ∧ ∃ content,
        ParseTask.getContent services nodeSpec descriptor = .ok content ∧
          ParseTask.slotStdIn content slot = .ok stdIn
  | stdIn, .template descriptor => ∃ info filled, Renders services u kvs descriptor info filled ∧
      (stdIn = .text filled ∨ stdIn = .file info.fileName)
  | stdIn, .none => stdIn = .none

def Flagged (sort : Nat) : Prop :=
  ∃ material, u.usecaseData.spec.flagArguments.get material = some sort

def FlaggedKey (key : String) : Prop :=
  ∃ material ∈ u.usecaseData.spec.flagEnvironments,
    ParseTask.environmentKey u.softwareData material = key

abbrev Pictures (g : Draft) (g' : Preview) : Prop :=
  Depicts (Shows services nodeSpec u kvs) (ShowsStdIn services nodeSpec u kvs) (Flagged u)
    (FlaggedKey u) g g'

variable {services} {nodeSpec} {u} {kvs}

theorem argument_like {R : Option String → InDescriptor → Prop} {s : SoftwareData}
    {descriptor : String} {f : FormatFill (Option String)} {f' : FormatFill InDescriptor}
    (hf : ParseTask.argumentFormat s descriptor = .ok f)
    (hf' : PackageValidate.argumentFormat s descriptor = .ok f') : Like R f f' := by
  obtain ⟨el, hel, hf⟩ := Outcome.bind_ok_iff.mp hf
  obtain ⟨el', hel', hf'⟩ := Outcome.bind_ok_iff.mp hf'
  cases hf
  cases hf'
  cases (Outcome.unwrap_ok_iff.mp hel).symm.trans (Outcome.okOr_ok_iff.mp hel')
  exact ⟨rfl, HashMap.Alike.empty⟩

theorem environment_like {R : Option String → InDescriptor → Prop} {s : SoftwareData}
    {descriptor : String} {kv : String × FormatFill (Option String)}
    {kv' : String × FormatFill InDescriptor}
    (hkv : ParseTask.environmentKvFormat s descriptor = .ok kv)
    (hkv' : PackageValidate.environmentKvFormat s descriptor = .ok kv') :
    kv.1 = kv'.1 ∧ Like R kv.2 kv'.2 := by
  obtain ⟨el, hel, hkv⟩ := Outcome.bind_ok_iff.mp hkv
  obtain ⟨el', hel', hkv'⟩ := Outcome.bind_ok_iff.mp hkv'
  cases hkv
  cases hkv'
  cases (Outcome.unwrap_ok_iff.mp hel).symm.trans (Outcome.okOr_ok_iff.mp hel')
  exact ⟨rfl, rfl, HashMap.Alike.empty⟩

theorem slot_suits {slot : InputSlot} (hslot : slot ∈ u.usecaseData.spec.inputSlots)
    {content : Option InContent}
    (hcontent : ParseTask.getContent services nodeSpec slot.descriptor = .ok content) :
    Suits (Shows services nodeSpec u kvs) (ShowsStdIn services nodeSpec u kvs)
      (ParseTask.slotMounting u.softwareData content slot)
      (PackageValidate.slotMounting u.softwareData slot.descriptor) where
  argumentFormat _ _ _ := argument_like
  environmentKvFormat _ _ _ := environment_like
  value := ⟨content, hcontent, rfl⟩
  stdIn a a' ha ha' := by
    cases ha'
    exact ⟨slot, hslot, rfl, content, hcontent, ha⟩

theorem template_suits {descriptor filled value : String} {info : TemplateFileInfo}
    {stdIn : StdInKind} (h : Renders services u kvs descriptor info filled)
    (hvalue : value = filled ∨ value = info.fileName)
    (hstdIn : stdIn = .text filled ∨ stdIn = .file info.fileName) :
    Suits (Shows services nodeSpec u kvs) (ShowsStdIn services nodeSpec u kvs)
      (ParseTask.templateMounting u.softwareData filled value stdIn)
      (PackageValidate.templateMounting u.softwareData descriptor) where
  argumentFormat _ _ _ := argument_like
  environmentKvFormat _ _ _ := environment_like
  value := ⟨info, filled, h, hvalue.imp (congrArg some) (congrArg some)⟩
  stdIn a a' ha ha' := by
    cases ha
    cases ha'
    exact ⟨info, filled, h, hstdIn⟩

theorem Pictures.flagArgument {g g₁ : Draft} {g' : Preview}
    (h : Pictures services nodeSpec u kvs g g') {flag : String × Nat}
    (hflag : u.usecaseData.spec.flagArguments.get flag.1 = some flag.2)
    (hg : ParseTask.flagArgument u.softwareData g flag = .ok g₁) :
    Pictures services nodeSpec u kvs g₁ g' := by
  obtain ⟨format, -, hg⟩ := Outcome.bind_ok_iff.mp hg
  cases hg
  exact { h with arguments := h.arguments.skipped ⟨flag.1, hflag⟩ format id }

theorem Pictures.flagEnvironment {g g₁ : Draft} {g' : Preview}
    (h : Pictures services nodeSpec u kvs g g') {material : String}
    (hflag : material ∈ u.usecaseData.spec.flagEnvironments)
    (hg : ParseTask.flagEnvironment u.softwareData g material = .ok g₁) :
    Pictures services nodeSpec u kvs g₁ g' := by
  obtain ⟨kv, hkv, hg⟩ := Outcome.bind_ok_iff.mp hg
  cases hg
  cases ParseTask.environmentKvFormat_ok hkv
  exact { h with environments := h.environments.skipped ⟨material, hflag, rfl⟩ _ id }

theorem Pictures.slot {g g₁ : Draft} {g' g₁' : Preview} (h : Pictures services nodeSpec u kvs g g')
    {slot : InputSlot} (hslot : slot ∈ u.usecaseData.spec.inputSlots)
    (hg : ParseTask.parseInputSlot services nodeSpec u.softwareData g slot = .ok g₁)
    (hg' : PackageValidate.validateInputSlot u.softwareData g' slot = .ok g₁') :
    Pictures services nodeSpec u kvs g₁ g₁' := by
  obtain ⟨content, hcontent, hg⟩ := Outcome.bind_ok_iff.mp hg
  exact (h.files _ g'.files).mountEach (slot_suits hslot hcontent) hg hg'

theorem Pictures.template {g g₁ : Draft} {g' g₁' : Preview}
    (h : Pictures services nodeSpec u kvs g g') {template : String × HashMap String (Option String)}
    (hkv : kvs.get template.1 = some template.2)
    (hg : ParseTask.parseTemplate services u g template = .ok g₁)
    (hg' : PackageValidate.validateTemplate ⟨u.softwareData, u.usecaseData⟩ g' template.1 =
      .ok g₁') : Pictures services nodeSpec u kvs g₁ g₁' := by
  obtain ⟨t, ht, hg⟩ := Outcome.bind_ok_iff.mp hg
  obtain ⟨info, hinfo, hg⟩ := Outcome.bind_ok_iff.mp hg
  obtain ⟨filled, hfilled, hg⟩ := Outcome.bind_ok_iff.mp hg
  obtain ⟨a, ha, hg⟩ := Outcome.bind_ok_iff.mp hg
  obtain ⟨t', ht', hg'⟩ := Outcome.bind_ok_iff.mp hg'
  obtain ⟨info', -, hg'⟩ := Outcome.bind_ok_iff.mp hg'
  obtain ⟨a', ha', hg'⟩ := Outcome.bind_ok_iff.mp hg'
  cases (Outcome.unwrap_ok_iff.mp ht).symm.trans (Outcome.okOr_ok_iff.mp ht')
  have hrenders : Renders services u kvs template.1 info filled :=
    ⟨Outcome.unwrap_ok_iff.mp hinfo, template.2, hkv, hfilled⟩
  have hcontent := h.mountEach (template_suits hrenders (.inl rfl) (.inl rfl)) ha ha'
  have hfiles : Pictures services nodeSpec u kvs
      (if t.writesFile then
        { a with files := a.files ++ [.input info.fileName false (.content filled)] } else a)
      (if t.writesFile then
        { a' with files := a'.files ++ [.dynamicInput (.template template.1)] } else a') := by
    split
    · exact hcontent.files _ _
    · exact hcontent
  exact hfiles.mountEach (template_suits hrenders (.inr rfl) (.inr rfl)) hg hg'

end Showing

section Gathering

variable {services : Services} {nodeSpec : NodeSpec} {u : SoftwareComputingUsecase}
  {orders : ParseOrders} {vorders : ValidateOrders}

-- The steps of a validation that went through.
structure Steps (vorders : ValidateOrders) (d : ValidateData) (preview : CommandPreview)
    (g₁ g₂ : Preview) (out : PackageValidate.Outputs) : Prop where
  slots : Outcome.foldEach (PackageValidate.validateInputSlot d.softwareData) { stdIn := .none }
    d.usecaseData.spec.inputSlots = .ok g₁
  templates : Outcome.foldEach (PackageValidate.validateTemplate d) g₁
    (Assoc.keys (g₁.templatesKv.iter vorders.templates)) = .ok g₂
  outputs : Outcome.foldEach (PackageValidate.validateOutputSlot d) { fileInfos := g₂.files }
    d.usecaseData.spec.outputSlots = .ok out
  sorts : PackageValidate.checkSorts
    (HashMap.sortByKey (g₂.argumentFormatsSorts.iter vorders.arguments)) = .ok ()
  preview : preview = ⟨.from d.softwareData.spec, d.usecaseData.spec.commandFile,
    g₂.argumentFormatsSorts, g₂.environmentFormats, g₂.templatesKv, g₂.stdIn, out.fileInfos,
    out.collectPreviews⟩

theorem steps_of_ok {d : ValidateData} {preview : CommandPreview}
    (h : packageValidate vorders d = .ok preview) :
    ∃ g₁ g₂ out, Steps vorders d preview g₁ g₂ out := by
  obtain ⟨g₁, hg₁, h⟩ := Outcome.bind_ok_iff.mp h
  obtain ⟨_, -, h⟩ := Outcome.bind_ok_iff.mp h
  obtain ⟨g₂, hg₂, h⟩ := Outcome.bind_ok_iff.mp h
  obtain ⟨out, hout, h⟩ := Outcome.bind_ok_iff.mp h
  obtain ⟨_, hsorts, h⟩ := Outcome.bind_ok_iff.mp h
  cases h
  exact ⟨g₁, g₂, out, hg₁, hg₂, hout, hsorts, rfl⟩

theorem parseTemplates_templatesKv {g g' : Draft}
    {templates : List (String × HashMap String (Option String))}
    (h : Outcome.foldEach (ParseTask.parseTemplate services u) g templates = .ok g') :
    g'.templatesKv = g.templatesKv := by
  refine Outcome.foldEach_keeps (P := fun a : Draft => a.templatesKv = g.templatesKv) rfl
    (fun template _ a a' ha hstep => ?_) h
  rw [ParseTask.parseTemplate_eq] at hstep
  obtain ⟨ws, hws, hstep⟩ := Outcome.bind_ok_iff.mp hstep
  cases hstep
  obtain ⟨t, -, hwritten⟩ := ParseTask.templateWrites_written hws
  have hnil : ws.flatMap Writes.templates = [] :=
    List.flatMap_eq_nil_iff.mpr fun w hw => (hwritten w hw).templates
  rw [Writes.onEach_templates, hnil]
  exact ha

theorem gather_pictured (hfree : u.OrderFree) {g : Draft} {preview : CommandPreview}
    {g₁ g₂ : Preview} {out : PackageValidate.Outputs}
    (hsteps : Steps vorders ⟨u.softwareData, u.usecaseData⟩ preview g₁ g₂ out)
    (hg : ParseTask.gather orders services u nodeSpec = .ok g) :
    Pictures services nodeSpec u g.templatesKv g g₂ := by
  have hsame := fun orders' => ParseTask.gather_same orders' hfree hg
  obtain ⟨flags, hflags, hg⟩ := Outcome.bind_ok_iff.mp hg
  obtain ⟨environments, henvironments, hg⟩ := Outcome.bind_ok_iff.mp hg
  obtain ⟨slots, hslots, hg⟩ := Outcome.bind_ok_iff.mp hg
  have hkvs : g.templatesKv = slots.templatesKv := parseTemplates_templatesKv hg
  have hstart : Pictures services nodeSpec u g.templatesKv { stdIn := .none } { stdIn := .none } :=
    ⟨HashMap.Alike.empty, HashMap.Alike.empty, rfl, HashMap.Alike.empty⟩
  have hflags' := Outcome.foldEach_keeps
    (P := fun a => Pictures services nodeSpec u g.templatesKv a { stdIn := .none }) hstart
    (fun flag hflag _ _ h hstep => h.flagArgument (HashMap.mem_iter_iff.mp hflag) hstep) hflags
  have henvironments' := Outcome.foldEach_keeps
    (P := fun a => Pictures services nodeSpec u g.templatesKv a { stdIn := .none }) hflags'
    (fun _ hflag _ _ h hstep => h.flagEnvironment hflag hstep) henvironments
  have hslots' : Pictures services nodeSpec u g.templatesKv slots g₁ := Outcome.foldEach_same
    (fun _ hslot _ _ _ _ h hs ht => h.slot hslot hs ht) henvironments' hslots hsteps.slots
  -- The task is the same one whichever order its templates come in, so let it be the preview's.
  obtain ⟨o, ho⟩ := hslots'.templates.exists_iter vorders.templates
  obtain ⟨_, hflags₂, hg₂⟩ := Outcome.bind_ok_iff.mp (hsame { orders with templates := o })
  cases hflags.symm.trans hflags₂
  obtain ⟨_, henvironments₂, hg₂⟩ := Outcome.bind_ok_iff.mp hg₂
  cases henvironments.symm.trans henvironments₂
  obtain ⟨_, hslots₂, hg₂⟩ := Outcome.bind_ok_iff.mp hg₂
  cases hslots.symm.trans hslots₂
  have hkeys : List.Forall₂ (fun e descriptor => e.1 = descriptor) (slots.templatesKv.iter o)
      (Assoc.keys (g₁.templatesKv.iter vorders.templates)) :=
    List.forall₂_map_right_iff.mpr (ho.imp fun _ _ h => h.1)
  refine Outcome.foldEach_forall₂ hkeys ?_ hslots' hg₂ hsteps.templates
  rintro template htemplate _ s t s' t' rfl h hs ht
  refine h.template ?_ hs ht
  rw [hkvs]
  exact HashMap.mem_iter_iff.mp htemplate

end Gathering

section Outputs

variable (services : Services) (nodeSpec : NodeSpec) (u : SoftwareComputingUsecase)

def ShowsSource : RepoCollectFrom → CollectFrom → PreviewCollectFrom → Prop
  | .fileOut name, .fileOut path, .fileOut descriptor => ∃ fileOut el,
      PackageValidate.fileOrigin name u.usecaseData.spec.outputSlots = some (.usecaseOut fileOut) ∧
        fileOut.fileOutMaterialDescriptor = descriptor ∧
        ParseTask.usecaseOut services nodeSpec u.softwareData fileOut = .ok (el, path)
  | .stdout, .stdout, .stdout => True
  | .stderr, .stderr, .stderr => True
  | _, _, _ => False

def ShowsTarget : CollectTo → PreviewCollectTo → Prop
  | .file path _, .file path' => path = path'
  | .text _, .text => True
  | _, _ => False

def ShowsCollect (body : TaskBody) (preview : CollectPreview) : Prop :=
  ∃ el ∈ u.usecaseData.collectedOuts, ∃ source target,
    body = .collectedOut source (ParseTask.collectRule el.collecting) target preview.optional ∧
      preview.rule = PackageValidate.previewRule el.collecting ∧
      ShowsSource services nodeSpec u el.collectFrom source preview.collectFrom ∧
      ShowsTarget target preview.collectTo

def ShowsOutput : FileInfo → FileInfoPreview → Prop
  | .output _ path isPackage _, .constOutput descriptor path' => path = path' ∧
      ∃ el, u.softwareData.filesomeOutput descriptor = some el ∧ el.fileKind.path = path ∧
        el.fileKind.isBatch = isPackage
  | .output _ path isPackage _, .dynamicOutput (.inputSlot slot) descriptor =>
      ParseTask.appointedPath services nodeSpec (.inputSlot slot) = .ok (some path) ∧
        ∃ el, u.softwareData.filesomeOutput descriptor = some el ∧ el.fileKind.isBatch = isPackage
  | _, _ => False

-- `files` and `fileInfos` are there before the output slots are looked at.
structure OutputsShown (files : List FileInfo) (fileInfos : List FileInfoPreview)
    (out : ParseTask.Outputs) (out' : PackageValidate.Outputs) : Prop where
  files : ∃ outs outs', out.files = files ++ outs ∧ out'.fileInfos = fileInfos ++ outs' ∧
    List.Forall₂ (ShowsOutput services nodeSpec u) outs outs'
  collects : List.Forall₂ (ShowsCollect services nodeSpec u) out.body out'.collectPreviews

variable {services} {nodeSpec} {u} {files : List FileInfo} {fileInfos : List FileInfoPreview}
  {out out₁ : ParseTask.Outputs} {out' out₁' : PackageValidate.Outputs}

theorem filesomeOutput_descriptor {s : SoftwareData} {descriptor : String} {el : FilesomeOutput}
    (h : s.filesomeOutput descriptor = some el) : el.descriptor = descriptor :=
  beq_iff_eq.mp (List.find?_some (p := fun el : FilesomeOutput => el.descriptor == descriptor) h)

theorem resolveFile_found {d : ValidateData} {fileOut : FileOutAndAppointedBy} {el : FilesomeOutput}
    (h : PackageValidate.resolveFile d fileOut = .ok el) :
    d.softwareData.filesomeOutput fileOut.fileOutMaterialDescriptor = some el :=
  Outcome.okOr_ok_iff.mp h

theorem resolveText_found {d : ValidateData} {fileOut : FileOutAndAppointedBy} {el : FilesomeOutput}
    (h : PackageValidate.resolveText d fileOut = .ok el) :
    d.softwareData.filesomeOutput fileOut.fileOutMaterialDescriptor = some el := by
  obtain ⟨found, hfound, h⟩ := Outcome.bind_ok_iff.mp h
  obtain ⟨_, -, h⟩ := Outcome.bind_ok_iff.mp h
  cases h
  exact Outcome.okOr_ok_iff.mp hfound

theorem collectPath_of_origin {name path : String} {fileOut : FileOutAndAppointedBy}
    {slots : List OutputSlot}
    (h : ParseTask.collectPath services nodeSpec u.softwareData name slots = .ok path)
    (horigin : PackageValidate.fileOrigin name slots = some (.usecaseOut fileOut)) :
    ∃ el, ParseTask.usecaseOut services nodeSpec u.softwareData fileOut = .ok (el, path) := by
  induction slots with
  | nil => cases horigin
  | cons slot slots ih =>
    cases slot with
    | text _ _ _ => exact ih h horigin
    | file descriptor origin _ =>
      unfold PackageValidate.fileOrigin at horigin
      unfold ParseTask.collectPath at h
      split at horigin
      · next hname =>
        cases horigin
        rw [if_pos hname] at h
        obtain ⟨⟨el, found⟩, hfound, h⟩ := Outcome.bind_ok_iff.mp h
        cases h
        exact ⟨el, hfound⟩
      · next hname =>
        rw [if_neg hname] at h
        exact ih h horigin

theorem source_shown {resolve : FileOutAndAppointedBy → Anyhow FilesomeOutput}
    (hresolve : ∀ fileOut el, resolve fileOut = .ok el →
      u.softwareData.filesomeOutput fileOut.fileOutMaterialDescriptor = some el)
    {source : RepoCollectFrom} {found : CollectFrom} {preview : PreviewCollectFrom}
    (hfound : ParseTask.collectFrom services nodeSpec u source = .ok found)
    (hpreview : PackageValidate.previewFrom resolve u.usecaseData.spec.outputSlots source =
      .ok preview) : ShowsSource services nodeSpec u source found preview := by
  cases source with
  | stdout =>
    cases hfound
    cases hpreview
    trivial
  | stderr =>
    cases hfound
    cases hpreview
    trivial
  | fileOut name =>
    obtain ⟨path, hpath, hfound⟩ := Outcome.bind_ok_iff.mp hfound
    cases hfound
    obtain ⟨material, hmaterial, hpreview⟩ := Outcome.bind_ok_iff.mp hpreview
    obtain ⟨el, hel, hpreview⟩ := Outcome.bind_ok_iff.mp hpreview
    cases hpreview
    cases Outcome.unwrap_ok_iff.mp hel
    rw [PackageValidate.findOutMaterial_eq] at hmaterial
    cases horigin : PackageValidate.fileOrigin name u.usecaseData.spec.outputSlots with
    | none =>
      rw [horigin] at hmaterial
      cases hmaterial
    | some origin =>
      cases origin with
      | collectedOut _ =>
        rw [horigin] at hmaterial
        cases hmaterial
      | usecaseOut fileOut =>
        rw [horigin] at hmaterial
        obtain ⟨_, hel', hmaterial⟩ := Outcome.bind_ok_iff.mp hmaterial
        cases hmaterial
        obtain ⟨el', husecase⟩ := collectPath_of_origin hpath horigin
        exact ⟨fileOut, el', horigin, (filesomeOutput_descriptor (hresolve _ _ hel')).symm, husecase⟩

theorem OutputsShown.collect (h : OutputsShown services nodeSpec u files fileInfos out out')
    {resolve : FileOutAndAppointedBy → Anyhow FilesomeOutput}
    (hresolve : ∀ fileOut el, resolve fileOut = .ok el →
      u.softwareData.filesomeOutput fileOut.fileOutMaterialDescriptor = some el)
    {collectTo : RepoCollectTo → Anyhow CollectTo}
    {previewTo : CollectedOut → Anyhow PreviewCollectTo}
    (hto : ∀ el target target', collectTo el.collectTo = .ok target → previewTo el = .ok target' →
      ShowsTarget target target') {descriptor : String} {optional : Bool}
    (hout : ParseTask.collect services nodeSpec u collectTo descriptor optional out = .ok out₁)
    (hout' : PackageValidate.previewCollect ⟨u.softwareData, u.usecaseData⟩ resolve previewTo
      descriptor optional out' = .ok out₁') :
    OutputsShown services nodeSpec u files fileInfos out₁ out₁' := by
  obtain ⟨el, hel, hout⟩ := Outcome.bind_ok_iff.mp hout
  obtain ⟨source, hsource, hout⟩ := Outcome.bind_ok_iff.mp hout
  obtain ⟨target, htarget, hout⟩ := Outcome.bind_ok_iff.mp hout
  cases hout
  obtain ⟨el', hel', hout'⟩ := Outcome.bind_ok_iff.mp hout'
  obtain ⟨source', hsource', hout'⟩ := Outcome.bind_ok_iff.mp hout'
  obtain ⟨target', htarget', hout'⟩ := Outcome.bind_ok_iff.mp hout'
  cases hout'
  cases (Outcome.unwrap_ok_iff.mp hel).symm.trans (Outcome.okOr_ok_iff.mp hel')
  have hmem : el ∈ u.usecaseData.collectedOuts := List.mem_of_find?_eq_some (Outcome.unwrap_ok_iff.mp hel)
  refine ⟨h.files, List.rel_append h.collects (.cons ⟨el, hmem, source, target, rfl, rfl, ?_, ?_⟩ .nil)⟩
  · exact source_shown hresolve hsource hsource'
  · exact hto el target target' htarget htarget'

theorem text_target {slot : String} (el : CollectedOut) {target : CollectTo}
    {target' : PreviewCollectTo} (h : ParseTask.collectText nodeSpec slot el.collectTo = .ok target)
    (h' : PackageValidate.previewText el = .ok target') : ShowsTarget target target' := by
  unfold PackageValidate.previewText at h'
  cases hto : el.collectTo with
  | text =>
    rw [hto] at h h'
    obtain ⟨_, -, h⟩ := Outcome.bind_ok_iff.mp h
    obtain ⟨_, -, h⟩ := Outcome.bind_ok_iff.mp h
    obtain ⟨_, -, h⟩ := Outcome.bind_ok_iff.mp h
    cases h
    cases h'
    trivial
  | file _ =>
    rw [hto] at h
    cases h

theorem file_target {slot : String} (el : CollectedOut) {target : CollectTo}
    {target' : PreviewCollectTo} (h : ParseTask.collectFile nodeSpec slot el.collectTo = .ok target)
    (h' : PackageValidate.previewFile el = .ok target') : ShowsTarget target target' := by
  unfold PackageValidate.previewFile at h'
  cases hto : el.collectTo with
  | text =>
    rw [hto] at h
    cases h
  | file outFile =>
    rw [hto] at h h'
    obtain ⟨_, -, h⟩ := Outcome.bind_ok_iff.mp h
    obtain ⟨_, -, h⟩ := Outcome.bind_ok_iff.mp h
    obtain ⟨_, -, h⟩ := Outcome.bind_ok_iff.mp h
    cases h
    cases h'
    rfl

theorem usecaseOut_shown {fileOut : FileOutAndAppointedBy} {el : FilesomeOutput} {path : String}
    (h : ParseTask.usecaseOut services nodeSpec u.softwareData fileOut = .ok (el, path)) (id : Uuid)
    (optional : Bool) : ShowsOutput services nodeSpec u (.output id path el.fileKind.isBatch optional)
      (PackageValidate.outFileInfo el fileOut.kind) := by
  obtain ⟨found, hfound, h⟩ := Outcome.bind_ok_iff.mp h
  obtain ⟨alter, halter, h⟩ := Outcome.bind_ok_iff.mp h
  cases h
  have hfound := Outcome.unwrap_ok_iff.mp hfound
  rw [← filesomeOutput_descriptor hfound] at hfound
  cases hkind : fileOut.kind with
  | material =>
    rw [hkind] at halter
    cases halter
    exact ⟨rfl, el, hfound, rfl, rfl⟩
  | inputSlot slot =>
    rw [hkind] at halter
    refine ⟨?_, el, hfound, rfl⟩
    cases alter with
    | some path => exact halter
    | none =>
      obtain ⟨inputSlot, -, halter⟩ := Outcome.bind_ok_iff.mp halter
      split at halter
      · obtain ⟨_, -, halter⟩ := Outcome.bind_ok_iff.mp halter
        obtain ⟨_, -, halter⟩ := Outcome.bind_ok_iff.mp halter
        obtain ⟨_, -, halter⟩ := Outcome.bind_ok_iff.mp halter
        cases halter
      · cases halter

theorem OutputsShown.slot (h : OutputsShown services nodeSpec u files fileInfos out out')
    {slot : OutputSlot} (hout : ParseTask.parseOutputSlot services nodeSpec u out slot = .ok out₁)
    (hout' : PackageValidate.validateOutputSlot ⟨u.softwareData, u.usecaseData⟩ out' slot =
      .ok out₁') : OutputsShown services nodeSpec u files fileInfos out₁ out₁' := by
  cases slot with
  | text descriptor collected optional =>
    exact h.collect (fun _ _ => resolveText_found) (fun el _ _ => text_target el) hout hout'
  | file descriptor origin optional =>
    cases origin with
    | collectedOut collector =>
      obtain ⟨_, -, hout⟩ := Outcome.bind_ok_iff.mp hout
      exact h.collect (fun _ _ => resolveFile_found) (fun el _ _ => file_target el) hout hout'
    | usecaseOut fileOut =>
      obtain ⟨_, -, hout⟩ := Outcome.bind_ok_iff.mp hout
      obtain ⟨⟨el, path⟩, husecase, hout⟩ := Outcome.bind_ok_iff.mp hout
      obtain ⟨_, -, hout⟩ := Outcome.bind_ok_iff.mp hout
      obtain ⟨id, -, hout⟩ := Outcome.bind_ok_iff.mp hout
      cases hout
      obtain ⟨el', hel', hout'⟩ := Outcome.bind_ok_iff.mp hout'
      cases hout'
      have hshown := usecaseOut_shown husecase id optional
      obtain ⟨found, hfound, husecase⟩ := Outcome.bind_ok_iff.mp husecase
      obtain ⟨_, -, husecase⟩ := Outcome.bind_ok_iff.mp husecase
      cases husecase
      cases (Outcome.unwrap_ok_iff.mp hfound).symm.trans (Outcome.okOr_ok_iff.mp hel')
      obtain ⟨outs, outs', hfiles, hinfos, hforall⟩ := h.files
      refine ⟨⟨outs ++ [_], outs' ++ [_], ?_, ?_, List.rel_append hforall (.cons hshown .nil)⟩,
        h.collects⟩
      · rw [← List.append_assoc, ← hfiles]
      · rw [← List.append_assoc, ← hinfos]

end Outputs

section Tasks

open PackageValidate

theorem checkSteps_keys {α : Type} {p : Nat} {l : List (Nat × α)} (h : checkSteps p l = .ok ()) :
    Assoc.keys l = List.range' (p + 1) l.length := by
  induction l generalizing p with
  | nil => rfl
  | cons e l ih =>
    obtain ⟨step, hstep, h⟩ := Outcome.bind_ok_iff.mp h
    split at h
    · cases h
    · next hone =>
      unfold PackageValidate.usizeSub at hstep
      split at hstep
      · next hle =>
        cases hstep
        have hkey : e.1 = p + 1 := by omega
        rw [Assoc.keys_cons, ih h, List.length_cons, List.range'_succ, hkey]
      · cases hstep

theorem checkSorts_keys {α : Type} {l : List (Nat × α)} (h : checkSorts l = .ok ()) :
    Assoc.keys l = List.range l.length := by
  cases l with
  | nil => rfl
  | cons e l =>
    obtain ⟨first, value⟩ := e
    change (if first ≠ 0 then bail "sort must begin with '0'" else checkSteps 0 l) = .ok () at h
    split at h
    · cases h
    · next hzero =>
      rw [Assoc.keys_cons, checkSteps_keys h, List.range_eq_range', List.length_cons,
        List.range'_succ, not_not.mp hzero]

variable (orders : ParseOrders) (services : Services) (nodeSpec : NodeSpec)
  (u : SoftwareComputingUsecase)

-- What is run is what the preview shows, filled in.
structure Realizes (g : Draft) (execution : UsecaseExecution) (preview : CommandPreview) : Prop where
  name : execution.name = preview.commandName
  facilityKind : execution.facilityKind = preview.softwareFacility
  arguments : execution.arguments =
    g.argumentFormatsSorts.entries.map fun e => e.2.filled orders.fills
  argumentFormats : g.argumentFormatsSorts.Alike (Flagged u)
    (Like (Shows services nodeSpec u g.templatesKv)) preview.argumentFormatsSorts
  sorts : Assoc.keys preview.argumentFormatsSorts.entries =
    List.range preview.argumentFormatsSorts.entries.length
  line : (∀ sort, ¬Flagged u sort) → List.Forall₂
    (fun text e => ∃ f, Like (Shows services nodeSpec u g.templatesKv) f e.2 ∧
      text = f.filled orders.fills) execution.arguments preview.argumentFormatsSorts.entries
  environments : execution.environments.entries =
    g.environmentFormats.entries.map fun e => (e.1, e.2.filled orders.fills)
  environmentFormats : g.environmentFormats.Alike (FlaggedKey u)
    (Like (Shows services nodeSpec u g.templatesKv)) preview.environmentFormats
  templates : g.templatesKv.Matches
    (HashMap.Matches (Shows services nodeSpec u g.templatesKv)) preview.templatesKvMap
  stdIn : ShowsStdIn services nodeSpec u g.templatesKv execution.stdIn preview.stdIn
  outputs : ∃ outs ins outs', execution.files = g.files ++ outs ∧
    preview.fileInfos = ins ++ outs' ∧ List.Forall₂ (ShowsOutput services nodeSpec u) outs outs'

variable {orders} {services} {nodeSpec} {u}

theorem gathered_realizes {vorders : ValidateOrders} {preview : CommandPreview} {g₁ g₂ : Preview}
    {out' : PackageValidate.Outputs} (hfree : u.OrderFree)
    (hsteps : Steps vorders ⟨u.softwareData, u.usecaseData⟩ preview g₁ g₂ out') {g : Draft}
    (hg : ParseTask.gather orders services u nodeSpec = .ok g) {out : ParseTask.Outputs}
    (hout : OutputsShown services nodeSpec u g.files g₂.files out out')
    (overrideRequirements : Option Requirements) : Realizes orders services nodeSpec u g
      (ParseTask.execution orders u overrideRequirements g out.files) preview := by
  have hpictured := gather_pictured hfree hsteps hg
  obtain ⟨outs, outs', hfiles, hinfos, hshown⟩ := hout.files
  have hsorts := hsteps.sorts
  rw [HashMap.sortByKey_iter] at hsorts
  have harguments : ParseTask.arguments orders g =
      g.argumentFormatsSorts.entries.map fun e => e.2.filled orders.fills := by
    rw [ParseTask.arguments, HashMap.sortByKey_iter]
  cases hsteps.preview
  refine ⟨rfl, rfl, harguments, hpictured.arguments, checkSorts_keys hsorts, fun hnone => ?_,
    HashMap.ofList_iter orders.environments _ fun f => f.filled orders.fills,
    hpictured.environments, hpictured.templates, hpictured.stdIn,
    ⟨outs, g₂.files, outs', hfiles, hinfos, hshown⟩⟩
  have hmatches : g.argumentFormatsSorts.Matches
      (Like (Shows services nodeSpec u g.templatesKv)) g₂.argumentFormatsSorts :=
    fun sort _ => hpictured.arguments sort (hnone sort)
  change List.Forall₂ _ (ParseTask.arguments orders g) g₂.argumentFormatsSorts.entries
  rw [harguments, List.forall₂_map_left_iff]
  exact hmatches.forall₂.imp fun e _ h => ⟨e.2, h.2, rfl⟩

section Samples

open ParseTask

end Samples

end Tasks

end Previewing

end Kuintessence.Package
