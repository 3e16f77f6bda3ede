import Kuintessence.Package.Validation

namespace Kuintessence

namespace Package

namespace PackageValidate

def Resolves (s : SoftwareData) : FileRef → Prop
  | .argRef descriptor _ _ => (s.argument descriptor).isSome
  | .envRef descriptor _ => (s.environment descriptor).isSome
  | .stdIn => True
  | .fileInputRef descriptor => (s.filesomeInput descriptor).isSome
  | .templateRef _ _ => True

def ResolvesInTemplate (s : SoftwareData) (ref : FileRef) : Prop :=
  Resolves s ref ∧ ∀ descriptor refKeys, ref ≠ .templateRef descriptor refKeys

def TemplateResolves (d : ValidateData) (templateDescriptor : String) : Prop :=
  ∃ t, d.usecaseData.templateFile templateDescriptor = some t ∧
    (d.usecaseData.templateFileInfo templateDescriptor).isSome ∧
    (∀ ref ∈ t.asContent, ResolvesInTemplate d.softwareData ref.toFileRef) ∧
    ∀ ref ∈ t.asFileName, ResolvesInTemplate d.softwareData ref

def fileOrigin (descriptor : String) : List OutputSlot → Option FileOutOrigin
  | [] => none
  | .text _ _ _ :: slots => fileOrigin descriptor slots
  | .file slotDescriptor origin _ :: slots =>
    if slotDescriptor == descriptor then some origin else fileOrigin descriptor slots

def Appointed (inputSlots : List InputSlot) : AppointedBy → Prop
  | .material => True
  | .inputSlot descriptor => ∃ refs,
      inputSlots.find? (fun slot => slot.descriptor == descriptor) = some (.text descriptor refs)

def TextResolves (d : ValidateData) (fileOut : FileOutAndAppointedBy) : Prop :=
  (d.softwareData.filesomeOutput fileOut.fileOutMaterialDescriptor).isSome ∧
    Appointed d.usecaseData.spec.inputSlots fileOut.kind

def FileResolves (d : ValidateData) (fileOut : FileOutAndAppointedBy) : Prop :=
  (d.softwareData.filesomeOutput fileOut.fileOutMaterialDescriptor).isSome

def SourceResolves (resolves : FileOutAndAppointedBy → Prop) (outputSlots : List OutputSlot) :
    RepoCollectFrom → Prop
  | .fileOut descriptor => ∃ fileOut,
      fileOrigin descriptor outputSlots = some (.usecaseOut fileOut) ∧ resolves fileOut
  | .stdout => True
  | .stderr => True

def CollectPasses (d : ValidateData) (resolves : FileOutAndAppointedBy → Prop)
    (fits : RepoCollectTo → Prop) (collectedOutDescriptor : String) : Prop :=
  ∃ el, d.usecaseData.collectedOut collectedOutDescriptor = some el ∧
    SourceResolves resolves d.usecaseData.spec.outputSlots el.collectFrom ∧ fits el.collectTo

def Passes (d : ValidateData) : OutputSlot → Prop
  | .text _ collectedOutDescriptor _ =>
    CollectPasses d (TextResolves d) (fun collectTo => collectTo = .text) collectedOutDescriptor
  | .file _ (.collectedOut collectorDescriptor) _ =>
    CollectPasses d (FileResolves d) (fun collectTo => collectTo ≠ .text) collectorDescriptor
  | .file _ (.usecaseOut fileOut) _ => FileResolves d fileOut

def CollectDangles (d : ValidateData) (collectedOutDescriptor : String) : Prop :=
  ∃ el descriptor, d.usecaseData.collectedOut collectedOutDescriptor = some el ∧
    el.collectFrom = .fileOut descriptor ∧ fileOrigin descriptor d.usecaseData.spec.outputSlots = none

-- What the slot collects is to come from a file slot that does not exist.
def Dangles (d : ValidateData) : OutputSlot → Prop
  | .text _ collectedOutDescriptor _ => CollectDangles d collectedOutDescriptor
  | .file _ (.collectedOut collectorDescriptor) _ => CollectDangles d collectorDescriptor
  | .file _ (.usecaseOut _) _ => False

structure Reaches (d : ValidateData) : Prop where
  slots : ∀ slot ∈ d.usecaseData.spec.inputSlots, ∀ ref ∈ slot.refs, Resolves d.softwareData ref
  fileNames : ∀ t ∈ d.usecaseData.spec.templateFiles, ∀ ref ∈ t.asFileName,
    ResolvesInTemplate d.softwareData ref
  templates : ∀ templateDescriptor, d.usecaseData.Uses templateDescriptor →
    TemplateResolves d templateDescriptor
  outputs : Outcome.First (Passes d) (Dangles d) d.usecaseData.spec.outputSlots

section Lookups

variable {α β : Type} {message : String} {o : Option α}

theorem okOr_ne_panic : okOr message o ≠ .panic := Outcome.okOr_ne_panic _ _

theorem okOr_bind_ok_iff {f : α → β} :
    (∃ b, (okOr message o >>= fun el => .ok (f el)) = .ok b) ↔ o.isSome := by
  cases o with
  | none => exact ⟨fun ⟨_, h⟩ => (nomatch h), nofun⟩
  | some a => exact ⟨fun _ => rfl, fun _ => ⟨f a, rfl⟩⟩

theorem okOr_bind_ne_panic {f : α → β} :
    (okOr message o >>= fun el => (.ok (f el) : Anyhow β)) ≠ .panic :=
  Outcome.bind_ne_panic okOr_ne_panic fun _ => Outcome.ok_ne_panic _

end Lookups

section Mounts

variable {s : SoftwareData} {descriptor : String} {ref : FileRef}

theorem slotMounting_takes : (slotMounting s descriptor).Takes ref ↔ Resolves s ref := by
  cases ref with
  | argRef _ _ _ => exact okOr_bind_ok_iff
  | envRef _ _ => exact okOr_bind_ok_iff
  | stdIn => exact ⟨fun _ => trivial, fun _ => ⟨_, rfl⟩⟩
  | fileInputRef _ => exact okOr_bind_ok_iff
  | templateRef _ _ => exact ⟨fun _ => trivial, fun _ => ⟨_, rfl⟩⟩

theorem slotMounting_panicless : (slotMounting s descriptor).Panicless where
  argumentFormat _ := okOr_bind_ne_panic
  environmentKvFormat _ := okOr_bind_ne_panic
  stdIn := Outcome.ok_ne_panic _
  fileInput _ := okOr_bind_ne_panic
  template := Outcome.ok_ne_panic _

theorem templateMounting_takes :
    (templateMounting s descriptor).Takes ref ↔ ResolvesInTemplate s ref := by
  cases ref with
  | argRef _ _ _ => exact okOr_bind_ok_iff.trans ⟨fun h => ⟨h, fun _ _ => nofun⟩, fun h => h.1⟩
  | envRef _ _ => exact okOr_bind_ok_iff.trans ⟨fun h => ⟨h, fun _ _ => nofun⟩, fun h => h.1⟩
  | stdIn => exact ⟨fun _ => ⟨trivial, fun _ _ => nofun⟩, fun _ => ⟨_, rfl⟩⟩
  | fileInputRef _ =>
    exact okOr_bind_ok_iff.trans ⟨fun h => ⟨h, fun _ _ => nofun⟩, fun h => h.1⟩
  | templateRef _ _ => exact ⟨fun ⟨_, h⟩ => (nomatch h), fun h => absurd rfl (h.2 _ _)⟩

theorem templateMounting_panicless : (templateMounting s descriptor).Panicless where
  argumentFormat _ := okOr_bind_ne_panic
  environmentKvFormat _ := okOr_bind_ne_panic
  stdIn := Outcome.ok_ne_panic _
  fileInput _ := okOr_bind_ne_panic
  template := Outcome.err_ne_panic _

theorem checkFileName_ok_iff : checkFileName s ref = .ok () ↔ ResolvesInTemplate s ref := by
  have hunit : checkFileName s ref = .ok () ↔ ∃ u, checkFileName s ref = .ok u :=
    ⟨fun h => ⟨(), h⟩, fun ⟨_, h⟩ => h⟩
  rw [hunit]
  cases ref with
  | argRef _ _ _ => exact okOr_bind_ok_iff.trans ⟨fun h => ⟨h, fun _ _ => nofun⟩, fun h => h.1⟩
  | envRef _ _ => exact okOr_bind_ok_iff.trans ⟨fun h => ⟨h, fun _ _ => nofun⟩, fun h => h.1⟩
  | stdIn => exact ⟨fun _ => ⟨trivial, fun _ _ => nofun⟩, fun _ => ⟨_, rfl⟩⟩
  | fileInputRef _ =>
    exact okOr_bind_ok_iff.trans ⟨fun h => ⟨h, fun _ _ => nofun⟩, fun h => h.1⟩
  | templateRef _ _ => exact ⟨fun ⟨_, h⟩ => (nomatch h), fun h => absurd rfl (h.2 _ _)⟩

theorem checkFileName_ne_panic : checkFileName s ref ≠ .panic := by
  cases ref with
  | argRef _ _ _ => exact okOr_bind_ne_panic
  | envRef _ _ => exact okOr_bind_ne_panic
  | stdIn => exact Outcome.ok_ne_panic _
  | fileInputRef _ => exact okOr_bind_ne_panic
  | templateRef _ _ => exact Outcome.err_ne_panic _

end Mounts

section Outputs

variable {d : ValidateData} {resolve : FileOutAndAppointedBy → Anyhow FilesomeOutput}
  {resolves : FileOutAndAppointedBy → Prop} {previewTo : CollectedOut → Anyhow PreviewCollectTo}
  {inputSlots : List InputSlot} {outputSlots : List OutputSlot}

def originMaterial (resolve : FileOutAndAppointedBy → Anyhow FilesomeOutput) :
    Option FileOutOrigin → Anyhow (Option FilesomeOutput)
  | none => .ok none
  | some (.collectedOut _) => bail "Collect CollectedOut file or text is not implemented!"
  | some (.usecaseOut fileOut) => resolve fileOut >>= fun el => .ok (some el)

theorem findOutMaterial_eq (descriptor : String) (slots : List OutputSlot) :
    findOutMaterial resolve descriptor slots = originMaterial resolve (fileOrigin descriptor slots) := by
  induction slots with
  | nil => rfl
  | cons slot slots ih =>
    cases slot with
    | text _ _ _ => exact ih
    | file slotDescriptor origin _ =>
      unfold findOutMaterial fileOrigin
      split
      · cases origin with
        | collectedOut _ => rfl
        | usecaseOut _ => rfl
      · exact ih

structure Follows (resolve : FileOutAndAppointedBy → Anyhow FilesomeOutput)
    (resolves : FileOutAndAppointedBy → Prop) : Prop where
  ok_iff : ∀ fileOut, (∃ el, resolve fileOut = .ok el) ↔ resolves fileOut
  ne_panic : ∀ fileOut, resolve fileOut ≠ .panic

theorem Follows.previewFrom_panic_iff (h : Follows resolve resolves) (source : RepoCollectFrom) :
    previewFrom resolve outputSlots source = .panic ↔
      ∃ descriptor, source = .fileOut descriptor ∧ fileOrigin descriptor outputSlots = none := by
  cases source with
  | stdout => exact ⟨nofun, fun ⟨_, h, _⟩ => (nomatch h)⟩
  | stderr => exact ⟨nofun, fun ⟨_, h, _⟩ => (nomatch h)⟩
  | fileOut descriptor =>
    rw [previewFrom, findOutMaterial_eq]
    cases ho : fileOrigin descriptor outputSlots with
    | none => exact ⟨fun _ => ⟨descriptor, rfl, ho⟩, fun _ => rfl⟩
    | some origin =>
      refine ⟨fun hpanic => ?_, fun ⟨_, hsource, hnone⟩ => ?_⟩
      · cases origin with
        | collectedOut _ => cases hpanic
        | usecaseOut fileOut =>
          obtain hpanic | ⟨found, hfound, hpanic⟩ := Outcome.bind_panic_iff.mp hpanic
          · obtain hpanic | ⟨_, _, hpanic⟩ := Outcome.bind_panic_iff.mp hpanic
            · exact absurd hpanic (h.ne_panic fileOut)
            · cases hpanic
          · obtain ⟨el, -, hfound⟩ := Outcome.bind_ok_iff.mp hfound
            cases hfound
            cases hpanic
      · cases hsource
        rw [ho] at hnone
        cases hnone

theorem Follows.previewFrom_ok_iff (h : Follows resolve resolves) (source : RepoCollectFrom) :
    (∃ preview, previewFrom resolve outputSlots source = .ok preview) ↔
      SourceResolves resolves outputSlots source := by
  cases source with
  | stdout => exact ⟨fun _ => trivial, fun _ => ⟨_, rfl⟩⟩
  | stderr => exact ⟨fun _ => trivial, fun _ => ⟨_, rfl⟩⟩
  | fileOut descriptor =>
    rw [previewFrom, findOutMaterial_eq, SourceResolves]
    cases fileOrigin descriptor outputSlots with
    | none =>
      constructor
      · rintro ⟨_, ⟨⟩⟩
      · rintro ⟨_, ⟨⟩, _⟩
    | some origin =>
      cases origin with
      | collectedOut _ =>
        constructor
        · rintro ⟨_, ⟨⟩⟩
        · rintro ⟨_, ⟨⟩, _⟩
      | usecaseOut fileOut =>
        constructor
        · rintro ⟨preview, hpreview⟩
          obtain ⟨_, hfound, -⟩ := Outcome.bind_ok_iff.mp hpreview
          obtain ⟨el, hel, -⟩ := Outcome.bind_ok_iff.mp hfound
          exact ⟨fileOut, rfl, (h.ok_iff fileOut).mp ⟨el, hel⟩⟩
        · rintro ⟨_, horigin, hresolves⟩
          cases horigin
          obtain ⟨el, hel⟩ := (h.ok_iff _).mpr hresolves
          refine ⟨.fileOut el.descriptor, ?_⟩
          rw [originMaterial, hel]
          rfl

theorem resolveFile_follows : Follows (resolveFile d) (FileResolves d) where
  ok_iff fileOut := by
    rw [resolveFile, FileResolves, Option.isSome_iff_exists]
    exact exists_congr fun el => Outcome.okOr_ok_iff
  ne_panic _ := okOr_ne_panic

theorem checkTextSlot_ok_iff (descriptor : String) : checkTextSlot descriptor inputSlots = .ok () ↔
    ∃ refs, inputSlots.find? (fun slot => slot.descriptor == descriptor) =
      some (.text descriptor refs) := by
  induction inputSlots with
  | nil => exact ⟨nofun, fun ⟨_, h⟩ => (nomatch h)⟩
  | cons slot slots ih =>
    cases slot with
    | text slotDescriptor refs =>
      rw [checkTextSlot, List.find?_cons, InputSlot.descriptor]
      by_cases hd : slotDescriptor = descriptor
      · subst hd
        simp
      · have hbeq : (slotDescriptor == descriptor) = false := beq_eq_false_iff_ne.mpr hd
        rw [hbeq, if_neg Bool.false_ne_true, ih]
    | file slotDescriptor refs =>
      rw [checkTextSlot, List.find?_cons, InputSlot.descriptor]
      by_cases hd : slotDescriptor = descriptor
      · subst hd
        simp
      · have hbeq : (slotDescriptor == descriptor) = false := beq_eq_false_iff_ne.mpr hd
        rw [hbeq, if_neg Bool.false_ne_true, ih]

theorem checkTextSlot_ne_panic (descriptor : String) :
    checkTextSlot descriptor inputSlots ≠ .panic := by
  induction inputSlots with
  | nil => exact Outcome.err_ne_panic _
  | cons slot slots ih =>
    cases slot with
    | text _ _ =>
      rw [checkTextSlot]
      split
      · exact Outcome.ok_ne_panic _
      · exact ih
    | file _ _ =>
      rw [checkTextSlot]
      split
      · exact Outcome.err_ne_panic _
      · exact ih

theorem checkAppointed_ok_iff (kind : AppointedBy) :
    checkAppointed inputSlots kind = .ok () ↔ Appointed inputSlots kind := by
  cases kind with
  | material => exact ⟨fun _ => trivial, fun _ => rfl⟩
  | inputSlot descriptor => exact checkTextSlot_ok_iff descriptor

theorem checkAppointed_ne_panic (kind : AppointedBy) :
    checkAppointed inputSlots kind ≠ .panic := by
  cases kind with
  | material => exact Outcome.ok_ne_panic _
  | inputSlot descriptor => exact checkTextSlot_ne_panic descriptor

theorem resolveText_follows : Follows (resolveText d) (TextResolves d) where
  ok_iff fileOut := by
    rw [TextResolves, ← checkAppointed_ok_iff, resolveText]
    constructor
    · rintro ⟨el, hel⟩
      obtain ⟨found, hfound, hel⟩ := Outcome.bind_ok_iff.mp hel
      obtain ⟨_, happointed, -⟩ := Outcome.bind_ok_iff.mp hel
      exact ⟨Option.isSome_iff_exists.mpr ⟨found, Outcome.okOr_ok_iff.mp hfound⟩, happointed⟩
    · rintro ⟨hsome, happointed⟩
      obtain ⟨el, hel⟩ := Option.isSome_iff_exists.mp hsome
      refine ⟨el, ?_⟩
      rw [okOr, hel, happointed]
      rfl
  ne_panic fileOut := Outcome.bind_ne_panic okOr_ne_panic fun _ =>
    Outcome.bind_ne_panic (checkAppointed_ne_panic _) fun _ => Outcome.ok_ne_panic _

theorem Follows.previewCollect_panic_iff (h : Follows resolve resolves)
    (hto : ∀ el, previewTo el ≠ .panic) (descriptor : String) (optional : Bool) (out : Outputs) :
    previewCollect d resolve previewTo descriptor optional out = .panic ↔
      CollectDangles d descriptor := by
  rw [previewCollect, CollectDangles]
  cases d.usecaseData.collectedOut descriptor with
  | none => exact ⟨fun hp => (nomatch hp), fun ⟨_, _, hp, _⟩ => (nomatch hp)⟩
  | some el =>
    constructor
    · intro hpanic
      obtain hpanic | ⟨found, hfound, hpanic⟩ := Outcome.bind_panic_iff.mp hpanic
      · exact absurd hpanic okOr_ne_panic
      · cases Outcome.okOr_ok_iff.mp hfound
        obtain hpanic | ⟨source, -, hpanic⟩ := Outcome.bind_panic_iff.mp hpanic
        · obtain ⟨fileout, hsource, hnone⟩ := (h.previewFrom_panic_iff _).mp hpanic
          exact ⟨el, fileout, rfl, hsource, hnone⟩
        · obtain hpanic | ⟨_, _, hpanic⟩ := Outcome.bind_panic_iff.mp hpanic
          · exact absurd hpanic (hto el)
          · cases hpanic
    · rintro ⟨found, fileout, hfound, hsource, hnone⟩
      cases hfound
      have hpanic := (h.previewFrom_panic_iff _).mpr ⟨fileout, hsource, hnone⟩
      rw [okOr, Outcome.okOr, Outcome.ok_bind, hpanic]
      rfl

theorem Follows.previewCollect_ok_iff (h : Follows resolve resolves)
    (fits : RepoCollectTo → Prop)
    (hto : ∀ el, (∃ collectTo, previewTo el = .ok collectTo) ↔ fits el.collectTo)
    (descriptor : String) (optional : Bool) (out : Outputs) :
    (∃ out', previewCollect d resolve previewTo descriptor optional out = .ok out') ↔
      CollectPasses d resolves fits descriptor := by
  rw [CollectPasses]
  constructor
  · rintro ⟨out', hout⟩
    obtain ⟨el, hel, hout⟩ := Outcome.bind_ok_iff.mp hout
    obtain ⟨source, hsource, hout⟩ := Outcome.bind_ok_iff.mp hout
    obtain ⟨collectTo, hcollectTo, -⟩ := Outcome.bind_ok_iff.mp hout
    exact ⟨el, Outcome.okOr_ok_iff.mp hel, (h.previewFrom_ok_iff _).mp ⟨source, hsource⟩,
      (hto el).mp ⟨collectTo, hcollectTo⟩⟩
  · rintro ⟨el, hel, hsource, hfits⟩
    obtain ⟨source, hsource⟩ := (h.previewFrom_ok_iff _).mpr hsource
    obtain ⟨collectTo, hcollectTo⟩ := (hto el).mpr hfits
    exact ⟨_, Outcome.bind_ok_iff.mpr ⟨el, Outcome.okOr_ok_iff.mpr hel, Outcome.bind_ok_iff.mpr
      ⟨source, hsource, Outcome.bind_ok_iff.mpr ⟨collectTo, hcollectTo, rfl⟩⟩⟩⟩

theorem previewText_ok_iff (el : CollectedOut) :
    (∃ collectTo, previewText el = .ok collectTo) ↔ el.collectTo = .text := by
  rw [previewText]
  cases el.collectTo with
  | text => exact ⟨fun _ => rfl, fun _ => ⟨_, rfl⟩⟩
  | file _ => exact ⟨fun ⟨_, h⟩ => (nomatch h), nofun⟩

theorem previewText_ne_panic (el : CollectedOut) : previewText el ≠ .panic := by
  rw [previewText]
  cases el.collectTo with
  | text => exact Outcome.ok_ne_panic _
  | file _ => exact Outcome.err_ne_panic _

theorem previewFile_ok_iff (el : CollectedOut) :
    (∃ collectTo, previewFile el = .ok collectTo) ↔ el.collectTo ≠ .text := by
  rw [previewFile]
  cases el.collectTo with
  | text => exact ⟨fun ⟨_, h⟩ => (nomatch h), fun h => absurd rfl h⟩
  | file _ => exact ⟨fun _ => nofun, fun _ => ⟨_, rfl⟩⟩

theorem previewFile_ne_panic (el : CollectedOut) : previewFile el ≠ .panic := by
  rw [previewFile]
  cases el.collectTo with
  | text => exact Outcome.err_ne_panic _
  | file _ => exact Outcome.ok_ne_panic _

theorem validateOutputSlot_ok_iff (out : Outputs) (slot : OutputSlot) :
    (∃ out', validateOutputSlot d out slot = .ok out') ↔ Passes d slot := by
  cases slot with
  | text _ descriptor optional =>
    exact resolveText_follows.previewCollect_ok_iff (· = .text) previewText_ok_iff descriptor
      optional out
  | file _ origin optional =>
    cases origin with
    | collectedOut descriptor =>
      exact resolveFile_follows.previewCollect_ok_iff (· ≠ .text) previewFile_ok_iff descriptor
        optional out
    | usecaseOut fileOut => exact okOr_bind_ok_iff

theorem validateOutputSlot_panic_iff (out : Outputs) (slot : OutputSlot) :
    validateOutputSlot d out slot = .panic ↔ Dangles d slot := by
  cases slot with
  | text _ descriptor optional =>
    exact resolveText_follows.previewCollect_panic_iff previewText_ne_panic descriptor optional out
  | file _ origin optional =>
    cases origin with
    | collectedOut descriptor =>
      exact resolveFile_follows.previewCollect_panic_iff previewFile_ne_panic descriptor optional out
    | usecaseOut fileOut => exact ⟨fun h => absurd h okOr_bind_ne_panic, False.elim⟩

theorem validateOutputSlots_panic_iff {out : Outputs} :
    Outcome.foldEach (validateOutputSlot d) out outputSlots = .panic ↔
      Outcome.First (Passes d) (Dangles d) outputSlots :=
  Outcome.foldEach_panic_iff (fun slot _ out => validateOutputSlot_ok_iff out slot)
    fun slot _ out => validateOutputSlot_panic_iff out slot

end Outputs

section Templates

variable {d : ValidateData} {g : Preview} {templateDescriptor : String}

theorem validateTemplate_ok_iff :
    (∃ g', validateTemplate d g templateDescriptor = .ok g') ↔
      TemplateResolves d templateDescriptor := by
  constructor
  · rintro ⟨g', h⟩
    obtain ⟨t, ht, h⟩ := Outcome.bind_ok_iff.mp h
    obtain ⟨info, hinfo, h⟩ := Outcome.bind_ok_iff.mp h
    obtain ⟨g₁, hcontent, hname⟩ := Outcome.bind_ok_iff.mp h
    refine ⟨t, Outcome.okOr_ok_iff.mp ht,
      Option.isSome_iff_exists.mpr ⟨info, Outcome.okOr_ok_iff.mp hinfo⟩, fun ref href => ?_,
      fun ref href => ?_⟩
    · exact templateMounting_takes.mp
        (mountEach_ok_iff.mp ⟨g₁, hcontent⟩ _ (List.mem_map_of_mem href))
    · exact templateMounting_takes.mp (mountEach_ok_iff.mp ⟨g', hname⟩ ref href)
  · rintro ⟨t, ht, hinfo, hcontent, hname⟩
    obtain ⟨info, hinfo⟩ := Option.isSome_iff_exists.mp hinfo
    have hrefs : ∀ ref ∈ t.asContent.map TextRef.toFileRef,
        (templateMounting d.softwareData templateDescriptor).Takes ref := by
      intro ref href
      obtain ⟨text, htext, rfl⟩ := List.mem_map.mp href
      exact templateMounting_takes.mpr (hcontent text htext)
    obtain ⟨g₁, hg₁⟩ := mountEach_ok_iff.mpr hrefs
    obtain ⟨g', hg'⟩ := mountEach_ok_iff.mpr fun ref href =>
      templateMounting_takes.mpr (hname ref href)
    exact ⟨g', Outcome.bind_ok_iff.mpr ⟨t, Outcome.okOr_ok_iff.mpr ht, Outcome.bind_ok_iff.mpr
      ⟨info, Outcome.okOr_ok_iff.mpr hinfo, Outcome.bind_ok_iff.mpr ⟨g₁, hg₁, hg'⟩⟩⟩⟩

theorem validateTemplates_ok_iff {descriptors : List String} :
    (∃ g', Outcome.foldEach (validateTemplate d) g descriptors = .ok g') ↔
      ∀ descriptor ∈ descriptors, TemplateResolves d descriptor :=
  Outcome.foldEach_ok_iff (f := validateTemplate d) fun _ _ _ => validateTemplate_ok_iff

theorem validateTemplate_ne_panic : validateTemplate d g templateDescriptor ≠ .panic :=
  Outcome.bind_ne_panic okOr_ne_panic fun _ => Outcome.bind_ne_panic okOr_ne_panic fun _ =>
    Outcome.bind_ne_panic templateMounting_panicless.mountEach fun _ =>
      templateMounting_panicless.mountEach

theorem validateInputSlot_ok_iff {s : SoftwareData} (slot : InputSlot) :
    (∃ g', validateInputSlot s g slot = .ok g') ↔ ∀ ref ∈ slot.refs, Resolves s ref :=
  mountEach_ok_iff.trans (forall₂_congr fun _ _ => slotMounting_takes)

-- The templates that are filled are those that some slot is mounted on.
theorem validateInputSlots_templates (h : Outcome.foldEach (validateInputSlot d.softwareData)
    { stdIn := .none } d.usecaseData.spec.inputSlots = .ok g) :
    templateDescriptor ∈ Assoc.keys g.templatesKv.entries ↔
      d.usecaseData.Uses templateDescriptor := by
  have hkeys := Outcome.foldEach_adds (f := validateInputSlot d.softwareData)
    (fun _ _ _ _ h => mountEach_templates h templateDescriptor) h
  exact hkeys.trans (or_iff_right List.not_mem_nil)

end Templates

section Sorts

variable {α : Type}

theorem checkSteps_ne_panic {p : Nat} {l : List (Nat × α)}
    (h : (p :: Assoc.keys l).Pairwise (· < ·)) : checkSteps p l ≠ .panic := by
  induction l generalizing p with
  | nil => exact Outcome.ok_ne_panic _
  | cons e l ih =>
    obtain ⟨hp, hrest⟩ := List.pairwise_cons.mp h
    have hle : p ≤ e.1 := (hp e.1 List.mem_cons_self).le
    obtain ⟨current, value⟩ := e
    rw [checkSteps, usizeSub, if_pos hle, Outcome.ok_bind]
    split
    · exact Outcome.err_ne_panic _
    · exact ih hrest

theorem checkSorts_ne_panic {l : List (Nat × α)} (h : (Assoc.keys l).Pairwise (· < ·)) :
    checkSorts l ≠ .panic := by
  cases l with
  | nil => exact Outcome.ok_ne_panic _
  | cons e l =>
    obtain ⟨first, value⟩ := e
    rw [checkSorts]
    split
    · exact Outcome.err_ne_panic _
    · next hzero =>
      rw [not_not] at hzero
      subst hzero
      exact checkSteps_ne_panic h

end Sorts

def checkFileNames (s : SoftwareData) (templateFiles : List TemplateFile) : Anyhow Unit :=
  Outcome.each (fun t => Outcome.each (checkFileName s) t.asFileName) templateFiles

theorem checkFileNames_ok_iff {s : SoftwareData} {templateFiles : List TemplateFile} {u : Unit} :
    checkFileNames s templateFiles = .ok u ↔
      ∀ t ∈ templateFiles, ∀ ref ∈ t.asFileName, ResolvesInTemplate s ref := by
  rw [checkFileNames, Outcome.each_ok_iff]
  exact forall₂_congr fun t _ => Outcome.each_ok_iff.trans
    (forall₂_congr fun ref _ => checkFileName_ok_iff)

theorem checkFileNames_ne_panic {s : SoftwareData} {templateFiles : List TemplateFile} :
    checkFileNames s templateFiles ≠ .panic :=
  Outcome.each_ne_panic fun _ _ => Outcome.each_ne_panic fun _ _ => checkFileName_ne_panic

variable (orders : ValidateOrders) (d : ValidateData)

theorem packageValidate_panic_iff : packageValidate orders d = .panic ↔ Reaches d := by
  have hslots : (∃ g, Outcome.foldEach (validateInputSlot d.softwareData) { stdIn := .none }
      d.usecaseData.spec.inputSlots = .ok g) ↔ _ :=
    Outcome.foldEach_ok_iff fun slot _ g => validateInputSlot_ok_iff slot
  constructor
  · intro hpanic
    obtain hpanic | ⟨g, hg, hpanic⟩ := Outcome.bind_panic_iff.mp hpanic
    · exact absurd hpanic (Outcome.foldEach_ne_panic fun _ _ _ => slotMounting_panicless.mountEach)
    obtain hpanic | ⟨_, hnames, hpanic⟩ := Outcome.bind_panic_iff.mp hpanic
    · exact absurd hpanic checkFileNames_ne_panic
    obtain hpanic | ⟨g', hg', hpanic⟩ := Outcome.bind_panic_iff.mp hpanic
    · exact absurd hpanic (Outcome.foldEach_ne_panic fun _ _ _ => validateTemplate_ne_panic)
    obtain hpanic | ⟨out, -, hpanic⟩ := Outcome.bind_panic_iff.mp hpanic
    · refine ⟨hslots.mp ⟨g, hg⟩, checkFileNames_ok_iff.mp hnames, fun descriptor huses => ?_, ?_⟩
      · exact validateTemplates_ok_iff.mp ⟨g', hg'⟩ descriptor
          (HashMap.mem_keys_iter.mpr ((validateInputSlots_templates hg).mpr huses))
      · exact validateOutputSlots_panic_iff.mp hpanic
    obtain hpanic | ⟨_, _, hpanic⟩ := Outcome.bind_panic_iff.mp hpanic
    · rw [HashMap.sortByKey_iter] at hpanic
      exact absurd hpanic (checkSorts_ne_panic g'.argumentFormatsSorts.sorted)
    · cases hpanic
  · rintro ⟨hresolves, hnames, htemplates, houtputs⟩
    obtain ⟨g, hg⟩ := hslots.mpr hresolves
    have htemplate : ∀ descriptor ∈ Assoc.keys (g.templatesKv.iter orders.templates),
        TemplateResolves d descriptor := fun descriptor hmem => htemplates descriptor
      ((validateInputSlots_templates hg).mp (HashMap.mem_keys_iter.mp hmem))
    obtain ⟨g', hg'⟩ := (validateTemplates_ok_iff (g := g)).mpr htemplate
    exact Outcome.bind_panic_iff.mpr (.inr ⟨g, hg, Outcome.bind_panic_iff.mpr (.inr
      ⟨(), checkFileNames_ok_iff.mpr hnames, Outcome.bind_panic_iff.mpr (.inr ⟨g', hg',
        Outcome.bind_panic_iff.mpr (.inl (validateOutputSlots_panic_iff.mpr houtputs))⟩)⟩)⟩)

-- A validation that comes to its end has passed every output slot.
theorem not_dangles_of_ok {preview : CommandPreview} (h : packageValidate orders d = .ok preview)
    {slot : OutputSlot} (hslot : slot ∈ d.usecaseData.spec.outputSlots) : ¬ Dangles d slot := by
  obtain ⟨g, -, h⟩ := Outcome.bind_ok_iff.mp h
  obtain ⟨_, -, h⟩ := Outcome.bind_ok_iff.mp h
  obtain ⟨g', -, h⟩ := Outcome.bind_ok_iff.mp h
  obtain ⟨out, hout, -⟩ := Outcome.bind_ok_iff.mp h
  intro hdangles
  have hpasses := (Outcome.foldEach_ok_iff fun slot _ out =>
    validateOutputSlot_ok_iff out slot).mp ⟨out, hout⟩ slot hslot
  obtain ⟨out', hok⟩ := (validateOutputSlot_ok_iff out slot).mpr hpasses
  rw [(validateOutputSlot_panic_iff out slot).mpr hdangles] at hok
  cases hok

theorem dangling_reported_iff :
    (packageValidate orders d ≠ .panic ∧
      ∀ slot ∈ d.usecaseData.spec.outputSlots, Dangles d slot →
        ∃ e, packageValidate orders d = .err e) ↔ ¬ Reaches d := by
  rw [← packageValidate_panic_iff orders]
  refine ⟨fun h => h.1, fun h => ⟨h, fun slot hslot hdangles => ?_⟩⟩
  cases hd : packageValidate orders d with
  | ok preview => exact absurd hdangles (not_dangles_of_ok orders d hd hslot)
  | err e => exact ⟨e, rfl⟩
  | panic => exact absurd hd h

def bareSoftware : SoftwareData := ⟨.singularity "image" "tag", [], [], [], []⟩

-- The one output slot collects from a file slot that the use case does not have.
def danglingData (slot : OutputSlot) (collectTo : RepoCollectTo) : ValidateData where
  softwareData := bareSoftware
  usecaseData := {
    spec := { commandFile := "run", inputSlots := [], outputSlots := [slot] }
    collectedOuts := [⟨"collect", .fileOut "missing", collectTo, .bottomLines 1⟩]
    templateFileInfos := [] }

theorem dangling_panics :
    packageValidate .asGiven (danglingData (.text "out" "collect" false) .text) = .panic ∧
      packageValidate .asGiven (danglingData (.file "out" (.collectedOut "collect") false)
        (.file (.normal "out.txt"))) = .panic := by
  decide +kernel

end PackageValidate

end Package

end Kuintessence
