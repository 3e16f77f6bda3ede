import Kuintessence.Package.Mounting

namespace Kuintessence

namespace Package

inductive InDescriptor where
  | template (descriptor : String)
  | inputSlot (descriptor : String)
  | none
  deriving DecidableEq, Repr

inductive FileInfoPreview where
  | dynamicInput (source : InDescriptor)
  | constInput (source : InDescriptor) (inputMaterialDescriptor path : String)
  | dynamicOutput (source : InDescriptor) (outputMaterialDescriptor : String)
  | constOutput (outputMaterialDescriptor path : String)
  deriving DecidableEq, Repr

inductive PreviewCollectFrom where
  | fileOut (outputMaterialDescriptor : String)
  | stdout
  | stderr
  deriving DecidableEq, Repr

inductive PreviewCollectTo where
  | file (path : String)
  | text
  deriving DecidableEq, Repr

inductive PreviewCollectRule where
  | regex (pattern : String)
  | bottomLines (count : Nat)
  | topLines (count : Nat)
  deriving DecidableEq, Repr

structure CollectPreview where
  collectFrom : PreviewCollectFrom
  rule : PreviewCollectRule
  collectTo : PreviewCollectTo
  optional : Bool
  deriving DecidableEq, Repr

structure CommandPreview where
  softwareFacility : FacilityKind
  commandName : String
  argumentFormatsSorts : HashMap Nat (FormatFill InDescriptor)
  environmentFormats : HashMap String (FormatFill InDescriptor)
  templatesKvMap : HashMap String (HashMap String InDescriptor)
  stdIn : InDescriptor
  fileInfos : List FileInfoPreview
  collectPreviews : List CollectPreview
  deriving DecidableEq

structure ValidateData where
  softwareData : SoftwareData
  usecaseData : UsecaseData
  deriving DecidableEq

-- The orders in which the two hash maps are iterated.
structure ValidateOrders where
  templates : Order (String × HashMap String InDescriptor)
  arguments : Order (Nat × FormatFill InDescriptor)

def ValidateOrders.asGiven : ValidateOrders := ⟨.asIs _, .asIs _⟩

def okOr {α : Type} (message : String) (o : Option α) : Anyhow α := .okOr (.anyhow message) o

namespace PackageValidate

abbrev Preview := Gathered InDescriptor InDescriptor FileInfoPreview

def argumentFormat (s : SoftwareData) (descriptor : String) :
    Anyhow (FormatFill InDescriptor) := do
  let el ← okOr s!"No such argument material descriptor: {descriptor}" (s.argument descriptor)
  .ok { format := el.valueFormat }

def environmentKvFormat (s : SoftwareData) (descriptor : String) :
    Anyhow (String × FormatFill InDescriptor) := do
  let el ← okOr s!"No such environment material with descriptor: {descriptor}"
    (s.environment descriptor)
  .ok (el.key, { format := el.valueFormat })

def slotMounting (s : SoftwareData) (inputSlotDescriptor : String) :
    Mounting InDescriptor InDescriptor FileInfoPreview where
  argumentFormat := argumentFormat s
  environmentKvFormat := environmentKvFormat s
  value := .inputSlot inputSlotDescriptor
  stdIn := .ok (.inputSlot inputSlotDescriptor)
  fileInput descriptor := do
    let el ← okOr s!"No such file material: {descriptor}" (s.filesomeInput descriptor)
    .ok [.constInput (.inputSlot inputSlotDescriptor) descriptor el.fileKind.path]
  template := .ok ()

def templateMounting (s : SoftwareData) (templateDescriptor : String) :
    Mounting InDescriptor InDescriptor FileInfoPreview where
  argumentFormat := argumentFormat s
  environmentKvFormat := environmentKvFormat s
  value := .template templateDescriptor
  stdIn := .ok (.template templateDescriptor)
  fileInput descriptor := do
    let el ← okOr s!"No such filesome input material with descriptor:{descriptor}"
      (s.filesomeInput descriptor)
    .ok [.constInput (.template templateDescriptor) descriptor el.fileKind.path]
  template := bail "TemplateRef To Text and File for template is not implemented!"

def validateInputSlot (s : SoftwareData) (g : Preview) (slot : InputSlot) : Anyhow Preview :=
  mountEach (slotMounting s slot.descriptor) g slot.refs

def checkFileName (s : SoftwareData) : FileRef → Anyhow Unit
  | .argRef descriptor _ _ => do
    let _ ← okOr s!"No such argument material descriptor: {descriptor}" (s.argument descriptor)
    .ok ()
  | .envRef descriptor _ => do
    let _ ← okOr s!"No such environment material descriptor: {descriptor}"
      (s.environment descriptor)
    .ok ()
  | .stdIn => .ok ()
  | .fileInputRef descriptor => do
    let _ ← okOr s!"No such filesome input material descriptor: {descriptor}"
      (s.filesomeInput descriptor)
    .ok ()
  | .templateRef _ _ => bail "unimplemented"

def validateTemplate (d : ValidateData) (g : Preview) (templateDescriptor : String) :
    Anyhow Preview := do
  let usingTemplateFile ← okOr s!"No such template with descriptor: {templateDescriptor}"
    (d.usecaseData.templateFile templateDescriptor)
  let _ ← okOr s!"No such template with descriptor: {templateDescriptor}"
    (d.usecaseData.templateFileInfo templateDescriptor)
  let p := templateMounting d.softwareData templateDescriptor
  let g ← mountEach p g (usingTemplateFile.asContent.map TextRef.toFileRef)
  let g := if usingTemplateFile.writesFile then
    { g with files := g.files ++ [.dynamicInput (.template templateDescriptor)] } else g
  mountEach p g usingTemplateFile.asFileName

-- The first file slot of the name decides.
def findOutMaterial (resolve : FileOutAndAppointedBy → Anyhow FilesomeOutput)
    (fileoutDescriptor : String) : List OutputSlot → Anyhow (Option FilesomeOutput)
  | [] => .ok none
  | .text _ _ _ :: slots => findOutMaterial resolve fileoutDescriptor slots
  | .file descriptor origin _ :: slots =>
    if descriptor == fileoutDescriptor then
      match origin with
      | .collectedOut _ => bail "Collect CollectedOut file or text is not implemented!"
      | .usecaseOut fileOut => do
        let el ← resolve fileOut
        .ok (some el)
    else findOutMaterial resolve fileoutDescriptor slots

def checkTextSlot (textInputDescriptor : String) : List InputSlot → Anyhow Unit
  | [] => bail s!"No such text input slot with descriptor: {textInputDescriptor}"
  | .text descriptor _ :: slots =>
    if descriptor == textInputDescriptor then .ok () else checkTextSlot textInputDescriptor slots
  | .file descriptor _ :: slots =>
    if descriptor == textInputDescriptor then
      bail "Can't use file input slot to appoint file out path."
    else checkTextSlot textInputDescriptor slots

def checkAppointed (inputSlots : List InputSlot) : AppointedBy → Anyhow Unit
  | .material => .ok ()
  | .inputSlot textInputDescriptor => checkTextSlot textInputDescriptor inputSlots

def resolveText (d : ValidateData) (fileOut : FileOutAndAppointedBy) : Anyhow FilesomeOutput := do
  let descriptor := fileOut.fileOutMaterialDescriptor
  let el ← okOr s!"No such filesome output material with descriptor: {descriptor}"
    (d.softwareData.filesomeOutput descriptor)
  checkAppointed d.usecaseData.spec.inputSlots fileOut.kind
  .ok el

def resolveFile (d : ValidateData) (fileOut : FileOutAndAppointedBy) : Anyhow FilesomeOutput :=
  let descriptor := fileOut.fileOutMaterialDescriptor
  okOr s!"No such file out material with descriptor: {descriptor}"
    (d.softwareData.filesomeOutput descriptor)

def previewFrom (resolve : FileOutAndAppointedBy → Anyhow FilesomeOutput)
    (outputSlots : List OutputSlot) : RepoCollectFrom → Anyhow PreviewCollectFrom
  | .fileOut fileoutDescriptor => do
    let filesomeOutMaterial ← findOutMaterial resolve fileoutDescriptor outputSlots
    let el ← .unwrap filesomeOutMaterial
    .ok (.fileOut el.descriptor)
  | .stdout => .ok .stdout
  | .stderr => .ok .stderr

def mismatched {α : Type} (collectedOut : CollectedOut) : Anyhow α :=
  bail s!"Mismatched collected_out type with descriptor: {collectedOut.descriptor}"

def previewText (collectedOut : CollectedOut) : Anyhow PreviewCollectTo :=
  match collectedOut.collectTo with
  | .text => .ok .text
  | .file _ => mismatched collectedOut

def previewFile (collectedOut : CollectedOut) : Anyhow PreviewCollectTo :=
  match collectedOut.collectTo with
  | .file outFile => .ok (.file outFile.getPath)
  | .text => mismatched collectedOut

def previewRule : RepoCollectRule → PreviewCollectRule
  | .regex regex => .regex regex
  | .bottomLines lineCount => .bottomLines lineCount
  | .topLines lineCount => .topLines lineCount

structure Outputs where
  fileInfos : List FileInfoPreview
  collectPreviews : List CollectPreview := []
  deriving DecidableEq, Repr

def previewCollect (d : ValidateData) (resolve : FileOutAndAppointedBy → Anyhow FilesomeOutput)
    (previewTo : CollectedOut → Anyhow PreviewCollectTo) (collectedOutDescriptor : String)
    (optional : Bool) (out : Outputs) : Anyhow Outputs := do
  let collectedOut ← okOr s!"No such collect out with descriptor: {collectedOutDescriptor}"
    (d.usecaseData.collectedOut collectedOutDescriptor)
  let collectFrom ← previewFrom resolve d.usecaseData.spec.outputSlots collectedOut.collectFrom
  let collectTo ← previewTo collectedOut
  let preview : CollectPreview :=
    ⟨collectFrom, previewRule collectedOut.collecting, collectTo, optional⟩
  .ok { out with collectPreviews := out.collectPreviews ++ [preview] }

def outFileInfo (filesomeOutput : FilesomeOutput) : AppointedBy → FileInfoPreview
  | .material => .constOutput filesomeOutput.descriptor filesomeOutput.fileKind.path
  | .inputSlot textDescriptor => .dynamicOutput (.inputSlot textDescriptor) filesomeOutput.descriptor

def previewUsecaseOut (d : ValidateData) (fileOut : FileOutAndAppointedBy) (out : Outputs) :
    Anyhow Outputs := do
  let descriptor := fileOut.fileOutMaterialDescriptor
  let filesomeOutput ← okOr s!"No such filesome output with descriptor: {descriptor}"
    (d.softwareData.filesomeOutput descriptor)
  .ok { out with fileInfos := out.fileInfos ++ [outFileInfo filesomeOutput fileOut.kind] }

def validateOutputSlot (d : ValidateData) (out : Outputs) : OutputSlot → Anyhow Outputs
  | .text _ collectedOutDescriptor optional =>
    previewCollect d (resolveText d) previewText collectedOutDescriptor optional out
  | .file _ (.collectedOut collectorDescriptor) optional =>
    previewCollect d (resolveFile d) previewFile collectorDescriptor optional out
  | .file _ (.usecaseOut fileOut) _ => previewUsecaseOut d fileOut out

-- A difference of two `usize` panics below zero.
def usizeSub (a b : Nat) : Anyhow Nat := if b ≤ a then .ok (a - b) else .panic

def checkSteps {α : Type} : Nat → List (Nat × α) → Anyhow Unit
  | _, [] => .ok ()
  | p, (current, _) :: rest => do
    let step ← usizeSub current p
    if step ≠ 1 then bail s!"sort {current} is bigger more than 1 compared with {p}."
    else checkSteps current rest

def checkSorts {α : Type} : List (Nat × α) → Anyhow Unit
  | [] => .ok ()
  | (first, _) :: rest =>
    if first ≠ 0 then bail "sort must begin with '0'" else checkSteps 0 rest

end PackageValidate

open PackageValidate in
def packageValidate (orders : ValidateOrders) (d : ValidateData) : Anyhow CommandPreview := do
  let spec := d.usecaseData.spec
  let g ← Outcome.foldEach (validateInputSlot d.softwareData) { stdIn := .none } spec.inputSlots
  Outcome.each (fun templateFile => Outcome.each (checkFileName d.softwareData)
    templateFile.asFileName) spec.templateFiles
  let g ← Outcome.foldEach (validateTemplate d) g
    (Assoc.keys (g.templatesKv.iter orders.templates))
  let out ← Outcome.foldEach (validateOutputSlot d) { fileInfos := g.files } spec.outputSlots
  checkSorts (HashMap.sortByKey (g.argumentFormatsSorts.iter orders.arguments))
  .ok {
    softwareFacility := .from d.softwareData.spec
    commandName := spec.commandFile
    argumentFormatsSorts := g.argumentFormatsSorts
    environmentFormats := g.environmentFormats
    templatesKvMap := g.templatesKv
    stdIn := g.stdIn
    fileInfos := out.fileInfos
    collectPreviews := out.collectPreviews }

end Package

end Kuintessence
