import Kuintessence.Lib.Grouping
import Kuintessence.Package.Task

namespace Kuintessence

namespace Package

structure Reference (κ V : Type) where
  key : κ
  material : String
  format : FormatFill V
  fill : Option (Nat × V)
  deriving DecidableEq

def Reference.grouping (κ V : Type) : Grouping (Reference κ V) κ (FormatFill V) where
  key r := r.key
  start r := r.format
  step r f := match r.fill with
    | none => f
    | some (placeholderNth, value) => f.fill placeholderNth value

-- What one mount adds to the gathered variables.
structure Writes (V S F : Type) where
  arguments : List (Reference Nat V) := []
  environments : List (Reference String V) := []
  files : List F := []
  stdIn : Option S := none
  templates : List (V × String × List String) := []
  deriving DecidableEq

namespace Writes

variable {V S F : Type}

def on (w : Writes V S F) (g : Gathered V S F) : Gathered V S F where
  argumentFormatsSorts := (Reference.grouping Nat V).gather g.argumentFormatsSorts w.arguments
  environmentFormats := (Reference.grouping String V).gather g.environmentFormats w.environments
  files := g.files ++ w.files
  stdIn := w.stdIn.getD g.stdIn
  templatesKv := w.templates.foldl (fun m t => insertKeys t.1 t.2.1 t.2.2 m) g.templatesKv

def onEach (ws : List (Writes V S F)) (g : Gathered V S F) : Gathered V S F :=
  ws.foldl (fun g w => w.on g) g

theorem onEach_cons (w : Writes V S F) (ws : List (Writes V S F)) (g : Gathered V S F) :
    onEach (w :: ws) g = onEach ws (w.on g) := rfl

theorem onEach_append (ws ws' : List (Writes V S F)) (g : Gathered V S F) :
    onEach (ws ++ ws') g = onEach ws' (onEach ws g) := List.foldl_append

theorem onEach_flatten (wss : List (List (Writes V S F))) (g : Gathered V S F) :
    onEach wss.flatten g = wss.foldl (fun g ws => onEach ws g) g := by
  induction wss generalizing g with
  | nil => rfl
  | cons ws wss ih => rw [List.flatten_cons, onEach_append, ih, List.foldl_cons]

theorem onEach_arguments (ws : List (Writes V S F)) (g : Gathered V S F) :
    (onEach ws g).argumentFormatsSorts = (Reference.grouping Nat V).gather g.argumentFormatsSorts
      (ws.flatMap Writes.arguments) := by
  induction ws generalizing g with
  | nil => rfl
  | cons w ws ih =>
    rw [onEach_cons, ih, List.flatMap_cons, Grouping.gather, Grouping.gather,
      List.foldl_append]
    rfl

theorem onEach_environments (ws : List (Writes V S F)) (g : Gathered V S F) :
    (onEach ws g).environmentFormats = (Reference.grouping String V).gather g.environmentFormats
      (ws.flatMap Writes.environments) := by
  induction ws generalizing g with
  | nil => rfl
  | cons w ws ih =>
    rw [onEach_cons, ih, List.flatMap_cons, Grouping.gather, Grouping.gather,
      List.foldl_append]
    rfl

theorem onEach_files (ws : List (Writes V S F)) (g : Gathered V S F) :
    (onEach ws g).files = g.files ++ ws.flatMap Writes.files := by
  induction ws generalizing g with
  | nil => exact (List.append_nil g.files).symm
  | cons w ws ih =>
    rw [onEach_cons, ih, List.flatMap_cons, ← List.append_assoc]
    rfl

theorem onEach_stdIn (ws : List (Writes V S F)) (g : Gathered V S F) :
    (onEach ws g).stdIn = (ws.filterMap Writes.stdIn).getLastD g.stdIn := by
  induction ws generalizing g with
  | nil => rfl
  | cons w ws ih =>
    rw [onEach_cons, ih]
    cases hstdIn : w.stdIn with
    | none =>
      rw [List.filterMap_cons_none hstdIn, Writes.on, hstdIn]
      rfl
    | some stdIn =>
      rw [List.filterMap_cons_some hstdIn, List.getLastD_cons, Writes.on, hstdIn]
      rfl

theorem onEach_templates (ws : List (Writes V S F)) (g : Gathered V S F) :
    (onEach ws g).templatesKv = (ws.flatMap Writes.templates).foldl
      (fun m t => insertKeys t.1 t.2.1 t.2.2 m) g.templatesKv := by
  induction ws generalizing g with
  | nil => rfl
  | cons w ws ih =>
    rw [onEach_cons, ih, List.flatMap_cons, List.foldl_append]
    rfl

end Writes

section Mounts

variable {V S F : Type}

def refWrites (p : Mounting V S F) : FileRef → Anyhow (Writes V S F)
  | .argRef descriptor placeholderNth sort => do
    let format ← p.argumentFormat descriptor
    .ok { arguments := [⟨sort, descriptor, format, some (placeholderNth, p.value)⟩] }
  | .envRef descriptor placeholderNth => do
    let kv ← p.environmentKvFormat descriptor
    .ok { environments := [⟨kv.1, descriptor, kv.2, some (placeholderNth, p.value)⟩] }
  | .stdIn => do
    let stdIn ← p.stdIn
    .ok { stdIn := some stdIn }
  | .fileInputRef descriptor => do
    let files ← p.fileInput descriptor
    .ok { files := files }
  | .templateRef descriptor refKeys => do
    p.template
    .ok { templates := [(p.value, descriptor, refKeys)] }

theorem mount_eq (p : Mounting V S F) (g : Gathered V S F) (ref : FileRef) :
    mount p g ref = refWrites p ref >>= fun w => .ok (w.on g) := by
  cases ref with
  | argRef descriptor placeholderNth sort =>
    rw [mount, refWrites]
    cases p.argumentFormat descriptor with
    | ok format => simp [Writes.on, Grouping.gather, Grouping.add, Reference.grouping]
    | err e => rfl
    | panic => rfl
  | envRef descriptor placeholderNth =>
    rw [mount, refWrites]
    cases p.environmentKvFormat descriptor with
    | ok kv => simp [Writes.on, Grouping.gather, Grouping.add, Reference.grouping]
    | err e => rfl
    | panic => rfl
  | stdIn =>
    rw [mount, refWrites]
    cases p.stdIn with
    | ok stdIn => simp [Writes.on, Grouping.gather]
    | err e => rfl
    | panic => rfl
  | fileInputRef descriptor =>
    rw [mount, refWrites]
    cases p.fileInput descriptor with
    | ok files => simp [Writes.on, Grouping.gather]
    | err e => rfl
    | panic => rfl
  | templateRef descriptor refKeys =>
    rw [mount, refWrites]
    cases p.template with
    | ok u => simp [Writes.on, Grouping.gather]
    | err e => rfl
    | panic => rfl

theorem mountEach_eq (p : Mounting V S F) (g : Gathered V S F) (refs : List FileRef) :
    mountEach p g refs = Outcome.mapEach (refWrites p) refs >>= fun ws => .ok (Writes.onEach ws g) :=
  Outcome.foldEach_act (mount_eq p) g refs

end Mounts

namespace ParseTask

abbrev DraftWrites := Writes (Option String) StdInKind FileInfo

def flagWrites (s : SoftwareData) (flag : String × Nat) : Anyhow (List DraftWrites) := do
  let format ← argumentFormat s flag.1
  .ok [{ arguments := [⟨flag.2, flag.1, format, none⟩] }]

def flagEnvironmentWrites (s : SoftwareData) (descriptor : String) : Anyhow (List DraftWrites) := do
  let kv ← environmentKvFormat s descriptor
  .ok [{ environments := [⟨kv.1, descriptor, kv.2, none⟩] }]

def slotWrites (services : Services) (nodeSpec : NodeSpec) (s : SoftwareData) (slot : InputSlot) :
    Anyhow (List DraftWrites) := do
  let inContent ← getContent services nodeSpec slot.descriptor
  let ws ← Outcome.mapEach (refWrites (slotMounting s inContent slot)) slot.refs
  .ok ({ files := infilesOf inContent } :: ws)

def ownFile (t : TemplateFile) (fileName filledResult : String) : DraftWrites :=
  { files := if t.writesFile then [.input fileName false (.content filledResult)] else [] }

def mountTemplateWrites (s : SoftwareData) (t : TemplateFile) (fileName filledResult : String) :
    Anyhow (List DraftWrites) := do
  let ws ← Outcome.mapEach
    (refWrites (templateMounting s filledResult filledResult (.text filledResult)))
    (t.asContent.map TextRef.toFileRef)
  let ws' ← Outcome.mapEach
    (refWrites (templateMounting s filledResult fileName (.file fileName))) t.asFileName
  .ok (ws ++ ownFile t fileName filledResult :: ws')

def templateWrites (services : Services) (u : SoftwareComputingUsecase)
    (template : String × HashMap String (Option String)) : Anyhow (List DraftWrites) := do
  let usingTemplateFile ← .unwrap (u.usecaseData.templateFile template.1)
  let info ← .unwrap (u.usecaseData.templateFileInfo template.1)
  let filledResult ← services.render info.content template.2
  mountTemplateWrites u.softwareData usingTemplateFile info.fileName filledResult

def initial : Draft := { stdIn := .none }

def slotsWrites (orders : ParseOrders) (services : Services) (u : SoftwareComputingUsecase)
    (nodeSpec : NodeSpec) : Anyhow (List DraftWrites) := do
  let spec := u.usecaseData.spec
  let flags ← Outcome.mapEach (flagWrites u.softwareData)
    (spec.flagArguments.iter orders.flagArguments)
  let flagEnvironments ← Outcome.mapEach (flagEnvironmentWrites u.softwareData)
    spec.flagEnvironments
  let slots ← Outcome.mapEach (slotWrites services nodeSpec u.softwareData) spec.inputSlots
  .ok (flags.flatten ++ (flagEnvironments.flatten ++ slots.flatten))

def gatherWrites (orders : ParseOrders) (services : Services) (u : SoftwareComputingUsecase)
    (nodeSpec : NodeSpec) : Anyhow (List DraftWrites) := do
  let ws ← slotsWrites orders services u nodeSpec
  let templates ← Outcome.mapEach (templateWrites services u)
    ((Writes.onEach ws initial).templatesKv.iter orders.templates)
  .ok (ws ++ templates.flatten)

theorem flagArgument_eq (s : SoftwareData) (g : Draft) (flag : String × Nat) :
    flagArgument s g flag = flagWrites s flag >>= fun ws => .ok (Writes.onEach ws g) := by
  rw [flagArgument, flagWrites]
  cases argumentFormat s flag.1 with
  | ok format =>
    simp [Writes.onEach, Writes.on, Grouping.gather, Grouping.add, Reference.grouping]
    rfl
  | err e => rfl
  | panic => rfl

theorem flagEnvironment_eq (s : SoftwareData) (g : Draft) (descriptor : String) :
    flagEnvironment s g descriptor =
      flagEnvironmentWrites s descriptor >>= fun ws => .ok (Writes.onEach ws g) := by
  rw [flagEnvironment, flagEnvironmentWrites]
  cases environmentKvFormat s descriptor with
  | ok kv =>
    simp [Writes.onEach, Writes.on, Grouping.gather, Grouping.add, Reference.grouping]
    rfl
  | err e => rfl
  | panic => rfl

variable (services : Services) (u : SoftwareComputingUsecase) (nodeSpec : NodeSpec) (g : Draft)

theorem parseInputSlot_eq (s : SoftwareData) (slot : InputSlot) :
    parseInputSlot services nodeSpec s g slot =
      slotWrites services nodeSpec s slot >>= fun ws => .ok (Writes.onEach ws g) := by
  rw [parseInputSlot, slotWrites]
  cases getContent services nodeSpec slot.descriptor with
  | ok inContent =>
    rw [Outcome.ok_bind, Outcome.ok_bind, mountEach_eq]
    cases Outcome.mapEach (refWrites (slotMounting s inContent slot)) slot.refs with
    | ok ws => rfl
    | err e => rfl
    | panic => rfl
  | err e => rfl
  | panic => rfl

theorem ownFile_on (t : TemplateFile) (fileName filledResult : String) :
    (ownFile t fileName filledResult).on g = if t.writesFile then
      { g with files := g.files ++ [.input fileName false (.content filledResult)] } else g := by
  rw [ownFile]
  cases t.writesFile with
  | true => rfl
  | false => simp [Writes.on, Grouping.gather]

theorem mountTemplate_eq (s : SoftwareData) (t : TemplateFile) (fileName filledResult : String) :
    mountTemplate s t fileName filledResult g =
      mountTemplateWrites s t fileName filledResult >>= fun ws => .ok (Writes.onEach ws g) := by
  rw [mountTemplate, mountTemplateWrites, mountEach_eq]
  cases Outcome.mapEach (refWrites (templateMounting s filledResult filledResult
      (.text filledResult))) (t.asContent.map TextRef.toFileRef) with
  | ok ws =>
    rw [Outcome.ok_bind, Outcome.ok_bind, Outcome.ok_bind, mountEach_eq]
    cases Outcome.mapEach (refWrites (templateMounting s filledResult fileName (.file fileName)))
        t.asFileName with
    | ok ws' =>
      rw [Outcome.ok_bind, Outcome.ok_bind, Outcome.ok_bind, Writes.onEach_append,
        Writes.onEach_cons, ownFile_on]
    | err e => rfl
    | panic => rfl
  | err e => rfl
  | panic => rfl

theorem parseTemplate_eq (template : String × HashMap String (Option String)) :
    parseTemplate services u g template =
      templateWrites services u template >>= fun ws => .ok (Writes.onEach ws g) := by
  rw [parseTemplate, templateWrites]
  cases u.usecaseData.templateFile template.1 with
  | none => rfl
  | some t =>
    cases u.usecaseData.templateFileInfo template.1 with
    | none => rfl
    | some info =>
      simp only [Outcome.unwrap, Outcome.ok_bind]
      cases services.render info.content template.2 with
      | ok filledResult => exact mountTemplate_eq g _ t _ _
      | err e => rfl
      | panic => rfl

theorem gather_eq (orders : ParseOrders) : gather orders services u nodeSpec =
    gatherWrites orders services u nodeSpec >>= fun ws => .ok (Writes.onEach ws initial) := by
  have hflags := fun g => Outcome.foldEach_act (fun g => flagArgument_eq u.softwareData g) g
    (u.usecaseData.spec.flagArguments.iter orders.flagArguments)
  have henvs := fun g => Outcome.foldEach_act (fun g => flagEnvironment_eq u.softwareData g) g
    u.usecaseData.spec.flagEnvironments
  have hslots := fun g => Outcome.foldEach_act
    (fun g => parseInputSlot_eq services nodeSpec g u.softwareData) g u.usecaseData.spec.inputSlots
  have htemplates := fun g => Outcome.foldEach_act (fun g => parseTemplate_eq services u g) g
    (g.templatesKv.iter orders.templates)
  rw [gather, gatherWrites, slotsWrites, hflags]
  cases Outcome.mapEach (flagWrites u.softwareData)
      (u.usecaseData.spec.flagArguments.iter orders.flagArguments) with
  | err e => rfl
  | panic => rfl
  | ok flags =>
    simp only [Outcome.ok_bind, henvs]
    cases Outcome.mapEach (flagEnvironmentWrites u.softwareData)
        u.usecaseData.spec.flagEnvironments with
    | err e => rfl
    | panic => rfl
    | ok envs =>
      simp only [Outcome.ok_bind, hslots]
      cases Outcome.mapEach (slotWrites services nodeSpec u.softwareData)
          u.usecaseData.spec.inputSlots with
      | err e => rfl
      | panic => rfl
      | ok slots =>
        have hbefore : slots.foldl (fun g ws => Writes.onEach ws g)
            (envs.foldl (fun g ws => Writes.onEach ws g)
              (flags.foldl (fun g ws => Writes.onEach ws g) initial)) =
            Writes.onEach (flags.flatten ++ (envs.flatten ++ slots.flatten)) initial := by
          rw [Writes.onEach_append, Writes.onEach_append, Writes.onEach_flatten,
            Writes.onEach_flatten, Writes.onEach_flatten]
        simp only [Outcome.ok_bind, initial] at hbefore ⊢
        rw [hbefore, htemplates]
        cases Outcome.mapEach (templateWrites services u)
            ((Writes.onEach (flags.flatten ++ (envs.flatten ++ slots.flatten))
              _).templatesKv.iter orders.templates) with
        | err e => rfl
        | panic => rfl
        | ok templates =>
          rw [Outcome.ok_bind, Outcome.ok_bind, Outcome.ok_bind,
            Writes.onEach_append _ templates.flatten, Writes.onEach_flatten templates]

end ParseTask

end Package

end Kuintessence
