import Kuintessence.Lib.Outcome
import Kuintessence.Lib.Text
import Kuintessence.Package.Material

namespace Kuintessence.Extraction

open Package (Argument Environment FilesomeInput FilesomeOutput SoftwareSpec SoftwareData CollectedOut
  TemplateFileInfo InputSlot OutputSlot Requirements)

abbrev Bytes := List UInt8

inductive Component where
  | rootDir
  | curDir
  | parentDir
  | normal (name : Bytes)
  deriving DecidableEq, Repr

namespace Component

def of (name : Bytes) : Option Component :=
  if name = [] ∨ name = [0x2E] then none
  else if name = [0x2E, 0x2E] then some .parentDir
  else some (.normal name)

-- `components` of a path on Unix.
def all (path : Bytes) : List Component :=
  let parts := path.splitOn 0x2F
  let front := if path.head? = some 0x2F then [.rootDir]
    else if parts.head? = some [0x2E] then [.curDir] else []
  front ++ parts.filterMap of

-- The paths that are left as the last component is taken away time after time.
def ancestors (path : List Component) : List (List Component) :=
  path.inits.reverse.filter fun rest => rest ≠ [] ∨ path.head? ≠ some .rootDir

def fileName (path : List Component) : Option Bytes :=
  match path.getLast? with
  | some (.normal name) => some name
  | _ => none

end Component

inductive SoftwareComputingRepo where
  | software
  | usecase (dependencySystemName dependencyVersionRange : String)
  deriving DecidableEq, Repr

structure Manifest where
  ability : SoftwareComputingRepo
  name : String
  systemName : String
  version : String
  maintainers : List String
  git : Option String
  homePage : Option String
  deriving DecidableEq, Repr

structure TemplateFile extends Package.TemplateFile where
  path : String
  deriving DecidableEq, Repr

structure UsecaseSpec where
  commandFile : String
  inputSlots : List InputSlot
  templateFiles : List TemplateFile := []
  outputSlots : List OutputSlot
  flagArguments : HashMap String Nat := .empty
  flagEnvironments : List String := []
  requirements : Option Requirements := none
  deriving DecidableEq

inductive SoftwareMaterial where
  | softwareSpec (el : SoftwareSpec)
  | argumentList (el : List Argument)
  | environmentList (el : List Environment)
  | filesomeInputList (el : List FilesomeInput)
  | filesomeOutputList (el : List FilesomeOutput)
  deriving DecidableEq, Repr

inductive UsecaseMaterial where
  | usecaseSpec (el : UsecaseSpec)
  | collectedOutList (el : List CollectedOut)
  deriving DecidableEq

structure UsecaseData where
  spec : UsecaseSpec
  collectedOuts : List CollectedOut
  templateFileInfos : List TemplateFileInfo
  deriving DecidableEq

inductive Data where
  | software (data : SoftwareData)
  | usecase (data : UsecaseData)
  deriving DecidableEq

structure Package where
  manifest : Manifest
  data : Data
  versionId : Uuid
  deriving DecidableEq

structure TarEntry where
  path : Except String Bytes
  isFile : Bool
  content : Except String (List Char)
  deriving DecidableEq

-- What the archive gives, one entry after the other.
abbrev Archive := Except String (List (Except String TarEntry))

-- The YAML reader, with the conversion of what it has read.
structure Yaml where
  manifest : List Char → Except String Manifest
  software : List Char → Except String SoftwareMaterial
  usecase : List Char → Except String UsecaseMaterial

def packageAncestorsCount : Nat := 3

def templateFileFolderName : Bytes := [0x74, 0x65, 0x6D, 0x70, 0x6C, 0x61, 0x74, 0x65, 0x73]

def separator : List Char := ['-', '-', '-']

def ancestorsCount (path : Bytes) : Nat := (Component.ancestors (Component.all path)).length

def TarEntry.isMaterialFile (e : TarEntry) (path : Bytes) : Bool :=
  packageAncestorsCount < ancestorsCount path && e.isFile

-- Every piece between two separators is read as a document of its own.
def readContent {σ M : Type} (read : List Char → Except String M) (take : σ → M → σ) (s : σ)
    (content : List Char) : Outcome String σ :=
  Outcome.foldEach (fun s text => Outcome.ofExcept (read text) >>= fun material =>
    .ok (take s material)) s (Text.splitAll separator content)

structure SoftwareMaterials where
  spec : Option SoftwareSpec := none
  arguments : List Argument := []
  environments : List Environment := []
  filesomeInputs : List FilesomeInput := []
  filesomeOutputs : List FilesomeOutput := []
  deriving DecidableEq, Repr

def SoftwareMaterials.take (s : SoftwareMaterials) : SoftwareMaterial → SoftwareMaterials
  | .softwareSpec el => { s with spec := some el }
  | .argumentList el => { s with arguments := s.arguments ++ el }
  | .environmentList el => { s with environments := s.environments ++ el }
  | .filesomeInputList el => { s with filesomeInputs := s.filesomeInputs ++ el }
  | .filesomeOutputList el => { s with filesomeOutputs := s.filesomeOutputs ++ el }

def readSoftware (yaml : Yaml) (content : List Char) : Except String SoftwareMaterial :=
  yaml.software (Text.trimEnd content)

def softwareEntry (yaml : Yaml) (s : SoftwareMaterials) (entry : Except String TarEntry) :
    Outcome String SoftwareMaterials := do
  let entry ← .ofExcept entry
  let entryPath ← .ofExcept entry.path
  if entry.isMaterialFile entryPath then do
    let materialContent ← .ofExcept entry.content
    readContent (readSoftware yaml) SoftwareMaterials.take s materialContent
  else .ok s

def parseSoftwareData (yaml : Yaml) (data : Archive) : Outcome String Data := do
  let entries ← .ofExcept data
  let s ← Outcome.foldEach (softwareEntry yaml) {} entries
  let spec ← .unwrap s.spec
  .ok (.software ⟨spec, s.arguments, s.environments, s.filesomeInputs, s.filesomeOutputs⟩)

structure UsecaseMaterials where
  spec : Option UsecaseSpec := none
  collectedOuts : List CollectedOut := []
  templateFileInfos : List TemplateFileInfo := []
  deriving DecidableEq

def UsecaseMaterials.take (s : UsecaseMaterials) : UsecaseMaterial → UsecaseMaterials
  | .usecaseSpec el => { s with spec := some el }
  | .collectedOutList el => { s with collectedOuts := s.collectedOuts ++ el }

def UsecaseMaterials.push (s : UsecaseMaterials) (info : TemplateFileInfo) : UsecaseMaterials :=
  { s with templateFileInfos := s.templateFileInfos ++ [info] }

def isTemplateFile (entryPath : Bytes) : Bool :=
  let ancestors := Component.ancestors (Component.all entryPath)
  ancestors.length = packageAncestorsCount + 2 &&
    ((ancestors[1]?.map fun el => (Component.fileName el).getD []).getD []) = templateFileFolderName

def templateFileName (entryPath : Bytes) : Option String :=
  (Component.fileName (Component.all entryPath)).bind fun name => String.fromUTF8? ⟨name.toArray⟩

def usecaseEntry (yaml : Yaml) (s : UsecaseMaterials) (entry : Except String TarEntry) :
    Outcome String UsecaseMaterials := do
  let entry ← .ofExcept entry
  let entryPath ← .ofExcept entry.path
  if entry.isMaterialFile entryPath then
    if isTemplateFile entryPath then do
      let fileName ← .unwrap (templateFileName entryPath)
      let content ← .ofExcept entry.content
      .ok (s.push ⟨"", .ofList content, fileName⟩)
    else do
      let usecaseContent ← .ofExcept entry.content
      readContent yaml.usecase UsecaseMaterials.take s usecaseContent
  else .ok s

def describe (spec : UsecaseSpec) (el : TemplateFileInfo) : Outcome String TemplateFileInfo := do
  let file ← .unwrap (spec.templateFiles.find? fun el2 => el2.path == el.fileName)
  .ok { el with descriptor := file.descriptor }

def parseUsecaseData (yaml : Yaml) (data : Archive) : Outcome String Data := do
  let entries ← .ofExcept data
  let s ← Outcome.foldEach (usecaseEntry yaml) {} entries
  let spec ← .unwrap s.spec
  let templateFileInfos ← Outcome.mapEach (describe spec) s.templateFileInfos
  .ok (.usecase ⟨spec, s.collectedOuts, templateFileInfos⟩)

def findManifest : List (Except String TarEntry) → Outcome String (Option TarEntry)
  | [] => .ok none
  | entry :: entries => do
    let entry ← .expect entry
    let path ← .expect entry.path
    if entry.isFile && ancestorsCount path = packageAncestorsCount then .ok (some entry)
    else findManifest entries

def parseData (yaml : Yaml) (manifest : Manifest) (data : Archive) : Outcome String Data :=
  match manifest.ability with
  | .software => parseSoftwareData yaml data
  | .usecase _ _ => parseUsecaseData yaml data

def extractPackage (yaml : Yaml) (id : Uuid) (tarFiles : Archive) : Outcome String Package := do
  let entries ← .ofExcept tarFiles
  let manifestEntry ← findManifest entries
  let manifestEntry ← .okOr s!"package: {id} has no manifest file!" manifestEntry
  let manifestContent ← .ofExcept manifestEntry.content
  let manifestObj ← .ofExcept (yaml.manifest manifestContent)
  let data ← parseData yaml manifestObj tarFiles
  .ok ⟨manifestObj, data, id⟩

-- A document of a package file, and the material that it says.
structure Document (M : Type) where
  text : List Char
  material : M

def separatorLine : List Char := '\n' :: (separator ++ ['\n'])

section Documents

variable {M : Type} {read : List Char → Except String M}

def joined (ds : List (Document M)) : List Char :=
  separatorLine.intercalate (ds.map Document.text)

-- A line break in front of the document or after it changes nothing.
structure Document.Reads (read : List Char → Except String M) (d : Document M) : Prop where
  whole : ¬separator <:+: d.text
  reads : ∀ front ∈ [[], ['\n']], ∀ back ∈ [[], ['\n']],
    read (front ++ (d.text ++ back)) = .ok d.material

def Written (read : List Char → Except String M) (content : List Char) (ms : List M) : Prop :=
  ∃ ds : List (Document M), ds ≠ [] ∧ (∀ d ∈ ds, d.Reads read) ∧ joined ds = content ∧
    ds.map Document.material = ms

def Pieces (read : List Char → Except String M) (content : List Char) (ms : List M) : Prop :=
  List.Forall₂ (fun piece m => read piece = .ok m) (Text.splitAll separator content) ms

theorem joined_cons_cons (d e : Document M) (ds : List (Document M)) :
    joined (d :: e :: ds) = d.text ++ '\n' :: (separator ++ '\n' :: joined (e :: ds)) := by
  rw [joined, List.map_cons, List.map_cons, List.intercalate_cons_cons, ← List.map_cons, ← joined,
    separatorLine, List.append_assoc, List.cons_append, List.append_assoc, List.singleton_append]

theorem Document.Reads.framed {d : Document M} (h : d.Reads read) {front : List Char}
    (hfront : front ∈ [[], ['\n']]) : ¬separator <:+: front ++ d.text := by
  obtain rfl | hfront := List.mem_cons.mp hfront
  · exact h.whole
  · rw [List.mem_singleton.mp hfront, List.singleton_append, List.infix_cons_iff, not_or]
    refine ⟨fun hpre => ?_, h.whole⟩
    exact absurd (List.cons_prefix_cons.mp hpre).1 (by decide)

theorem pieces_joined {d : Document M} {ds : List (Document M)} {front : List Char}
    (hfront : front ∈ [[], ['\n']]) (h : ∀ e ∈ d :: ds, e.Reads read) :
    Pieces read (front ++ joined (d :: ds)) ((d :: ds).map Document.material) := by
  induction ds generalizing d front with
  | nil =>
    have hd := h d List.mem_cons_self
    have hread := hd.reads front hfront [] List.mem_cons_self
    have hjoined : joined [d] = d.text := List.intercalate_singleton
    rw [List.append_nil] at hread
    rw [Pieces, hjoined, Text.splitAll_of_not_infix (hd.framed hfront)]
    exact .cons hread .nil
  | cons e ds ih =>
    have hd := h d List.mem_cons_self
    have hbreak : '\n' ∉ separator := by decide
    have hrest : Pieces read (['\n'] ++ joined (e :: ds)) ((e :: ds).map Document.material) :=
      ih (List.mem_cons_of_mem _ List.mem_cons_self) fun e he => h e (List.mem_cons_of_mem d he)
    have hne : separator ≠ [] := List.cons_ne_nil _ _
    rw [Pieces, joined_cons_cons, ← List.append_assoc,
      Text.splitAll_append hne hbreak (hd.framed hfront), List.append_assoc]
    exact .cons (hd.reads front hfront ['\n'] (List.mem_cons_of_mem _ List.mem_cons_self)) hrest

theorem Written.pieces {content : List Char} {ms : List M} (h : Written read content ms) :
    Pieces read content ms := by
  obtain ⟨ds, hne, hreads, rfl, rfl⟩ := h
  obtain ⟨d, ds, rfl⟩ := List.exists_cons_of_ne_nil hne
  exact (pieces_joined List.mem_cons_self hreads :
    Pieces read ([] ++ joined (d :: ds)) ((d :: ds).map Document.material))

def readPieces (read : List Char → Except String M) (content : List Char) :
    Outcome String (List M) :=
  Outcome.mapEach (fun text => .ofExcept (read text)) (Text.splitAll separator content)

theorem readPieces_ok_iff {content : List Char} {ms : List M} :
    readPieces read content = .ok ms ↔ Pieces read content ms := by
  simp only [readPieces, Outcome.mapEach_ok_iff, Outcome.ofExcept_ok_iff, Pieces]

theorem readPieces_ne_panic (content : List Char) : readPieces read content ≠ .panic :=
  Outcome.mapEach_ne_panic fun text _ => Outcome.ofExcept_ne_panic (read text)

theorem readContent_eq {σ : Type} (take : σ → M → σ) (s : σ) (content : List Char) :
    readContent read take s content =
      readPieces read content >>= fun ms => .ok (ms.foldl take s) :=
  Outcome.foldEach_act (fun _ _ => rfl) s _

end Documents

-- What an entry of a software package holds, where `P` says what the content of a file does.
def Holding (P : List Char → List SoftwareMaterial → Prop) (entry : Except String TarEntry)
    (ms : List SoftwareMaterial) : Prop :=
  ∃ e path, entry = .ok e ∧ e.path = .ok path ∧
    if e.isMaterialFile path then ∃ content, e.content = .ok content ∧ P content ms else ms = []

section Software

variable {yaml : Yaml} {entry : Except String TarEntry}

def SoftwareMaterial.spec : SoftwareMaterial → Option SoftwareSpec
  | .softwareSpec el => some el
  | _ => none

def SoftwareMaterial.arguments : SoftwareMaterial → List Argument
  | .argumentList el => el
  | _ => []

def SoftwareMaterial.environments : SoftwareMaterial → List Environment
  | .environmentList el => el
  | _ => []

def SoftwareMaterial.filesomeInputs : SoftwareMaterial → List FilesomeInput
  | .filesomeInputList el => el
  | _ => []

def SoftwareMaterial.filesomeOutputs : SoftwareMaterial → List FilesomeOutput
  | .filesomeOutputList el => el
  | _ => []

def lastSpec (ms : List SoftwareMaterial) : Option SoftwareSpec :=
  (ms.filterMap SoftwareMaterial.spec).getLast?

def softwareData (spec : SoftwareSpec) (ms : List SoftwareMaterial) : SoftwareData :=
  ⟨spec, ms.flatMap SoftwareMaterial.arguments, ms.flatMap SoftwareMaterial.environments,
    ms.flatMap SoftwareMaterial.filesomeInputs, ms.flatMap SoftwareMaterial.filesomeOutputs⟩

theorem SoftwareMaterials.foldl_take (ms : List SoftwareMaterial) (s : SoftwareMaterials) :
    ms.foldl take s =
      ⟨(lastSpec ms).or s.spec, s.arguments ++ ms.flatMap SoftwareMaterial.arguments,
        s.environments ++ ms.flatMap SoftwareMaterial.environments,
        s.filesomeInputs ++ ms.flatMap SoftwareMaterial.filesomeInputs,
        s.filesomeOutputs ++ ms.flatMap SoftwareMaterial.filesomeOutputs⟩ := by
  induction ms generalizing s with
  | nil => simp [lastSpec]
  | cons m ms ih =>
    rw [List.foldl_cons, ih]
    cases m with
    | softwareSpec el =>
      cases h : (ms.filterMap SoftwareMaterial.spec).getLast? <;>
        simp [take, lastSpec, SoftwareMaterial.spec, SoftwareMaterial.arguments,
          SoftwareMaterial.environments, SoftwareMaterial.filesomeInputs,
          SoftwareMaterial.filesomeOutputs, List.getLast?_cons, h]
    | _ =>
      simp [take, lastSpec, SoftwareMaterial.spec, SoftwareMaterial.arguments,
        SoftwareMaterial.environments, SoftwareMaterial.filesomeInputs,
        SoftwareMaterial.filesomeOutputs]

def softwareRead (yaml : Yaml) (entry : Except String TarEntry) :
    Outcome String (List SoftwareMaterial) := do
  let entry ← .ofExcept entry
  let entryPath ← .ofExcept entry.path
  if entry.isMaterialFile entryPath then do
    let materialContent ← .ofExcept entry.content
    readPieces (readSoftware yaml) materialContent
  else .ok []

theorem softwareEntry_eq (yaml : Yaml) (s : SoftwareMaterials) (entry : Except String TarEntry) :
    softwareEntry yaml s entry =
      softwareRead yaml entry >>= fun ms => .ok (ms.foldl SoftwareMaterials.take s) := by
  cases entry with
  | error e => rfl
  | ok entry =>
    obtain ⟨path, isFile, content⟩ := entry
    cases path with
    | error e => rfl
    | ok path =>
      simp only [softwareEntry, softwareRead, Outcome.ofExcept, Outcome.ok_bind]
      by_cases hfile : TarEntry.isMaterialFile ⟨.ok path, isFile, content⟩ path = true
      · rw [if_pos hfile, if_pos hfile]
        cases content with
        | error e => rfl
        | ok content => exact readContent_eq _ s content
      · rw [if_neg hfile, if_neg hfile]
        rfl

theorem softwareRead_ok_iff {ms : List SoftwareMaterial} :
    softwareRead yaml entry = .ok ms ↔ Holding (Pieces (readSoftware yaml)) entry ms := by
  simp only [softwareRead, Outcome.bind_ok_iff, Outcome.ofExcept_ok_iff, Holding]
  constructor
  · rintro ⟨e, rfl, path, hpath, h⟩
    refine ⟨e, path, rfl, hpath, ?_⟩
    by_cases hfile : e.isMaterialFile path = true
    · rw [if_pos hfile] at h ⊢
      obtain ⟨content, hcontent, h⟩ := Outcome.bind_ok_iff.mp h
      exact ⟨content, Outcome.ofExcept_ok_iff.mp hcontent, readPieces_ok_iff.mp h⟩
    · rw [if_neg hfile] at h ⊢
      exact (Outcome.ok.inj h).symm
  · rintro ⟨e, path, rfl, hpath, h⟩
    refine ⟨e, rfl, path, hpath, ?_⟩
    by_cases hfile : e.isMaterialFile path = true
    · rw [if_pos hfile] at h ⊢
      obtain ⟨content, hcontent, h⟩ := h
      rw [hcontent]
      exact readPieces_ok_iff.mpr h
    · rw [if_neg hfile] at h ⊢
      rw [h]

theorem softwareRead_ne_panic (entry : Except String TarEntry) :
    softwareRead yaml entry ≠ .panic := by
  refine Outcome.bind_ne_panic (Outcome.ofExcept_ne_panic _) fun e =>
    Outcome.bind_ne_panic (Outcome.ofExcept_ne_panic _) fun path => ?_
  split
  · exact Outcome.bind_ne_panic (Outcome.ofExcept_ne_panic _) readPieces_ne_panic
  · exact Outcome.ok_ne_panic _

theorem parseSoftwareData_eq (yaml : Yaml) (entries : List (Except String TarEntry)) :
    parseSoftwareData yaml (.ok entries) =
      Outcome.mapEach (softwareRead yaml) entries >>= fun mss =>
        .unwrap (lastSpec mss.flatten) >>= fun spec =>
          .ok (.software (softwareData spec mss.flatten)) := by
  rw [parseSoftwareData, Outcome.ofExcept, Outcome.ok_bind,
    Outcome.foldEach_act (softwareEntry_eq yaml)]
  cases Outcome.mapEach (softwareRead yaml) entries with
  | err e => rfl
  | panic => rfl
  | ok mss =>
    rw [Outcome.ok_bind, Outcome.ok_bind, Outcome.ok_bind, ← List.foldl_flatten,
      SoftwareMaterials.foldl_take, Option.or_none]
    rfl

theorem Holding.mono {P Q : List Char → List SoftwareMaterial → Prop}
    {ms : List SoftwareMaterial} (h : Holding P entry ms)
    (hPQ : ∀ content ms, P content ms → Q content ms) : Holding Q entry ms := by
  obtain ⟨e, path, hentry, hpath, h⟩ := h
  refine ⟨e, path, hentry, hpath, ?_⟩
  by_cases hfile : e.isMaterialFile path = true
  · rw [if_pos hfile] at h ⊢
    obtain ⟨content, hcontent, h⟩ := h
    exact ⟨content, hcontent, hPQ content ms h⟩
  · rw [if_neg hfile] at h ⊢
    exact h

end Software

-- The same for a usecase package: what its files hold, and its templates.
def UsecaseHolding (P : List Char → List UsecaseMaterial → Prop) (entry : Except String TarEntry)
    (it : List UsecaseMaterial × List TemplateFileInfo) : Prop :=
  ∃ e path, entry = .ok e ∧ e.path = .ok path ∧
    if e.isMaterialFile path then
      ∃ content, e.content = .ok content ∧
        if isTemplateFile path then
          ∃ name, templateFileName path = some name ∧ it = ([], [⟨"", .ofList content, name⟩])
        else P content it.1 ∧ it.2 = []
    else it = ([], [])

-- A template file whose name is no text.
def Nameless (entry : Except String TarEntry) : Prop :=
  ∃ e path, entry = .ok e ∧ e.path = .ok path ∧ e.isMaterialFile path = true ∧
    isTemplateFile path = true ∧ templateFileName path = none

def UsecaseSpec.Declares (spec : UsecaseSpec) (t : TemplateFileInfo) : Prop :=
  ∃ file ∈ spec.templateFiles, file.path = t.fileName

def UsecaseSpec.described (spec : UsecaseSpec) (t : TemplateFileInfo) : TemplateFileInfo :=
  { t with
    descriptor := ((spec.templateFiles.find? fun file => file.path == t.fileName).map
      fun file => file.descriptor).getD t.descriptor }

section Usecase

variable {yaml : Yaml} {entry : Except String TarEntry}

def UsecaseMaterial.spec : UsecaseMaterial → Option UsecaseSpec
  | .usecaseSpec el => some el
  | .collectedOutList _ => none

def UsecaseMaterial.collectedOuts : UsecaseMaterial → List CollectedOut
  | .usecaseSpec _ => []
  | .collectedOutList el => el

def lastUsecaseSpec (ms : List UsecaseMaterial) : Option UsecaseSpec :=
  (ms.filterMap UsecaseMaterial.spec).getLast?

def UsecaseMaterials.add (s : UsecaseMaterials)
    (it : List UsecaseMaterial × List TemplateFileInfo) : UsecaseMaterials :=
  ⟨(lastUsecaseSpec it.1).or s.spec, s.collectedOuts ++ it.1.flatMap UsecaseMaterial.collectedOuts,
    s.templateFileInfos ++ it.2⟩

theorem UsecaseMaterials.foldl_take (ms : List UsecaseMaterial) (s : UsecaseMaterials) :
    ms.foldl take s = s.add (ms, []) := by
  induction ms generalizing s with
  | nil => simp [add, lastUsecaseSpec]
  | cons m ms ih =>
    rw [List.foldl_cons, ih]
    cases m with
    | usecaseSpec el =>
      cases h : (ms.filterMap UsecaseMaterial.spec).getLast? <;>
        simp [take, add, lastUsecaseSpec, UsecaseMaterial.spec, UsecaseMaterial.collectedOuts,
          List.getLast?_cons, h]
    | collectedOutList el =>
      simp [take, add, lastUsecaseSpec, UsecaseMaterial.spec, UsecaseMaterial.collectedOuts]

theorem lastUsecaseSpec_append (ms ms' : List UsecaseMaterial) :
    lastUsecaseSpec (ms ++ ms') = (lastUsecaseSpec ms').or (lastUsecaseSpec ms) := by
  rw [lastUsecaseSpec, List.filterMap_append, List.getLast?_append]
  rfl

theorem UsecaseMaterials.foldl_add (its : List (List UsecaseMaterial × List TemplateFileInfo))
    (s : UsecaseMaterials) :
    its.foldl add s = s.add (its.flatMap Prod.fst, its.flatMap Prod.snd) := by
  induction its generalizing s with
  | nil => simp [add, lastUsecaseSpec]
  | cons it its ih =>
    rw [List.foldl_cons, ih]
    simp only [add, List.flatMap_cons, List.flatMap_append, lastUsecaseSpec_append,
      Option.or_assoc, List.append_assoc]

def usecaseRead (yaml : Yaml) (entry : Except String TarEntry) :
    Outcome String (List UsecaseMaterial × List TemplateFileInfo) := do
  let entry ← .ofExcept entry
  let entryPath ← .ofExcept entry.path
  if entry.isMaterialFile entryPath then
    if isTemplateFile entryPath then do
      let fileName ← .unwrap (templateFileName entryPath)
      let content ← .ofExcept entry.content
      .ok ([], [⟨"", .ofList content, fileName⟩])
    else do
      let usecaseContent ← .ofExcept entry.content
      let ms ← readPieces yaml.usecase usecaseContent
      .ok (ms, [])
  else .ok ([], [])

theorem usecaseEntry_eq (yaml : Yaml) (s : UsecaseMaterials) (entry : Except String TarEntry) :
    usecaseEntry yaml s entry = usecaseRead yaml entry >>= fun it => .ok (s.add it) := by
  have hnil : s.add ([], []) = s := UsecaseMaterials.foldl_add [] s ▸ rfl
  cases entry with
  | error e => rfl
  | ok entry =>
    obtain ⟨path, isFile, content⟩ := entry
    cases path with
    | error e => rfl
    | ok path =>
      simp only [usecaseEntry, usecaseRead, Outcome.ofExcept, Outcome.ok_bind]
      by_cases hfile : TarEntry.isMaterialFile ⟨.ok path, isFile, content⟩ path = true
      · rw [if_pos hfile, if_pos hfile]
        by_cases htemplate : isTemplateFile path = true
        · rw [if_pos htemplate, if_pos htemplate]
          cases templateFileName path with
          | none => rfl
          | some name =>
            cases content with
            | error e => rfl
            | ok content =>
              simp [Outcome.unwrap, UsecaseMaterials.push, UsecaseMaterials.add, lastUsecaseSpec]
        · rw [if_neg htemplate, if_neg htemplate]
          cases content with
          | error e => rfl
          | ok content =>
            rw [Outcome.ok_bind, Outcome.ok_bind, readContent_eq]
            cases readPieces yaml.usecase content with
            | err e => rfl
            | panic => rfl
            | ok ms =>
              rw [Outcome.ok_bind, UsecaseMaterials.foldl_take]
              rfl
      · rw [if_neg hfile, if_neg hfile, Outcome.ok_bind, hnil]

theorem usecaseRead_ok_iff {it : List UsecaseMaterial × List TemplateFileInfo} :
    usecaseRead yaml entry = .ok it ↔ UsecaseHolding (Pieces yaml.usecase) entry it := by
  simp only [usecaseRead, Outcome.bind_ok_iff, Outcome.ofExcept_ok_iff, UsecaseHolding]
  constructor
  · rintro ⟨e, rfl, path, hpath, h⟩
    refine ⟨e, path, rfl, hpath, ?_⟩
    by_cases hfile : e.isMaterialFile path = true
    · rw [if_pos hfile] at h ⊢
      by_cases htemplate : isTemplateFile path = true
      · simp only [if_pos htemplate] at h ⊢
        obtain ⟨name, hname, h⟩ := Outcome.bind_ok_iff.mp h
        obtain ⟨content, hcontent, h⟩ := Outcome.bind_ok_iff.mp h
        cases h
        exact ⟨content, Outcome.ofExcept_ok_iff.mp hcontent, name,
          Outcome.unwrap_ok_iff.mp hname, rfl⟩
      · simp only [if_neg htemplate] at h ⊢
        obtain ⟨content, hcontent, h⟩ := Outcome.bind_ok_iff.mp h
        obtain ⟨ms, hms, h⟩ := Outcome.bind_ok_iff.mp h
        cases h
        exact ⟨content, Outcome.ofExcept_ok_iff.mp hcontent, readPieces_ok_iff.mp hms, rfl⟩
    · rw [if_neg hfile] at h ⊢
      exact (Outcome.ok.inj h).symm
  · rintro ⟨e, path, rfl, hpath, h⟩
    refine ⟨e, rfl, path, hpath, ?_⟩
    by_cases hfile : e.isMaterialFile path = true
    · rw [if_pos hfile] at h ⊢
      obtain ⟨content, hcontent, h⟩ := h
      by_cases htemplate : isTemplateFile path = true
      · rw [if_pos htemplate] at h ⊢
        obtain ⟨name, hname, rfl⟩ := h
        rw [hname, hcontent]
        rfl
      · rw [if_neg htemplate] at h ⊢
        obtain ⟨ms, ts⟩ := it
        obtain ⟨hms, rfl⟩ := h
        rw [hcontent]
        exact Outcome.bind_ok_iff.mpr
          ⟨content, rfl, Outcome.bind_ok_iff.mpr ⟨ms, readPieces_ok_iff.mpr hms, rfl⟩⟩
    · rw [if_neg hfile] at h ⊢
      rw [h]

theorem usecaseRead_panic_iff : usecaseRead yaml entry = .panic ↔ Nameless entry := by
  simp only [usecaseRead, Outcome.bind_panic_iff, Outcome.ofExcept_ok_iff, Outcome.ofExcept_ne_panic,
    false_or, Nameless]
  constructor
  · rintro ⟨e, rfl, path, hpath, h⟩
    refine ⟨e, path, rfl, hpath, ?_⟩
    by_cases hfile : e.isMaterialFile path = true
    · rw [if_pos hfile] at h
      by_cases htemplate : isTemplateFile path = true
      · rw [if_pos htemplate] at h
        obtain h | ⟨name, -, h⟩ := Outcome.bind_panic_iff.mp h
        · exact ⟨hfile, htemplate, Outcome.unwrap_panic_iff.mp h⟩
        · exact absurd h (Outcome.bind_ne_panic (Outcome.ofExcept_ne_panic _) fun _ =>
            Outcome.ok_ne_panic _)
      · rw [if_neg htemplate] at h
        exact absurd h (Outcome.bind_ne_panic (Outcome.ofExcept_ne_panic _) fun content =>
          Outcome.bind_ne_panic (readPieces_ne_panic content) fun _ => Outcome.ok_ne_panic _)
    · rw [if_neg hfile] at h
      cases h
  · rintro ⟨e, path, rfl, hpath, hfile, htemplate, hname⟩
    refine ⟨e, rfl, path, hpath, ?_⟩
    rw [if_pos hfile, if_pos htemplate, hname]
    rfl

section Describe

variable {spec : UsecaseSpec}

theorem describe_of_declares {t : TemplateFileInfo} (h : spec.Declares t) :
    describe spec t = .ok (spec.described t) := by
  obtain ⟨file, hmem, hpath⟩ := h
  have hsome : (spec.templateFiles.find? fun file => file.path == t.fileName).isSome := by
    rw [List.find?_isSome]
    exact ⟨file, hmem, beq_iff_eq.mpr hpath⟩
  obtain ⟨found, hfound⟩ := Option.isSome_iff_exists.mp hsome
  rw [describe, UsecaseSpec.described, hfound]
  rfl

theorem describe_panic_iff {t : TemplateFileInfo} :
    describe spec t = .panic ↔ ¬spec.Declares t := by
  constructor
  · intro h hdeclares
    rw [describe_of_declares hdeclares] at h
    cases h
  · intro h
    have hnone : (spec.templateFiles.find? fun file => file.path == t.fileName) = none := by
      rw [List.find?_eq_none]
      exact fun file hmem hpath => h ⟨file, hmem, beq_iff_eq.mp hpath⟩
    rw [describe, hnone]
    rfl

theorem errorless_describe (t : TemplateFileInfo) : Outcome.Errorless (describe spec t) :=
  (Outcome.errorless_unwrap _).bind fun _ => Outcome.errorless_ok _

end Describe

theorem parseUsecaseData_eq (yaml : Yaml) (entries : List (Except String TarEntry)) :
    parseUsecaseData yaml (.ok entries) =
      Outcome.mapEach (usecaseRead yaml) entries >>= fun its =>
        .unwrap (lastUsecaseSpec (its.flatMap Prod.fst)) >>= fun spec =>
          Outcome.mapEach (describe spec) (its.flatMap Prod.snd) >>= fun templateFileInfos =>
            .ok (.usecase ⟨spec, (its.flatMap Prod.fst).flatMap UsecaseMaterial.collectedOuts,
              templateFileInfos⟩) := by
  rw [parseUsecaseData, Outcome.ofExcept, Outcome.ok_bind,
    Outcome.foldEach_act (usecaseEntry_eq yaml)]
  cases Outcome.mapEach (usecaseRead yaml) entries with
  | err e => rfl
  | panic => rfl
  | ok its =>
    rw [Outcome.ok_bind, Outcome.ok_bind, Outcome.ok_bind, UsecaseMaterials.foldl_add,
      UsecaseMaterials.add, Option.or_none]
    rfl

theorem UsecaseHolding.mono {P Q : List Char → List UsecaseMaterial → Prop}
    {it : List UsecaseMaterial × List TemplateFileInfo} (h : UsecaseHolding P entry it)
    (hPQ : ∀ content ms, P content ms → Q content ms) : UsecaseHolding Q entry it := by
  obtain ⟨e, path, hentry, hpath, h⟩ := h
  refine ⟨e, path, hentry, hpath, ?_⟩
  by_cases hfile : e.isMaterialFile path = true
  · rw [if_pos hfile] at h ⊢
    obtain ⟨content, hcontent, h⟩ := h
    refine ⟨content, hcontent, ?_⟩
    by_cases htemplate : isTemplateFile path = true
    · rw [if_pos htemplate] at h ⊢
      exact h
    · rw [if_neg htemplate] at h ⊢
      exact ⟨hPQ content it.1 h.1, h.2⟩
  · rw [if_neg hfile] at h ⊢
    exact h

end Usecase

-- The manifest is found and read.
def Accepted (yaml : Yaml) (entries : List (Except String TarEntry)) (manifest : Manifest) : Prop :=
  ∃ e content, findManifest entries = .ok (some e) ∧ e.content = .ok content ∧
    yaml.manifest content = .ok manifest

structure SoftwareExact (yaml : Yaml) (id : Uuid) (entries : List (Except String TarEntry))
    (manifest : Manifest) : Prop where
  read : ∀ mss spec, List.Forall₂ (Holding (Written (readSoftware yaml))) entries mss →
    lastSpec mss.flatten = some spec →
    extractPackage yaml id (.ok entries) =
      .ok ⟨manifest, .software (softwareData spec mss.flatten), id⟩
  panics : extractPackage yaml id (.ok entries) = .panic ↔
    ∃ mss, List.Forall₂ (Holding (Pieces (readSoftware yaml))) entries mss ∧
      ∀ m ∈ mss.flatten, m.spec = none

structure UsecaseExact (yaml : Yaml) (id : Uuid) (entries : List (Except String TarEntry))
    (manifest : Manifest) : Prop where
  read : ∀ its spec, List.Forall₂ (UsecaseHolding (Written yaml.usecase)) entries its →
    lastUsecaseSpec (its.flatMap Prod.fst) = some spec →
    (∀ t ∈ its.flatMap Prod.snd, spec.Declares t) →
    extractPackage yaml id (.ok entries) =
      .ok ⟨manifest, .usecase ⟨spec, (its.flatMap Prod.fst).flatMap UsecaseMaterial.collectedOuts,
        (its.flatMap Prod.snd).map spec.described⟩, id⟩
  panics : extractPackage yaml id (.ok entries) = .panic ↔
    Outcome.First (fun entry => ∃ it, UsecaseHolding (Pieces yaml.usecase) entry it) Nameless
      entries ∨
    ∃ its, List.Forall₂ (UsecaseHolding (Pieces yaml.usecase)) entries its ∧
      ∀ spec, lastUsecaseSpec (its.flatMap Prod.fst) = some spec →
        ∃ t ∈ its.flatMap Prod.snd, ¬spec.Declares t

section Extract

variable {yaml : Yaml} {id : Uuid} {entries : List (Except String TarEntry)} {manifest : Manifest}

theorem extractPackage_of_accepted (h : Accepted yaml entries manifest) :
    extractPackage yaml id (.ok entries) =
      parseData yaml manifest (.ok entries) >>= fun data => .ok ⟨manifest, data, id⟩ := by
  obtain ⟨e, content, hfound, hcontent, hmanifest⟩ := h
  rw [extractPackage, Outcome.ofExcept, Outcome.ok_bind, hfound, Outcome.ok_bind, Outcome.okOr,
    Outcome.ok_bind, hcontent, Outcome.ofExcept, Outcome.ok_bind, hmanifest, Outcome.ofExcept,
    Outcome.ok_bind]

theorem extractPackage_panic_iff (h : Accepted yaml entries manifest) :
    extractPackage yaml id (.ok entries) = .panic ↔
      parseData yaml manifest (.ok entries) = .panic := by
  rw [extractPackage_of_accepted h, Outcome.bind_panic_iff]
  exact ⟨fun h => h.resolve_right fun ⟨_, _, h⟩ => Outcome.ok_ne_panic _ h, .inl⟩

theorem lastSpec_eq_none_iff {ms : List SoftwareMaterial} :
    lastSpec ms = none ↔ ∀ m ∈ ms, m.spec = none := by
  rw [lastSpec, List.getLast?_eq_none_iff, List.filterMap_eq_nil_iff]

theorem softwareExact (h : Accepted yaml entries manifest) (hability : manifest.ability = .software) :
    SoftwareExact yaml id entries manifest := by
  have hparse : parseData yaml manifest (.ok entries) = parseSoftwareData yaml (.ok entries) := by
    rw [parseData, hability]
  constructor
  · intro mss spec hmss hspec
    have hread : Outcome.mapEach (softwareRead yaml) entries = .ok mss := by
      rw [Outcome.mapEach_ok_iff]
      exact hmss.imp fun entry ms hms =>
        softwareRead_ok_iff.mpr (hms.mono fun content ms => Written.pieces)
    rw [extractPackage_of_accepted h, hparse, parseSoftwareData_eq, hread, Outcome.ok_bind, hspec]
    rfl
  · have hread {mss : List (List SoftwareMaterial)} :
        Outcome.mapEach (softwareRead yaml) entries = .ok mss ↔
          List.Forall₂ (Holding (Pieces (readSoftware yaml))) entries mss := by
      simp only [Outcome.mapEach_ok_iff, softwareRead_ok_iff]
    rw [extractPackage_panic_iff h, hparse, parseSoftwareData_eq, Outcome.bind_panic_iff,
      or_iff_right (Outcome.mapEach_ne_panic fun entry _ => softwareRead_ne_panic entry)]
    refine exists_congr fun mss => and_congr hread ?_
    rw [Outcome.bind_panic_iff, Outcome.unwrap_panic_iff, lastSpec_eq_none_iff]
    exact ⟨fun h => h.resolve_right fun ⟨_, _, h⟩ => Outcome.ok_ne_panic _ h, .inl⟩

theorem usecaseExact (h : Accepted yaml entries manifest) {name range : String}
    (hability : manifest.ability = .usecase name range) : UsecaseExact yaml id entries manifest := by
  have hparse : parseData yaml manifest (.ok entries) = parseUsecaseData yaml (.ok entries) := by
    rw [parseData, hability]
  constructor
  · intro its spec hits hspec hdeclared
    have hread : Outcome.mapEach (usecaseRead yaml) entries = .ok its := by
      rw [Outcome.mapEach_ok_iff]
      exact hits.imp fun entry it hit =>
        usecaseRead_ok_iff.mpr (hit.mono fun content ms => Written.pieces)
    have hdescribe := Outcome.mapEach_eq_map fun t ht => describe_of_declares (hdeclared t ht)
    rw [extractPackage_of_accepted h, hparse, parseUsecaseData_eq, hread, Outcome.ok_bind, hspec,
      Outcome.unwrap, Outcome.ok_bind, hdescribe]
    rfl
  · have hread {its : List (List UsecaseMaterial × List TemplateFileInfo)} :
        Outcome.mapEach (usecaseRead yaml) entries = .ok its ↔
          List.Forall₂ (UsecaseHolding (Pieces yaml.usecase)) entries its := by
      simp only [Outcome.mapEach_ok_iff, usecaseRead_ok_iff]
    have hstop : Outcome.mapEach (usecaseRead yaml) entries = .panic ↔
        Outcome.First (fun entry => ∃ it, UsecaseHolding (Pieces yaml.usecase) entry it) Nameless
          entries :=
      Outcome.mapEach_panic_iff (fun entry _ => exists_congr fun it => usecaseRead_ok_iff)
        fun entry _ => usecaseRead_panic_iff
    rw [extractPackage_panic_iff h, hparse, parseUsecaseData_eq, Outcome.bind_panic_iff, hstop]
    refine or_congr_right (exists_congr fun its => and_congr hread ?_)
    cases lastUsecaseSpec (its.flatMap Prod.fst) with
    | none =>
      refine iff_of_true rfl fun spec hspec => ?_
      cases hspec
    | some spec =>
      rw [Outcome.unwrap, Outcome.ok_bind, Outcome.bind_panic_iff,
        Outcome.mapEach_panic_iff_exists fun t _ => errorless_describe t]
      simp only [describe_panic_iff, Outcome.ok_ne_panic, and_false, exists_false, or_false,
        Option.some.injEq, forall_eq']

theorem extractPackage_exact (yaml : Yaml) (id : Uuid) {entries : List (Except String TarEntry)}
    {manifest : Manifest} (h : Accepted yaml entries manifest) :
    (manifest.ability = .software → SoftwareExact yaml id entries manifest) ∧
    ∀ name range, manifest.ability = .usecase name range →
      UsecaseExact yaml id entries manifest :=
  ⟨softwareExact h, fun _ _ => usecaseExact h⟩

end Extract

-- A reader that knows the documents `rows`, whatever line breaks are in front of them.
def known {M : Type} (rows : List (String × M)) (unknown : String) (text : List Char) :
    Except String M :=
  match rows.find? fun row => row.1.toList == text.dropWhile (· == '\n') with
  | some row => .ok row.2
  | none => .error unknown

def sampleManifest : Manifest :=
  ⟨.software, "zlib", "zlib", "1.2.11", [], none, none⟩

def manifestText : String :=
  "ability:\n  SoftwareComputing: Software\nname: zlib\nsystemName: zlib\nversion: 1.2.11\n" ++
    "maintainers: []"

def specText : String := "kind: SoftwareSpec\nspec:\n  spack:\n    name: zlib\n    argument_list: []"

def argumentsText (valueFormat : String) : String :=
  "kind: ArgumentList\nspec:\n- descriptor: level\n  valueFormat: " ++ valueFormat

def specDocument : Document SoftwareMaterial := ⟨specText.toList, .softwareSpec (.spack "zlib" [])⟩

def argumentsDocument (valueFormat : String) : Document SoftwareMaterial :=
  ⟨(argumentsText valueFormat).toList, .argumentList [⟨"level", valueFormat⟩]⟩

def notTagged : String :=
  "invalid type: string \"b\", expected adjacently tagged enum SoftwareMaterial"

def sampleYaml : Yaml where
  manifest := known [(manifestText, sampleManifest)] "missing field"
  software := known ((specText, .softwareSpec (.spack "zlib" [])) ::
    ["fast", "a", "a---b"].map fun x => (argumentsText x, .argumentList [⟨"level", x⟩])) notTagged
  usecase := known [] "missing field"

def bytesOf (path : String) : Bytes := path.toList.map fun c => c.toNat.toUInt8

def manifestPath : Bytes := bytesOf "zlib/manifest.yml"

def materialPath : Bytes := bytesOf "zlib/materials/all.yml"

def fileEntry (path : Bytes) (content : List Char) : TarEntry := ⟨.ok path, true, .ok content⟩

def samplePackage (contents : List (List Char)) : List (Except String TarEntry) :=
  .ok (fileEntry manifestPath manifestText.toList) ::
    contents.map fun content => .ok (fileEntry materialPath content)

theorem findManifest_cons {e : TarEntry} {path : Bytes} (hpath : e.path = .ok path)
    (entries : List (Except String TarEntry)) :
    findManifest (.ok e :: entries) =
      if e.isFile && ancestorsCount path = packageAncestorsCount then .ok (some e)
      else findManifest entries := by
  rw [findManifest, Outcome.expect, Outcome.ok_bind, hpath]
  rfl

theorem accepted_samplePackage (contents : List (List Char)) :
    Accepted sampleYaml (samplePackage contents) sampleManifest := by
  have hmanifest : sampleYaml.manifest manifestText.toList = .ok sampleManifest := by
    decide +kernel
  have hcount : ((fileEntry manifestPath manifestText.toList).isFile &&
      ancestorsCount manifestPath = packageAncestorsCount) = true := by
    decide +kernel
  refine ⟨fileEntry manifestPath manifestText.toList, manifestText.toList, ?_, rfl, hmanifest⟩
  rw [samplePackage, findManifest_cons rfl, if_pos hcount]

theorem holding_sampleManifest {P : List Char → List SoftwareMaterial → Prop} :
    Holding P (.ok (fileEntry manifestPath manifestText.toList)) [] := by
  have hfile : (fileEntry manifestPath manifestText.toList).isMaterialFile manifestPath = false := by
    decide +kernel
  refine ⟨_, manifestPath, rfl, rfl, ?_⟩
  rw [hfile]
  rfl

theorem holding_sampleMaterial {P : List Char → List SoftwareMaterial → Prop} {content : List Char}
    {ms : List SoftwareMaterial} (h : P content ms) :
    Holding P (.ok (fileEntry materialPath content)) ms := by
  have hcount : packageAncestorsCount < ancestorsCount materialPath := by decide +kernel
  have hfile : (fileEntry materialPath content).isMaterialFile materialPath = true := by
    rw [TarEntry.isMaterialFile, decide_eq_true hcount]
    rfl
  refine ⟨_, materialPath, rfl, rfl, ?_⟩
  rw [hfile]
  exact ⟨content, rfl, h⟩

theorem reads_specDocument : specDocument.Reads (readSoftware sampleYaml) where
  whole := by decide +kernel
  reads := List.forall_iff_forall_mem.mp
    ⟨List.forall_iff_forall_mem.mp (by decide +kernel),
      List.forall_iff_forall_mem.mp (by decide +kernel)⟩

theorem reads_argumentsDocument : (argumentsDocument "fast").Reads (readSoftware sampleYaml) where
  whole := by decide +kernel
  reads := List.forall_iff_forall_mem.mp
    ⟨List.forall_iff_forall_mem.mp (by decide +kernel),
      List.forall_iff_forall_mem.mp (by decide +kernel)⟩

-- A package with two documents in one file, and one with none.
theorem extractPackage_exact_sample :
    extractPackage sampleYaml 1
        (.ok (samplePackage [joined [specDocument, argumentsDocument "fast"]])) =
      .ok ⟨sampleManifest, .software ⟨.spack "zlib" [], [⟨"level", "fast"⟩], [], [], []⟩, 1⟩ ∧
    extractPackage sampleYaml 1 (.ok (samplePackage [])) = .panic := by
  refine ⟨?_, ?_⟩
  · refine ((extractPackage_exact sampleYaml 1 (accepted_samplePackage _)).1 rfl).read
      [[], [specDocument.material, (argumentsDocument "fast").material]] _ ?_ rfl
    refine .cons holding_sampleManifest (.cons (holding_sampleMaterial ?_) .nil)
    refine ⟨[specDocument, argumentsDocument "fast"], List.cons_ne_nil _ _, ?_, rfl, rfl⟩
    rw [List.forall_mem_cons, List.forall_mem_singleton]
    exact ⟨reads_specDocument, reads_argumentsDocument⟩
  · refine ((extractPackage_exact sampleYaml 1 (accepted_samplePackage _)).1 rfl).panics.mpr
      ⟨[[]], ?_, nofun⟩
    exact .cons holding_sampleManifest .nil

-- Dashes within a value cut its document, and a package with no spec ends the program.
theorem extractPackage_unexact :
    sampleYaml.software (argumentsDocument "a---b").text =
      .ok (argumentsDocument "a---b").material ∧
    extractPackage sampleYaml 1
        (.ok (samplePackage [joined [specDocument, argumentsDocument "a---b"]])) =
      .err notTagged ∧
    extractPackage sampleYaml 1 (.ok (samplePackage [])) = .panic := by
  decide +kernel

end Kuintessence.Extraction
