import Kuintessence.Package.Material

namespace Kuintessence

namespace Package

-- The variables that the two functions fill while they go through the mounts.
structure Gathered (V S F : Type) where
  argumentFormatsSorts : HashMap Nat (FormatFill V) := .empty
  environmentFormats : HashMap String (FormatFill V) := .empty
  files : List F := []
  stdIn : S
  templatesKv : HashMap String (HashMap String V) := .empty
  deriving DecidableEq

structure Mounting (V S F : Type) where
  argumentFormat : String → Anyhow (FormatFill V)
  environmentKvFormat : String → Anyhow (String × FormatFill V)
  value : V
  stdIn : Anyhow S
  fileInput : String → Anyhow (List F)
  template : Anyhow Unit

variable {V S F : Type}

def insertKeys (value : V) (descriptor : String) (refKeys : List String)
    (m : HashMap String (HashMap String V)) : HashMap String (HashMap String V) :=
  refKeys.foldl (fun m refKey => m.entry descriptor .empty fun kv => kv.insert refKey value) m

def mount (p : Mounting V S F) (g : Gathered V S F) : FileRef → Anyhow (Gathered V S F)
  | .argRef descriptor placeholderNth sort => do
    let format ← p.argumentFormat descriptor
    .ok { g with
      argumentFormatsSorts :=
        g.argumentFormatsSorts.entry sort format (.fill placeholderNth p.value) }
  | .envRef descriptor placeholderNth => do
    let kv ← p.environmentKvFormat descriptor
    .ok { g with
      environmentFormats := g.environmentFormats.entry kv.1 kv.2 (.fill placeholderNth p.value) }
  | .stdIn => do
    let stdIn ← p.stdIn
    .ok { g with stdIn := stdIn }
  | .fileInputRef descriptor => do
    let files ← p.fileInput descriptor
    .ok { g with files := g.files ++ files }
  | .templateRef descriptor refKeys => do
    p.template
    .ok { g with templatesKv := insertKeys p.value descriptor refKeys g.templatesKv }

def mountEach (p : Mounting V S F) (g : Gathered V S F) (refs : List FileRef) :
    Anyhow (Gathered V S F) :=
  Outcome.foldEach (mount p) g refs

namespace Mounting

def Takes (p : Mounting V S F) : FileRef → Prop
  | .argRef descriptor _ _ => ∃ format, p.argumentFormat descriptor = .ok format
  | .envRef descriptor _ => ∃ kv, p.environmentKvFormat descriptor = .ok kv
  | .stdIn => ∃ stdIn, p.stdIn = .ok stdIn
  | .fileInputRef descriptor => ∃ files, p.fileInput descriptor = .ok files
  | .templateRef _ _ => ∃ u, p.template = .ok u

structure Panicless (p : Mounting V S F) : Prop where
  argumentFormat : ∀ descriptor, p.argumentFormat descriptor ≠ .panic
  environmentKvFormat : ∀ descriptor, p.environmentKvFormat descriptor ≠ .panic
  stdIn : p.stdIn ≠ .panic
  fileInput : ∀ descriptor, p.fileInput descriptor ≠ .panic
  template : p.template ≠ .panic

end Mounting

section

variable {p : Mounting V S F} {g g' : Gathered V S F} {refs : List FileRef}

theorem mount_ok_iff (ref : FileRef) : (∃ g', mount p g ref = .ok g') ↔ p.Takes ref := by
  cases ref with
  | argRef descriptor nth sort => simp [mount, Mounting.Takes, Outcome.bind_ok_iff]
  | envRef descriptor nth => simp [mount, Mounting.Takes, Outcome.bind_ok_iff]
  | stdIn => simp [mount, Mounting.Takes, Outcome.bind_ok_iff]
  | fileInputRef descriptor => simp [mount, Mounting.Takes, Outcome.bind_ok_iff]
  | templateRef descriptor refKeys => simp [mount, Mounting.Takes, Outcome.bind_ok_iff]

theorem mountEach_ok_iff : (∃ g', mountEach p g refs = .ok g') ↔ ∀ ref ∈ refs, p.Takes ref :=
  Outcome.foldEach_ok_iff fun ref _ _ => mount_ok_iff ref

theorem Mounting.Panicless.mount (h : p.Panicless) (ref : FileRef) :
    Package.mount p g ref ≠ .panic := by
  cases ref with
  | argRef descriptor nth sort =>
    exact Outcome.bind_ne_panic (h.argumentFormat descriptor) fun _ => Outcome.ok_ne_panic _
  | envRef descriptor nth =>
    exact Outcome.bind_ne_panic (h.environmentKvFormat descriptor) fun _ => Outcome.ok_ne_panic _
  | stdIn => exact Outcome.bind_ne_panic h.stdIn fun _ => Outcome.ok_ne_panic _
  | fileInputRef descriptor =>
    exact Outcome.bind_ne_panic (h.fileInput descriptor) fun _ => Outcome.ok_ne_panic _
  | templateRef descriptor refKeys =>
    exact Outcome.bind_ne_panic h.template fun _ => Outcome.ok_ne_panic _

theorem Mounting.Panicless.mountEach (h : p.Panicless) : Package.mountEach p g refs ≠ .panic :=
  Outcome.foldEach_ne_panic fun ref _ _ => h.mount ref

theorem mem_keys_insertKeys {value : V} {descriptor descriptor' : String} {refKeys : List String}
    {m : HashMap String (HashMap String V)} :
    descriptor' ∈ Assoc.keys (insertKeys value descriptor refKeys m).entries ↔
      descriptor' ∈ Assoc.keys m.entries ∨ descriptor' = descriptor ∧ refKeys ≠ [] := by
  induction refKeys generalizing m with
  | nil => exact ⟨.inl, fun h => h.resolve_right fun h => h.2 rfl⟩
  | cons refKey refKeys ih =>
    rw [insertKeys, List.foldl_cons, ← insertKeys, ih, HashMap.mem_keys_entry, or_assoc]
    refine or_congr_right ⟨fun h => ?_, fun h => .inl h.1⟩
    exact ⟨h.elim id And.left, List.cons_ne_nil refKey refKeys⟩

def FileRef.Mounts (templateDescriptor : String) (ref : FileRef) : Prop :=
  ∃ refKeys ≠ [], ref = .templateRef templateDescriptor refKeys

theorem mount_templates {ref : FileRef} (h : mount p g ref = .ok g') (descriptor : String) :
    descriptor ∈ Assoc.keys g'.templatesKv.entries ↔
      descriptor ∈ Assoc.keys g.templatesKv.entries ∨ ref.Mounts descriptor := by
  cases ref with
  | argRef _ _ _ =>
    obtain ⟨_, -, h⟩ := Outcome.bind_ok_iff.mp h
    cases h
    exact ⟨.inl, fun h => h.resolve_right fun ⟨_, _, h⟩ => nomatch h⟩
  | envRef _ _ =>
    obtain ⟨_, -, h⟩ := Outcome.bind_ok_iff.mp h
    cases h
    exact ⟨.inl, fun h => h.resolve_right fun ⟨_, _, h⟩ => nomatch h⟩
  | stdIn =>
    obtain ⟨_, -, h⟩ := Outcome.bind_ok_iff.mp h
    cases h
    exact ⟨.inl, fun h => h.resolve_right fun ⟨_, _, h⟩ => nomatch h⟩
  | fileInputRef _ =>
    obtain ⟨_, -, h⟩ := Outcome.bind_ok_iff.mp h
    cases h
    exact ⟨.inl, fun h => h.resolve_right fun ⟨_, _, h⟩ => nomatch h⟩
  | templateRef templateDescriptor refKeys =>
    obtain ⟨_, -, h⟩ := Outcome.bind_ok_iff.mp h
    cases h
    refine mem_keys_insertKeys.trans (or_congr_right ⟨?_, ?_⟩)
    · rintro ⟨rfl, hne⟩
      exact ⟨refKeys, hne, rfl⟩
    · rintro ⟨_, hne, href⟩
      cases href
      exact ⟨rfl, hne⟩

theorem mountEach_templates (h : mountEach p g refs = .ok g') (descriptor : String) :
    descriptor ∈ Assoc.keys g'.templatesKv.entries ↔
      descriptor ∈ Assoc.keys g.templatesKv.entries ∨ ∃ ref ∈ refs, ref.Mounts descriptor :=
  Outcome.foldEach_adds (f := mount p) (fun _ _ _ _ h => mount_templates h descriptor) h

end

namespace UsecaseData

variable (u : UsecaseData)

def Uses (templateDescriptor : String) : Prop :=
  ∃ slot ∈ u.spec.inputSlots, ∃ ref ∈ slot.refs, ref.Mounts templateDescriptor

-- The mounts of the input slots and of the templates that are used.
def Mounted (ref : FileRef) : Prop :=
  (∃ slot ∈ u.spec.inputSlots, ref ∈ slot.refs) ∨
    ∃ descriptor t, u.Uses descriptor ∧ u.templateFile descriptor = some t ∧ ref ∈ t.refs

def ReferencesArgument (material : String) (sort : Nat) : Prop :=
  u.spec.flagArguments.get material = some sort ∨
    ∃ placeholderNth, u.Mounted (.argRef material placeholderNth sort)

def ReferencesEnvironment (material : String) : Prop :=
  material ∈ u.spec.flagEnvironments ∨ ∃ placeholderNth, u.Mounted (.envRef material placeholderNth)

end UsecaseData

end Package

end Kuintessence
