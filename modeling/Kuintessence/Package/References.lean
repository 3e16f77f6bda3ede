import Kuintessence.Package.Writes

namespace Kuintessence

namespace Package

namespace ParseTask

def argumentBase (s : SoftwareData) (material : String) : FormatFill (Option String) where
  format := ((s.argument material).map Argument.valueFormat).getD ""

def environmentKey (s : SoftwareData) (material : String) : String :=
  ((s.environment material).map Environment.key).getD ""

def environmentBase (s : SoftwareData) (material : String) : FormatFill (Option String) where
  format := ((s.environment material).map Environment.valueFormat).getD ""

theorem argumentFormat_ok {s : SoftwareData} {material : String}
    {format : FormatFill (Option String)} (h : argumentFormat s material = .ok format) :
    format = argumentBase s material := by
  obtain ⟨el, hel, h⟩ := Outcome.bind_ok_iff.mp h
  cases h
  rw [argumentBase, Outcome.unwrap_ok_iff.mp hel]
  rfl

theorem environmentKvFormat_ok {s : SoftwareData} {material : String}
    {kv : String × FormatFill (Option String)} (h : environmentKvFormat s material = .ok kv) :
    kv = (environmentKey s material, environmentBase s material) := by
  obtain ⟨el, hel, h⟩ := Outcome.bind_ok_iff.mp h
  cases h
  rw [environmentKey, environmentBase, Outcome.unwrap_ok_iff.mp hel]
  rfl

structure Reads (s : SoftwareData) (p : Mounting (Option String) StdInKind FileInfo) : Prop where
  argumentFormat : p.argumentFormat = argumentFormat s
  environmentKvFormat : p.environmentKvFormat = environmentKvFormat s

theorem slotMounting_reads (s : SoftwareData) (inContent : Option InContent) (slot : InputSlot) :
    Reads s (slotMounting s inContent slot) := ⟨rfl, rfl⟩

theorem templateMounting_reads (s : SoftwareData) (filledResult value : String)
    (stdIn : StdInKind) : Reads s (templateMounting s filledResult value stdIn) := ⟨rfl, rfl⟩

theorem refWrites_cases {s : SoftwareData} {p : Mounting (Option String) StdInKind FileInfo}
    (hp : Reads s p) {ref : FileRef} {w : DraftWrites} (h : refWrites p ref = .ok w) :
    (∃ material placeholderNth sort, ref = .argRef material placeholderNth sort ∧
      w = { arguments := [⟨sort, material, argumentBase s material,
        some (placeholderNth, p.value)⟩] }) ∨
    (∃ material placeholderNth, ref = .envRef material placeholderNth ∧
      w = { environments := [⟨environmentKey s material, material, environmentBase s material,
        some (placeholderNth, p.value)⟩] }) ∨
    (∃ stdIn, ref = .stdIn ∧ p.stdIn = .ok stdIn ∧ w = { stdIn := some stdIn }) ∨
    (∃ material files, ref = .fileInputRef material ∧ p.fileInput material = .ok files ∧
      w = { files := files }) ∨
    ∃ descriptor refKeys, ref = .templateRef descriptor refKeys ∧
      w = { templates := [(p.value, descriptor, refKeys)] } := by
  cases ref with
  | argRef material placeholderNth sort =>
    obtain ⟨format, hformat, h⟩ := Outcome.bind_ok_iff.mp h
    rw [hp.argumentFormat] at hformat
    cases argumentFormat_ok hformat
    cases h
    exact .inl ⟨material, placeholderNth, sort, rfl, rfl⟩
  | envRef material placeholderNth =>
    obtain ⟨kv, hkv, h⟩ := Outcome.bind_ok_iff.mp h
    rw [hp.environmentKvFormat] at hkv
    cases environmentKvFormat_ok hkv
    cases h
    exact .inr (.inl ⟨material, placeholderNth, rfl, rfl⟩)
  | stdIn =>
    obtain ⟨stdIn, hstdIn, h⟩ := Outcome.bind_ok_iff.mp h
    cases h
    exact .inr (.inr (.inl ⟨stdIn, rfl, hstdIn, rfl⟩))
  | fileInputRef material =>
    obtain ⟨files, hfiles, h⟩ := Outcome.bind_ok_iff.mp h
    cases h
    exact .inr (.inr (.inr (.inl ⟨material, files, rfl, hfiles, rfl⟩)))
  | templateRef descriptor refKeys =>
    obtain ⟨_, -, h⟩ := Outcome.bind_ok_iff.mp h
    cases h
    exact .inr (.inr (.inr (.inr ⟨descriptor, refKeys, rfl, rfl⟩)))

-- `P` holds of what is written exactly where `Q` holds of the mount, `F` and `E` of the flag.
structure Tracks (s : SoftwareData) (P : DraftWrites → Prop) (Q : FileRef → Prop)
    (F : String × Nat → Prop) (E : String → Prop) : Prop where
  ref : ∀ p, Reads s p → ∀ ref w, refWrites p ref = .ok w → (P w ↔ Q ref)
  file : ∀ files, ¬ P { files := files }
  flag : ∀ material sort,
    P { arguments := [⟨sort, material, argumentBase s material, none⟩] } ↔ F (material, sort)
  environment : ∀ material, P { environments :=
    [⟨environmentKey s material, material, environmentBase s material, none⟩] } ↔ E material

theorem exists_mem_flatten {α : Type} {P : α → Prop} {ls : List (List α)} :
    (∃ a ∈ ls.flatten, P a) ↔ ∃ l ∈ ls, ∃ a ∈ l, P a := by
  constructor
  · rintro ⟨a, ha, hP⟩
    obtain ⟨l, hl, ha⟩ := List.mem_flatten.mp ha
    exact ⟨l, hl, a, ha, hP⟩
  · rintro ⟨l, hl, a, ha, hP⟩
    exact ⟨a, List.mem_flatten.mpr ⟨l, hl, ha⟩, hP⟩

namespace Tracks

variable {s : SoftwareData} {P : DraftWrites → Prop} {Q : FileRef → Prop}
  {F : String × Nat → Prop} {E : String → Prop} {services : Services} {nodeSpec : NodeSpec}
  {orders : ParseOrders} {u : SoftwareComputingUsecase} {ws : List DraftWrites}

theorem refs (h : Tracks s P Q F E) {p : Mounting (Option String) StdInKind FileInfo}
    (hp : Reads s p) {refs : List FileRef} (hws : Outcome.mapEach (refWrites p) refs = .ok ws) :
    (∃ w ∈ ws, P w) ↔ ∃ ref ∈ refs, Q ref :=
  Outcome.mapEach_exists (fun ref _ w => h.ref p hp ref w) hws

theorem slot (h : Tracks s P Q F E) {slot : InputSlot}
    (hws : slotWrites services nodeSpec s slot = .ok ws) :
    (∃ w ∈ ws, P w) ↔ ∃ ref ∈ slot.refs, Q ref := by
  obtain ⟨inContent, -, hws⟩ := Outcome.bind_ok_iff.mp hws
  obtain ⟨ws', hws', hws⟩ := Outcome.bind_ok_iff.mp hws
  cases hws
  rw [List.exists_mem_cons_iff, or_iff_right (h.file _),
    h.refs (slotMounting_reads s inContent slot) hws']

theorem template (h : Tracks u.softwareData P Q F E)
    {template : String × HashMap String (Option String)}
    (hws : templateWrites services u template = .ok ws) :
    (∃ w ∈ ws, P w) ↔
      ∃ t, u.usecaseData.templateFile template.1 = some t ∧ ∃ ref ∈ t.refs, Q ref := by
  obtain ⟨t, ht, hws⟩ := Outcome.bind_ok_iff.mp hws
  obtain ⟨info, -, hws⟩ := Outcome.bind_ok_iff.mp hws
  obtain ⟨filledResult, -, hws⟩ := Outcome.bind_ok_iff.mp hws
  obtain ⟨ws₁, hws₁, hws⟩ := Outcome.bind_ok_iff.mp hws
  obtain ⟨ws₂, hws₂, hws⟩ := Outcome.bind_ok_iff.mp hws
  cases hws
  have hcontent := h.refs (templateMounting_reads _ _ _ _) hws₁
  have hname := h.refs (templateMounting_reads _ _ _ _) hws₂
  have ht := Outcome.unwrap_ok_iff.mp ht
  have hboth : (∃ w ∈ ws₁ ++ ownFile t info.fileName filledResult :: ws₂, P w) ↔
      ∃ ref ∈ t.refs, Q ref := by
    have hown : ¬ P (ownFile t info.fileName filledResult) := h.file _
    simp only [TemplateFile.refs, List.mem_append, or_and_right, exists_or]
    rw [List.exists_mem_cons_iff, or_iff_right hown, hcontent, hname]
  rw [hboth]
  constructor
  · exact fun href => ⟨t, ht, href⟩
  · rintro ⟨t', ht', href⟩
    cases ht.symm.trans ht'
    exact href

theorem flags (h : Tracks s P Q F E) {flags : List (String × Nat)}
    {wss : List (List DraftWrites)} (hws : Outcome.mapEach (flagWrites s) flags = .ok wss) :
    (∃ w ∈ wss.flatten, P w) ↔ ∃ flag ∈ flags, F flag := by
  rw [exists_mem_flatten]
  refine Outcome.mapEach_exists (fun flag _ ws hflag => ?_) hws
  obtain ⟨format, hformat, hflag⟩ := Outcome.bind_ok_iff.mp hflag
  cases argumentFormat_ok hformat
  cases hflag
  simp only [List.mem_singleton, exists_eq_left]
  exact h.flag flag.1 flag.2

theorem flagEnvironments (h : Tracks s P Q F E) {materials : List String}
    {wss : List (List DraftWrites)}
    (hws : Outcome.mapEach (flagEnvironmentWrites s) materials = .ok wss) :
    (∃ w ∈ wss.flatten, P w) ↔ ∃ material ∈ materials, E material := by
  rw [exists_mem_flatten]
  refine Outcome.mapEach_exists (fun material _ ws hflag => ?_) hws
  obtain ⟨kv, hkv, hflag⟩ := Outcome.bind_ok_iff.mp hflag
  cases environmentKvFormat_ok hkv
  cases hflag
  simp only [List.mem_singleton, exists_eq_left]
  exact h.environment material

theorem slots (h : Tracks s P Q F E) {slots : List InputSlot} {wss : List (List DraftWrites)}
    (hws : Outcome.mapEach (slotWrites services nodeSpec s) slots = .ok wss) :
    (∃ w ∈ wss.flatten, P w) ↔ ∃ slot ∈ slots, ∃ ref ∈ slot.refs, Q ref := by
  rw [exists_mem_flatten]
  exact Outcome.mapEach_exists (fun slot _ ws hslot => h.slot hslot) hws

theorem beforeTemplates (h : Tracks u.softwareData P Q F E)
    (hws : slotsWrites orders services u nodeSpec = .ok ws) :
    (∃ w ∈ ws, P w) ↔ (∃ material sort,
        u.usecaseData.spec.flagArguments.get material = some sort ∧ F (material, sort)) ∨
      (∃ material ∈ u.usecaseData.spec.flagEnvironments, E material) ∨
      ∃ slot ∈ u.usecaseData.spec.inputSlots, ∃ ref ∈ slot.refs, Q ref := by
  obtain ⟨flags, hflags, hws⟩ := Outcome.bind_ok_iff.mp hws
  obtain ⟨envs, henvs, hws⟩ := Outcome.bind_ok_iff.mp hws
  obtain ⟨slots, hslots, hws⟩ := Outcome.bind_ok_iff.mp hws
  cases hws
  simp only [List.mem_append, or_and_right, exists_or]
  rw [h.flags hflags, h.flagEnvironments henvs, h.slots hslots]
  refine or_congr_left ⟨?_, ?_⟩
  · rintro ⟨⟨material, sort⟩, hmem, hF⟩
    exact ⟨material, sort, HashMap.mem_iter_iff.mp hmem, hF⟩
  · rintro ⟨material, sort, hget, hF⟩
    exact ⟨(material, sort), HashMap.mem_iter_iff.mpr hget, hF⟩

end Tracks

theorem tracks_templates (s : SoftwareData) (descriptor : String) :
    Tracks s (fun w => ∃ t ∈ w.templates, t.2.1 = descriptor ∧ t.2.2 ≠ [])
      (FileRef.Mounts descriptor) (fun _ => False) (fun _ => False) where
  ref p hp ref w hw := by
    obtain ⟨_, _, _, rfl, rfl⟩ | ⟨_, _, rfl, rfl⟩ | ⟨_, rfl, -, rfl⟩ | ⟨_, _, rfl, -, rfl⟩ |
      ⟨descriptor', refKeys, rfl, rfl⟩ := refWrites_cases hp hw
    · simp [FileRef.Mounts]
    · simp [FileRef.Mounts]
    · simp [FileRef.Mounts]
    · simp [FileRef.Mounts]
    · simp [FileRef.Mounts, and_comm]
  file files := by simp
  flag material sort := by simp
  environment material := by simp

theorem tracks_arguments (s : SoftwareData) (material : String) (sort : Nat) :
    Tracks s (fun w => ∃ r ∈ w.arguments, r.material = material ∧ r.key = sort)
      (fun ref => ∃ placeholderNth, ref = .argRef material placeholderNth sort)
      (fun flag => flag = (material, sort)) (fun _ => False) where
  ref p hp ref w hw := by
    obtain ⟨_, _, _, rfl, rfl⟩ | ⟨_, _, rfl, rfl⟩ | ⟨_, rfl, -, rfl⟩ | ⟨_, _, rfl, -, rfl⟩ |
      ⟨_, _, rfl, rfl⟩ := refWrites_cases hp hw
    · simp
    · simp
    · simp
    · simp
    · simp
  file files := by simp
  flag material' sort' := by simp
  environment material' := by simp

theorem tracks_environments (s : SoftwareData) (material : String) :
    Tracks s (fun w => ∃ r ∈ w.environments, r.material = material)
      (fun ref => ∃ placeholderNth, ref = .envRef material placeholderNth)
      (fun _ => False) (fun material' => material' = material) where
  ref p hp ref w hw := by
    obtain ⟨_, _, _, rfl, rfl⟩ | ⟨_, _, rfl, rfl⟩ | ⟨_, rfl, -, rfl⟩ | ⟨_, _, rfl, -, rfl⟩ |
      ⟨_, _, rfl, rfl⟩ := refWrites_cases hp hw
    · simp
    · simp
    · simp
    · simp
    · simp
  file files := by simp
  flag material' sort' := by simp
  environment material' := by simp

-- The format of an entry is that of its material.
structure Conforms (s : SoftwareData) (w : DraftWrites) : Prop where
  arguments : ∀ r ∈ w.arguments, r.format = argumentBase s r.material
  environments : ∀ r ∈ w.environments,
    r.format = environmentBase s r.material ∧ r.key = environmentKey s r.material

theorem tracks_conforms (s : SoftwareData) :
    Tracks s (fun w => ¬ Conforms s w) (fun _ => False) (fun _ => False) (fun _ => False) where
  ref p hp ref w hw := by
    refine iff_of_false (not_not.mpr ?_) id
    obtain ⟨_, _, _, rfl, rfl⟩ | ⟨_, _, rfl, rfl⟩ | ⟨_, rfl, -, rfl⟩ | ⟨_, _, rfl, -, rfl⟩ |
      ⟨_, _, rfl, rfl⟩ := refWrites_cases hp hw
    · exact ⟨by simp, by simp⟩
    · exact ⟨by simp, by simp⟩
    · exact ⟨by simp, by simp⟩
    · exact ⟨by simp, by simp⟩
    · exact ⟨by simp, by simp⟩
  file files := not_not.mpr ⟨by simp, by simp⟩
  flag material sort := iff_of_false (not_not.mpr ⟨by simp, by simp⟩) id
  environment material := iff_of_false (not_not.mpr ⟨by simp, by simp⟩) id

theorem mem_keys_onEach {V S F : Type} {ws : List (Writes V S F)} {g : Gathered V S F}
    {descriptor : String} : descriptor ∈ Assoc.keys (Writes.onEach ws g).templatesKv.entries ↔
      descriptor ∈ Assoc.keys g.templatesKv.entries ∨
        ∃ w ∈ ws, ∃ t ∈ w.templates, t.2.1 = descriptor ∧ t.2.2 ≠ [] := by
  have hone : ∀ (l : List (V × String × List String)) (m : HashMap String (HashMap String V)),
      descriptor ∈ Assoc.keys (l.foldl (fun m t => insertKeys t.1 t.2.1 t.2.2 m) m).entries ↔
        descriptor ∈ Assoc.keys m.entries ∨ ∃ t ∈ l, t.2.1 = descriptor ∧ t.2.2 ≠ [] := by
    intro l
    induction l with
    | nil => simp
    | cons t l ih =>
      intro m
      rw [List.foldl_cons, ih, mem_keys_insertKeys, or_assoc, List.exists_mem_cons_iff,
        eq_comm (a := descriptor)]
  induction ws generalizing g with
  | nil => exact ⟨.inl, fun h => h.resolve_right fun ⟨_, hw, _⟩ => absurd hw List.not_mem_nil⟩
  | cons w ws ih =>
    rw [Writes.onEach_cons]
    refine ih.trans ?_
    rw [Writes.on, hone, or_assoc, List.exists_mem_cons_iff]

section Gathering

variable {orders : ParseOrders} {services : Services} {u : SoftwareComputingUsecase}
  {nodeSpec : NodeSpec} {ws : List DraftWrites}

theorem templates_used (hws : slotsWrites orders services u nodeSpec = .ok ws)
    (descriptor : String) : descriptor ∈ Assoc.keys (Writes.onEach ws initial).templatesKv.entries ↔
      u.usecaseData.Uses descriptor := by
  have hnil : descriptor ∉ Assoc.keys initial.templatesKv.entries := List.not_mem_nil
  rw [mem_keys_onEach, or_iff_right hnil,
    (tracks_templates u.softwareData descriptor).beforeTemplates hws]
  simp only [and_false, exists_false, false_or]
  rfl

theorem Tracks.gather {P : DraftWrites → Prop} {Q : FileRef → Prop} {F : String × Nat → Prop}
    {E : String → Prop} (h : Tracks u.softwareData P Q F E)
    (hws : gatherWrites orders services u nodeSpec = .ok ws) :
    (∃ w ∈ ws, P w) ↔ (∃ material sort,
        u.usecaseData.spec.flagArguments.get material = some sort ∧ F (material, sort)) ∨
      (∃ material ∈ u.usecaseData.spec.flagEnvironments, E material) ∨
      ∃ ref, u.usecaseData.Mounted ref ∧ Q ref := by
  obtain ⟨before, hbefore, hws⟩ := Outcome.bind_ok_iff.mp hws
  obtain ⟨templates, htemplates, hws⟩ := Outcome.bind_ok_iff.mp hws
  cases hws
  simp only [List.mem_append, or_and_right, exists_or]
  rw [h.beforeTemplates hbefore, exists_mem_flatten,
    Outcome.mapEach_exists (fun _ _ _ ht => h.template ht) htemplates, or_assoc, or_assoc]
  refine or_congr_right (or_congr_right ⟨?_, ?_⟩)
  · rintro (⟨slot, hslot, ref, href, hQ⟩ | ⟨⟨descriptor, kv⟩, hmem, t, ht, ref, href, hQ⟩)
    · exact ⟨ref, .inl ⟨slot, hslot, href⟩, hQ⟩
    · have hkey := HashMap.mem_keys_iter.mp (Assoc.mem_keys_of_mem hmem)
      exact ⟨ref, .inr ⟨descriptor, t, (templates_used hbefore descriptor).mp hkey, ht, href⟩, hQ⟩
  · rintro ⟨ref, ⟨slot, hslot, href⟩ | ⟨descriptor, t, huses, ht, href⟩, hQ⟩
    · exact .inl ⟨slot, hslot, ref, href, hQ⟩
    · have hkey := HashMap.mem_keys_iter (o := orders.templates).mpr
        ((templates_used hbefore descriptor).mpr huses)
      obtain ⟨e, he, rfl⟩ := List.mem_map.mp hkey
      exact .inr ⟨e, he, t, ht, ref, href, hQ⟩

theorem references_arguments (hws : gatherWrites orders services u nodeSpec = .ok ws)
    (material : String) (sort : Nat) :
    (∃ r ∈ ws.flatMap Writes.arguments, r.material = material ∧ r.key = sort) ↔
      u.usecaseData.ReferencesArgument material sort := by
  rw [List.flatMap, exists_mem_flatten]
  simp only [List.mem_map, exists_exists_and_eq_and]
  rw [(tracks_arguments u.softwareData material sort).gather hws]
  simp only [and_false, exists_false, false_or, UsecaseData.ReferencesArgument, Prod.mk.injEq]
  refine or_congr ⟨?_, ?_⟩ ⟨?_, ?_⟩
  · rintro ⟨_, _, hget, rfl, rfl⟩
    exact hget
  · exact fun hget => ⟨material, sort, hget, rfl, rfl⟩
  · rintro ⟨_, hmounted, nth, rfl⟩
    exact ⟨nth, hmounted⟩
  · rintro ⟨nth, hmounted⟩
    exact ⟨_, hmounted, nth, rfl⟩

theorem references_environments (hws : gatherWrites orders services u nodeSpec = .ok ws)
    (material : String) :
    (∃ r ∈ ws.flatMap Writes.environments, r.material = material) ↔
      u.usecaseData.ReferencesEnvironment material := by
  rw [List.flatMap, exists_mem_flatten]
  simp only [List.mem_map, exists_exists_and_eq_and]
  rw [(tracks_environments u.softwareData material).gather hws]
  simp only [and_false, exists_false, false_or, UsecaseData.ReferencesEnvironment, exists_eq_right]
  refine or_congr_right ⟨?_, ?_⟩
  · rintro ⟨_, hmounted, nth, rfl⟩
    exact ⟨nth, hmounted⟩
  · rintro ⟨nth, hmounted⟩
    exact ⟨_, hmounted, nth, rfl⟩

theorem conforms (hws : gatherWrites orders services u nodeSpec = .ok ws) {w : DraftWrites}
    (hw : w ∈ ws) : Conforms u.softwareData w := by
  by_contra hnot
  have hex := ((tracks_conforms u.softwareData).gather hws).mp ⟨w, hw, hnot⟩
  simp at hex

end Gathering

end ParseTask

end Package

end Kuintessence
