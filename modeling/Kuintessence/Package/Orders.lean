import Kuintessence.Lib.Commute
import Kuintessence.Package.References
import Kuintessence.Package.Validation

namespace Kuintessence

namespace Package

theorem Reference.step_step {κ V : Type} {r r' : Reference κ V}
    (h : ∀ n v n' v', r.fill = some (n, v) → r'.fill = some (n', v') → n ≠ n')
    (f : FormatFill V) :
    (Reference.grouping κ V).step r ((Reference.grouping κ V).step r' f) =
      (Reference.grouping κ V).step r' ((Reference.grouping κ V).step r f) := by
  obtain ⟨key, material, format, fill⟩ := r
  obtain ⟨key', material', format', fill'⟩ := r'
  cases fill with
  | none => rfl
  | some x =>
    cases fill' with
    | none => rfl
    | some x' =>
      have hne : x'.1 ≠ x.1 := (h x.1 x.2 x'.1 x'.2 rfl rfl).symm
      have hinsert := HashMap.insert_insert f.placeholderFillMap hne x'.2 x.2
      exact congrArg (FormatFill.mk f.format) hinsert

namespace Writes

variable {V S F : Type}

-- The two can be done in either order.
structure Apart (g : Gathered V S F) (ws ws' : List (Writes V S F)) : Prop where
  arguments : ∀ r ∈ ws.flatMap Writes.arguments, ∀ r' ∈ ws'.flatMap Writes.arguments,
    (Reference.grouping Nat V).Apart g.argumentFormatsSorts r r'
  environments : ∀ r ∈ ws.flatMap Writes.environments, ∀ r' ∈ ws'.flatMap Writes.environments,
    (Reference.grouping String V).Apart g.environmentFormats r r'
  files : ws.flatMap Writes.files = [] ∨ ws'.flatMap Writes.files = []
  stdIn : ws.filterMap Writes.stdIn = [] ∨ ws'.filterMap Writes.stdIn = []
  templates : ws.flatMap Writes.templates = [] ∨ ws'.flatMap Writes.templates = []

theorem Apart.onEach_onEach {g : Gathered V S F} {ws ws' : List (Writes V S F)}
    (h : Apart g ws ws') : onEach ws' (onEach ws g) = onEach ws (onEach ws' g) := by
  have harguments : (onEach ws' (onEach ws g)).argumentFormatsSorts =
      (onEach ws (onEach ws' g)).argumentFormatsSorts := by
    simp only [onEach_arguments]
    exact Grouping.gather_gather h.arguments
  have henvironments : (onEach ws' (onEach ws g)).environmentFormats =
      (onEach ws (onEach ws' g)).environmentFormats := by
    simp only [onEach_environments]
    exact Grouping.gather_gather h.environments
  have hfiles : (onEach ws' (onEach ws g)).files = (onEach ws (onEach ws' g)).files := by
    simp only [onEach_files]
    obtain hnil | hnil := h.files
    · rw [hnil, List.append_nil, List.append_nil]
    · rw [hnil, List.append_nil, List.append_nil]
  have hstdIn : (onEach ws' (onEach ws g)).stdIn = (onEach ws (onEach ws' g)).stdIn := by
    simp only [onEach_stdIn]
    obtain hnil | hnil := h.stdIn
    · rw [hnil]
      rfl
    · rw [hnil]
      rfl
  have htemplates : (onEach ws' (onEach ws g)).templatesKv =
      (onEach ws (onEach ws' g)).templatesKv := by
    simp only [onEach_templates]
    obtain hnil | hnil := h.templates
    · rw [hnil]
      rfl
    · rw [hnil]
      rfl
  revert harguments henvironments hfiles hstdIn htemplates
  cases onEach ws' (onEach ws g)
  cases onEach ws (onEach ws' g)
  rintro rfl rfl rfl rfl rfl
  rfl

end Writes

namespace SoftwareComputingUsecase

variable (u : SoftwareComputingUsecase)

def SortTaken (sort : Nat) : Prop :=
  (∃ material, u.usecaseData.spec.flagArguments.get material = some sort) ∨
    ∃ slot ∈ u.usecaseData.spec.inputSlots, ∃ material placeholderNth,
      .argRef material placeholderNth sort ∈ slot.refs

def KeyTaken (key : String) : Prop :=
  (∃ material ∈ u.usecaseData.spec.flagEnvironments,
    ParseTask.environmentKey u.softwareData material = key) ∨
    ∃ slot ∈ u.usecaseData.spec.inputSlots, ∃ material placeholderNth,
      .envRef material placeholderNth ∈ slot.refs ∧
        ParseTask.environmentKey u.softwareData material = key

-- No place is filled by both templates, and none is set up by the one that comes first.
structure TemplatesApart (t t' : TemplateFile) : Prop where
  arguments : ∀ material placeholderNth material' placeholderNth' sort,
    .argRef material placeholderNth sort ∈ t.refs →
    .argRef material' placeholderNth' sort ∈ t'.refs → placeholderNth ≠ placeholderNth' ∧
      (ParseTask.argumentBase u.softwareData material =
        ParseTask.argumentBase u.softwareData material' ∨ u.SortTaken sort)
  environments : ∀ material placeholderNth material' placeholderNth',
    .envRef material placeholderNth ∈ t.refs → .envRef material' placeholderNth' ∈ t'.refs →
    ParseTask.environmentKey u.softwareData material =
      ParseTask.environmentKey u.softwareData material' → placeholderNth ≠ placeholderNth' ∧
      (ParseTask.environmentBase u.softwareData material =
        ParseTask.environmentBase u.softwareData material' ∨
        u.KeyTaken (ParseTask.environmentKey u.softwareData material))
  files : t.asFileName = [] ∨ t'.asFileName = []
  stdIn : .stdIn ∉ t.refs ∨ .stdIn ∉ t'.refs

theorem TemplatesApart.symm {u : SoftwareComputingUsecase} {t t' : TemplateFile}
    (h : u.TemplatesApart t t') : u.TemplatesApart t' t where
  arguments material n material' n' sort href href' := by
    obtain ⟨hne, hbase⟩ := h.arguments material' n' material n sort href' href
    exact ⟨hne.symm, hbase.imp_left Eq.symm⟩
  environments material n material' n' href href' hkey := by
    obtain ⟨hne, hbase⟩ := h.environments material' n' material n href' href hkey.symm
    rw [hkey]
    exact ⟨hne.symm, hbase.imp_left Eq.symm⟩
  files := h.files.symm
  stdIn := h.stdIn.symm

structure OrderFree : Prop where
  flags : ∀ material material' sort, u.usecaseData.spec.flagArguments.get material = some sort →
    u.usecaseData.spec.flagArguments.get material' = some sort →
    ParseTask.argumentBase u.softwareData material = ParseTask.argumentBase u.softwareData material'
  templates : ∀ descriptor descriptor' t t', u.usecaseData.Uses descriptor →
    u.usecaseData.Uses descriptor' → descriptor ≠ descriptor' →
    u.usecaseData.templateFile descriptor = some t →
    u.usecaseData.templateFile descriptor' = some t' → u.TemplatesApart t t'

end SoftwareComputingUsecase

namespace ParseTask

-- What the writes of a template come from.
structure WrittenBy (s : SoftwareData) (t : TemplateFile) (w : DraftWrites) : Prop where
  arguments : ∀ r ∈ w.arguments, r.format = argumentBase s r.material ∧
    ∃ placeholderNth value, r.fill = some (placeholderNth, value) ∧
      .argRef r.material placeholderNth r.key ∈ t.refs
  environments : ∀ r ∈ w.environments, r.format = environmentBase s r.material ∧
    r.key = environmentKey s r.material ∧ ∃ placeholderNth value,
      r.fill = some (placeholderNth, value) ∧ .envRef r.material placeholderNth ∈ t.refs
  files : t.asFileName = [] → w.files = []
  stdIn : .stdIn ∉ t.refs → w.stdIn = none
  templates : w.templates = []

theorem fileInput_refs {t : TemplateFile} {descriptor : String}
    (h : .fileInputRef descriptor ∈ t.refs) : t.asFileName ≠ [] := by
  obtain h | h := List.mem_append.mp h
  · obtain ⟨ref, -, href⟩ := List.mem_map.mp h
    cases ref with
    | argRef _ _ _ => cases href
    | envRef _ _ => cases href
    | stdIn => cases href
    | templateRef _ _ => cases href
  · exact List.ne_nil_of_mem h

theorem refWrites_written {s : SoftwareData} {t : TemplateFile} {filledResult value : String}
    {stdIn : StdInKind} {ref : FileRef} {w : DraftWrites} (href : ref ∈ t.refs)
    (h : refWrites (templateMounting s filledResult value stdIn) ref = .ok w) :
    WrittenBy s t w := by
  obtain ⟨material, placeholderNth, sort, rfl, rfl⟩ | ⟨material, placeholderNth, rfl, rfl⟩ |
    ⟨_, rfl, -, rfl⟩ | ⟨_, _, rfl, -, rfl⟩ | ⟨_, _, rfl, -⟩ :=
    refWrites_cases (templateMounting_reads s filledResult value stdIn) h
  · refine ⟨fun r hr => ?_, nofun, fun _ => rfl, fun _ => rfl, rfl⟩
    cases List.mem_singleton.mp hr
    exact ⟨rfl, placeholderNth, some value, rfl, href⟩
  · refine ⟨nofun, fun r hr => ?_, fun _ => rfl, fun _ => rfl, rfl⟩
    cases List.mem_singleton.mp hr
    exact ⟨rfl, rfl, placeholderNth, some value, rfl, href⟩
  · exact ⟨nofun, nofun, fun _ => rfl, fun hnot => absurd href hnot, rfl⟩
  · exact ⟨nofun, nofun, fun hnil => absurd hnil (fileInput_refs href), fun _ => rfl, rfl⟩
  · cases h

theorem ownFile_written (s : SoftwareData) (t : TemplateFile) (fileName filledResult : String) :
    WrittenBy s t (ownFile t fileName filledResult) := by
  refine ⟨nofun, nofun, fun hnil => ?_, fun _ => rfl, rfl⟩
  rw [ownFile, TemplateFile.writesFile, hnil]
  rfl

theorem templateWrites_written {services : Services} {u : SoftwareComputingUsecase}
    {template : String × HashMap String (Option String)} {ws : List DraftWrites}
    (h : templateWrites services u template = .ok ws) :
    ∃ t, u.usecaseData.templateFile template.1 = some t ∧
      ∀ w ∈ ws, WrittenBy u.softwareData t w := by
  obtain ⟨t, ht, h⟩ := Outcome.bind_ok_iff.mp h
  obtain ⟨info, -, h⟩ := Outcome.bind_ok_iff.mp h
  obtain ⟨filledResult, -, h⟩ := Outcome.bind_ok_iff.mp h
  obtain ⟨ws₁, hws₁, h⟩ := Outcome.bind_ok_iff.mp h
  obtain ⟨ws₂, hws₂, h⟩ := Outcome.bind_ok_iff.mp h
  cases h
  refine ⟨t, Outcome.unwrap_ok_iff.mp ht, fun w hw => ?_⟩
  obtain hw | hw := List.mem_append.mp hw
  · obtain ⟨ref, href, hw⟩ := Outcome.mapEach_mem hws₁ hw
    exact refWrites_written (List.mem_append_left _ href) hw
  · obtain rfl | hw := List.mem_cons.mp hw
    · exact ownFile_written _ t info.fileName filledResult
    · obtain ⟨ref, href, hw⟩ := Outcome.mapEach_mem hws₂ hw
      exact refWrites_written (List.mem_append_right _ href) hw

section Same

variable {services : Services} {u : SoftwareComputingUsecase} {nodeSpec : NodeSpec}

-- The places that are taken before the templates are there.
structure SetUp (u : SoftwareComputingUsecase) (g : Draft) : Prop where
  arguments : ∀ sort, u.SortTaken sort → sort ∈ Assoc.keys g.argumentFormatsSorts.entries
  environments : ∀ key, u.KeyTaken key → key ∈ Assoc.keys g.environmentFormats.entries

theorem SetUp.onEach {g : Draft} (h : SetUp u g) (ws : List DraftWrites) :
    SetUp u (Writes.onEach ws g) where
  arguments sort hsort := by
    rw [Writes.onEach_arguments]
    exact (Grouping.mem_keys_gather sort).mpr (.inl (h.arguments sort hsort))
  environments key hkey := by
    rw [Writes.onEach_environments]
    exact (Grouping.mem_keys_gather key).mpr (.inl (h.environments key hkey))

theorem slotsWrites_setUp {orders : ParseOrders} {ws : List DraftWrites}
    (h : slotsWrites orders services u nodeSpec = .ok ws) :
    SetUp u (Writes.onEach ws initial) where
  arguments sort hsort := by
    have hreferenced : ∃ material, ∃ w ∈ ws, ∃ r ∈ w.arguments,
        r.material = material ∧ r.key = sort := by
      obtain ⟨material, hget⟩ | ⟨slot, hslot, material, placeholderNth, href⟩ := hsort
      · exact ⟨material, ((tracks_arguments u.softwareData material sort).beforeTemplates h).mpr
          (.inl ⟨material, sort, hget, rfl⟩)⟩
      · exact ⟨material, ((tracks_arguments u.softwareData material sort).beforeTemplates h).mpr
          (.inr (.inr ⟨slot, hslot, _, href, placeholderNth, rfl⟩))⟩
    obtain ⟨material, w, hw, r, hr, -, hkey⟩ := hreferenced
    rw [Writes.onEach_arguments]
    exact (Grouping.mem_keys_gather sort).mpr
      (.inr ⟨r, List.mem_flatMap.mpr ⟨w, hw, hr⟩, hkey⟩)
  environments key hkey := by
    have hreferenced : ∃ material, environmentKey u.softwareData material = key ∧
        ∃ w ∈ ws, ∃ r ∈ w.environments, r.material = material := by
      obtain ⟨material, hflag, hkey⟩ | ⟨slot, hslot, material, placeholderNth, href, hkey⟩ := hkey
      · exact ⟨material, hkey,
          ((tracks_environments u.softwareData material).beforeTemplates h).mpr
            (.inr (.inl ⟨material, hflag, rfl⟩))⟩
      · exact ⟨material, hkey,
          ((tracks_environments u.softwareData material).beforeTemplates h).mpr
            (.inr (.inr ⟨slot, hslot, _, href, placeholderNth, rfl⟩))⟩
    obtain ⟨material, hkey, w, hw, r, hr, hmaterial⟩ := hreferenced
    have hconforms : Conforms u.softwareData w := by
      by_contra hnot
      obtain ⟨_, _, _, hfalse⟩ | ⟨_, _, hfalse⟩ | ⟨_, _, _, _, hfalse⟩ :=
        ((tracks_conforms u.softwareData).beforeTemplates h).mp ⟨w, hw, hnot⟩
      · exact hfalse
      · exact hfalse
      · exact hfalse
    have hr' := (hconforms.environments r hr).2
    rw [hmaterial, hkey] at hr'
    rw [Writes.onEach_environments]
    exact (Grouping.mem_keys_gather key).mpr
      (.inr ⟨r, List.mem_flatMap.mpr ⟨w, hw, hr⟩, hr'⟩)

theorem written_apart {g : Draft} {t t' : TemplateFile} {ws ws' : List DraftWrites}
    (hg : SetUp u g) (ht : u.TemplatesApart t t') (h : ∀ w ∈ ws, WrittenBy u.softwareData t w)
    (h' : ∀ w ∈ ws', WrittenBy u.softwareData t' w) : Writes.Apart g ws ws' where
  arguments r hr r' hr' hkey := by
    obtain ⟨w, hw, hr⟩ := List.mem_flatMap.mp hr
    obtain ⟨w', hw', hr'⟩ := List.mem_flatMap.mp hr'
    obtain ⟨hformat, n, v, hfill, href⟩ := (h w hw).arguments r hr
    obtain ⟨hformat', n', v', hfill', href'⟩ := (h' w' hw').arguments r' hr'
    have hkey : r.key = r'.key := hkey
    rw [← hkey] at href'
    obtain ⟨hne, hbase⟩ := ht.arguments _ n _ n' _ href href'
    refine ⟨?_, Reference.step_step fun m x m' x' hx hx' => ?_⟩
    · obtain hbase | htaken := hbase
      · exact .inl (hformat.trans (hbase.trans hformat'.symm))
      · exact .inr (hg.arguments r.key htaken)
    · cases hfill.symm.trans hx
      cases hfill'.symm.trans hx'
      exact hne
  environments r hr r' hr' hkey := by
    obtain ⟨w, hw, hr⟩ := List.mem_flatMap.mp hr
    obtain ⟨w', hw', hr'⟩ := List.mem_flatMap.mp hr'
    obtain ⟨hformat, hown, n, v, hfill, href⟩ := (h w hw).environments r hr
    obtain ⟨hformat', hown', n', v', hfill', href'⟩ := (h' w' hw').environments r' hr'
    have hkey : r.key = r'.key := hkey
    obtain ⟨hne, hbase⟩ := ht.environments _ n _ n' href href'
      (hown.symm.trans (hkey.trans hown'))
    refine ⟨?_, Reference.step_step fun m x m' x' hx hx' => ?_⟩
    · obtain hbase | htaken := hbase
      · exact .inl (hformat.trans (hbase.trans hformat'.symm))
      · exact .inr (hg.environments r.key (hown ▸ htaken))
    · cases hfill.symm.trans hx
      cases hfill'.symm.trans hx'
      exact hne
  files := by
    refine ht.files.imp (fun hnil => ?_) fun hnil => ?_
    · exact List.flatMap_eq_nil_iff.mpr fun w hw => (h w hw).files hnil
    · exact List.flatMap_eq_nil_iff.mpr fun w hw => (h' w hw).files hnil
  stdIn := by
    refine ht.stdIn.imp (fun hnot => ?_) fun hnot => ?_
    · exact List.filterMap_eq_nil_iff.mpr fun w hw => (h w hw).stdIn hnot
    · exact List.filterMap_eq_nil_iff.mpr fun w hw => (h' w hw).stdIn hnot
  templates := .inl (List.flatMap_eq_nil_iff.mpr fun w hw => (h w hw).templates)

theorem flags_same {s : SoftwareData} {flags flags' : List (String × Nat)}
    {wss : List (List DraftWrites)} (hperm : flags.Perm flags')
    (hfree : ∀ flag ∈ flags, ∀ flag' ∈ flags, flag.2 = flag'.2 →
      argumentBase s flag.1 = argumentBase s flag'.1)
    (h : Outcome.mapEach (flagWrites s) flags = .ok wss) :
    ∃ wss', Outcome.mapEach (flagWrites s) flags' = .ok wss' ∧
      ∀ g, Writes.onEach wss.flatten g = Writes.onEach wss'.flatten g := by
  obtain ⟨wss', h', hperm⟩ := Outcome.mapEach_perm hperm h
  refine ⟨wss', h', fun g => ?_⟩
  have hwritten : ∀ ws ∈ wss, ∃ flag ∈ flags,
      ws = [{ arguments := [⟨flag.2, flag.1, argumentBase s flag.1, none⟩] }] := by
    intro ws hws
    obtain ⟨flag, hflag, hws⟩ := Outcome.mapEach_mem h hws
    obtain ⟨format, hformat, hws⟩ := Outcome.bind_ok_iff.mp hws
    cases argumentFormat_ok hformat
    cases hws
    exact ⟨flag, hflag, rfl⟩
  rw [Writes.onEach_flatten, Writes.onEach_flatten]
  refine foldl_perm (P := fun _ => True) hperm (fun _ _ _ _ => trivial)
    (fun ws hws ws' hws' g _ => ?_) trivial
  obtain ⟨flag, hflag, rfl⟩ := hwritten ws hws
  obtain ⟨flag', hflag', rfl⟩ := hwritten ws' hws'
  refine Writes.Apart.onEach_onEach ⟨fun r hr r' hr' hkey => ?_, nofun, .inl rfl, .inl rfl, .inl rfl⟩
  cases List.mem_singleton.mp hr
  cases List.mem_singleton.mp hr'
  exact ⟨.inl (hfree flag hflag flag' hflag' hkey), fun _ => rfl⟩

variable {orders : ParseOrders} (orders' : ParseOrders)

theorem slots_same (hfree : u.OrderFree) {ws : List DraftWrites}
    (h : slotsWrites orders services u nodeSpec = .ok ws) :
    ∃ ws', slotsWrites orders' services u nodeSpec = .ok ws' ∧
      Writes.onEach ws initial = Writes.onEach ws' initial := by
  obtain ⟨flags, hflags, h⟩ := Outcome.bind_ok_iff.mp h
  have hperm : (u.usecaseData.spec.flagArguments.iter orders.flagArguments).Perm
      (u.usecaseData.spec.flagArguments.iter orders'.flagArguments) :=
    (orders.flagArguments.perm _).trans (orders'.flagArguments.perm _).symm
  obtain ⟨flags', hflags', hsame⟩ := flags_same hperm (fun flag hflag flag' hflag' hsort =>
    hfree.flags flag.1 flag'.1 flag.2 (HashMap.mem_iter_iff.mp hflag)
      (hsort ▸ HashMap.mem_iter_iff.mp hflag')) hflags
  obtain ⟨envs, henvs, h⟩ := Outcome.bind_ok_iff.mp h
  obtain ⟨slots, hslots, h⟩ := Outcome.bind_ok_iff.mp h
  cases h
  refine ⟨flags'.flatten ++ (envs.flatten ++ slots.flatten), ?_, ?_⟩
  · rw [slotsWrites, hflags', henvs, hslots]
    rfl
  · rw [Writes.onEach_append, Writes.onEach_append flags'.flatten, hsame]

theorem templates_same (hfree : u.OrderFree) {g : Draft} (hg : SetUp u g)
    (hused : ∀ descriptor, descriptor ∈ Assoc.keys g.templatesKv.entries →
      u.usecaseData.Uses descriptor) {wss : List (List DraftWrites)}
    (h : Outcome.mapEach (templateWrites services u) (g.templatesKv.iter orders.templates) =
      .ok wss) :
    ∃ wss', Outcome.mapEach (templateWrites services u) (g.templatesKv.iter orders'.templates) =
      .ok wss' ∧ Writes.onEach wss.flatten g = Writes.onEach wss'.flatten g := by
  have hperm : (g.templatesKv.iter orders.templates).Perm (g.templatesKv.iter orders'.templates) :=
    (orders.templates.perm _).trans (orders'.templates.perm _).symm
  obtain ⟨wss', h', hperm⟩ := Outcome.mapEach_perm hperm h
  refine ⟨wss', h', ?_⟩
  rw [Writes.onEach_flatten, Writes.onEach_flatten]
  refine foldl_perm (P := SetUp u) hperm (fun ws _ _ hs => hs.onEach ws)
    (fun ws hws ws' hws' g' hg' => ?_) hg
  obtain ⟨⟨descriptor, kv⟩, hmem, hws⟩ := Outcome.mapEach_mem h hws
  obtain ⟨⟨descriptor', kv'⟩, hmem', hws'⟩ := Outcome.mapEach_mem h hws'
  by_cases hsame : descriptor = descriptor'
  · subst hsame
    have hkv := (HashMap.mem_iter_iff.mp hmem).symm.trans (HashMap.mem_iter_iff.mp hmem')
    cases hkv
    cases hws.symm.trans hws'
    rfl
  · obtain ⟨t, ht, hwritten⟩ := templateWrites_written hws
    obtain ⟨t', ht', hwritten'⟩ := templateWrites_written hws'
    have huses := hused _ (HashMap.mem_keys_iter.mp (Assoc.mem_keys_of_mem hmem))
    have huses' := hused _ (HashMap.mem_keys_iter.mp (Assoc.mem_keys_of_mem hmem'))
    have hapart := hfree.templates _ _ t t' huses huses' hsame ht ht'
    exact (written_apart hg' hapart hwritten hwritten').onEach_onEach

theorem gather_same (hfree : u.OrderFree) {g : Draft}
    (h : gather orders services u nodeSpec = .ok g) : gather orders' services u nodeSpec = .ok g := by
  rw [gather_eq] at h ⊢
  obtain ⟨ws, hws, h⟩ := Outcome.bind_ok_iff.mp h
  cases h
  obtain ⟨before, hbefore, hws⟩ := Outcome.bind_ok_iff.mp hws
  obtain ⟨templates, htemplates, hws⟩ := Outcome.bind_ok_iff.mp hws
  cases hws
  obtain ⟨before', hbefore', hsame⟩ := slots_same orders' hfree hbefore
  obtain ⟨templates', htemplates', hsame'⟩ := templates_same orders' hfree (slotsWrites_setUp hbefore)
    (fun descriptor => (templates_used hbefore descriptor).mp) htemplates
  rw [hsame] at htemplates'
  refine Outcome.bind_ok_iff.mpr ⟨before' ++ templates'.flatten, ?_, ?_⟩
  · exact Outcome.bind_ok_iff.mpr ⟨before', hbefore',
      Outcome.bind_ok_iff.mpr ⟨templates', htemplates', rfl⟩⟩
  · rw [Writes.onEach_append, Writes.onEach_append before, ← hsame, hsame']

theorem filled_same (f : FormatFill (Option String)) (o o' : Order (Nat × Option String)) :
    f.filled o = f.filled o' := by
  rw [FormatFill.filled, FormatFill.filled, HashMap.sortByKey_iter, HashMap.sortByKey_iter]

variable (orders) in
theorem execution_same (overrideRequirements : Option Requirements) (g : Draft)
    (files : List FileInfo) : execution orders u overrideRequirements g files =
      execution orders' u overrideRequirements g files := by
  have hfilled : (fun f : FormatFill (Option String) => f.filled orders.fills) =
      fun f => f.filled orders'.fills := funext fun f => filled_same f _ _
  have harguments : arguments orders g = arguments orders' g := by
    rw [arguments, arguments, HashMap.sortByKey_iter, HashMap.sortByKey_iter]
    exact congrArg (fun fill => g.argumentFormatsSorts.entries.map fun e => fill e.2) hfilled
  have henvironments : environments orders g = environments orders' g := by
    have hentries : (environments orders g).entries = (environments orders' g).entries := by
      rw [environments, environments,
        HashMap.ofList_iter orders.environments _ fun f => f.filled orders.fills,
        HashMap.ofList_iter orders'.environments _ fun f => f.filled orders'.fills]
      exact congrArg (fun fill => g.environmentFormats.entries.map fun e => (e.1, fill e.2)) hfilled
    cases h : environments orders g
    cases h' : environments orders' g
    rw [h, h'] at hentries
    cases hentries
    rfl
  rw [execution, execution, harguments, henvironments]

theorem parseUsecase_same (hfree : u.OrderFree) {overrideRequirements : Option Requirements}
    {task : Task} (h : parseUsecase orders services u nodeSpec overrideRequirements = .ok task) :
    parseUsecase orders' services u nodeSpec overrideRequirements = .ok task := by
  obtain ⟨g, hg, h⟩ := Outcome.bind_ok_iff.mp h
  rw [parseUsecase, gather_same orders' hfree hg, Outcome.ok_bind, ← h]
  simp only [execution_same orders orders']

theorem task_same_iff {overrideRequirements : Option Requirements}
    {usecaseVersionId softwareVersionId : Uuid}
    (hkind : nodeSpec.kind = .softwareUsecaseComputing usecaseVersionId softwareVersionId)
    (hu : services.getComputingUsecase softwareVersionId usecaseVersionId = .ok u)
    (hfree : u.OrderFree) (task : Task) :
    parseTask orders services nodeSpec overrideRequirements = .ok task ↔
      parseTask orders' services nodeSpec overrideRequirements = .ok task := by
  rw [parseTask, parseTask, hkind]
  simp only [hu, Outcome.ok_bind]
  exact ⟨parseUsecase_same orders' hfree, parseUsecase_same orders hfree⟩

end Same

section Twice

-- The first template goes to the standard input, the second one where `refs` say.
def templatesUsecase (refs : List TextRef) : SoftwareComputingUsecase where
  softwareData := ⟨.singularity "image" "tag", [{ descriptor := "a" }], [], [], []⟩
  usecaseData := ⟨{
    commandFile := "run"
    inputSlots := [.text "in" [.templateRef "t" ["k"], .templateRef "v" ["k"]]]
    templateFiles := [{ descriptor := "t", asContent := [.stdIn] },
      { descriptor := "v", asContent := refs }]
    outputSlots := [] }, [], [⟨"t", "first", "t.in"⟩, ⟨"v", "second", "v.in"⟩]⟩

def templatesServices (refs : List TextRef) : Services where
  getComputingUsecase _ _ := .ok (templatesUsecase refs)
  getTextById _ := .ok "x"
  render content _ := .ok content
  softwareBlockList := .ok []
  installedSoftware := .ok []

def templatesNode : NodeSpec :=
  ⟨.softwareUsecaseComputing 1 2, 7, "run", [⟨.text (some (.single 3)), false, "in"⟩], [], .auto, []⟩

def templatesTask (arguments : List String) (stdIn : String) : Task where
  id := 7
  body := [.softwareDeployment (.singularity "image" "tag"), .usecaseExecution
    ⟨"run", .singularity "image" "tag", arguments, .empty, .text stdIn, [], none⟩]
  command := .start

def templatesReversed : ParseOrders := { ParseOrders.asGiven with templates := .reversed _ }

theorem templates_apart : (templatesUsecase [.argRef "a" 0 0]).OrderFree where
  flags _ _ _ h := nomatch h
  templates descriptor descriptor' t t' huses huses' hne ht ht' := by
    have hused : ∀ d, (templatesUsecase [.argRef "a" 0 0]).usecaseData.Uses d →
        d = "t" ∨ d = "v" := by
      rintro d ⟨slot, hslot, ref, href, refKeys, -, rfl⟩
      cases List.mem_singleton.mp hslot
      obtain href | href := List.mem_pair.mp href
      · exact .inl (FileRef.templateRef.inj href).1
      · exact .inr (FileRef.templateRef.inj href).1
    have hapart : (templatesUsecase [.argRef "a" 0 0]).TemplatesApart
        { descriptor := "t", asContent := [.stdIn] }
        { descriptor := "v", asContent := [.argRef "a" 0 0] } :=
      ⟨fun _ _ _ _ _ href => (nomatch List.mem_singleton.mp href),
        fun _ _ _ _ href => (nomatch List.mem_singleton.mp href), .inl rfl, .inr (by decide)⟩
    obtain rfl | rfl := hused descriptor huses
    · obtain rfl | rfl := hused descriptor' huses'
      · exact absurd rfl hne
      · cases ht
        cases ht'
        exact hapart
    · obtain rfl | rfl := hused descriptor' huses'
      · cases ht
        cases ht'
        exact hapart.symm
      · exact absurd rfl hne

theorem templates_apart_same :
    parseTask templatesReversed (templatesServices [.argRef "a" 0 0]) templatesNode none =
      .ok (templatesTask ["second"] "first") := by
  have htask : parseTask .asGiven (templatesServices [.argRef "a" 0 0]) templatesNode none =
      .ok (templatesTask ["second"] "first") := by decide +kernel
  exact (task_same_iff templatesReversed rfl rfl templates_apart _).mp htask

-- The template that comes last has the standard input.
theorem stdIn_of_last :
    (packageValidate .asGiven ⟨(templatesUsecase [.stdIn]).softwareData,
      (templatesUsecase [.stdIn]).usecaseData⟩).toOption.isSome ∧
    parseTask .asGiven (templatesServices [.stdIn]) templatesNode none =
      .ok (templatesTask [] "second") ∧
    parseTask templatesReversed (templatesServices [.stdIn]) templatesNode none =
      .ok (templatesTask [] "first") ∧
    templatesTask [] "second" ≠ templatesTask [] "first" := by
  refine ⟨by decide +kernel, by decide +kernel, by decide +kernel, by decide +kernel⟩

end Twice

end ParseTask

end Package

end Kuintessence
