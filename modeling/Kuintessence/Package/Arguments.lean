import Kuintessence.Package.References
import Kuintessence.Package.Validation

namespace Kuintessence

namespace Package

namespace ParseTask

-- One entry for each material at each sort number, with the fills addressed to it.
def ownArguments (s : SoftwareData) (refs : List (Reference Nat (Option String))) :
    List (Nat × FormatFill (Option String)) :=
  HashMap.sortByKey ((Reference.grouping Nat (Option String)).owned Reference.material
    (argumentBase s) refs)

def ownEnvironments (s : SoftwareData) (refs : List (Reference String (Option String))) :
    List (String × FormatFill (Option String)) :=
  (Reference.grouping String (Option String)).owned Reference.material (environmentBase s) refs

structure OwnEntries (orders : ParseOrders) (s : SoftwareData) (ws : List DraftWrites)
    (e : UsecaseExecution) : Prop where
  arguments : e.arguments = (ownArguments s (ws.flatMap Writes.arguments)).map
    fun x => x.2.filled orders.fills
  environments : e.environments.entries.Perm
    ((ownEnvironments s (ws.flatMap Writes.environments)).map
      fun x => (x.1, x.2.filled orders.fills))

structure NoClash (u : SoftwareComputingUsecase) : Prop where
  arguments : ∀ sort material material', u.usecaseData.ReferencesArgument material sort →
    u.usecaseData.ReferencesArgument material' sort → material = material'
  environments : ∀ material material', u.usecaseData.ReferencesEnvironment material →
    u.usecaseData.ReferencesEnvironment material' →
    environmentKey u.softwareData material = environmentKey u.softwareData material' →
    material = material'

section Entries

variable {orders : ParseOrders} {services : Services} {u : SoftwareComputingUsecase}
  {nodeSpec : NodeSpec} {ws : List DraftWrites}

theorem functional_arguments_iff (hws : gatherWrites orders services u nodeSpec = .ok ws) :
    (Reference.grouping Nat (Option String)).Functional Reference.material
        (ws.flatMap Writes.arguments) ↔
      ∀ sort material material', u.usecaseData.ReferencesArgument material sort →
        u.usecaseData.ReferencesArgument material' sort → material = material' := by
  constructor
  · intro h sort material material' hm hm'
    obtain ⟨r, hr, rfl, hkey⟩ := (references_arguments hws material sort).mpr hm
    obtain ⟨r', hr', rfl, hkey'⟩ := (references_arguments hws material' sort).mpr hm'
    exact h r hr r' hr' (hkey.trans hkey'.symm)
  · intro h r hr r' hr' hkey
    exact h r.key r.material r'.material
      ((references_arguments hws r.material r.key).mp ⟨r, hr, rfl, rfl⟩)
      ((references_arguments hws r'.material r.key).mp ⟨r', hr', rfl, hkey.symm⟩)

theorem functional_environments_iff (hws : gatherWrites orders services u nodeSpec = .ok ws) :
    (Reference.grouping String (Option String)).Functional Reference.material
        (ws.flatMap Writes.environments) ↔
      ∀ material material', u.usecaseData.ReferencesEnvironment material →
        u.usecaseData.ReferencesEnvironment material' →
        environmentKey u.softwareData material = environmentKey u.softwareData material' →
        material = material' := by
  have hkeys : ∀ r ∈ ws.flatMap Writes.environments,
      r.key = environmentKey u.softwareData r.material := by
    intro r hr
    obtain ⟨w, hw, hr⟩ := List.mem_flatMap.mp hr
    exact ((conforms hws hw).environments r hr).2
  constructor
  · intro h material material' hm hm' hkey
    obtain ⟨r, hr, rfl⟩ := (references_environments hws material).mpr hm
    obtain ⟨r', hr', rfl⟩ := (references_environments hws material').mpr hm'
    exact h r hr r' hr' ((hkeys r hr).trans (hkey.trans (hkeys r' hr').symm))
  · intro h r hr r' hr' hkey
    exact h r.material r'.material ((references_environments hws r.material).mp ⟨r, hr, rfl⟩)
      ((references_environments hws r'.material).mp ⟨r', hr', rfl⟩)
      ((hkeys r hr).symm.trans (Eq.trans hkey (hkeys r' hr')))

theorem arguments_own_iff (hws : gatherWrites orders services u nodeSpec = .ok ws) :
    arguments orders (Writes.onEach ws initial) =
        (ownArguments u.softwareData (ws.flatMap Writes.arguments)).map
          (fun x => x.2.filled orders.fills) ↔
      (Reference.grouping Nat (Option String)).Functional Reference.material
        (ws.flatMap Writes.arguments) := by
  have hbase : ∀ r ∈ ws.flatMap Writes.arguments,
      r.format = argumentBase u.softwareData r.material := by
    intro r hr
    obtain ⟨w, hw, hr⟩ := List.mem_flatMap.mp hr
    exact (conforms hws hw).arguments r hr
  rw [arguments, HashMap.sortByKey_iter, Writes.onEach_arguments]
  constructor
  · intro heq
    have hlen := congrArg List.length heq
    rw [List.length_map, List.length_map, ownArguments, (HashMap.sortByKey_perm _).length_eq,
      Grouping.owned, List.length_map] at hlen
    exact Grouping.functional_of_length hlen
  · intro h
    have hperm := Grouping.Functional.perm_owned h hbase
    have hsorted := (HashMap.sortByKey_perm ((Reference.grouping Nat (Option String)).owned
      Reference.material (argumentBase u.softwareData) (ws.flatMap Writes.arguments))).symm
    have hnodup := (hperm.map Prod.fst).nodup_iff.mp (HashMap.nodup_keys _)
    have heq := HashMap.eq_of_sorted (hperm.trans hsorted) (HashMap.sorted _)
      (HashMap.sortByKey_sorted hnodup)
    exact congrArg (List.map fun x => x.2.filled orders.fills) heq

theorem environments_own_iff (hws : gatherWrites orders services u nodeSpec = .ok ws) :
    (environments orders (Writes.onEach ws initial)).entries.Perm
        ((ownEnvironments u.softwareData (ws.flatMap Writes.environments)).map
          fun x => (x.1, x.2.filled orders.fills)) ↔
      (Reference.grouping String (Option String)).Functional Reference.material
        (ws.flatMap Writes.environments) := by
  have hbase : ∀ r ∈ ws.flatMap Writes.environments,
      r.format = environmentBase u.softwareData r.material := by
    intro r hr
    obtain ⟨w, hw, hr⟩ := List.mem_flatMap.mp hr
    exact ((conforms hws hw).environments r hr).1
  rw [environments, HashMap.ofList_iter orders.environments _ fun f => f.filled orders.fills,
    Writes.onEach_environments]
  constructor
  · intro hperm
    have hlen := hperm.length_eq
    rw [List.length_map, List.length_map, ownEnvironments, Grouping.owned, List.length_map] at hlen
    exact Grouping.functional_of_length hlen
  · intro h
    exact (h.perm_owned hbase).map _

theorem parseUsecase_execution {overrideRequirements : Option Requirements} {task : Task}
    (h : parseUsecase orders services u nodeSpec overrideRequirements = .ok task) :
    ∃ ws files, gatherWrites orders services u nodeSpec = .ok ws ∧ .usecaseExecution
      (execution orders u overrideRequirements (Writes.onEach ws initial) files) ∈ task.body := by
  obtain ⟨g, hg, h⟩ := Outcome.bind_ok_iff.mp h
  obtain ⟨out, -, h⟩ := Outcome.bind_ok_iff.mp h
  obtain ⟨b, -, h⟩ := Outcome.bind_ok_iff.mp h
  rw [gather_eq] at hg
  obtain ⟨ws, hws, hg⟩ := Outcome.bind_ok_iff.mp hg
  cases hg
  cases h
  refine ⟨ws, out.files, hws, ?_⟩
  cases b with
  | true => exact List.mem_cons_of_mem _ List.mem_cons_self
  | false => exact List.mem_cons_self

theorem own_entries_iff {overrideRequirements : Option Requirements}
    {usecaseVersionId softwareVersionId : Uuid} {task : Task}
    (hkind : nodeSpec.kind = .softwareUsecaseComputing usecaseVersionId softwareVersionId)
    (hu : services.getComputingUsecase softwareVersionId usecaseVersionId = .ok u)
    (htask : parseTask orders services nodeSpec overrideRequirements = .ok task) :
    ∃ ws e, gatherWrites orders services u nodeSpec = .ok ws ∧
      .usecaseExecution e ∈ task.body ∧
      (∀ material sort, (∃ r ∈ ws.flatMap Writes.arguments,
        r.material = material ∧ r.key = sort) ↔ u.usecaseData.ReferencesArgument material sort) ∧
      (∀ material, (∃ r ∈ ws.flatMap Writes.environments, r.material = material) ↔
        u.usecaseData.ReferencesEnvironment material) ∧
      (OwnEntries orders u.softwareData ws e ↔ NoClash u) := by
  rw [parseTask, hkind] at htask
  obtain ⟨u', hu', htask⟩ := Outcome.bind_ok_iff.mp htask
  cases hu.symm.trans hu'
  obtain ⟨ws, files, hws, hmem⟩ := parseUsecase_execution htask
  refine ⟨ws, _, hws, hmem, references_arguments hws, references_environments hws, ?_, ?_⟩
  · rintro ⟨harguments, henvironments⟩
    exact ⟨(functional_arguments_iff hws).mp ((arguments_own_iff hws).mp harguments),
      (functional_environments_iff hws).mp ((environments_own_iff hws).mp henvironments)⟩
  · rintro ⟨harguments, henvironments⟩
    exact ⟨(arguments_own_iff hws).mpr ((functional_arguments_iff hws).mpr harguments),
      (environments_own_iff hws).mpr ((functional_environments_iff hws).mpr henvironments)⟩

end Entries

section Flag

-- The text of the slot goes to the argument at sort number 0, the flag is put at `sort`.
def flagUsecase (sort : Nat) : SoftwareComputingUsecase where
  softwareData := ⟨.singularity "image" "tag",
    [{ descriptor := "a", valueFormat := "-a " ++ placeholder },
      { descriptor := "b", valueFormat := "-b" }], [], [], []⟩
  usecaseData := ⟨{
    commandFile := "run"
    inputSlots := [.text "in" [.argRef "a" 0 0]]
    outputSlots := []
    flagArguments := .ofList [("b", sort)] }, [], []⟩

def flagServices (sort : Nat) : Services where
  getComputingUsecase _ _ := .ok (flagUsecase sort)
  getTextById _ := .ok "x"
  render _ _ := bail "no template"
  softwareBlockList := .ok []
  installedSoftware := .ok []

def flagNode : NodeSpec :=
  ⟨.softwareUsecaseComputing 1 2, 7, "run", [⟨.text (some (.single 3)), false, "in"⟩], [], .auto, []⟩

def flagExecution (arguments : List String) : UsecaseExecution :=
  ⟨"run", .singularity "image" "tag", arguments, .empty, .none, [], none⟩

def flagTask (arguments : List String) : Task where
  id := 7
  body := [.softwareDeployment (.singularity "image" "tag"),
    .usecaseExecution (flagExecution arguments)]
  command := .start

def flagWritten (sort : Nat) : List DraftWrites :=
  [{ arguments := [⟨sort, "b", { format := "-b" }, none⟩] }, {},
    { arguments := [⟨0, "a", { format := "-a " ++ placeholder }, some (0, some "x")⟩] }]

theorem flag_beside : ∃ ws e, gatherWrites .asGiven (flagServices 1) (flagUsecase 1) flagNode =
      .ok ws ∧ .usecaseExecution e ∈ (flagTask ["-a x", "-b"]).body ∧
    OwnEntries .asGiven (flagUsecase 1).softwareData ws e := by
  have htask : parseTask .asGiven (flagServices 1) flagNode none =
      .ok (flagTask ["-a x", "-b"]) := by decide +kernel
  have hwritten : gatherWrites .asGiven (flagServices 1) (flagUsecase 1) flagNode =
      .ok (flagWritten 1) := by decide +kernel
  obtain ⟨ws, e, hws, he, hargs, henvs, hiff⟩ := own_entries_iff (u := flagUsecase 1) rfl rfl htask
  refine ⟨ws, e, hws, he, hiff.mpr ⟨fun sort m m' hm hm' => ?_, fun m _ hm _ _ => ?_⟩⟩
  · cases hwritten.symm.trans hws
    have hall : ∀ r ∈ (flagWritten 1).flatMap Writes.arguments,
        ∀ r' ∈ (flagWritten 1).flatMap Writes.arguments, r.key = r'.key →
          r.material = r'.material := by decide +kernel
    obtain ⟨r, hr, rfl, hkey⟩ := (hargs m sort).mpr hm
    obtain ⟨r', hr', rfl, hkey'⟩ := (hargs m' sort).mpr hm'
    exact hall r hr r' hr' (hkey.trans hkey'.symm)
  · cases hwritten.symm.trans hws
    obtain ⟨r, hr, -⟩ := (henvs m).mpr hm
    exact absurd hr List.not_mem_nil

-- The flag has taken the place: the argument of the slot is gone.
theorem flag_takes_place :
    (packageValidate .asGiven
      ⟨(flagUsecase 0).softwareData, (flagUsecase 0).usecaseData⟩).toOption.isSome ∧
    parseTask .asGiven (flagServices 0) flagNode none = .ok (flagTask ["-b"]) ∧
    (flagUsecase 0).usecaseData.ReferencesArgument "a" 0 ∧
    ∀ ws, gatherWrites .asGiven (flagServices 0) (flagUsecase 0) flagNode = .ok ws →
      ¬ OwnEntries .asGiven (flagUsecase 0).softwareData ws (flagExecution ["-b"]) := by
  refine ⟨by decide +kernel, by decide +kernel, ?_, fun ws hws h => ?_⟩
  · refine .inr ⟨0, .inl ⟨.text "in" [.argRef "a" 0 0], List.mem_singleton_self _, ?_⟩⟩
    exact List.mem_singleton_self _
  · have hwritten : gatherWrites .asGiven (flagServices 0) (flagUsecase 0) flagNode =
        .ok (flagWritten 0) := by decide +kernel
    cases hwritten.symm.trans hws
    have hlen := congrArg List.length h.arguments
    revert hlen
    decide +kernel

end Flag

end ParseTask

end Package

end Kuintessence
