import Kuintessence.Package.Task

namespace Kuintessence

namespace Package

def Task.StartsWithDeployment (t : Task) : Prop :=
  ∃ facilityKind, t.body.head? = some (.softwareDeployment facilityKind)

namespace ParseTask

def Blocked (rows : List SoftwareBlockList) (spec : SoftwareSpec) : Prop :=
  ∃ row ∈ rows, row.name = (deployment spec).1 ∧ row.version = (deployment spec).2.1

def recordsOf (rows : List InstalledSoftware) (spec : SoftwareSpec) : List InstalledSoftware :=
  rows.filter fun row => row.softwareName == (deployment spec).1

def Satisfies (spec : SoftwareSpec) (record : InstalledSoftware) : Prop :=
  ∃ installed, record.installArgument = .ok installed ∧
    ∀ required ∈ (deployment spec).2.2, required ∈ installed

variable {services : Services} {spec : SoftwareSpec} {blockRows : List SoftwareBlockList}
  {rows : List InstalledSoftware} {required : List String}

theorem checkRequired_iff (installed : List String) (r : Bool) :
    checkRequired installed r required = true ↔ r = true ∧ ∀ a ∈ required, a ∈ installed := by
  induction required with
  | nil => exact ⟨fun h => ⟨h, fun _ ha => absurd ha List.not_mem_nil⟩, And.left⟩
  | cons a rest ih =>
    rw [checkRequired, List.forall_mem_cons]
    by_cases ha : a ∈ installed
    · rw [if_neg (by simp [ha]), ih]
      exact ⟨fun h => ⟨h.1, ha, h.2⟩, fun h => ⟨h.1, h.2.2⟩⟩
    · rw [if_pos (by simp [ha])]
      exact ⟨nofun, fun h => absurd h.2.1 ha⟩

theorem checkInstalled_iff {r b : Bool}
    (h : checkInstalled (deployment spec).2.2 r rows = .ok b) :
    b = true ↔ r = true ∧ ∀ record ∈ rows, Satisfies spec record := by
  induction rows generalizing r with
  | nil =>
    cases h
    exact ⟨fun h => ⟨h, fun _ hr => absurd hr List.not_mem_nil⟩, And.left⟩
  | cons record rest ih =>
    obtain ⟨installed, hinstalled, h⟩ := Outcome.bind_ok_iff.mp h
    have hrecord : Satisfies spec record ↔ ∀ a ∈ (deployment spec).2.2, a ∈ installed := by
      constructor
      · rintro ⟨found, hfound, hall⟩
        cases hinstalled.symm.trans hfound
        exact hall
      · exact fun hall => ⟨installed, hinstalled, hall⟩
    rw [ih h, checkRequired_iff, List.forall_mem_cons, hrecord, and_assoc]

theorem isSoftwareVersionBlocked_iff {b : Bool} (hrows : services.softwareBlockList = .ok blockRows)
    (h : isSoftwareVersionBlocked services (deployment spec).1 (deployment spec).2.1 = .ok b) :
    b = true ↔ Blocked blockRows spec := by
  rw [isSoftwareVersionBlocked, hrows] at h
  cases h
  rw [decide_eq_true_iff, List.length_pos_iff_exists_mem, Blocked]
  refine exists_congr fun row => List.mem_filter.trans (and_congr_right fun _ => ?_)
  rw [Bool.and_eq_true, beq_iff_eq, beq_iff_eq]

theorem deploys_iff {b : Bool} (hblock : services.softwareBlockList = .ok blockRows)
    (hrows : services.installedSoftware = .ok rows) (h : deploys services spec = .ok b) :
    b = true ↔ ¬ Blocked blockRows spec ∧ ∀ record ∈ recordsOf rows spec, Satisfies spec record := by
  obtain ⟨blocked, hblocked, h⟩ := Outcome.bind_ok_iff.mp h
  have hiff := isSoftwareVersionBlocked_iff hblock hblocked
  cases blocked with
  | true =>
    cases h
    exact ⟨nofun, fun h => absurd (hiff.mp rfl) h.1⟩
  | false =>
    rw [isSoftwareSatisfied, hrows] at h
    have hfree : ¬ Blocked blockRows spec := fun hb => nomatch hiff.mpr hb
    rw [checkInstalled_iff h, eq_self, true_and, and_iff_right hfree]
    rfl

theorem parseUsecase_starts {orders : ParseOrders} {u : SoftwareComputingUsecase}
    {nodeSpec : NodeSpec} {overrideRequirements : Option Requirements} {task : Task}
    (h : parseUsecase orders services u nodeSpec overrideRequirements = .ok task) :
    ∃ b, deploys services u.softwareData.spec = .ok b ∧ (task.StartsWithDeployment ↔ b = true) := by
  obtain ⟨g, -, h⟩ := Outcome.bind_ok_iff.mp h
  obtain ⟨out, -, h⟩ := Outcome.bind_ok_iff.mp h
  obtain ⟨b, hb, h⟩ := Outcome.bind_ok_iff.mp h
  refine ⟨b, hb, ?_⟩
  cases h
  cases b with
  | true => exact ⟨fun _ => rfl, fun _ => ⟨_, rfl⟩⟩
  | false => exact ⟨fun ⟨_, h⟩ => (nomatch h), nofun⟩

theorem deployment_iff {orders : ParseOrders} {nodeSpec : NodeSpec} {u : SoftwareComputingUsecase}
    {overrideRequirements : Option Requirements} {usecaseVersionId softwareVersionId : Uuid}
    {task : Task} (hkind : nodeSpec.kind = .softwareUsecaseComputing usecaseVersionId softwareVersionId)
    (hu : services.getComputingUsecase softwareVersionId usecaseVersionId = .ok u)
    (hblock : services.softwareBlockList = .ok blockRows)
    (hrows : services.installedSoftware = .ok rows)
    (htask : parseTask orders services nodeSpec overrideRequirements = .ok task) :
    (task.StartsWithDeployment ↔ ¬ Blocked blockRows u.softwareData.spec ∧
        ¬ ∃ record ∈ recordsOf rows u.softwareData.spec, Satisfies u.softwareData.spec record) ↔
      Blocked blockRows u.softwareData.spec ∨ recordsOf rows u.softwareData.spec = [] ∨
        (∃ record ∈ recordsOf rows u.softwareData.spec, Satisfies u.softwareData.spec record) ∧
          ∃ record ∈ recordsOf rows u.softwareData.spec, ¬ Satisfies u.softwareData.spec record := by
  rw [parseTask, hkind] at htask
  obtain ⟨u', hu', htask⟩ := Outcome.bind_ok_iff.mp htask
  cases hu.symm.trans hu'
  obtain ⟨b, hb, hstarts⟩ := parseUsecase_starts htask
  rw [hstarts, deploys_iff hblock hrows hb]
  generalize recordsOf rows u.softwareData.spec = records
  generalize u.softwareData.spec = spec
  by_cases hblocked : Blocked blockRows spec
  · exact ⟨fun _ => .inl hblocked,
      fun _ => ⟨fun h => absurd hblocked h.1, fun h => absurd hblocked h.1⟩⟩
  rw [and_iff_right hblocked, and_iff_right hblocked, or_iff_right hblocked]
  cases records with
  | nil => simp
  | cons record records =>
    constructor
    · intro hiff
      refine .inr ?_
      by_cases hany : ∃ r ∈ record :: records, Satisfies spec r
      · refine ⟨hany, ?_⟩
        by_contra hnone
        exact hiff.mp (fun r hr => by_contra fun hnot => hnone ⟨r, hr, hnot⟩) hany
      · have hall := hiff.mpr hany
        exact absurd ⟨record, List.mem_cons_self, hall record List.mem_cons_self⟩ hany
    · rintro (hnil | ⟨hany, r, hr, hnot⟩)
      · cases hnil
      · exact ⟨fun hall => absurd (hall r hr) hnot, fun hnone => absurd hany hnone⟩

def spackUsecase : SoftwareComputingUsecase where
  softwareData := ⟨.spack "vasp" ["@5.4"], [], [], [], []⟩
  usecaseData := ⟨{ commandFile := "vasp_std", inputSlots := [], outputSlots := [] }, [], []⟩

def spackServices (rows : List InstalledSoftware) : Services where
  getComputingUsecase _ _ := .ok spackUsecase
  getTextById _ := bail "no text"
  render _ _ := bail "no template"
  softwareBlockList := .ok []
  installedSoftware := .ok rows

def spackNode : NodeSpec := ⟨.softwareUsecaseComputing 1 2, 7, "vasp", [], [], .auto, []⟩

def spackTask (body : List TaskBody) : Task where
  id := 7
  body := body ++
    [.usecaseExecution ⟨"vasp_std", .spack "vasp" ["@5.4"], [], .empty, .none, [], none⟩]
  command := .start

def spackDeployment : TaskBody := .softwareDeployment (.spack "vasp" ["@5.4"])

def fiveInstalled : InstalledSoftware := ⟨"vasp", .ok ["@5.4"]⟩

def sixInstalled : InstalledSoftware := ⟨"vasp", .ok ["@6.3"]⟩

theorem mixed_not_deployed :
    ((spackTask []).StartsWithDeployment ↔ ¬ Blocked [] spackUsecase.softwareData.spec ∧
      ¬ ∃ record ∈ recordsOf [fiveInstalled, sixInstalled] spackUsecase.softwareData.spec,
        Satisfies spackUsecase.softwareData.spec record) := by
  have htask : parseTask .asGiven (spackServices [fiveInstalled, sixInstalled]) spackNode none =
      .ok (spackTask []) := by decide +kernel
  refine (deployment_iff (u := spackUsecase) rfl rfl rfl rfl htask).mpr
    (.inr (.inr ⟨⟨fiveInstalled, ?_, ["@5.4"], rfl, ?_⟩, sixInstalled, ?_, ?_⟩))
  · decide +kernel
  · decide +kernel
  · decide +kernel
  · rintro ⟨installed, hinstalled, hall⟩
    cases hinstalled
    revert hall
    decide +kernel

theorem installed_deployed_again :
    parseTask .asGiven (spackServices [fiveInstalled]) spackNode none =
        .ok (spackTask [spackDeployment]) ∧
      (∃ record ∈ recordsOf [fiveInstalled] spackUsecase.softwareData.spec,
        Satisfies spackUsecase.softwareData.spec record) ∧
      parseTask .asGiven (spackServices [sixInstalled]) spackNode none = .ok (spackTask []) ∧
      ¬ ∃ record ∈ recordsOf [sixInstalled] spackUsecase.softwareData.spec,
        Satisfies spackUsecase.softwareData.spec record := by
  refine ⟨by decide +kernel, ⟨fiveInstalled, by decide +kernel, ["@5.4"], rfl, by decide +kernel⟩,
    by decide +kernel, ?_⟩
  rintro ⟨record, hrecord, installed, hinstalled, hall⟩
  have hsix : record = sixInstalled := List.mem_singleton.mp (List.mem_filter.mp hrecord).1
  subst hsix
  cases hinstalled
  revert hall
  decide +kernel

end ParseTask

end Package

end Kuintessence
