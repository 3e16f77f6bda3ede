import Kuintessence.Agent.Measures

namespace Kuintessence.Agent

namespace Pbsnodes

structure Resources where
  mem : Option Nat
  ncpus : Option Nat
  deriving DecidableEq, Repr

structure NodeAssigned where
  resourcesAssigned : Resources
  jobs : Option (List String)
  deriving DecidableEq, Repr

structure SumResources where
  mem : Nat := 0
  ncpus : Nat := 0
  deriving DecidableEq, Repr

def SumResources.add (checked : Bool) (acc : SumResources) (rhs : Resources) :
    Outcome String SumResources := do
  let mem ← u64 checked ((acc.mem + rhs.mem.getD 0 : Nat) : Int)
  let ncpus ← u64 checked ((acc.ncpus + rhs.ncpus.getD 0 : Nat) : Int)
  .ok ⟨mem, ncpus⟩

def usedBy (r : NodeAssigned) : Nat := (r.jobs.map List.length).getD 0

def addAssigned (checked : Bool) (acc : SumResources × Nat) (r : NodeAssigned) :
    Outcome String (SumResources × Nat) := do
  let res ← acc.1.add checked r.resourcesAssigned
  .ok (res, acc.2 + usedBy r)

-- The values of the map, in the order in which it gives them.
def assigned (checked : Bool) (nodes : List NodeAssigned) : Outcome String (SumResources × Nat) :=
  Outcome.foldEach (addAssigned checked) ({}, 0) nodes

end Pbsnodes

structure Placed where
  job : String
  cpus : Nat
  pos : 0 < cpus

structure ClusterNode where
  name : String
  jobs : List Placed
  -- What each scheduler says of the resources besides.
  allocMemory : Nat
  resourcesAssigned : Pbsnodes.Resources

def ClusterNode.cpus (n : ClusterNode) : Nat := (n.jobs.map Placed.cpus).sum

def ClusterNode.sinfo (n : ClusterNode) : Sinfo.NodeAlloc := ⟨n.allocMemory, n.cpus⟩

def ClusterNode.pbsnodes (n : ClusterNode) : Pbsnodes.NodeAssigned :=
  ⟨n.resourcesAssigned, if n.jobs.isEmpty then none else some (n.jobs.map Placed.job)⟩

structure Cluster where
  nodes : List ClusterNode
  distinct : (nodes.map ClusterNode.name).Nodup

def Cluster.used (c : Cluster) : Nat := c.nodes.countP fun n => !n.jobs.isEmpty

-- The sums of the resources are numbers of 64 bits.
structure Cluster.Fits (c : Cluster) : Prop where
  allocMemory : (c.nodes.map ClusterNode.allocMemory).sum < 2 ^ 64
  cpus : (c.nodes.map ClusterNode.cpus).sum < 2 ^ 64
  mem : (c.nodes.map fun n => n.resourcesAssigned.mem.getD 0).sum < 2 ^ 64
  ncpus : (c.nodes.map fun n => n.resourcesAssigned.ncpus.getD 0).sum < 2 ^ 64

-- Both schedulers count the nodes in use, whatever order they list them in.
def Cluster.Counted (c : Cluster) (checked : Bool) (slurm pbs : List ClusterNode) : Prop :=
  ∃ sum res used, Sinfo.alloc checked (slurm.map ClusterNode.sinfo) = .ok sum ∧
    Pbsnodes.assigned checked (pbs.map ClusterNode.pbsnodes) = .ok (res, used) ∧
    sum.allocNodes = c.used ∧ used = c.used ∧ sum.allocNodes ≤ slurm.length ∧ used ≤ pbs.length

section

variable {checked : Bool} {nodes : List ClusterNode}

theorem ClusterNode.cpus_pos_iff {n : ClusterNode} : 0 < n.cpus ↔ n.jobs ≠ [] := by
  rw [ClusterNode.cpus]
  cases n.jobs with
  | nil => simp
  | cons p jobs =>
    rw [List.map_cons, List.sum_cons]
    exact iff_of_true (Nat.add_pos_left p.pos _) (List.cons_ne_nil p jobs)

theorem usedBy_pbsnodes (n : ClusterNode) : Pbsnodes.usedBy n.pbsnodes = n.jobs.length := by
  rw [Pbsnodes.usedBy, ClusterNode.pbsnodes]
  cases n.jobs with
  | nil => rfl
  | cons p jobs => exact List.length_map Placed.job

theorem allocNodes_add {acc acc' : Sinfo.NodeAllocSum} {n : Sinfo.NodeAlloc}
    (h : acc.add checked n = .ok acc') :
    acc'.allocNodes = acc.allocNodes + if 0 < n.allocCpus then 1 else 0 := by
  obtain ⟨memory, -, h⟩ := Outcome.bind_ok_iff.mp h
  obtain ⟨cpus, -, h⟩ := Outcome.bind_ok_iff.mp h
  cases h
  split <;> rfl

theorem used_addAssigned {acc acc' : Pbsnodes.SumResources × Nat} {r : Pbsnodes.NodeAssigned}
    (h : Pbsnodes.addAssigned checked acc r = .ok acc') :
    acc'.2 = acc.2 + Pbsnodes.usedBy r := by
  obtain ⟨res, -, h⟩ := Outcome.bind_ok_iff.mp h
  cases h
  rfl

theorem countP_eq_sum {α : Type} (p : α → Bool) (xs : List α) :
    xs.countP p = (xs.map fun x => if p x then 1 else 0).sum := by
  induction xs with
  | nil => rfl
  | cons x xs ih =>
    rw [List.countP_cons, List.map_cons, List.sum_cons, ih, Nat.add_comm]

theorem sum_jobs_eq_iff :
    (nodes.map fun n => n.jobs.length).sum = nodes.countP (fun n => !n.jobs.isEmpty) ↔
      ∀ n ∈ nodes, n.jobs.length ≤ 1 := by
  have hle : ∀ nodes : List ClusterNode,
      nodes.countP (fun n => !n.jobs.isEmpty) ≤ (nodes.map fun n => n.jobs.length).sum := by
    intro nodes
    induction nodes with
    | nil => exact Nat.le_refl 0
    | cons n nodes ih =>
      rw [List.countP_cons, List.map_cons, List.sum_cons]
      cases n.jobs with
      | nil => simpa using ih
      | cons p jobs =>
        simp only [List.isEmpty_cons, Bool.not_false, if_true, List.length_cons]
        omega
  induction nodes with
  | nil => simp
  | cons n nodes ih =>
    have hrest := hle nodes
    rw [List.countP_cons, List.map_cons, List.sum_cons, List.forall_mem_cons]
    refine Iff.trans ?_ (and_congr_right fun _ => ih)
    cases n.jobs with
    | nil => simp
    | cons p jobs =>
      simp only [List.isEmpty_cons, Bool.not_false, if_true, List.length_cons]
      omega

theorem allocNodes_eq {sum : Sinfo.NodeAllocSum}
    (h : Sinfo.alloc checked (nodes.map ClusterNode.sinfo) = .ok sum) :
    sum.allocNodes = nodes.countP fun n => !n.jobs.isEmpty := by
  have hstep : ∀ acc (n : Sinfo.NodeAlloc) acc', Sinfo.NodeAllocSum.add checked acc n = .ok acc' →
      acc'.allocNodes = acc.allocNodes + if 0 < n.allocCpus then 1 else 0 :=
    fun _ _ _ => allocNodes_add
  have hsum := Outcome.foldEach_sum hstep h
  rw [Nat.zero_add, List.map_map] at hsum
  rw [hsum, countP_eq_sum]
  refine congrArg List.sum (List.map_congr_left fun n _ => ?_)
  simp only [Function.comp_apply, ClusterNode.sinfo, ClusterNode.cpus_pos_iff,
    Bool.not_eq_true', List.isEmpty_eq_false_iff]

theorem used_eq {res : Pbsnodes.SumResources} {used : Nat}
    (h : Pbsnodes.assigned checked (nodes.map ClusterNode.pbsnodes) = .ok (res, used)) :
    used = (nodes.map fun n => n.jobs.length).sum := by
  have hstep : ∀ (acc : Pbsnodes.SumResources × Nat) r acc',
      Pbsnodes.addAssigned checked acc r = .ok acc' → acc'.2 = acc.2 + Pbsnodes.usedBy r :=
    fun _ _ _ => used_addAssigned
  have hsum := Outcome.foldEach_sum hstep h
  rw [Nat.zero_add, List.map_map] at hsum
  exact hsum.trans (congrArg List.sum (List.map_congr_left fun n _ => usedBy_pbsnodes n))

theorem u64_false_ok (n : Int) : ∃ a, (u64 false n : Outcome String Nat) = .ok a := by
  rw [u64]
  split
  · exact ⟨_, rfl⟩
  · exact ⟨_, rfl⟩

theorem alloc_ok (h : checked = true → (nodes.map ClusterNode.allocMemory).sum < 2 ^ 64 ∧
      (nodes.map ClusterNode.cpus).sum < 2 ^ 64) :
    ∃ sum, Sinfo.alloc checked (nodes.map ClusterNode.sinfo) = .ok sum := by
  cases checked with
  | true =>
    obtain ⟨hmemory, hcpus⟩ := h rfl
    obtain ⟨sum, hsum, -⟩ := @Sinfo.alloc_exact true (nodes.map ClusterNode.sinfo) {}
      (by rw [List.map_map, Nat.zero_add]; exact hmemory)
      (by rw [List.map_map, Nat.zero_add]; exact hcpus)
    exact ⟨sum, hsum⟩
  | false =>
    have hpass : ∀ n ∈ nodes.map ClusterNode.sinfo, ∀ acc : Sinfo.NodeAllocSum,
        (∃ acc', acc.add false n = .ok acc') ↔ True := by
      intro n _ acc
      obtain ⟨memory, hmemory⟩ := u64_false_ok ((acc.allocMemory + n.allocMemory : Nat) : Int)
      obtain ⟨cpus, hcpus⟩ := u64_false_ok ((acc.allocCpus + n.allocCpus : Nat) : Int)
      exact iff_of_true
        ⟨_, by rw [Sinfo.NodeAllocSum.add, hmemory, Outcome.ok_bind, hcpus]; rfl⟩ trivial
    exact (Outcome.foldEach_ok_iff hpass).mpr fun _ _ => trivial

theorem assigned_exact {rs : List Pbsnodes.NodeAssigned} {acc : Pbsnodes.SumResources × Nat}
    (hmem : acc.1.mem + (rs.map fun r => r.resourcesAssigned.mem.getD 0).sum < 2 ^ 64)
    (hncpus : acc.1.ncpus + (rs.map fun r => r.resourcesAssigned.ncpus.getD 0).sum < 2 ^ 64) :
    ∃ sum, Outcome.foldEach (Pbsnodes.addAssigned checked) acc rs = .ok sum := by
  induction rs generalizing acc with
  | nil => exact ⟨acc, rfl⟩
  | cons r rs ih =>
    rw [List.map_cons, List.sum_cons, ← Nat.add_assoc] at hmem hncpus
    let acc' : Pbsnodes.SumResources × Nat :=
      (⟨acc.1.mem + r.resourcesAssigned.mem.getD 0, acc.1.ncpus + r.resourcesAssigned.ncpus.getD 0⟩,
        acc.2 + Pbsnodes.usedBy r)
    have hadd : Pbsnodes.addAssigned checked acc r = .ok acc' := by
      rw [Pbsnodes.addAssigned, Pbsnodes.SumResources.add, u64_of_nat (by omega), Outcome.ok_bind,
        u64_of_nat (by omega)]
      rfl
    obtain ⟨sum, hsum⟩ := @ih acc' hmem hncpus
    exact ⟨sum, by rw [Outcome.foldEach, hadd, Outcome.ok_bind, hsum]⟩

theorem assigned_ok
    (h : checked = true → (nodes.map fun n => n.resourcesAssigned.mem.getD 0).sum < 2 ^ 64 ∧
      (nodes.map fun n => n.resourcesAssigned.ncpus.getD 0).sum < 2 ^ 64) :
    ∃ sum, Pbsnodes.assigned checked (nodes.map ClusterNode.pbsnodes) = .ok sum := by
  cases checked with
  | true =>
    obtain ⟨hmem, hncpus⟩ := h rfl
    exact @assigned_exact true (nodes.map ClusterNode.pbsnodes) ({}, 0)
      (by rw [List.map_map, Nat.zero_add]; exact hmem)
      (by rw [List.map_map, Nat.zero_add]; exact hncpus)
  | false =>
    have hpass : ∀ r ∈ nodes.map ClusterNode.pbsnodes, ∀ acc : Pbsnodes.SumResources × Nat,
        (∃ acc', Pbsnodes.addAssigned false acc r = .ok acc') ↔ True := by
      intro r _ acc
      obtain ⟨mem, hmem⟩ := u64_false_ok ((acc.1.mem + r.resourcesAssigned.mem.getD 0 : Nat) : Int)
      obtain ⟨ncpus, hncpus⟩ :=
        u64_false_ok ((acc.1.ncpus + r.resourcesAssigned.ncpus.getD 0 : Nat) : Int)
      refine iff_of_true ⟨(⟨mem, ncpus⟩, acc.2 + Pbsnodes.usedBy r), ?_⟩ trivial
      rw [Pbsnodes.addAssigned, Pbsnodes.SumResources.add, hmem, Outcome.ok_bind, hncpus]
      rfl
    exact (Outcome.foldEach_ok_iff hpass).mpr fun _ _ => trivial

theorem alloc_fits {sum : Sinfo.NodeAllocSum}
    (h : Sinfo.alloc true (nodes.map ClusterNode.sinfo) = .ok sum) :
    (nodes.map ClusterNode.allocMemory).sum < 2 ^ 64 ∧
      (nodes.map ClusterNode.cpus).sum < 2 ^ 64 := by
  have hmemory : ∀ acc (n : Sinfo.NodeAlloc) acc', Sinfo.NodeAllocSum.add true acc n = .ok acc' →
      acc'.allocMemory = acc.allocMemory + n.allocMemory := by
    intro acc n acc' hadd
    obtain ⟨memory, hm, hadd⟩ := Outcome.bind_ok_iff.mp hadd
    obtain ⟨cpus, -, hadd⟩ := Outcome.bind_ok_iff.mp hadd
    cases hadd
    exact_mod_cast (u64_true_ok_iff.mp hm).1.symm
  have hcpus : ∀ acc (n : Sinfo.NodeAlloc) acc', Sinfo.NodeAllocSum.add true acc n = .ok acc' →
      acc'.allocCpus = acc.allocCpus + n.allocCpus := by
    intro acc n acc' hadd
    obtain ⟨memory, -, hadd⟩ := Outcome.bind_ok_iff.mp hadd
    obtain ⟨cpus, hc, hadd⟩ := Outcome.bind_ok_iff.mp hadd
    cases hadd
    exact_mod_cast (u64_true_ok_iff.mp hc).1.symm
  have hlt := Sinfo.alloc_lt h
  rw [Outcome.foldEach_sum hmemory h, Outcome.foldEach_sum hcpus h, List.map_map, List.map_map,
    Nat.zero_add, Nat.zero_add] at hlt
  exact hlt

theorem assigned_fits {sum : Pbsnodes.SumResources × Nat}
    (h : Pbsnodes.assigned true (nodes.map ClusterNode.pbsnodes) = .ok sum) :
    (nodes.map fun n => n.resourcesAssigned.mem.getD 0).sum < 2 ^ 64 ∧
      (nodes.map fun n => n.resourcesAssigned.ncpus.getD 0).sum < 2 ^ 64 := by
  have hstep : ∀ (acc : Pbsnodes.SumResources × Nat) r acc',
      Pbsnodes.addAssigned true acc r = .ok acc' →
      (acc'.1.mem = acc.1.mem + r.resourcesAssigned.mem.getD 0 ∧ acc'.1.mem < 2 ^ 64) ∧
        acc'.1.ncpus = acc.1.ncpus + r.resourcesAssigned.ncpus.getD 0 ∧ acc'.1.ncpus < 2 ^ 64 := by
    intro acc r acc' hadd
    obtain ⟨res, hres, hadd⟩ := Outcome.bind_ok_iff.mp hadd
    obtain ⟨mem, hm, hres⟩ := Outcome.bind_ok_iff.mp hres
    obtain ⟨ncpus, hn, hres⟩ := Outcome.bind_ok_iff.mp hres
    cases hres
    cases hadd
    have hm := u64_true_ok_iff.mp hm
    have hn := u64_true_ok_iff.mp hn
    exact ⟨⟨by exact_mod_cast hm.1.symm, hm.2⟩, by exact_mod_cast hn.1.symm, hn.2⟩
  have hlt : sum.1.mem < 2 ^ 64 ∧ sum.1.ncpus < 2 ^ 64 :=
    Outcome.foldEach_keeps (P := fun acc : Pbsnodes.SumResources × Nat =>
      acc.1.mem < 2 ^ 64 ∧ acc.1.ncpus < 2 ^ 64) ⟨Nat.two_pow_pos 64, Nat.two_pow_pos 64⟩
      (fun r _ acc acc' _ hadd => ⟨(hstep acc r acc' hadd).1.2, (hstep acc r acc' hadd).2.2⟩) h
  have hmem := Outcome.foldEach_sum (fun acc r acc' hadd => (hstep acc r acc' hadd).1.1) h
  have hncpus := Outcome.foldEach_sum (fun acc r acc' hadd => (hstep acc r acc' hadd).2.1) h
  rw [hmem, hncpus, List.map_map, List.map_map, Nat.zero_add, Nat.zero_add] at hlt
  exact hlt

-- A node that runs several jobs is one node in use, but an entry for each job.
theorem Cluster.counted_iff (c : Cluster) (checked : Bool) (slurm pbs : List ClusterNode)
    (hslurm : slurm.Perm c.nodes) (hpbs : pbs.Perm c.nodes) :
    c.Counted checked slurm pbs ↔
      (∀ n ∈ c.nodes, n.jobs.length ≤ 1) ∧ (checked = true → c.Fits) := by
  have hnodes : slurm.countP (fun n => !n.jobs.isEmpty) = c.used := hslurm.countP_eq _
  have hentries : (pbs.map fun n => n.jobs.length).sum = (c.nodes.map fun n => n.jobs.length).sum :=
    (hpbs.map _).sum_eq
  constructor
  · rintro ⟨sum, res, used, hsum, hres, -, hused, -, -⟩
    constructor
    · rw [used_eq hres, hentries] at hused
      exact sum_jobs_eq_iff.mp hused
    · rintro rfl
      have hs := alloc_fits hsum
      have hp := assigned_fits hres
      rw [(hslurm.map _).sum_eq, (hslurm.map _).sum_eq] at hs
      rw [(hpbs.map _).sum_eq, (hpbs.map _).sum_eq] at hp
      exact ⟨hs.1, hs.2, hp.1, hp.2⟩
  · rintro ⟨hone, hfits⟩
    obtain ⟨sum, hsum⟩ : ∃ sum, Sinfo.alloc checked (slurm.map ClusterNode.sinfo) = .ok sum := by
      refine alloc_ok fun h => ?_
      rw [(hslurm.map _).sum_eq, (hslurm.map _).sum_eq]
      exact ⟨(hfits h).allocMemory, (hfits h).cpus⟩
    obtain ⟨⟨res, used⟩, hres⟩ :
        ∃ sum, Pbsnodes.assigned checked (pbs.map ClusterNode.pbsnodes) = .ok sum := by
      refine assigned_ok fun h => ?_
      rw [(hpbs.map _).sum_eq, (hpbs.map _).sum_eq]
      exact ⟨(hfits h).mem, (hfits h).ncpus⟩
    have hs : sum.allocNodes = c.used := (allocNodes_eq hsum).trans hnodes
    have hu : used = c.used := by
      rw [used_eq hres, hentries]
      exact sum_jobs_eq_iff.mpr hone
    have hle : c.used ≤ c.nodes.length := List.countP_le_length
    exact ⟨sum, res, used, hsum, hres, hs, hu, by rw [hs, hslurm.length_eq]; exact hle,
      by rw [hu, hpbs.length_eq]; exact hle⟩

def placed (job : String) : Placed := ⟨job, 4, by decide⟩

def spread : Cluster where
  nodes := [⟨"a", [placed "1"], 0, ⟨some 1024, some 4⟩⟩, ⟨"b", [placed "1"], 0, ⟨none, some 4⟩⟩,
    ⟨"c", [], 0, ⟨none, none⟩⟩]
  distinct := by decide

theorem Cluster.counted_spread : spread.Counted true spread.nodes spread.nodes.reverse :=
  (Cluster.counted_iff spread true _ _ (.refl _) (List.reverse_perm _)).mpr
    ⟨by decide, fun _ => ⟨by decide, by decide, by decide, by decide⟩⟩

def crowded : Cluster where
  nodes := [⟨"a", [placed "1", placed "2"], 0, ⟨none, some 8⟩⟩]
  distinct := by decide

-- Two jobs on the one node of a cluster.
theorem Cluster.counted_wrong :
    crowded.used = 1 ∧
      (Sinfo.alloc true (crowded.nodes.map ClusterNode.sinfo)).toOption.map
        Sinfo.NodeAllocSum.allocNodes = some 1 ∧
      (Pbsnodes.assigned true (crowded.nodes.map ClusterNode.pbsnodes)).toOption.map Prod.snd =
        some 2 ∧
      crowded.nodes.length = 1 := by
  decide +kernel

end

end Kuintessence.Agent
