import Kuintessence.Agent.Script
import Kuintessence.Lib.Text

namespace Kuintessence.Agent

-- What one directive asks for; times are in seconds.
inductive Directive where
  | nodes (n : Nat)
  | tasksPerNode (n : Nat)
  | layout (nodes tasksPerNode : Nat)
  | wallTime (seconds : Nat)
  | cpuTime (seconds : Nat)
  deriving DecidableEq, Repr

structure Allocation where
  nodes : Option Nat := none
  tasksPerNode : Option Nat := none
  wallTime : Option Nat := none
  deriving DecidableEq, Repr

-- A later directive takes the place of an earlier one.
def Allocation.apply (a : Allocation) : Directive → Allocation
  | .nodes n => { a with nodes := some n }
  | .tasksPerNode n => { a with tasksPerNode := some n }
  | .layout n m => { a with nodes := some n, tasksPerNode := some m }
  | .wallTime s => { a with wallTime := some s }
  | .cpuTime _ => a

namespace Directive

open Decimal

def denotesFrom (read : List Char → Option Directive) (a : Allocation) :
    List (List Char) → Option Allocation
  | [] => some a
  | row :: rest => (read row).bind fun d => denotesFrom read (a.apply d) rest

def denotes (read : List Char → Option Directive) (header : String) : Option Allocation :=
  denotesFrom read {} (Text.rows header.toList)

def prefixed (name : String) (cs : List Char) : Option Nat := (strip name.toList cs).bind number

-- A bare number is a time in minutes.
def readSlurm (cs : List Char) : Option Directive :=
  ((prefixed "#SBATCH --nodes=" cs).map .nodes).or
    (((prefixed "#SBATCH --ntasks-per-node=" cs).map .tasksPerNode).or
      ((prefixed "#SBATCH --time=" cs).map fun n => .wallTime (60 * n)))

-- The separator that is expected, and the number behind it.
def readNext (separator cs : List Char) : Option (Nat × List Char) :=
  (strip separator cs).bind readNat

def readTime (cs : List Char) : Option Nat := do
  let (hours, cs) ← readNat cs
  let (minutes, cs) ← readNext [':'] cs
  let (seconds, cs) ← readNext [':'] cs
  if cs = [] then some (3600 * hours + 60 * minutes + seconds) else none

def readLayout (cs : List Char) : Option Directive := do
  let (n, cs) ← readNat cs
  let (m, cs) ← readNext ":ppn=".toList cs
  if cs = [] then some (.layout n m) else none

def readPbs (cs : List Char) : Option Directive :=
  ((strip "#PBS -l nodes=".toList cs).bind readLayout).or
    ((((strip "#PBS -l walltime=".toList cs).bind readTime).map .wallTime).or
      (((strip "#PBS -l cput=".toList cs).bind readTime).map .cpuTime))

section Rows

variable {read : List Char → Option Directive} {a : Allocation} {d : Directive}
  {row rest : List Char}

theorem denotesFrom_row (hrow : '\n' ∉ row) (hread : read row = some d) :
    denotesFrom read a (Text.rows (row ++ '\n' :: rest)) =
      denotesFrom read (a.apply d) (Text.rows rest) := by
  rw [Text.rows_append hrow, denotesFrom, hread, Option.bind_some]

theorem denotesFrom_stop (hrow : '\n' ∉ row) (hread : read row = none) :
    denotesFrom read a (Text.rows (row ++ '\n' :: rest)) = none := by
  rw [Text.rows_append hrow, denotesFrom, hread, Option.bind_none]

end Rows

theorem prefixed_self (name : String) (n : Nat) :
    prefixed name (name.toList ++ Nat.toDigits 10 n) = some n := by
  rw [prefixed, strip_append, Option.bind_some, number_toDigits]

theorem readSlurm_nodes (n : Nat) :
    readSlurm ("#SBATCH --nodes=".toList ++ Nat.toDigits 10 n) = some (.nodes n) := by
  rw [readSlurm, prefixed_self]
  rfl

theorem readSlurm_tasks (n : Nat) :
    readSlurm ("#SBATCH --ntasks-per-node=".toList ++ Nat.toDigits 10 n) =
      some (.tasksPerNode n) := by
  have hnodes : prefixed "#SBATCH --nodes="
      ("#SBATCH --ntasks-per-node=".toList ++ Nat.toDigits 10 n) = none := rfl
  rw [readSlurm, prefixed_self, hnodes]
  rfl

theorem readSlurm_time (n : Nat) :
    readSlurm ("#SBATCH --time=".toList ++ Nat.toDigits 10 n) = some (.wallTime (60 * n)) := by
  have hnodes : prefixed "#SBATCH --nodes="
      ("#SBATCH --time=".toList ++ Nat.toDigits 10 n) = none := rfl
  have htasks : prefixed "#SBATCH --ntasks-per-node="
      ("#SBATCH --time=".toList ++ Nat.toDigits 10 n) = none := rfl
  rw [readSlurm, prefixed_self, hnodes, htasks]
  rfl

theorem readNext_digits (separator : List Char) (n : Nat) {rest : List Char}
    (hrest : ∀ c ∈ rest.head?, c.isDigit = false) :
    readNext separator (separator ++ (Nat.toDigits 10 n ++ rest)) = some (n, rest) := by
  rw [readNext, strip_append, Option.bind_some, readNat_toDigits n hrest]

theorem readNext_padded (separator : List Char) (n : Nat) {rest : List Char}
    (hrest : ∀ c ∈ rest.head?, c.isDigit = false) :
    readNext separator (separator ++ (padded n ++ rest)) = some (n, rest) := by
  rw [readNext, strip_append, Option.bind_some, readNat_padded n hrest]

theorem colon_head (cs : List Char) : ∀ c ∈ ((':' :: cs).head?), c.isDigit = false := by
  intro c hc
  cases hc
  rfl

theorem readLayout_digits (n m : Nat) : readLayout (Nat.toDigits 10 n ++
    (":ppn=".toList ++ (Nat.toDigits 10 m ++ []))) = some (.layout n m) := by
  have hcores : readNext ":ppn=".toList (":ppn=".toList ++ (Nat.toDigits 10 m ++ [])) =
      some (m, []) := readNext_digits ":ppn=".toList m nofun
  have hnodes : readNat (Nat.toDigits 10 n ++ (":ppn=".toList ++ (Nat.toDigits 10 m ++ []))) =
      some (n, ":ppn=".toList ++ (Nat.toDigits 10 m ++ [])) := readNat_toDigits n (colon_head _)
  rw [readLayout, hnodes]
  change (readNext ":ppn=".toList _).bind _ = _
  rw [hcores]
  rfl

theorem readTime_format (n : Nat) : readTime (formatDuration n).toList = some n := by
  have hlist : (formatDuration n).toList = padded (n / 3600) ++ ([':'] ++
      (padded (n % 3600 / 60) ++ ([':'] ++ (padded (n % 3600 % 60) ++ [])))) := by
    rw [formatDuration]
    simp only [String.toList_append, String.toList_ofList, List.append_assoc, List.append_nil]
    rfl
  have hseconds : readNext [':'] ([':'] ++ (padded (n % 3600 % 60) ++ [])) =
      some (n % 3600 % 60, []) := readNext_padded [':'] _ nofun
  have hminutes : readNext [':'] ([':'] ++ (padded (n % 3600 / 60) ++
      ([':'] ++ (padded (n % 3600 % 60) ++ [])))) =
        some (n % 3600 / 60, [':'] ++ (padded (n % 3600 % 60) ++ [])) :=
    readNext_padded [':'] _ (colon_head _)
  have hhours : readNat (padded (n / 3600) ++ ([':'] ++ (padded (n % 3600 / 60) ++
      ([':'] ++ (padded (n % 3600 % 60) ++ []))))) = some (n / 3600, [':'] ++
        (padded (n % 3600 / 60) ++ ([':'] ++ (padded (n % 3600 % 60) ++ [])))) :=
    readNat_padded _ (colon_head _)
  rw [hlist, readTime, hhours]
  change (readNext [':'] _).bind _ = _
  rw [hminutes]
  change (readNext [':'] _).bind _ = _
  rw [hseconds]
  change some (3600 * (n / 3600) + 60 * (n % 3600 / 60) + n % 3600 % 60) = some n
  congr 1
  omega

theorem readPbs_layout (n m : Nat) : readPbs ("#PBS -l nodes=".toList ++ (Nat.toDigits 10 n ++
    (":ppn=".toList ++ (Nat.toDigits 10 m ++ [])))) = some (.layout n m) := by
  rw [readPbs, strip_append, Option.bind_some, readLayout_digits]
  rfl

theorem readPbs_wallTime (n : Nat) :
    readPbs ("#PBS -l walltime=".toList ++ (formatDuration n).toList) = some (.wallTime n) := by
  have hnodes : strip "#PBS -l nodes=".toList
      ("#PBS -l walltime=".toList ++ (formatDuration n).toList) = none := rfl
  rw [readPbs, hnodes, strip_append, Option.bind_some, readTime_format]
  rfl

theorem readPbs_cpuTime (n : Nat) :
    readPbs ("#PBS -l cput=".toList ++ (formatDuration n).toList) = some (.cpuTime n) := by
  have hnodes : strip "#PBS -l nodes=".toList
      ("#PBS -l cput=".toList ++ (formatDuration n).toList) = none := rfl
  have hwall : strip "#PBS -l walltime=".toList
      ("#PBS -l cput=".toList ++ (formatDuration n).toList) = none := rfl
  rw [readPbs, hnodes, hwall, strip_append, Option.bind_some, readTime_format]
  rfl

-- A line that starts with the cores names no nodes.
theorem readPbs_bare (cs : List Char) : readPbs ("#PBS -l ppn=".toList ++ cs) = none := rfl

theorem readSlurm_literal :
    readSlurm "#SBATCH --ntasks-per-node=\x7bx\x7d".toList = none := by
  decide

theorem newline_not_digit (n : Nat) : '\n' ∉ Nat.toDigits 10 n :=
  fun h => absurd (isDigit_of_mem h) (by decide)

theorem newline_not_duration (n : Nat) : '\n' ∉ (formatDuration n).toList := by
  rw [formatDuration]
  simp only [String.toList_append, String.toList_ofList, List.mem_append, not_or]
  have hpad (m : Nat) : '\n' ∉ padded m := fun h => absurd (isDigit_of_mem_padded h) (by decide)
  exact ⟨⟨⟨⟨hpad _, by decide⟩, hpad _⟩, by decide⟩, hpad _⟩

end Directive

def Allocation.timed (a : Allocation) : Option Nat → Allocation
  | some s => { a with wallTime := some s }
  | none => a

theorem Allocation.timed_wallTime {a : Allocation} (h : a.wallTime = none) (t : Option Nat) :
    (a.timed t).wallTime = t := by
  cases t with
  | none => exact h
  | some s => rfl

-- Both headers are written and ask for the same; nothing overflows in a build that checks.
def Agrees (r : Dto.Requirements) : Prop :=
  ∃ header a, (∀ checked, Slurm.resourceHeader checked r = .ok header) ∧
    Directive.denotes Directive.readSlurm header = some a ∧
    Directive.denotes Directive.readPbs (Pbs.resourceHeader r) = some a

-- The number of nodes, unless it is not positive.
def nodesOf (r : Dto.Requirements) : Nat := (Slurm.nodes r.nodeCount).1

-- The times that the two headers ask for, with `cores` in all.
def slurmTime (r : Dto.Requirements) (cores : Nat) : Option Nat :=
  (r.maxCpuTime.map fun t => 60 * (t.toNat / cores)).or (r.maxWallTime.map fun t => 60 * t.toNat)

def pbsTime (r : Dto.Requirements) : Option Nat := r.maxWallTime.map fun t => t.toNat

structure Fits (r : Dto.Requirements) : Prop where
  nodes : ∀ x, r.nodeCount = some x → 0 < x.toInt
  cores : ∃ c, r.cpuCores = some c ∧ nodesOf r * c.toNat < 2 ^ 64 ∧
    (r.maxCpuTime ≠ none → nodesOf r * c.toNat ≠ 0) ∧
    slurmTime r (nodesOf r * c.toNat) = pbsTime r

namespace Directive

variable {a : Allocation}

theorem toList_numbered (name : String) (n : Nat) (rest : String) :
    (name ++ toString n ++ "\n" ++ rest).toList =
      (name.toList ++ Nat.toDigits 10 n) ++ '\n' :: rest.toList := by
  simp only [String.toList_append, Nat.toString_eq_ofList_toDigits, String.toList_ofList,
    List.append_assoc]
  rfl

theorem newline_not_numbered {name : String} (h : '\n' ∉ name.toList) (n : Nat) :
    '\n' ∉ name.toList ++ Nat.toDigits 10 n := by
  rw [List.mem_append, not_or]
  exact ⟨h, newline_not_digit n⟩

theorem denotes_slurmNodes (x : Option Int64) (rest : String) :
    denotesFrom readSlurm a (Text.rows ((Slurm.nodes x).2 ++ rest).toList) =
      denotesFrom readSlurm (a.apply (.nodes (Slurm.nodes x).1)) (Text.rows rest.toList) := by
  have hline : (Slurm.nodes x).2 =
      "#SBATCH --nodes=" ++ toString (Slurm.nodes x).1 ++ "\n" := by
    cases x with
    | none => rfl
    | some x =>
      rw [Slurm.nodes]
      split
      · rfl
      · rfl
  rw [hline, toList_numbered]
  exact denotesFrom_row (newline_not_numbered (by decide) _) (readSlurm_nodes _)

theorem denotes_slurmWall (w : Option UInt64) (rest : String) :
    denotesFrom readSlurm a (Text.rows (Slurm.wallTime w ++ rest).toList) =
      denotesFrom readSlurm (a.timed (w.map fun t => 60 * t.toNat)) (Text.rows rest.toList) := by
  cases w with
  | none => rw [Slurm.wallTime, String.empty_append]; rfl
  | some t =>
    rw [Slurm.wallTime, toList_numbered]
    exact denotesFrom_row (newline_not_numbered (by decide) _) (readSlurm_time _)

theorem denotes_slurmCpu {cores : Nat} {t : Option UInt64} {text : String}
    (h : Slurm.cpuTime cores t = .ok text) :
    denotesFrom readSlurm a (Text.rows text.toList) =
      some (a.timed (t.map fun t => 60 * (t.toNat / cores))) := by
  cases t with
  | none =>
    cases h
    rfl
  | some t =>
    rw [Slurm.cpuTime] at h
    split at h
    · cases h
    · cases h
      rw [← String.append_empty (s := _ ++ "\n"), toList_numbered]
      exact denotesFrom_row (newline_not_numbered (by decide) _) (readSlurm_time _)

theorem timed_timed (a : Allocation) (first second : Option Nat) :
    (a.timed first).timed second = a.timed (second.or first) := by
  cases second with
  | none => rfl
  | some s =>
    cases first with
    | none => rfl
    | some f => rfl

theorem resourceHeader_some {checked : Bool} {r : Dto.Requirements} {c : UInt64}
    (hcores : r.cpuCores = some c) (hfits : nodesOf r * c.toNat < 2 ^ 64) :
    Slurm.resourceHeader checked r =
      (Slurm.cpuTime (nodesOf r * c.toNat) r.maxCpuTime >>= fun cpu =>
        .ok ((Slurm.nodes r.nodeCount).2 ++
          ("#SBATCH --ntasks-per-node=" ++ toString c.toNat ++ "\n") ++
            Slurm.wallTime r.maxWallTime ++ cpu)) := by
  have htasks : Slurm.tasks checked (Slurm.nodes r.nodeCount).1 (some c) =
      .ok (nodesOf r * c.toNat, "#SBATCH --ntasks-per-node=" ++ toString c.toNat ++ "\n") := by
    rw [Slurm.tasks, nodesOf] at *
    rw [u64_of_nat hfits]
    rfl
  rw [Slurm.resourceHeader, hcores, htasks, Outcome.ok_bind]

theorem denotes_slurm {checked : Bool} {r : Dto.Requirements} {c : UInt64} {header : String}
    (hcores : r.cpuCores = some c) (hfits : nodesOf r * c.toNat < 2 ^ 64)
    (h : Slurm.resourceHeader checked r = .ok header) : denotes readSlurm header =
      some (({ nodes := some (nodesOf r), tasksPerNode := some c.toNat } : Allocation).timed
        (slurmTime r (nodesOf r * c.toNat))) := by
  rw [resourceHeader_some hcores hfits] at h
  obtain ⟨cpu, hcpu, htext⟩ := Outcome.bind_ok_iff.mp h
  cases htext
  rw [denotes, String.append_assoc, String.append_assoc, denotes_slurmNodes, toList_numbered,
    denotesFrom_row (newline_not_numbered (by decide) _) (readSlurm_tasks _), denotes_slurmWall,
    denotes_slurmCpu hcpu, timed_timed]
  rfl

theorem denotes_slurm_none {checked : Bool} {r : Dto.Requirements} {header : String}
    (hcores : r.cpuCores = none) (h : Slurm.resourceHeader checked r = .ok header) :
    denotes readSlurm header = none := by
  rw [Slurm.resourceHeader, hcores, Slurm.tasks, Outcome.ok_bind] at h
  obtain ⟨cpu, hcpu, htext⟩ := Outcome.bind_ok_iff.mp h
  cases htext
  have hline : "#SBATCH --ntasks-per-node=\x7bx\x7d\n".toList =
      "#SBATCH --ntasks-per-node=\x7bx\x7d".toList ++ ['\n'] := by decide
  rw [denotes, String.append_assoc, String.append_assoc, denotes_slurmNodes, String.toList_append]
  dsimp only
  rw [hline, List.append_assoc]
  exact denotesFrom_stop (by decide) readSlurm_literal

theorem pbsLayout_eq {x : Option Int64} (hx : ∀ y, x = some y → 0 < y.toInt) (c : Option UInt64) :
    Pbs.nodes x ++ Pbs.cores c = "#PBS -l nodes=" ++ toString (Slurm.nodes x).1 ++ ":ppn=" ++
      toString (c.elim 1 UInt64.toNat) ++ "\n" := by
  have hnodes : Pbs.nodes x = "#PBS -l nodes=" ++ toString (Slurm.nodes x).1 ++ ":" := by
    cases x with
    | none => rfl
    | some y =>
      have hpos := Int.not_le.mpr (hx y rfl)
      rw [Pbs.nodes, Slurm.nodes, if_neg hpos, if_neg hpos]
  have hcores : Pbs.cores c = "ppn=" ++ toString (c.elim 1 UInt64.toNat) ++ "\n" := by
    cases c with
    | none => rw [Pbs.cores, Option.elim_none]; decide
    | some c => rw [Pbs.cores, Option.elim_some]
  have hjoin : ":" ++ "ppn=" = ":ppn=" := by decide
  rw [hnodes, hcores, ← hjoin]
  simp only [String.append_assoc]

theorem toList_pbsTime (name : String) (n : Nat) (rest : String) :
    (name ++ formatDuration n ++ "\n" ++ rest).toList =
      (name.toList ++ (formatDuration n).toList) ++ '\n' :: rest.toList := by
  simp only [String.toList_append, List.append_assoc]
  rfl

theorem newline_not_pbsTime {name : String} (h : '\n' ∉ name.toList) (n : Nat) :
    '\n' ∉ name.toList ++ (formatDuration n).toList := by
  rw [List.mem_append, not_or]
  exact ⟨h, newline_not_duration n⟩

theorem denotes_pbsWall (w : Option UInt64) (rest : String) :
    denotesFrom readPbs a (Text.rows (Pbs.wallTime w ++ rest).toList) =
      denotesFrom readPbs (a.timed (w.map fun t => t.toNat)) (Text.rows rest.toList) := by
  cases w with
  | none =>
    have hnone : Pbs.wallTime none ++ rest = rest := String.empty_append
    exact congrArg (fun x => denotesFrom readPbs a (Text.rows x.toList)) hnone
  | some t =>
    have hsome : Pbs.wallTime (some t) =
        "#PBS -l walltime=" ++ formatDuration t.toNat ++ "\n" := rfl
    rw [hsome, toList_pbsTime]
    exact denotesFrom_row (newline_not_pbsTime (by decide) _) (readPbs_wallTime _)

theorem denotes_pbsCpu (t : Option UInt64) :
    denotesFrom readPbs a (Text.rows (Pbs.cpuTime t).toList) = some a := by
  cases t with
  | none => rfl
  | some t =>
    have hsome : Pbs.cpuTime (some t) =
        "#PBS -l cput=" ++ formatDuration t.toNat ++ "\n" ++ "" := String.append_empty.symm
    rw [hsome, toList_pbsTime]
    exact denotesFrom_row (newline_not_pbsTime (by decide) _) (readPbs_cpuTime _)

theorem toList_layout (n m : Nat) (rest : String) :
    ("#PBS -l nodes=" ++ toString n ++ ":ppn=" ++ toString m ++ "\n" ++ rest).toList =
      ("#PBS -l nodes=".toList ++ (Nat.toDigits 10 n ++
        (":ppn=".toList ++ (Nat.toDigits 10 m ++ [])))) ++ '\n' :: rest.toList := by
  simp only [String.toList_append, Nat.toString_eq_ofList_toDigits, String.toList_ofList,
    List.append_assoc, List.append_nil]
  rfl

theorem newline_not_layout (n m : Nat) : '\n' ∉ "#PBS -l nodes=".toList ++
    (Nat.toDigits 10 n ++ (":ppn=".toList ++ (Nat.toDigits 10 m ++ []))) := by
  simp only [List.mem_append, not_or]
  exact ⟨by decide, newline_not_digit n, by decide, newline_not_digit m, List.not_mem_nil⟩

theorem denotes_pbs {r : Dto.Requirements}
    (hnodes : ∀ x, r.nodeCount = some x → 0 < x.toInt) :
    denotes readPbs (Pbs.resourceHeader r) =
      some (({ nodes := some (nodesOf r),
               tasksPerNode := some (r.cpuCores.elim 1 UInt64.toNat) } : Allocation).timed
        (pbsTime r)) := by
  rw [denotes, Pbs.resourceHeader, pbsLayout_eq hnodes, String.append_assoc, toList_layout,
    denotesFrom_row (newline_not_layout _ _) (readPbs_layout _ _), denotes_pbsWall, denotes_pbsCpu]
  rfl

theorem denotes_pbs_none {r : Dto.Requirements} {x : Int64} (hx : r.nodeCount = some x)
    (hle : x.toInt ≤ 0) : denotes readPbs (Pbs.resourceHeader r) = none := by
  have hnodes : Pbs.nodes (some x) = "#PBS -l " := if_pos hle
  have hcores : ∃ row rest : List Char, '\n' ∉ row ∧
      (Pbs.cores r.cpuCores).toList = "ppn=".toList ++ row ++ '\n' :: rest := by
    cases r.cpuCores with
    | none => exact ⟨['1'], [], by decide, by decide⟩
    | some c =>
      refine ⟨Nat.toDigits 10 c.toNat, [], newline_not_digit _, ?_⟩
      have hsome : Pbs.cores (some c) = "ppn=" ++ toString c.toNat ++ "\n" := rfl
      simp only [hsome, String.toList_append, Nat.toString_eq_ofList_toDigits,
        String.toList_ofList]
      rfl
  obtain ⟨row, rest, hrow, hline⟩ := hcores
  have htext : (Pbs.resourceHeader r).toList = ("#PBS -l ppn=".toList ++ row) ++ '\n' ::
      (rest ++ ((Pbs.wallTime r.maxWallTime).toList ++ (Pbs.cpuTime r.maxCpuTime).toList)) := by
    have hjoin : "#PBS -l ppn=".toList = "#PBS -l ".toList ++ "ppn=".toList := rfl
    rw [Pbs.resourceHeader, hx, hnodes, hjoin]
    simp only [String.toList_append, hline, List.append_assoc, List.cons_append]
  rw [denotes, htext]
  refine denotesFrom_stop ?_ (readPbs_bare row)
  rw [List.mem_append, not_or]
  exact ⟨by decide, hrow⟩

end Directive

section Agreement

variable {r : Dto.Requirements} {c : UInt64} {header : String}

theorem cpuTime_ok_iff {cores : Nat} {t : Option UInt64} :
    (∃ text, Slurm.cpuTime cores t = .ok text) ↔ (t ≠ none → cores ≠ 0) := by
  cases t with
  | none => exact ⟨fun _ h => absurd rfl h, fun _ => ⟨"", rfl⟩⟩
  | some t =>
    rw [Slurm.cpuTime]
    split
    · next hzero => exact ⟨nofun, fun h => absurd hzero (h nofun)⟩
    · next hne => exact ⟨fun _ _ => hne, fun _ => ⟨_, rfl⟩⟩

theorem product_fits (hcores : r.cpuCores = some c) (h : Slurm.resourceHeader true r = .ok header) :
    nodesOf r * c.toNat < 2 ^ 64 := by
  rw [Slurm.resourceHeader, hcores] at h
  obtain ⟨tasks, htasks, -⟩ := Outcome.bind_ok_iff.mp h
  obtain ⟨cores, hproduct, -⟩ := Outcome.bind_ok_iff.mp htasks
  obtain ⟨heq, hlt⟩ := u64_true_ok_iff.mp hproduct
  rw [Int.natCast_inj] at heq
  rwa [nodesOf, heq]

theorem Agrees.fits (h : Agrees r) : Fits r := by
  obtain ⟨header, a, hheader, hslurm, hpbs⟩ := h
  have hnodes : ∀ x, r.nodeCount = some x → 0 < x.toInt := by
    intro x hx
    by_contra hle
    rw [Directive.denotes_pbs_none hx (Int.not_lt.mp hle)] at hpbs
    cases hpbs
  refine ⟨hnodes, ?_⟩
  cases hcores : r.cpuCores with
  | none =>
    rw [Directive.denotes_slurm_none hcores (hheader true)] at hslurm
    cases hslurm
  | some c =>
    have hfits := product_fits hcores (hheader true)
    refine ⟨c, rfl, hfits, ?_, ?_⟩
    · have hok := hheader true
      rw [Directive.resourceHeader_some hcores hfits] at hok
      obtain ⟨text, htext, -⟩ := Outcome.bind_ok_iff.mp hok
      exact cpuTime_ok_iff.mp ⟨text, htext⟩
    · rw [Directive.denotes_slurm hcores hfits (hheader true)] at hslurm
      rw [Directive.denotes_pbs hnodes, ← hslurm, hcores] at hpbs
      have htime := congrArg Allocation.wallTime (Option.some.inj hpbs)
      rw [Allocation.timed_wallTime rfl, Allocation.timed_wallTime rfl] at htime
      exact htime.symm

theorem Fits.agrees (h : Fits r) : Agrees r := by
  obtain ⟨c, hcores, hfits, hdivides, htime⟩ := h.cores
  obtain ⟨cpu, hcpu⟩ := cpuTime_ok_iff.mpr hdivides
  have hheader (checked : Bool) : Slurm.resourceHeader checked r =
      .ok ((Slurm.nodes r.nodeCount).2 ++
        ("#SBATCH --ntasks-per-node=" ++ toString c.toNat ++ "\n") ++
          Slurm.wallTime r.maxWallTime ++ cpu) := by
    rw [Directive.resourceHeader_some hcores hfits, hcpu, Outcome.ok_bind]
  refine ⟨_, _, hheader, Directive.denotes_slurm hcores hfits (hheader true), ?_⟩
  rw [Directive.denotes_pbs h.nodes, htime, hcores, Option.elim_some]

end Agreement

theorem agrees_iff (r : Dto.Requirements) : Agrees r ↔ Fits r := ⟨Agrees.fits, Fits.agrees⟩

-- Nothing is asked for, one hour of wall time, no core at all.
theorem requirements_disagree : ¬Agrees {} ∧
    ¬Agrees { cpuCores := some 4, maxWallTime := some 3600 } ∧
    ¬Agrees { cpuCores := some 0, maxCpuTime := some 60 } := by
  refine ⟨fun h => ?_, fun h => ?_, fun h => ?_⟩
  · obtain ⟨c, hcores, -⟩ := h.fits.cores
    cases hcores
  · obtain ⟨c, hcores, -, -, htime⟩ := h.fits.cores
    cases hcores
    revert htime
    decide
  · obtain ⟨c, hcores, -, hdivides, -⟩ := h.fits.cores
    cases hcores
    exact hdivides nofun (by decide)

end Kuintessence.Agent
