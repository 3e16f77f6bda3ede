import Kuintessence.Agent.Repository
import Kuintessence.Lib.Decimal
import Kuintessence.Lib.Machine

namespace Kuintessence.Agent

def exports (environments : List (String × String)) : String :=
  "\n".intercalate (environments.map fun e => "export " ++ e.1 ++ "=" ++ e.2)

-- The command line with its standard input.
def script (info : ScriptInfo) : String :=
  let command := info.name ++ " " ++ " ".intercalate info.arguments
  match info.stdIn with
  | .text text => command ++ " << EOF\n" ++ text ++ "\nEOF"
  | .file path => command ++ " < " ++ path
  | .none => command

def formatDuration (duration : Nat) : String :=
  .ofList (Decimal.padded (duration / 3600)) ++ ":" ++
    .ofList (Decimal.padded (duration % 3600 / 60)) ++ ":" ++
      .ofList (Decimal.padded (duration % 3600 % 60))

namespace Slurm

-- The nodes, and the directive about them.
def nodes : Option Int64 → Nat × String
  | some x =>
    if x.toInt ≤ 0 then (1, "#SBATCH --nodes=1\n")
    else (x.toInt.toNat, "#SBATCH --nodes=" ++ toString x.toInt.toNat ++ "\n")
  | none => (1, "#SBATCH --nodes=1\n")

-- Without a number of cores the text is not a format string.
def tasks (checked : Bool) (cores : Nat) : Option UInt64 → Outcome String (Nat × String)
  | some x => do
    let cores ← u64 checked (cores * x.toNat : Nat)
    .ok (cores, "#SBATCH --ntasks-per-node=" ++ toString x.toNat ++ "\n")
  | none => .ok (cores, "#SBATCH --ntasks-per-node=\x7bx\x7d\n")

def wallTime : Option UInt64 → String
  | some x => "#SBATCH --time=" ++ toString x.toNat ++ "\n"
  | none => ""

def cpuTime (cores : Nat) : Option UInt64 → Outcome String String
  | some x =>
    if cores = 0 then .panic else .ok ("#SBATCH --time=" ++ toString (x.toNat / cores) ++ "\n")
  | none => .ok ""

def resourceHeader (checked : Bool) (r : Dto.Requirements) : Outcome String String := do
  let t ← tasks checked (nodes r.nodeCount).1 r.cpuCores
  let cpu ← cpuTime t.1 r.maxCpuTime
  .ok ((nodes r.nodeCount).2 ++ t.2 ++ wallTime r.maxWallTime ++ cpu)

def requested (checked : Bool) : Option Dto.Requirements → Outcome String String
  | some r => resourceHeader checked r
  | none => .ok ""

def genScript (checked : Bool) (basePath includeEnv : String) (info : ScriptInfo) :
    Outcome String String := do
  let header ← requested checked info.requirements
  .ok ("#!/bin/bash\n" ++
    "#SBATCH --output=" ++ basePath ++ "/" ++ toString info.id ++ "/STDOUT\n" ++
    "#SBATCH --error=" ++ basePath ++ "/" ++ toString info.id ++ "/STDERR\n" ++
    "cd $SLURM_SUBMIT_DIR\n" ++
    header ++ "\n" ++
    exports info.environments ++ "\n" ++
    includeEnv ++ "\n" ++
    info.loadSoftware ++ "\n" ++
    "mpirun -np $SLURM_NPROCS " ++ script info ++ "\n" ++
    "ec=$?\n" ++
    "echo -n \"" ++ toString info.id ++ "\" > $SLURM_SUBMIT_DIR/.co.sig\n" ++
    "exit $ec\n")

end Slurm

namespace Pbs

def nodes : Option Int64 → String
  | some x =>
    if x.toInt ≤ 0 then "#PBS -l " else "#PBS -l nodes=" ++ toString x.toInt.toNat ++ ":"
  | none => "#PBS -l nodes=1:"

def cores : Option UInt64 → String
  | some x => "ppn=" ++ toString x.toNat ++ "\n"
  | none => "ppn=1\n"

def wallTime : Option UInt64 → String
  | some x => "#PBS -l walltime=" ++ formatDuration x.toNat ++ "\n"
  | none => ""

def cpuTime : Option UInt64 → String
  | some x => "#PBS -l cput=" ++ formatDuration x.toNat ++ "\n"
  | none => ""

def resourceHeader (r : Dto.Requirements) : String :=
  nodes r.nodeCount ++ cores r.cpuCores ++ wallTime r.maxWallTime ++ cpuTime r.maxCpuTime

def requested : Option Dto.Requirements → String
  | some r => resourceHeader r
  | none => ""

def genScript (basePath includeEnv : String) (info : ScriptInfo) : String :=
  "#!/bin/bash\n" ++
  "#PBS -o " ++ basePath ++ "/" ++ toString info.parentId ++ "/STDOUT\n" ++
  "#PBS -e " ++ basePath ++ "/" ++ toString info.parentId ++ "/STDERR\n" ++
  requested info.requirements ++ "\n" ++
  "cd $PBS_O_WORKDIR\n" ++
  "NP=\x60cat $PBS_NODEFILE | wc -l\x60\n" ++
  exports info.environments ++ "\n" ++
  includeEnv ++ "\n" ++
  info.loadSoftware ++ "\n" ++
  "mpirun -np $NP " ++ script info ++ "\n" ++
  "result = $?\n" ++
  "echo -n \"" ++ toString info.id ++ "\" > $PBS_O_WORKDIR/.co.sig\n" ++
  "$(exit $result)\n"

end Pbs

end Kuintessence.Agent
