import Kuintessence.Agent.Refreshing
import Kuintessence.Lib.Path
import Kuintessence.Lib.Text

namespace Kuintessence.Agent

open Prog

structure Command where
  program : String
  args : List String
  deriving DecidableEq, Repr

-- What a command leaves: whether its status is zero, and its output as text.
structure Output where
  success : Bool
  stdout : String
  stderr : String
  deriving DecidableEq, Repr

structure Tools where
  run : Command → Except String Output
  pathExists : String → Bool
  createDirAll : String → Except String Unit

structure SshProxyConfig where
  host : String
  username : String
  port : UInt16
  deriving DecidableEq, Repr

-- The end of both installers: the hash is what follows the last dash.
def hashOf (output : Output) : Outcome String String :=
  if output.success then
    match Text.rsplitOnce '-' (Text.trim output.stdout.toList) with
    | some (_, hash) => .ok (String.ofList hash)
    | none => .panic
  else .err output.stderr

structure SpackDeployer where
  sshProxy : Option SshProxyConfig
  deriving DecidableEq, Repr

namespace SpackDeployer

def installCommand (deployer : SpackDeployer) (name : String) (parameters : List String) :
    Command :=
  let paramters := String.join parameters
  match deployer.sshProxy with
  | some proxy => ⟨"ssh", ["-p", toString proxy.port.toNat, proxy.username ++ "@" ++ proxy.host,
      "spack install -y --fail-fast " ++ name ++ paramters]⟩
  | none => ⟨"spack", ["install", "-y", "--fail-fast", name ++ paramters]⟩

def pull (tools : Tools) (deployer : SpackDeployer) (name : String) (parameters : List String) :
    Except String Output :=
  (tools.run (deployer.installCommand name parameters)).mapError fun _ =>
    "Unable to run spack install"

def install (tools : Tools) (deployer : SpackDeployer) (name : String) (parameters : List String) :
    Outcome String String :=
  Outcome.ofExcept (pull tools deployer name parameters) >>= hashOf

end SpackDeployer

structure ApptainerDeployer where
  executionPath : String
  savePath : String
  apptainerProxy : Option String
  deriving DecidableEq, Repr

namespace ApptainerDeployer

def pullCommand (deployer : ApptainerDeployer) (name : String) (parameters : List String) :
    Command :=
  let parameters := String.join parameters
  let dockerUrl := match deployer.apptainerProxy with
    | some x => "docker://" ++ x ++ "/" ++ name ++ ":" ++ parameters
    | none => "docker://" ++ name ++ ":" ++ parameters
  ⟨deployer.executionPath,
    ["pull", deployer.savePath ++ "/" ++ name ++ "/" ++ parameters ++ ".sif", dockerUrl]⟩

def pull (tools : Tools) (deployer : ApptainerDeployer) (name : String) (parameters : List String) :
    Except String Output := do
  let path := Path.push deployer.savePath name
  if tools.pathExists path then pure () else tools.createDirAll path
  (tools.run (deployer.pullCommand name parameters)).mapError fun e =>
    "Unable to run apptainer pull because: " ++ e

def installFromCommandline (tools : Tools) (deployer : ApptainerDeployer) (name : String)
    (parameters : List String) : Outcome String String :=
  Outcome.ofExcept (pull tools deployer name parameters) >>= hashOf

end ApptainerDeployer

-- The deployers that are configured.
structure Deployers where
  spack : Option SpackDeployer
  apptainer : Option ApptainerDeployer
  deriving DecidableEq, Repr

-- What the lookup of an installed package answers.
abbrev Lookup := DeployerType → String → List String → Except String (Option String)

namespace DeploySoftware

def answer {δ : Type} (subTask : SubTask) (deployer : Option δ)
    (findInstalledHash : Except String (Option String)) (install : δ → Outcome String String) :
    Op Unit :=
  match deployer with
  | none => giveUp subTask "No such package manager."
  | some x =>
    match findInstalledHash with
    | .ok (some _) => deploy subTask .completing
    | _ => do
      let result ← Prog.attempt (.done (install x))
      match result with
      | .ok _ => deploy subTask .completing
      | .error e => giveUp subTask e

def runSubTaskOn (tools : Tools) (lookup : Lookup) (deployers : Deployers) (id : Uuid) : Op Unit := do
  let subTask ← op (SubTasks.getById id)
  match subTask.facilityKind with
  | .spack name argumentList =>
    answer subTask deployers.spack (lookup .spack name argumentList) fun x =>
      x.install tools name argumentList
  | .singularity image tag =>
    answer subTask deployers.apptainer (lookup .apptainer image [tag]) fun x =>
      x.installFromCommandline tools image [tag]
  | .unknown => giveUp subTask "No such package manager."

end DeploySoftware

def isFound : Except String (Option String) → Bool
  | .ok (some _) => true
  | _ => false

def isInstalled : Except String Output → Bool
  | .ok output => output.success
  | .error _ => false

-- The command succeeds, and what it prints has no dash.
def isDashless : Except String Output → Bool
  | .ok output => output.success && !output.stdout.toList.contains '-'
  | .error _ => false

-- What the lookup and the install command of the sub-task's deployer answer.
def deployment (tools : Tools) (lookup : Lookup) (deployers : Deployers) :
    FacilityKind → Option (Except String (Option String) × Except String Output)
  | .spack name argumentList => deployers.spack.map fun x =>
    (lookup .spack name argumentList, x.pull tools name argumentList)
  | .singularity image tag => deployers.apptainer.map fun x =>
    (lookup .apptainer image [tag], x.pull tools image [tag])
  | .unknown => none

def verdict : Option (Except String (Option String) × Except String Output) → TaskStatus
  | some (looked, pulled) => if isFound looked || isInstalled pulled then .completing else .failed
  | none => .failed

namespace DeploySoftware

variable {env : Env} {s : State} {row : SubTask}

theorem hashOf_panic_iff {output : Output} :
    hashOf output = .panic ↔ output.success = true ∧ '-' ∉ output.stdout.toList := by
  rw [hashOf, ← Text.mem_trim_iff (c := '-') (by decide), ← Text.rsplitOnce_eq_none_iff]
  cases output.success with
  | false => simp
  | true =>
    rw [if_pos rfl]
    cases Text.rsplitOnce '-' (Text.trim output.stdout.toList) with
    | none => simp
    | some p => simp

theorem deploys (status : TaskStatus) : (exec (deploy row status) env s).2.trace =
    s.trace ++ [.deployment ⟨row.id, status⟩] := rfl

theorem givesUp (henv : ∀ n, env.fails n = none) (hrow : ∃ x ∈ s.subTasks, x.id = row.id)
    (reason : String) : (exec (giveUp row reason) env s).2.trace =
      s.trace ++ [.deployment ⟨row.id, .failed⟩] := by
  let row' : SubTask := { row with failedReason := reason }
  rw [giveUp]
  simp only [exec_bind]
  have hsave := RunJob.save_ok (s := s.putSubTask row') (henv _)
  rw [show exec (op (SubTasks.update row')) = SubTasks.update row' from rfl,
    Effect.bind_of_ok (RunJob.update_row row' hrow),
    show exec (op saveChanged) = saveChanged from rfl, Effect.bind_of_ok hsave]
  rfl

theorem hashOf_ok {output : Output} (hsuccess : output.success = true)
    (hdash : '-' ∈ output.stdout.toList) : ∃ hash, hashOf output = .ok hash := by
  rw [hashOf, if_pos hsuccess]
  cases hsplit : Text.rsplitOnce '-' (Text.trim output.stdout.toList) with
  | some p => exact ⟨_, rfl⟩
  | none =>
    rw [Text.rsplitOnce_eq_none_iff, Text.mem_trim_iff (by decide)] at hsplit
    exact absurd hdash hsplit

-- The deployer is asked to install: the branches of `answer` after the lookup.
theorem installs_iff {pulled : Except String Output} (henv : ∀ n, env.fails n = none)
    (hrow : ∃ x ∈ s.subTasks, x.id = row.id) :
    (exec (do
      let result ← Prog.attempt (.done (Outcome.ofExcept pulled >>= hashOf))
      match result with
      | .ok _ => deploy row .completing
      | .error e => giveUp row e) env s).2.trace =
      s.trace ++ [.deployment ⟨row.id, if isInstalled pulled then .completing else .failed⟩] ↔
    isDashless pulled = false := by
  cases pulled with
  | error e =>
    exact ⟨fun _ => rfl, fun _ => givesUp henv hrow e⟩
  | ok output =>
    cases hsuccess : output.success with
    | false =>
      have hhash : hashOf output = .err output.stderr := by simp [hashOf, hsuccess]
      simp only [Outcome.ofExcept, Outcome.ok_bind, hhash, isInstalled, isDashless, hsuccess,
        Bool.false_and, Bool.false_eq_true, if_false]
      exact ⟨fun _ => trivial, fun _ => givesUp henv hrow output.stderr⟩
    | true =>
      by_cases hdash : '-' ∈ output.stdout.toList
      · obtain ⟨hash, hhash⟩ := hashOf_ok hsuccess hdash
        simp only [Outcome.ofExcept, Outcome.ok_bind, hhash, isInstalled, isDashless, hsuccess,
          if_true]
        exact ⟨fun _ => by simp [hdash], fun _ => deploys .completing⟩
      · have hhash : hashOf output = .panic := hashOf_panic_iff.mpr ⟨hsuccess, hdash⟩
        simp only [Outcome.ofExcept, Outcome.ok_bind, hhash, isInstalled, isDashless, hsuccess,
          if_true]
        refine ⟨fun h => ?_, fun h => ?_⟩
        · have hkept : s.trace = s.trace ++ [.deployment ⟨row.id, .completing⟩] := h
          exact absurd hkept (by simp)
        · simp [hdash] at h

theorem answer_iff {δ : Type} {deployer : Option δ} {looked : Except String (Option String)}
    {install : δ → Outcome String String} {pull : δ → Except String Output}
    (hinstall : ∀ x, install x = Outcome.ofExcept (pull x) >>= hashOf)
    (henv : ∀ n, env.fails n = none) (hrow : ∃ x ∈ s.subTasks, x.id = row.id) :
    (exec (answer row deployer looked install) env s).2.trace = s.trace ++
      [.deployment ⟨row.id, verdict (deployer.map fun x => (looked, pull x))⟩] ↔
    ∀ x, deployer = some x → isFound looked = false → isDashless (pull x) = false := by
  cases deployer with
  | none => exact ⟨fun _ => nofun, fun _ => givesUp henv hrow _⟩
  | some x =>
    have hone : (∀ y, some x = some y → isFound looked = false → isDashless (pull y) = false) ↔
        (isFound looked = false → isDashless (pull x) = false) :=
      ⟨fun h => h x rfl, fun h y hy => Option.some.inj hy ▸ h⟩
    have hasked (hfound : isFound looked = false) : (exec (do
        let result ← Prog.attempt (.done (install x))
        match result with
        | .ok _ => deploy row .completing
        | .error e => giveUp row e) env s).2.trace = s.trace ++
          [.deployment ⟨row.id, verdict (some (looked, pull x))⟩] ↔
        (isFound looked = false → isDashless (pull x) = false) := by
      rw [hinstall, verdict, hfound, Bool.false_or, imp_iff_right rfl]
      exact installs_iff henv hrow
    rw [hone]
    cases looked with
    | error e => exact hasked rfl
    | ok hash =>
      cases hash with
      | none => exact hasked rfl
      | some hash => exact ⟨fun _ => nofun, fun _ => deploys .completing⟩

theorem runSubTask_answers_iff (tools : Tools) (lookup : Lookup) (deployers : Deployers)
    (henv : ∀ n, env.fails n = none) (hrow : Rows.find SubTask.id row.id s.subTasks = some row) :
    (exec (runSubTaskOn tools lookup deployers row.id) env s).2.trace = s.trace ++
      [.deployment ⟨row.id, verdict (deployment tools lookup deployers row.facilityKind)⟩] ↔
    ∀ looked pulled, deployment tools lookup deployers row.facilityKind = some (looked, pulled) →
      isFound looked = false → isDashless pulled = false := by
  have hmem : ∃ x ∈ s.subTasks, x.id = row.id := ⟨row, List.mem_of_find?_eq_some hrow, rfl⟩
  rw [runSubTaskOn, exec_bind, show exec (op (SubTasks.getById row.id)) = SubTasks.getById row.id
    from rfl, Effect.bind_of_ok (RunJob.getById_of_find hrow)]
  have hall {δ : Type} {deployer : Option δ} {looked : Except String (Option String)}
      {pull : δ → Except String Output} :
      (∀ x, deployer = some x → isFound looked = false → isDashless (pull x) = false) ↔
      ∀ looked' pulled, (deployer.map fun x => (looked, pull x)) = some (looked', pulled) →
        isFound looked' = false → isDashless pulled = false := by
    cases deployer <;> simp
  cases hkind : row.facilityKind with
  | spack name argumentList =>
    exact (answer_iff (fun x => rfl) henv hmem).trans hall
  | singularity image tag =>
    exact (answer_iff (fun x => rfl) henv hmem).trans hall
  | unknown => exact ⟨fun _ => nofun, fun _ => givesUp henv hmem _⟩

def pulling : SubTask := { id := 3, parentId := 7, facilityKind := .singularity "gcc" "12" }

def idle : State := { State.initial 0 with subTasks := [pulling] }

def bothDeployers : Deployers := ⟨some ⟨none⟩, some ⟨"apptainer", "/opt/images", none⟩⟩

def printing (stdout : String) : Tools where
  run := fun _ => .ok ⟨true, stdout, ""⟩
  pathExists := fun _ => true
  createDirAll := fun _ => .ok ()

theorem runSubTask_answers_pulled :
    (exec (runSubTaskOn (printing "gcc-12.sif") (fun _ _ _ => .ok none) bothDeployers pulling.id)
      sampleEnv idle).2.trace = idle.trace ++
        [.deployment ⟨pulling.id, verdict (deployment (printing "gcc-12.sif") (fun _ _ _ => .ok none)
          bothDeployers pulling.facilityKind)⟩] := by
  refine (runSubTask_answers_iff (printing "gcc-12.sif") (fun _ _ _ => .ok none) bothDeployers
    (fun _ => rfl) rfl).mpr ?_
  intro looked pulled h _
  cases h
  decide +kernel

theorem runSubTask_silent : ¬∀ (tools : Tools) (lookup : Lookup) (deployers : Deployers) (env : Env)
    (s : State) (row : SubTask), (∀ n, env.fails n = none) →
    Rows.find SubTask.id row.id s.subTasks = some row →
    (exec (runSubTaskOn tools lookup deployers row.id) env s).2.trace = s.trace ++
      [.deployment ⟨row.id, verdict (deployment tools lookup deployers row.facilityKind)⟩] := by
  intro h
  have hsent := h (printing "") (fun _ _ _ => .ok none) bothDeployers sampleEnv idle pulling
    (fun _ => rfl) rfl
  exact absurd hsent (by decide +kernel)

end DeploySoftware

end Kuintessence.Agent
