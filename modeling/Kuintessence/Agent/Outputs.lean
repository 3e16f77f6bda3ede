import Kuintessence.Agent.Script
import Kuintessence.Agent.Services
import Kuintessence.Lib.Path

namespace Kuintessence.Agent

open Kuintessence.Path (Dir Plain)

inductive Scheduler where
  | pbs
  | slurm
  deriving DecidableEq, Repr

-- What `internal_run_job` submits for a sub-task.
def scriptInfo (task : SubTask) (loadSoftware : String) (isMpiBeforeLoader : Bool) :
    Option ScriptInfo :=
  match task.taskType with
  | .usecaseExecution name arguments environments stdIn _ => some
    { id := task.id
      isMpiBeforeLoader := isMpiBeforeLoader
      parentId := task.parentId
      name := name
      loadSoftware := loadSoftware
      path := toString task.parentId ++ "/run.sh"
      arguments := arguments
      environments := environments
      stdIn := stdIn
      requirements := task.requirements }
  | _ => none

theorem submitJob_eq {task : SubTask} {loadSoftware : String} {isMpiBeforeLoader : Bool}
    {info : ScriptInfo} (h : scriptInfo task loadSoftware isMpiBeforeLoader = some info) :
    RunJob.submitJob task loadSoftware isMpiBeforeLoader = (do
      let jobId ← op (call (fun env n => env.jobId n) [.submitJob info])
      op (SubTasks.update { task with jobId := jobId })) := by
  rw [scriptInfo] at h
  rw [RunJob.submitJob]
  split at h
  · next htype =>
    cases h
    rw [htype]
  · cases h

def Scheduler.outputId (info : ScriptInfo) : Scheduler → Uuid
  | .pbs => info.parentId
  | .slurm => info.id

-- The path of an output directive.
def outputPath (scheduler : Scheduler) (basePath : String) (info : ScriptInfo) (file : String) :
    String :=
  basePath ++ "/" ++ toString (scheduler.outputId info) ++ "/" ++ file

def Scheduler.outputOption : Scheduler → String
  | .pbs => "#PBS -o "
  | .slurm => "#SBATCH --output="

def Scheduler.errorOption : Scheduler → String
  | .pbs => "#PBS -e "
  | .slurm => "#SBATCH --error="

def Scheduler.genScript (checked : Bool) (basePath includeEnv : String) (info : ScriptInfo) :
    Scheduler → Outcome String String
  | .pbs => .ok (Pbs.genScript basePath includeEnv info)
  | .slurm => Slurm.genScript checked basePath includeEnv info

-- Both directives stand at the top of a script.
def Scheduler.Directs (scheduler : Scheduler) (stdout stderr text : String) : Prop :=
  ∃ rest, text = "#!/bin/bash\n" ++ (scheduler.outputOption ++ stdout ++ "\n" ++
    (scheduler.errorOption ++ stderr ++ "\n" ++ rest))

theorem genScript_directs {scheduler : Scheduler} {checked : Bool}
    {basePath includeEnv text : String} {info : ScriptInfo}
    (h : scheduler.genScript checked basePath includeEnv info = .ok text) :
    scheduler.Directs (outputPath scheduler basePath info "STDOUT")
      (outputPath scheduler basePath info "STDERR") text := by
  have hout : "/STDOUT\n" = "/" ++ ("STDOUT" ++ "\n") := by decide
  have herr : "/STDERR\n" = "/" ++ ("STDERR" ++ "\n") := by decide
  cases scheduler with
  | pbs =>
    have htext : Pbs.genScript basePath includeEnv info = text := Outcome.ok.inj h
    unfold Pbs.genScript at htext
    rw [hout, herr] at htext
    simp only [String.append_assoc] at htext
    unfold Scheduler.Directs outputPath
    simp only [Scheduler.outputOption, Scheduler.errorOption, Scheduler.outputId,
      String.append_assoc]
    exact ⟨_, htext.symm⟩
  | slurm =>
    have htext : Slurm.genScript checked basePath includeEnv info = .ok text := h
    unfold Slurm.genScript at htext
    obtain ⟨header, -, htext⟩ := Outcome.bind_ok_iff.mp htext
    have htext := Outcome.ok.inj htext
    rw [hout, herr] at htext
    simp only [String.append_assoc] at htext
    unfold Scheduler.Directs outputPath
    simp only [Scheduler.outputOption, Scheduler.errorOption, Scheduler.outputId,
      String.append_assoc]
    exact ⟨_, htext.symm⟩

-- Characters that end the path of a directive or have a meaning of their own in it.
def plainChar (scheduler : Scheduler) (c : Char) : Bool :=
  !c.isWhitespace && !(['"', '\'', '\\'].contains c) &&
    (match scheduler with
    | .pbs => !([':', '$'].contains c)
    | .slurm => c != '%')

structure Proxy where
  homeDir : String
  saveDir : String
  deriving DecidableEq, Repr

-- The working directory and configuration of the agent, and the directory of a login on the proxy.
structure Site where
  cwd : Dir
  basePath : String
  proxy : Option Proxy
  home : Dir
  deriving DecidableEq, Repr

inductive Host where
  | here
  | remote
  deriving DecidableEq, Repr

structure Place where
  host : Host
  path : Dir
  deriving DecidableEq, Repr

namespace Site

variable (site : Site)

def place (path : String) : Place :=
  match site.proxy with
  | none => ⟨.here, Path.resolve site.cwd (Path.push site.basePath path)⟩
  | some proxy =>
    ⟨.remote, Path.expand site.home (Path.push (Path.push proxy.homeDir proxy.saveDir) path)⟩

-- The directory that holds the directories of all tasks.
def root : Place :=
  match site.proxy with
  | none => ⟨.here, Path.resolve site.cwd site.basePath⟩
  | some proxy => ⟨.remote, Path.expand site.home (Path.push proxy.homeDir proxy.saveDir)⟩

-- `sbatch` and `qsub` are started in the directory of the script.
def submitDir (info : ScriptInfo) : Place :=
  ⟨(site.place info.path).host, (site.place info.path).path.dropLast⟩

def fileOf : Dto.CollectFrom → String
  | .fileOut path => path
  | .stdout => "STDOUT"
  | .stderr => "STDERR"

-- The file that `load_file` reads, or copies over first.
def loaded (parentId : Uuid) (source : Dto.CollectFrom) : Place :=
  match site.proxy with
  | none => ⟨.here, Path.resolve site.cwd
      (Path.push (Path.push site.basePath (toString parentId)) (fileOf source))⟩
  | some proxy => ⟨.remote, Path.expand site.home
      (Path.push (Path.push (Path.push proxy.homeDir proxy.saveDir) (toString parentId))
        (fileOf source))⟩

-- A relative path of a directive starts from the directory of the submission.
def directed (scheduler : Scheduler) (info : ScriptInfo) (file : String) : Option Place :=
  if (outputPath scheduler site.basePath info file).toList.all (plainChar scheduler) then
    some ⟨(site.submitDir info).host,
      Path.resolve (site.submitDir info).path (outputPath scheduler site.basePath info file)⟩
  else none

-- The directories at the submission; `mkdir` is the answer of the proxy.
def Present (dirs : Place → Prop) (mkdir : Bool) (info : ScriptInfo) (place : Place) : Prop :=
  dirs place ∨ place.host = .here ∧ place.path <+: Path.resolve site.cwd site.basePath ∨
    site.proxy ≠ none ∧ mkdir = true ∧ place.host = .remote ∧
      place.path <+: (site.submitDir info).path

-- The script can be written only into a directory that is there.
def Reaches (dirs : Place → Prop) (mkdir : Bool) (info : ScriptInfo) : Prop :=
  site.Present dirs mkdir info
    ⟨.here, (Path.resolve site.cwd (Path.push site.basePath info.path)).dropLast⟩

structure Coincides (scheduler : Scheduler) (dirs : Place → Prop) (mkdir : Bool)
    (info : ScriptInfo) : Prop where
  stdout : site.directed scheduler info "STDOUT" = some (site.loaded info.parentId .stdout)
  stderr : site.directed scheduler info "STDERR" = some (site.loaded info.parentId .stderr)
  exist : site.Reaches dirs mkdir info → ∀ place, site.directed scheduler info "STDOUT" = some place →
    site.Present dirs mkdir info ⟨place.host, place.path.dropLast⟩

structure Apt (scheduler : Scheduler) (dirs : Place → Prop) (mkdir : Bool) (info : ScriptInfo) :
    Prop where
  plain : site.basePath.toList.all (plainChar scheduler) = true
  base : Path.resolve (site.submitDir info).path (site.basePath ++ "/") = site.root.path
  task : scheduler = .slurm → info.id = info.parentId
  made : site.proxy ≠ none → site.Reaches dirs mkdir info →
    mkdir = true ∨ dirs ⟨.remote, (site.submitDir info).path⟩

section Places

variable {site : Site} {scheduler : Scheduler} {dirs : Place → Prop} {mkdir : Bool}
  {info : ScriptInfo} {file : String}

theorem plain_runSh : Plain "run.sh" := ⟨by decide, by decide, by decide, by decide⟩

theorem plain_stdout : Plain "STDOUT" := ⟨by decide, by decide, by decide, by decide⟩

theorem plain_stderr : Plain "STDERR" := ⟨by decide, by decide, by decide, by decide⟩

theorem loaded_eq (site : Site) (parentId : Uuid) {source : Dto.CollectFrom}
    (h : Plain (fileOf source)) : site.loaded parentId source =
      ⟨site.root.host, site.root.path ++ [(toString parentId).toList, (fileOf source).toList]⟩ := by
  rw [loaded, root]
  cases site.proxy with
  | none =>
    dsimp only
    rw [Path.resolve_push_plain h, Path.resolve_push_plain (Path.plain_digits parentId),
      List.append_assoc]
    rfl
  | some proxy =>
    dsimp only
    rw [Path.expand_push_plain h, Path.expand_push_plain (Path.plain_digits parentId),
      List.append_assoc]
    rfl

theorem loaded_stdout (site : Site) (parentId : Uuid) : site.loaded parentId .stdout =
    ⟨site.root.host, site.root.path ++ [(toString parentId).toList, "STDOUT".toList]⟩ := by
  have hplain : Plain (fileOf .stdout) := plain_stdout
  exact loaded_eq site parentId hplain

theorem loaded_stderr (site : Site) (parentId : Uuid) : site.loaded parentId .stderr =
    ⟨site.root.host, site.root.path ++ [(toString parentId).toList, "STDERR".toList]⟩ := by
  have hplain : Plain (fileOf .stderr) := plain_stderr
  exact loaded_eq site parentId hplain

theorem scriptPath_eq (hpath : info.path = toString info.parentId ++ "/run.sh") :
    info.path = toString info.parentId ++ "/" ++ "run.sh" := by
  have hsplit : "/run.sh" = "/" ++ "run.sh" := by decide
  rw [hpath, hsplit, String.append_assoc]

theorem dropLast_pair {α : Type} (dir : List α) (a b : α) :
    (dir ++ [a, b]).dropLast = dir ++ [a] := by
  rw [List.append_cons, List.dropLast_concat]

theorem submitDir_eq (site : Site) (hpath : info.path = toString info.parentId ++ "/run.sh") :
    site.submitDir info = ⟨site.root.host, site.root.path ++ [(toString info.parentId).toList]⟩ := by
  rw [submitDir, place, root, scriptPath_eq hpath]
  cases site.proxy with
  | none =>
    obtain ⟨hrelative, -, hbelow⟩ := Path.below (Path.plain_digits info.parentId) plain_runSh
      (Path.resolve site.cwd site.basePath)
    dsimp only
    rw [Path.resolve_push hrelative, hbelow, dropLast_pair]
  | some proxy =>
    obtain ⟨hrelative, htilde, hbelow⟩ := Path.below (Path.plain_digits info.parentId) plain_runSh
      (Path.expand site.home (Path.push proxy.homeDir proxy.saveDir))
    dsimp only
    rw [Path.expand_push hrelative htilde, hbelow, dropLast_pair]

theorem resolve_outputPath (h : Plain file) (cwd : Dir) :
    Path.resolve cwd (outputPath scheduler site.basePath info file) =
      Path.resolve cwd (site.basePath ++ "/") ++
        [(toString (scheduler.outputId info)).toList, file.toList] := by
  have hid := Path.plain_digits (scheduler.outputId info)
  have hne : site.basePath ++ "/" ++ toString (scheduler.outputId info) ≠ "" :=
    Path.append_ne_empty _ fun heq => by
      have hbad := hid.names
      rw [heq] at hbad
      cases hbad
  rw [outputPath, Path.resolve_slash h, Path.resolve_trailing hne, Path.resolve_slash hid,
    List.append_assoc]
  rfl

theorem plainChar_of_isDigit (scheduler : Scheduler) {c : Char} (h : c.isDigit = true) :
    plainChar scheduler c = true := by
  have hne {d : Char} (hd : d.isDigit = false) : c ≠ d := by
    rintro rfl
    rw [h] at hd
    cases hd
  have hspace : c.isWhitespace = false := by
    simp [Char.isWhitespace, hne (d := ' ') rfl, hne (d := '\t') rfl, hne (d := '\r') rfl,
      hne (d := '\n') rfl]
  have hdouble : c ≠ '"' := hne rfl
  have hsingle : c ≠ '\'' := hne rfl
  have hback : c ≠ '\\' := hne rfl
  cases scheduler with
  | pbs =>
    have hcolon : c ≠ ':' := hne rfl
    have hdollar : c ≠ '$' := hne rfl
    simp [plainChar, hspace, hdouble, hsingle, hback, hcolon, hdollar]
  | slurm =>
    have hpercent : c ≠ '%' := hne rfl
    simp [plainChar, hspace, hdouble, hsingle, hback, hpercent]

theorem plain_outputPath_iff (hfile : file.toList.all (plainChar scheduler) = true) :
    (outputPath scheduler site.basePath info file).toList.all (plainChar scheduler) = true ↔
      site.basePath.toList.all (plainChar scheduler) = true := by
  have hslash : "/".toList.all (plainChar scheduler) = true := by
    cases scheduler with
    | pbs => decide
    | slurm => decide
  have hid : (toString (scheduler.outputId info)).toList.all (plainChar scheduler) = true := by
    rw [Nat.toString_eq_ofList_toDigits, String.toList_ofList, List.all_eq_true]
    exact fun c hc => plainChar_of_isDigit scheduler
      (Nat.isDigit_of_mem_toDigits (by decide) (by decide) hc)
  rw [outputPath]
  simp only [String.toList_append, List.all_append, hfile, hslash, hid, Bool.and_true]

theorem toString_inj {n m : Nat} (h : toString n = toString m) : n = m := by
  rw [Nat.toString_eq_ofList_toDigits, Nat.toString_eq_ofList_toDigits] at h
  have hdigits := congrArg (fun cs => Nat.ofDigitChars 10 cs 0) (String.ofList_injective h)
  rwa [Nat.ofDigitChars_ten_toDigits, Nat.ofDigitChars_ten_toDigits] at hdigits

theorem directed_eq_iff (h : Plain file) (hfile : file.toList.all (plainChar scheduler) = true)
    (hpath : info.path = toString info.parentId ++ "/run.sh") :
    site.directed scheduler info file =
        some ⟨site.root.host, site.root.path ++ [(toString info.parentId).toList, file.toList]⟩ ↔
      site.basePath.toList.all (plainChar scheduler) = true ∧
        Path.resolve (site.submitDir info).path (site.basePath ++ "/") = site.root.path ∧
        scheduler.outputId info = info.parentId := by
  rw [directed]
  split
  · next hplain =>
    rw [and_iff_right ((plain_outputPath_iff hfile).mp hplain), resolve_outputPath h,
      submitDir_eq site hpath]
    constructor
    · intro heq
      have hpaths := congrArg Place.path (Option.some.inj heq)
      obtain ⟨hbase, hrest⟩ := List.append_inj' hpaths rfl
      have hids := String.toList_injective (List.cons.inj hrest).1
      exact ⟨hbase, toString_inj hids⟩
    · rintro ⟨hbase, hids⟩
      rw [hbase, hids]
  · next hplain =>
    exact iff_of_false nofun fun hall => hplain ((plain_outputPath_iff hfile).mpr hall.1)

theorem plain_outputs (scheduler : Scheduler) :
    "STDOUT".toList.all (plainChar scheduler) = true ∧
      "STDERR".toList.all (plainChar scheduler) = true := by
  cases scheduler with
  | pbs => decide
  | slurm => decide

theorem outputId_iff : scheduler.outputId info = info.parentId ↔
    (scheduler = .slurm → info.id = info.parentId) := by
  cases scheduler with
  | pbs => exact ⟨fun _ => nofun, fun _ => rfl⟩
  | slurm => exact ⟨fun h _ => h, fun h => h rfl⟩

theorem present_iff (hpath : info.path = toString info.parentId ++ "/run.sh") :
    (site.Reaches dirs mkdir info → site.Present dirs mkdir info
        ⟨site.root.host, site.root.path ++ [(toString info.parentId).toList]⟩) ↔
      (site.proxy ≠ none → site.Reaches dirs mkdir info →
        mkdir = true ∨ dirs ⟨.remote, (site.submitDir info).path⟩) := by
  rw [Reaches, submitDir_eq site hpath]
  cases hproxy : site.proxy with
  | none =>
    refine iff_of_true (fun h => ?_) fun h => absurd rfl h
    have hplace : (⟨site.root.host, site.root.path ++ [(toString info.parentId).toList]⟩ : Place) =
        ⟨.here, (Path.resolve site.cwd (Path.push site.basePath info.path)).dropLast⟩ := by
      rw [← submitDir_eq site hpath, submitDir, place, hproxy]
    rwa [hplace]
  | some proxy =>
    have hne : some proxy ≠ none := nofun
    rw [forall_prop_of_true hne]
    refine imp_congr_right fun _ => ?_
    have hhost : site.root.host = .remote := by
      rw [root, hproxy]
    rw [Present, hhost, submitDir_eq site hpath]
    constructor
    · rintro (hdirs | ⟨hhere, -⟩ | ⟨-, hmkdir, -⟩)
      · exact .inr hdirs
      · cases hhere
      · exact .inl hmkdir
    · rintro (hmkdir | hdirs)
      · exact .inr (.inr ⟨by rw [hproxy]; nofun, hmkdir, rfl, List.prefix_rfl⟩)
      · exact .inl hdirs

end Places

end Site

section Coincidence

variable {scheduler : Scheduler} {site : Site} {dirs : Place → Prop} {mkdir : Bool}
  {info : ScriptInfo}

variable (scheduler site) in
theorem directed_loaded_iff (hpath : info.path = toString info.parentId ++ "/run.sh") :
    (site.directed scheduler info "STDOUT" = some (site.loaded info.parentId .stdout) ↔
      site.basePath.toList.all (plainChar scheduler) = true ∧
        Path.resolve (site.submitDir info).path (site.basePath ++ "/") = site.root.path ∧
        scheduler.outputId info = info.parentId) ∧
    (site.directed scheduler info "STDERR" = some (site.loaded info.parentId .stderr) ↔
      site.basePath.toList.all (plainChar scheduler) = true ∧
        Path.resolve (site.submitDir info).path (site.basePath ++ "/") = site.root.path ∧
        scheduler.outputId info = info.parentId) := by
  obtain ⟨hout, herr⟩ := Site.plain_outputs scheduler
  constructor
  · rw [Site.loaded_stdout site info.parentId]
    exact Site.directed_eq_iff Site.plain_stdout hout hpath
  · rw [Site.loaded_stderr site info.parentId]
    exact Site.directed_eq_iff Site.plain_stderr herr hpath

theorem exist_iff (hpath : info.path = toString info.parentId ++ "/run.sh")
    (hdirected : site.directed scheduler info "STDOUT" =
      some (site.loaded info.parentId .stdout)) :
    (site.Reaches dirs mkdir info → ∀ place, site.directed scheduler info "STDOUT" = some place →
        site.Present dirs mkdir info ⟨place.host, place.path.dropLast⟩) ↔
      (site.proxy ≠ none → site.Reaches dirs mkdir info →
        mkdir = true ∨ dirs ⟨.remote, (site.submitDir info).path⟩) := by
  rw [← Site.present_iff hpath, hdirected, Site.loaded_stdout site info.parentId]
  refine imp_congr_right fun _ => ⟨fun h => ?_, fun h place hplace => ?_⟩
  · have hdir := h _ rfl
    rwa [Site.dropLast_pair] at hdir
  · cases hplace
    rwa [Site.dropLast_pair]

theorem coincides_iff (hpath : info.path = toString info.parentId ++ "/run.sh") :
    site.Coincides scheduler dirs mkdir info ↔ site.Apt scheduler dirs mkdir info := by
  obtain ⟨hstdout, hstderr⟩ := directed_loaded_iff scheduler site hpath
  constructor
  · intro h
    obtain ⟨hplain, hbase, hid⟩ := hstdout.mp h.stdout
    exact {
      plain := hplain
      base := hbase
      task := Site.outputId_iff.mp hid
      made := (exist_iff hpath h.stdout).mp h.exist }
  · intro h
    have hall := And.intro h.plain (And.intro h.base (Site.outputId_iff.mpr h.task))
    have hdirected := hstdout.mpr hall
    exact {
      stdout := hdirected
      stderr := hstderr.mpr hall
      exist := (exist_iff hpath hdirected).mpr h.made }

end Coincidence

theorem scriptInfo_path {task : SubTask} {loadSoftware : String} {isMpiBeforeLoader : Bool}
    {info : ScriptInfo} (h : scriptInfo task loadSoftware isMpiBeforeLoader = some info) :
    info.path = toString info.parentId ++ "/run.sh" := by
  rw [scriptInfo] at h
  split at h
  · cases h
    rfl
  · cases h

theorem outputs_coincide_iff (scheduler : Scheduler) (site : Site) (dirs : Place → Prop)
    (mkdir : Bool) (task : SubTask) (loadSoftware : String) (isMpiBeforeLoader : Bool)
    (info : ScriptInfo) (hinfo : scriptInfo task loadSoftware isMpiBeforeLoader = some info) :
    (∀ checked includeEnv text,
      scheduler.genScript checked site.basePath includeEnv info = .ok text →
        scheduler.Directs (outputPath scheduler site.basePath info "STDOUT")
          (outputPath scheduler site.basePath info "STDERR") text) ∧
    (site.Coincides scheduler dirs mkdir info ↔ site.Apt scheduler dirs mkdir info) :=
  ⟨fun _ _ _ h => genScript_directs h, coincides_iff (scriptInfo_path hinfo)⟩

-- The execution of task 2 as its sub-task 1.
def execution : SubTask :=
  { id := 1, parentId := 2, taskType := .usecaseExecution "run" [] [] .none [] }

def executionInfo : ScriptInfo where
  id := 1
  isMpiBeforeLoader := false
  parentId := 2
  name := "run"
  loadSoftware := ""
  path := "2/run.sh"
  arguments := []
  environments := []
  stdIn := .none
  requirements := none

def site (basePath : String) : Site where
  cwd := ["agent".toList]
  basePath := basePath
  proxy := none
  home := []

theorem outputs_coincide :
    scriptInfo execution "" false = some executionInfo ∧
      ((site "/work").Coincides .pbs (fun _ => False) true executionInfo ↔
        (site "/work").Apt .pbs (fun _ => False) true executionInfo) :=
  ⟨by decide +kernel, (outputs_coincide_iff .pbs (site "/work") (fun _ => False) true execution ""
    false executionInfo (by decide +kernel)).2⟩

-- Slurm names the directory of the sub-task, which nothing makes; the default base path is relative.
theorem outputs_apart : scriptInfo execution "" false = some executionInfo ∧
    ¬(site "/work").Coincides .slurm (fun _ => False) true executionInfo ∧
      (site "/work").directed .slurm executionInfo "STDOUT" =
        some ⟨.here, ["work".toList, "1".toList, "STDOUT".toList]⟩ ∧
      (site "/work").loaded 2 .stdout =
        ⟨.here, ["work".toList, "2".toList, "STDOUT".toList]⟩ ∧
      ¬(site ".").Coincides .pbs (fun _ => False) true executionInfo := by
  have hslurm : (site "/work").directed .slurm executionInfo "STDOUT" ≠
      some ((site "/work").loaded executionInfo.parentId .stdout) := by decide +kernel
  have hpbs : (site ".").directed .pbs executionInfo "STDOUT" ≠
      some ((site ".").loaded executionInfo.parentId .stdout) := by decide +kernel
  exact ⟨by decide +kernel, fun h => hslurm h.stdout, by decide +kernel, by decide +kernel,
    fun h => hpbs h.stdout⟩

end Kuintessence.Agent
