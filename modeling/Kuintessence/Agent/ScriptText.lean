import Kuintessence.Agent.Directives
import Kuintessence.Agent.Outputs
import Kuintessence.Lib.Shell

namespace Kuintessence.Agent

open Shell Shell.Reader

def exportCommand (e : String × String) : Command :=
  { words := [literal "export".toList,
      literal e.1.toList ++ .lit '=' :: literal e.2.toList] }

-- The variable with the number of processes, and the directory of the submission.
def Scheduler.count : Scheduler → String
  | .pbs => "NP"
  | .slurm => "SLURM_NPROCS"

def Scheduler.directory : Scheduler → String
  | .pbs => "PBS_O_WORKDIR"
  | .slurm => "SLURM_SUBMIT_DIR"

def cdCommand (scheduler : Scheduler) : Command :=
  { words := [literal "cd".toList, [.var false scheduler.directory.toList]] }

-- The commands in front of those that a task brings along.
def entering : Scheduler → List Command
  | .pbs => [cdCommand .pbs, { words := [literal "NP".toList ++ [.lit '=',
      .capture false "cat $PBS_NODEFILE | wc -l".toList]] }]
  | .slurm => [cdCommand .slurm]

def launchWords (scheduler : Scheduler) (launcher : List Word) (info : ScriptInfo)
    (args : List Word) : List Word :=
  launcher ++ [literal "mpirun".toList] ++ [literal "-np".toList] ++
    [[.var false scheduler.count.toList]] ++ [literal info.name.toList] ++ args

def touchCommand (scheduler : Scheduler) (info : ScriptInfo) : Command :=
  { words := [literal "echo".toList, literal "-n".toList,
      .quotes :: (toString info.id).toList.map .quoted]
    output := some (.var false scheduler.directory.toList :: literal "/.co.sig".toList) }

-- The commands after that of the task.
def leaving (info : ScriptInfo) : Scheduler → List Command
  | .pbs => [{ words := [literal "result".toList, literal "=".toList, [.status false]] },
      touchCommand .pbs info, { words := [[.capture false "exit $result".toList]] }]
  | .slurm => [{ words := [literal "ec".toList ++ [.lit '=', .status false]] },
      touchCommand .slurm info, { words := [literal "exit".toList, [.var false "ec".toList]] }]

structure PlainEntry (e : String × String) : Prop where
  name : isName e.1.toList = true
  value : plainFrom (some '=') e.2.toList = true

-- What the script's text has to be made of for its commands to be those above.
structure Written (basePath includeEnv : String) (info : ScriptInfo)
    (prelude : List (Option Command)) (launcher args : List Word) : Prop where
  base : '\n' ∉ basePath.toList
  entries : ∀ e ∈ info.environments, PlainEntry e
  name : Plain info.name.toList
  path : ∀ path, info.stdIn = .file path → Plain path.toList
  arguments : Words (" ".intercalate info.arguments).toList args
  sections : ∀ read, (atWord read []).run (includeEnv ++ "\n" ++ info.loadSoftware ++ "\n").toList =
    atWord (read ++ prelude) launcher

section Lines

variable {read : List (Option Command)} {t : Chars}

theorem run_string (r : Shell.Reader) (a b : String) :
    r.run (a ++ b).toList = (r.run a.toList).run b.toList := by
  rw [String.toList_append, Shell.Reader.run_append]

-- In a comment.
def inComment (read : List (Option Command)) : Shell.Reader := { atWord read [] with mode := .comment }

theorem run_inComment (h : '\n' ∉ t) : (inComment read).run t = inComment read :=
  run_commentFrom rfl h

theorem newline_not_number (n : Nat) : '\n' ∉ (toString n).toList := by
  rw [Nat.toString_eq_ofList_toDigits, String.toList_ofList]
  exact Directive.newline_not_digit n

-- Text of comments only.
def Comments (text : String) : Prop :=
  ∀ read, (atWord read []).run text.toList = atWord read []

theorem comments_empty : Comments "" := fun _ => rfl

theorem Comments.append {a b : String} (ha : Comments a) (hb : Comments b) : Comments (a ++ b) := by
  intro read
  rw [run_string, ha, hb]

-- A text that starts a comment.
def Opens (start : String) : Prop := ∀ read, (atWord read []).run start.toList = inComment read

theorem opens_of_head {start : String} {t : Chars} (h : start.toList = '#' :: t) (ht : '\n' ∉ t) :
    Opens start := by
  intro read
  rw [h, run_cons]
  exact run_inComment ht

theorem Opens.append {start middle : String} (h : Opens start) (hmiddle : '\n' ∉ middle.toList) :
    Opens (start ++ middle) := by
  intro read
  rw [run_string, h, run_inComment hmiddle]

theorem Opens.line {start : String} (h : Opens start) : Comments (start ++ "\n") := by
  intro read
  rw [run_string, h]
  rfl

theorem comments_of_line {start line : String} {t : Chars} (hline : line = start ++ "\n")
    (h : start.toList = '#' :: t) (ht : '\n' ∉ t) : Comments line := by
  rw [hline]
  exact (opens_of_head h ht).line

theorem Opens.number {start : String} (h : Opens start) (n : Nat) :
    Comments (start ++ toString n ++ "\n") := (h.append (newline_not_number n)).line

theorem comments_slurmNodes (x : Option Int64) : Comments (Slurm.nodes x).2 := by
  have hopens : Opens "#SBATCH --nodes=" := opens_of_head rfl (by decide)
  have hone : Comments "#SBATCH --nodes=1\n" := by
    have hline : "#SBATCH --nodes=1\n" = "#SBATCH --nodes=1" ++ "\n" := by decide
    exact comments_of_line hline rfl (by decide)
  cases x with
  | none => exact hone
  | some x =>
    rw [Slurm.nodes]
    split
    · exact hone
    · exact hopens.number _

theorem comments_slurmTasks {checked : Bool} {cores : Nat} {x : Option UInt64} {t : Nat × String}
    (h : Slurm.tasks checked cores x = .ok t) : Comments t.2 := by
  have hopens : Opens "#SBATCH --ntasks-per-node=" := opens_of_head rfl (by decide)
  have hnone : Comments "#SBATCH --ntasks-per-node=\x7bx\x7d\n" := by
    have hline : "#SBATCH --ntasks-per-node=\x7bx\x7d\n" =
        "#SBATCH --ntasks-per-node=\x7bx\x7d" ++ "\n" := by decide
    exact comments_of_line hline rfl (by decide)
  cases x with
  | none =>
    cases h
    exact hnone
  | some x =>
    obtain ⟨n, -, h⟩ := Outcome.bind_ok_iff.mp h
    have ht := Outcome.ok.inj h
    rw [← ht]
    exact hopens.number _

theorem opens_slurmTime : Opens "#SBATCH --time=" := opens_of_head rfl (by decide)

theorem comments_slurmWall (x : Option UInt64) : Comments (Slurm.wallTime x) := by
  cases x with
  | none => exact comments_empty
  | some x => exact opens_slurmTime.number _

theorem comments_slurmCpu {cores : Nat} {x : Option UInt64} {t : String}
    (h : Slurm.cpuTime cores x = .ok t) : Comments t := by
  cases x with
  | none =>
    have ht := Outcome.ok.inj h
    rw [← ht]
    exact comments_empty
  | some x =>
    rw [Slurm.cpuTime] at h
    split at h
    · cases h
    · have ht := Outcome.ok.inj h
      rw [← ht]
      exact opens_slurmTime.number _

theorem comments_slurm {checked : Bool} {r : Option Dto.Requirements} {header : String}
    (h : Slurm.requested checked r = .ok header) : Comments header := by
  cases r with
  | none =>
    have hheader := Outcome.ok.inj h
    rw [← hheader]
    exact comments_empty
  | some r =>
    obtain ⟨t, ht, h⟩ := Outcome.bind_ok_iff.mp h
    obtain ⟨cpu, hcpu, h⟩ := Outcome.bind_ok_iff.mp h
    have hheader := Outcome.ok.inj h
    rw [← hheader]
    exact (((comments_slurmNodes _).append (comments_slurmTasks ht)).append
      (comments_slurmWall _)).append (comments_slurmCpu hcpu)

theorem comments_pbsTime {start : String} (h : Opens start) (n : Nat) :
    Comments (start ++ formatDuration n ++ "\n") := (h.append (Directive.newline_not_duration n)).line

theorem comments_pbsWall (x : Option UInt64) : Comments (Pbs.wallTime x) := by
  have hopens : Opens "#PBS -l walltime=" := opens_of_head rfl (by decide)
  cases x with
  | none => exact comments_empty
  | some x => exact comments_pbsTime hopens _

theorem comments_pbsCpu (x : Option UInt64) : Comments (Pbs.cpuTime x) := by
  have hopens : Opens "#PBS -l cput=" := opens_of_head rfl (by decide)
  cases x with
  | none => exact comments_empty
  | some x => exact comments_pbsTime hopens _

theorem opens_pbsNodes (x : Option Int64) : Opens (Pbs.nodes x) := by
  have hopens : Opens "#PBS -l nodes=" := opens_of_head rfl (by decide)
  cases x with
  | none => exact opens_of_head rfl (by decide)
  | some x =>
    rw [Pbs.nodes]
    split
    · exact opens_of_head rfl (by decide)
    · exact (hopens.append (newline_not_number _)).append (by decide)

theorem comments_pbsLayout (x : Option Int64) (c : Option UInt64) :
    Comments (Pbs.nodes x ++ Pbs.cores c) := by
  cases c with
  | none =>
    have hcores : Pbs.cores none = "ppn=1" ++ "\n" := by decide
    rw [hcores, ← String.append_assoc]
    exact ((opens_pbsNodes x).append (by decide)).line
  | some c =>
    rw [Pbs.cores, ← String.append_assoc, ← String.append_assoc]
    exact (((opens_pbsNodes x).append (by decide)).append (newline_not_number _)).line

theorem comments_pbs (r : Option Dto.Requirements) : Comments (Pbs.requested r) := by
  cases r with
  | none => exact comments_empty
  | some r =>
    exact ((comments_pbsLayout _ _).append (comments_pbsWall _)).append (comments_pbsCpu _)

theorem plainFrom_name {prev : Option Char} {name : Chars} (h : ∀ c ∈ name, isNameChar c = true)
    (rest : Chars) : plainFrom prev (name ++ '=' :: rest) = plainFrom (some '=') rest := by
  induction name generalizing prev with
  | nil => rfl
  | cons c name ih =>
    obtain ⟨hc, hrest⟩ := List.forall_mem_cons.mp h
    have htilde : c ≠ '~' := by
      rintro rfl
      cases hc
    rw [List.cons_append, plainFrom, ih hrest, isSafe_of_isNameChar hc]
    simp [htilde]

theorem PlainEntry.plain {e : String × String} (h : PlainEntry e) :
    Plain (e.1.toList ++ '=' :: e.2.toList) := by
  have hname := h.name
  have hvalue := h.value
  cases hlist : e.1.toList with
  | nil =>
    rw [hlist] at hname
    cases hname
  | cons c cs =>
    rw [hlist] at hname
    obtain ⟨hc, hcs⟩ := Bool.and_eq_true_iff.mp hname
    have hchar : isNameChar c = true := by
      rw [isNameStart] at hc
      rw [isNameChar, Char.isAlphanum]
      cases halpha : c.isAlpha with
      | true => rfl
      | false =>
        rw [halpha, Bool.false_or] at hc
        rw [hc, Bool.or_true]
    have hall : ∀ d ∈ c :: cs, isNameChar d = true := by
      intro d hd
      obtain rfl | hd := List.mem_cons.mp hd
      · exact hchar
      · exact List.all_eq_true.mp hcs d hd
    refine ⟨List.cons_ne_nil _ _, ?_, ?_⟩
    · intro hsharp
      have heq : c = '#' := Option.some.inj hsharp
      rw [heq] at hchar
      cases hchar
    · rw [plainFrom_name hall, hvalue]

theorem run_export {e : String × String} (h : PlainEntry e) (read : List (Option Command)) :
    (atWord read []).run ("export " ++ e.1 ++ "=" ++ e.2 ++ "\n").toList =
      atWord (read ++ [some (exportCommand e)]) [] := by
  have hexport : (atWord read []).run "export ".toList = atWord read [literal "export".toList] := rfl
  have hlist : (e.1 ++ ("=" ++ (e.2 ++ "\n"))).toList =
      (e.1.toList ++ '=' :: e.2.toList) ++ ['\n'] := by
    simp only [String.toList_append, List.append_assoc, List.cons_append]
    rfl
  rw [String.append_assoc, String.append_assoc, String.append_assoc, run_string, hexport, hlist,
    run_lastWord h.plain]
  simp only [literal, List.map_append, List.map_cons]
  rfl

theorem run_exports {environments : List (String × String)} (h : ∀ e ∈ environments, PlainEntry e)
    (read : List (Option Command)) :
    (atWord read []).run (exports environments ++ "\n").toList =
      atWord (read ++ environments.map fun e => some (exportCommand e)) [] := by
  induction environments generalizing read with
  | nil =>
    rw [List.map_nil, List.append_nil]
    rfl
  | cons e es ih =>
    obtain ⟨he, hes⟩ := List.forall_mem_cons.mp h
    cases es with
    | nil =>
      have hline : exports [e] = "export " ++ e.1 ++ "=" ++ e.2 := String.intercalate_singleton
      rw [hline, run_export he]
      rfl
    | cons f fs =>
      have hline : exports (e :: f :: fs) =
          "export " ++ e.1 ++ "=" ++ e.2 ++ "\n" ++ exports (f :: fs) := String.intercalate_cons_cons
      rw [hline, String.append_assoc, run_string, run_export he, ih hes, List.append_assoc]
      rfl

theorem comments_output {start : String} (h : Opens start) {basePath : String}
    (hbase : '\n' ∉ basePath.toList) (id : Uuid) {file : String} (hfile : '\n' ∉ file.toList) :
    Comments (start ++ basePath ++ "/" ++ toString id ++ file ++ "\n") :=
  ((((h.append hbase).append (by decide)).append (newline_not_number id)).append hfile).line

end Lines

section Sections

variable {basePath includeEnv : String} {info : ScriptInfo} {prelude : List (Option Command)}
  {launcher args : List Word} {read : List (Option Command)} {words : List Word}

def inputOf : Dto.StdInKind → Shell.Input
  | .text text => .text text.toList
  | .file path => .file (literal path.toList)
  | .none => .inherited

theorem run_name_blank (h : Written basePath includeEnv info prelude launcher args)
    (read : List (Option Command)) (words : List Word) :
    ((atWord read words).run info.name.toList).run " ".toList =
      atWord read (words ++ [literal info.name.toList]) := by
  have hblank := run_blankWord read words h.name
  rwa [Shell.Reader.run_append] at hblank

theorem run_arguments_blank (h : Written basePath includeEnv info prelude launcher args)
    (read : List (Option Command)) (words : List Word) :
    ((atWord read words).run (" ".intercalate info.arguments).toList).run " ".toList =
      atWord read (words ++ args) := by
  have hblank := h.arguments read words
  rwa [Shell.Reader.run_append] at hblank

theorem run_script (h : Written basePath includeEnv info prelude launcher args)
    (htext : ∀ text, info.stdIn ≠ .text text) (read : List (Option Command)) (words : List Word) :
    ((atWord read words).run (script info).toList).run "\n".toList =
      atWord (read ++ [some
        { words := words ++ [literal info.name.toList] ++ args, input := inputOf info.stdIn }]) [] := by
  rw [script]
  cases hstdIn : info.stdIn with
  | text text => exact absurd hstdIn (htext text)
  | file path =>
    have hinput : " < " = " " ++ "< " := by decide
    dsimp only
    rw [hinput]
    simp only [run_string]
    rw [run_name_blank h, run_arguments_blank h]
    exact run_input (h.path path hstdIn)
  | none =>
    dsimp only
    simp only [run_string]
    rw [run_name_blank h]
    have hne : words ++ [literal info.name.toList] ++ args ≠ [] := by
      simp
    exact h.arguments.newline hne

theorem run_script_text (h : Written basePath includeEnv info prelude launcher args) {text : String}
    (htext : info.stdIn = .text text) (read : List (Option Command)) (words : List Word) :
    ((atWord read words).run (script info).toList).run "\n".toList =
      (atHere read { words := words ++ [literal info.name.toList] ++ args } "EOF".toList [] []).run
        (text.toList ++ '\n' :: "EOF".toList ++ ['\n']) := by
  have hinput : " << EOF\n" = " " ++ "<< EOF\n" := by decide
  have hhere (ws : List Word) : (atWord read ws).run "<< EOF\n".toList =
      atHere read { words := ws } "EOF".toList [] [] := rfl
  have hend : "\nEOF".toList = '\n' :: "EOF".toList := by decide
  rw [script, htext]
  dsimp only
  rw [hinput]
  simp only [run_string]
  rw [run_name_blank h, run_arguments_blank h, hhere, hend, ← Shell.Reader.run_append, ← Shell.Reader.run_append,
    ← List.append_assoc]
  rfl

theorem run_launcher (scheduler : Scheduler) (read : List (Option Command)) (words : List Word) :
    (atWord read words).run ("mpirun -np $" ++ scheduler.count ++ " ").toList =
      atWord read (words ++ [literal "mpirun".toList] ++ [literal "-np".toList] ++
        [[.var false scheduler.count.toList]]) := by
  have hsplit : "mpirun -np $" = "mpirun" ++ " " ++ ("-np" ++ " ") ++ "$" := by decide
  have hmpirun : Plain "mpirun".toList := ⟨by decide, by decide, by decide⟩
  have hnp : Plain "-np".toList := ⟨by decide, by decide, by decide⟩
  have hcount : isName scheduler.count.toList = true := by
    cases scheduler with
    | pbs => decide
    | slurm => decide
  have hfirst := run_blankWord read words hmpirun
  have hsecond := run_blankWord read (words ++ [literal "mpirun".toList]) hnp
  rw [Shell.Reader.run_append] at hfirst hsecond
  have hthird := run_blankVar read
    (words ++ [literal "mpirun".toList] ++ [literal "-np".toList]) hcount
  rw [hsplit]
  simp only [run_string]
  have hblank : " ".toList = [' '] := rfl
  have hdollar : "$".toList ++ scheduler.count.toList = '$' :: scheduler.count.toList := rfl
  rw [hblank, hfirst, hsecond, ← Shell.Reader.run_append _ "$".toList, hdollar, hthird]

theorem run_touch (scheduler : Scheduler) (info : ScriptInfo) (read : List (Option Command)) :
    (atWord read []).run ("echo -n \"" ++ toString info.id ++ "\" > $" ++ scheduler.directory ++
      "/.co.sig\n").toList = atWord (read ++ [some (touchCommand scheduler info)]) [] := by
  have hecho : (atWord read []).run "echo -n \"".toList =
      atQuote read [literal "echo".toList, literal "-n".toList] [.quotes] := rfl
  have hclose (w : Word) : (atQuote read [literal "echo".toList, literal "-n".toList] w).run
      "\" ".toList = atWord read [literal "echo".toList, literal "-n".toList, w] := rfl
  have hid : ∀ c ∈ (toString info.id).toList, ['"', '\\', '$', '\x60'].contains c = false := by
    rw [Nat.toString_eq_ofList_toDigits, String.toList_ofList]
    intro c hc
    have hspecial : ∀ d ∈ ['"', '\\', '$', '\x60'], d.isDigit = false :=
      List.forall_iff_forall_mem.mp (by decide)
    refine Bool.eq_false_iff.mpr fun hbad => ?_
    have hdigit := hspecial c (List.contains_iff_mem.mp hbad)
    rw [Decimal.isDigit_of_mem hc] at hdigit
    cases hdigit
  have hsplit : "\" > $" = "\" " ++ ("> " ++ "$") := by decide
  have hdirectory : isName scheduler.directory.toList = true := by
    cases scheduler with
    | pbs => decide
    | slurm => decide
  have hsig : plainFrom (some '/') ".co.sig".toList = true := by decide
  rw [hsplit]
  simp only [run_string]
  have houtput := run_output read [literal "echo".toList, literal "-n".toList,
    .quotes :: (toString info.id).toList.map .quoted] hdirectory hsig
  have hdollar : "$".toList ++ scheduler.directory.toList = '$' :: scheduler.directory.toList := rfl
  have hfile : "/.co.sig\n".toList = '/' :: (".co.sig".toList ++ ['\n']) := rfl
  have hblank : "> ".toList = ['>', ' '] := rfl
  rw [hecho, run_quote hid, hclose, List.singleton_append, ← Shell.Reader.run_append _ "$".toList, hdollar, hfile,
    hblank, houtput]
  rfl

end Sections

section Whole

variable {basePath includeEnv : String} {info : ScriptInfo} {prelude : List (Option Command)}
  {launcher args : List Word}

-- The commands in front of that of the task.
def before (scheduler : Scheduler) (info : ScriptInfo) : List (Option Command) :=
  (entering scheduler).map some ++ info.environments.map fun e => some (exportCommand e)

-- The text around the command line of the task.
structure Parts (scheduler : Scheduler) (info : ScriptInfo) (prelude : List (Option Command))
    (launcher : List Word) (text head tail : String) : Prop where
  text : text = head ++ ("mpirun -np $" ++ scheduler.count ++ " " ++ script info ++ "\n" ++ tail)
  head : (atWord [] []).run head.toList = atWord (before scheduler info ++ prelude) launcher
  tail : ∀ read, (atWord read []).run tail.toList =
    atWord (read ++ (leaving info scheduler).map some) []

theorem run_sections (h : Written basePath includeEnv info prelude launcher args)
    (read : List (Option Command)) :
    (atWord read []).run (exports info.environments ++ "\n" ++
      (includeEnv ++ "\n" ++ info.loadSoftware ++ "\n")).toList =
        atWord (read ++ (info.environments.map fun e => some (exportCommand e)) ++ prelude)
          launcher := by
  rw [run_string, run_exports h.entries, h.sections]

theorem parts_slurm {checked : Bool} {text : String}
    (h : Written basePath includeEnv info prelude launcher args)
    (htext : Slurm.genScript checked basePath includeEnv info = .ok text) :
    ∃ head tail, Parts .slurm info prelude launcher text head tail := by
  unfold Slurm.genScript at htext
  obtain ⟨header, hheader, htext⟩ := Outcome.bind_ok_iff.mp htext
  have htext := Outcome.ok.inj htext
  refine ⟨"#!/bin/bash\n" ++
      ("#SBATCH --output=" ++ basePath ++ "/" ++ toString info.id ++ "/STDOUT" ++ "\n") ++
      ("#SBATCH --error=" ++ basePath ++ "/" ++ toString info.id ++ "/STDERR" ++ "\n") ++
      "cd $SLURM_SUBMIT_DIR\n" ++ header ++ "\n" ++ (exports info.environments ++ "\n" ++
        (includeEnv ++ "\n" ++ info.loadSoftware ++ "\n")),
    "ec=$?\n" ++ ("echo -n \"" ++ toString info.id ++ "\" > $" ++ Scheduler.slurm.directory ++
      "/.co.sig\n") ++ "exit $ec\n", ?_, ?_, ?_⟩
  · have hout : "/STDOUT\n" = "/STDOUT" ++ "\n" := by decide
    have herr : "/STDERR\n" = "/STDERR" ++ "\n" := by decide
    have hmpirun : "mpirun -np $SLURM_NPROCS " =
        "mpirun -np $" ++ (Scheduler.slurm.count ++ " ") := by decide
    have htouch : "\" > $SLURM_SUBMIT_DIR/.co.sig\n" =
        "\" > $" ++ (Scheduler.slurm.directory ++ "/.co.sig\n") := by decide
    rw [← htext, hout, herr, hmpirun, htouch]
    simp only [String.append_assoc]
  · have hbash : Comments "#!/bin/bash\n" := by
      have hline : "#!/bin/bash\n" = "#!/bin/bash" ++ "\n" := by decide
      exact comments_of_line hline rfl (by decide)
    have houtput : Comments ("#SBATCH --output=" ++ basePath ++ "/" ++ toString info.id ++
        "/STDOUT" ++ "\n") :=
      comments_output (opens_of_head rfl (by decide)) h.base info.id (by decide)
    have herror : Comments ("#SBATCH --error=" ++ basePath ++ "/" ++ toString info.id ++
        "/STDERR" ++ "\n") :=
      comments_output (opens_of_head rfl (by decide)) h.base info.id (by decide)
    have hcd : (atWord [] []).run "cd $SLURM_SUBMIT_DIR\n".toList =
        atWord [some (cdCommand .slurm)] [] := by decide +kernel
    rw [run_string _ _ (exports info.environments ++ _ ++ _), run_string _ _ "\n",
      run_string _ _ header, run_string _ _ "cd $SLURM_SUBMIT_DIR\n",
      (hbash.append houtput).append herror, hcd, comments_slurm hheader]
    exact run_sections h [some (cdCommand .slurm)]
  · intro read
    have hstatus : (atWord [] []).run "ec=$?\n".toList =
        atWord [some { words := [literal "ec".toList ++ [.lit '=', .status false]] }] [] := by
      decide +kernel
    have hexit : (atWord [] []).run "exit $ec\n".toList =
        atWord [some { words := [literal "exit".toList, [.var false "ec".toList]] }] [] := by
      decide +kernel
    rw [run_string _ _ "exit $ec\n", run_string _ "ec=$?\n", run_line hstatus, run_touch,
      run_line hexit, List.append_assoc, List.append_assoc]
    rfl

theorem parts_pbs (h : Written basePath includeEnv info prelude launcher args) :
    ∃ head tail, Parts .pbs info prelude launcher (Pbs.genScript basePath includeEnv info) head
      tail := by
  refine ⟨"#!/bin/bash\n" ++
      ("#PBS -o " ++ basePath ++ "/" ++ toString info.parentId ++ "/STDOUT" ++ "\n") ++
      ("#PBS -e " ++ basePath ++ "/" ++ toString info.parentId ++ "/STDERR" ++ "\n") ++
      Pbs.requested info.requirements ++ "\n" ++ "cd $PBS_O_WORKDIR\n" ++
      "NP=\x60cat $PBS_NODEFILE | wc -l\x60\n" ++ (exports info.environments ++ "\n" ++
        (includeEnv ++ "\n" ++ info.loadSoftware ++ "\n")),
    "result = $?\n" ++ ("echo -n \"" ++ toString info.id ++ "\" > $" ++ Scheduler.pbs.directory ++
      "/.co.sig\n") ++ "$(exit $result)\n", ?_, ?_, ?_⟩
  · have hout : "/STDOUT\n" = "/STDOUT" ++ "\n" := by decide
    have herr : "/STDERR\n" = "/STDERR" ++ "\n" := by decide
    have hmpirun : "mpirun -np $NP " = "mpirun -np $" ++ (Scheduler.pbs.count ++ " ") := by decide
    have htouch : "\" > $PBS_O_WORKDIR/.co.sig\n" =
        "\" > $" ++ (Scheduler.pbs.directory ++ "/.co.sig\n") := by decide
    unfold Pbs.genScript
    rw [hout, herr, hmpirun, htouch]
    simp only [String.append_assoc]
  · have hbash : Comments "#!/bin/bash\n" := by
      have hline : "#!/bin/bash\n" = "#!/bin/bash" ++ "\n" := by decide
      exact comments_of_line hline rfl (by decide)
    have houtput : Comments ("#PBS -o " ++ basePath ++ "/" ++ toString info.parentId ++
        "/STDOUT" ++ "\n") :=
      comments_output (opens_of_head rfl (by decide)) h.base info.parentId (by decide)
    have herror : Comments ("#PBS -e " ++ basePath ++ "/" ++ toString info.parentId ++
        "/STDERR" ++ "\n") :=
      comments_output (opens_of_head rfl (by decide)) h.base info.parentId (by decide)
    have hblank : Comments "\n" := fun _ => rfl
    have hentering : (atWord [] []).run ("cd $PBS_O_WORKDIR\n" ++
        "NP=\x60cat $PBS_NODEFILE | wc -l\x60\n").toList =
          atWord ((entering .pbs).map some) [] := by decide +kernel
    rw [run_string _ _ (exports info.environments ++ _ ++ _), String.append_assoc,
      run_string _ _ ("cd $PBS_O_WORKDIR\n" ++ _),
      (((hbash.append houtput).append herror).append (comments_pbs _)).append hblank, hentering]
    exact run_sections h ((entering .pbs).map some)
  · intro read
    have hstatus : (atWord [] []).run "result = $?\n".toList =
        atWord [some { words := [literal "result".toList, literal "=".toList, [.status false]] }] [] := by
      decide +kernel
    have hexit : (atWord [] []).run "$(exit $result)\n".toList =
        atWord [some { words := [[.capture false "exit $result".toList]] }] [] := by
      decide +kernel
    rw [run_string _ _ "$(exit $result)\n", run_string _ "result = $?\n", run_line hstatus, run_touch,
      run_line hexit, List.append_assoc, List.append_assoc]
    rfl

theorem genScript_parts {scheduler : Scheduler} {checked : Bool} {text : String}
    (h : Written basePath includeEnv info prelude launcher args)
    (htext : scheduler.genScript checked basePath includeEnv info = .ok text) :
    ∃ head tail, Parts scheduler info prelude launcher text head tail := by
  cases scheduler with
  | pbs =>
    have htext := Outcome.ok.inj htext
    rw [← htext]
    exact parts_pbs h
  | slurm => exact parts_slurm h htext

-- The command line of the task.
def launch (scheduler : Scheduler) (launcher : List Word) (info : ScriptInfo) (args : List Word)
    (input : Shell.Input) : Command :=
  { words := launchWords scheduler launcher info args, input := input }

theorem commands_script {scheduler : Scheduler} {checked : Bool} {text : String}
    (h : Written basePath includeEnv info prelude launcher args)
    (htext : scheduler.genScript checked basePath includeEnv info = .ok text)
    (hstdIn : ∀ text, info.stdIn ≠ .text text) :
    commands text.toList = before scheduler info ++ prelude ++
      some (launch scheduler launcher info args (inputOf info.stdIn)) ::
        (leaving info scheduler).map some := by
  obtain ⟨head, tail, hparts⟩ := genScript_parts h htext
  have hrun : (atWord [] []).run text.toList = atWord (before scheduler info ++ prelude ++
      some (launch scheduler launcher info args (inputOf info.stdIn)) ::
        (leaving info scheduler).map some) [] := by
    rw [hparts.text, run_string, hparts.head, run_string _ _ tail, run_string _ _ "\n",
      run_string _ _ (script info), run_launcher, run_script h hstdIn, hparts.tail, List.append_assoc]
    rfl
  rw [commands]
  have hstart : ({} : Shell.Reader) = atWord [] [] := rfl
  rw [hstart, hrun, finish_atWord]

-- The body of the here-document is never the text; what follows it is read as commands.
theorem commands_text {scheduler : Scheduler} {checked : Bool} {text stdIn : String}
    (h : Written basePath includeEnv info prelude launcher args)
    (htext : scheduler.genScript checked basePath includeEnv info = .ok text)
    (hstdIn : info.stdIn = .text stdIn) :
    (∃ body more, body ≠ stdIn.toList ∧ (∀ c ∈ body, c ∈ stdIn.toList ∨ c ∈ "\nEOF".toList) ∧
      commands text.toList = before scheduler info ++ prelude ++
        some (launch scheduler launcher info args (.text body)) :: more) ∨
    commands text.toList = before scheduler info ++ prelude ++ [none] := by
  obtain ⟨head, tail, hparts⟩ := genScript_parts h htext
  have hstart : ({} : Shell.Reader) = atWord [] [] := rfl
  rw [commands, hstart, hparts.text, run_string, hparts.head, run_string _ _ tail,
    run_string _ _ "\n", run_string _ _ (script info), run_launcher, run_script_text h hstdIn]
  have hdelimiter : '\n' ∉ "EOF".toList := by decide
  obtain ⟨body, rest, hbody, hrun⟩ | ⟨r, hmode, hread, hrun⟩ :=
    run_here (before scheduler info ++ prelude)
      { words := launchWords scheduler launcher info args } hdelimiter stdIn.toList [] []
  · refine .inl ⟨body, ((atWord [] []).run (rest ++ tail.toList)).finish, ?_, ?_, ?_⟩
    · rintro rfl
      rw [List.nil_append, List.append_assoc, List.append_assoc] at hbody
      have hcancel := List.append_cancel_left hbody
      cases hcancel
    · intro c hc
      have hmem : c ∈ body ++ "EOF".toList ++ '\n' :: rest :=
        List.mem_append_left _ (List.mem_append_left _ hc)
      rw [← hbody] at hmem
      simp at hmem ⊢
      tauto
    · rw [← launchWords, hrun, ← Shell.Reader.run_append, finish_run, List.append_assoc]
      rfl
  · refine .inr ?_
    rw [← launchWords, hrun, run_bad hmode, finish_bad hmode, hread]

end Whole

end Kuintessence.Agent
