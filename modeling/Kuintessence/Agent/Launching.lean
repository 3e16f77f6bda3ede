import Kuintessence.Agent.ScriptText
import Kuintessence.Lib.Session

namespace Kuintessence.Agent

open Shell Shell.State

def isLaunch (argv : List Chars) : Bool :=
  decide (["mpirun".toList, "-np".toList] <:+: argv)

-- The run of an event that mpirun starts.
def launchOf : Shell.Event → Option Run
  | .run r => if isLaunch r.argv then some r else none
  | _ => none

-- The events up to the first such run.
def launched : List Shell.Event → Option (List Shell.Event × Run)
  | [] => none
  | e :: events =>
    match launchOf e with
    | some r => some ([e], r)
    | none => (launched events).map fun out => (e :: out.1, out.2)

-- What a script has done with its command.
structure RunsAs (world : World) (info : ScriptInfo) (final : Shell.State)
    (events : List Shell.Event) (r : Run) : Prop where
  launch : launched final.events = some (events, r)
  name : ∃ front n rest, r.argv =
    front ++ ["mpirun".toList, "-np".toList, n, info.name.toList] ++ rest
  env : ∀ e ∈ info.environments, r.env e.1.toList = some e.2.toList
  stdin : ∀ text, info.stdIn = .text text → r.stdin = .text text.toList
  exit : final.final = (world.reply events).status

def Faithful (world : World) (s : Shell.State) (info : ScriptInfo) (text : String) : Prop :=
  ∃ final events r, s.execAll world (commands text.toList) = some final ∧
    RunsAs world info final events r

section Launched

variable {a : List Shell.Event} {out : List Shell.Event × Run}

theorem launched_append (h : launched a = none) (b : List Shell.Event) :
    launched (a ++ b) = (launched b).map fun out => (a ++ out.1, out.2) := by
  induction a with
  | nil =>
    rw [List.nil_append]
    cases launched b with
    | none => rfl
    | some out => rfl
  | cons e a ih =>
    rw [launched] at h
    rw [List.cons_append, launched]
    cases hlaunch : launchOf e with
    | some r =>
      rw [hlaunch] at h
      cases h
    | none =>
      rw [hlaunch] at h
      dsimp only at h ⊢
      rw [ih (Option.map_eq_none_iff.mp h), Option.map_map]
      rfl

theorem launched_prefix (h : launched a = some out) (b : List Shell.Event) :
    launched (a ++ b) = some out := by
  induction a generalizing out with
  | nil => cases h
  | cons e a ih =>
    rw [launched] at h
    rw [List.cons_append, launched]
    cases hlaunch : launchOf e with
    | some r =>
      rw [hlaunch] at h
      exact h
    | none =>
      rw [hlaunch] at h
      dsimp only at h ⊢
      obtain ⟨rest, hrest, rfl⟩ := Option.map_eq_some_iff.mp h
      rw [ih hrest]
      rfl

theorem launched_none (h : ∀ e ∈ a, launchOf e = none) : launched a = none := by
  induction a with
  | nil => rfl
  | cons e a ih =>
    obtain ⟨he, ha⟩ := List.forall_mem_cons.mp h
    rw [launched, he, ih ha]
    rfl

theorem launched_substitutes {s t : Shell.State} (hst : Substitutes s t)
    (h : launched s.events = none) : launched t.events = none := by
  obtain ⟨more, hmore, hall⟩ := hst.events
  have hnone : ∀ e ∈ more, launchOf e = none := by
    intro e he
    obtain ⟨body, env, rfl⟩ := hall e he
    rfl
  rw [hmore, launched_append h, launched_none hnone]
  rfl

end Launched

section Entering

variable {world : World} {s : Shell.State} {scheduler : Scheduler}

-- A step that leaves the variables alone and starts nothing with mpirun.
structure Calm (s t : Shell.State) : Prop where
  vars : t.vars = s.vars
  exit : t.exit = s.exit
  events : ∃ more, t.events = s.events ++ more ∧ ∀ e ∈ more, launchOf e = none

theorem Calm.launched {t : Shell.State} (hst : Calm s t) (h : launched s.events = none) :
    Agent.launched t.events = none := by
  obtain ⟨more, hmore, hall⟩ := hst.events
  rw [hmore, launched_append h, launched_none hall]
  rfl

theorem exec_cd (hcd : world.isFunction "cd".toList = false) (scheduler : Scheduler)
    (s : Shell.State) : ∃ t, s.exec world (cdCommand scheduler) = some t ∧ Calm s t := by
  have hwords : (cdCommand scheduler).words =
      literal "cd".toList :: [[.var false scheduler.directory.toList]] := rfl
  have hargv : ({ s with captured := none } : Shell.State).expandWords world
      (literal "cd".toList :: [[.var false scheduler.directory.toList]]) = ("cd".toList ::
        (({ s with captured := none } : Shell.State).expandWords world
          [[.var false scheduler.directory.toList]]).1, { s with captured := none }) :=
    expandWords_lit_of_all _ (by decide) rfl _
  rw [exec_simple hwords (by decide) (by decide) rfl rfl hargv,
    dispatch_call rfl (by decide) (by decide) rfl]
  refine ⟨_, rfl, call_vars rfl (by decide) hcd, rfl, ?_⟩
  rw [call_builtin rfl (by decide)]
  exact ⟨_, rfl, fun e he => by rw [List.mem_singleton.mp he]; rfl⟩

theorem exits_count : exits "cat $PBS_NODEFILE | wc -l".toList = none := by decide +kernel

-- What the script reads as its number of processes.
theorem exec_count (world : World) (s : Shell.State) : ∃ t,
    s.exec world { words := [literal "NP".toList ++ [.lit '=',
      .capture false "cat $PBS_NODEFILE | wc -l".toList]] } = some t ∧
    t.vars = s.vars.set "NP".toList (trimEnd (world.reply t.events).output) ∧ t.exit = s.exit ∧
    (launched s.events = none → launched t.events = none) := by
  have hcapture (u : Shell.State) : u.capture world "cat $PBS_NODEFILE | wc -l".toList =
      ((world.reply (u.events ++
        [.capture "cat $PBS_NODEFILE | wc -l".toList u.vars.env])).output,
        { u with
          events := u.events ++ [.capture "cat $PBS_NODEFILE | wc -l".toList u.vars.env]
          captured := some (world.reply (u.events ++
            [.capture "cat $PBS_NODEFILE | wc -l".toList u.vars.env])).status }) := by
    rw [capture, exits_count]
    rfl
  rw [exec_assign rfl (by decide) (by decide) (by decide), expand, expandPart, hcapture]
  refine ⟨_, rfl, ?_, rfl, fun h => ?_⟩
  · rw [expand, List.append_nil, plainText_marks]
  · have hnone : launched [Shell.Event.capture "cat $PBS_NODEFILE | wc -l".toList s.vars.env] = none :=
      rfl
    exact (launched_append h _).trans (by rw [hnone]; rfl)

-- The variables after the first commands of a script.
def entered (world : World) (s t : Shell.State) : Scheduler → Prop
  | .pbs => t.vars = s.vars.set "NP".toList (trimEnd (world.reply t.events).output)
  | .slurm => t.vars = s.vars

theorem execAll_entering (hcd : world.isFunction "cd".toList = false) (hexit : s.exit = none)
    (hevents : launched s.events = none) (scheduler : Scheduler) :
    ∃ t, s.execAll world ((entering scheduler).map some) = some t ∧ entered world s t scheduler ∧
      t.exit = none ∧ launched t.events = none := by
  obtain ⟨t, ht, hcalm⟩ := exec_cd hcd scheduler s
  have hexit' : t.exit = none := hcalm.exit.trans hexit
  cases scheduler with
  | pbs =>
    obtain ⟨u, hu, hvars, hexit'', hnone⟩ := exec_count world t
    refine ⟨u, ?_, ?_, hexit''.trans hexit', hnone (hcalm.launched hevents)⟩
    · rw [entering, List.map_cons, execAll_cons world hexit, ht, Option.bind_some, List.map_cons,
        execAll_cons world hexit', hu]
      rfl
    · rw [entered, hvars, hcalm.vars]
  | slurm =>
    refine ⟨t, ?_, hcalm.vars, hexit', hcalm.launched hevents⟩
    rw [entering, List.map_cons, execAll_cons world hexit, ht]
    rfl

end Entering

section Exporting

variable {world : World} {s : Shell.State} {environments : List (String × String)}

-- The variables after the exports.
def shared (vars : Vars) (environments : List (String × String)) : Vars :=
  environments.foldl (fun vars e => (vars.set e.1.toList e.2.toList).share e.1.toList) vars

variable (world) in
theorem execAll_exports (hentries : ∀ e ∈ environments, PlainEntry e)
    (hfree : ∀ e ∈ environments, e.1.toList ∉ reserved) (hexit : s.exit = none) :
    ∃ t, s.execAll world (environments.map fun e => some (exportCommand e)) = some t ∧
      t.vars = shared s.vars environments ∧ t.exit = none ∧ t.events = s.events := by
  induction environments generalizing s with
  | nil => exact ⟨s, rfl, rfl, hexit, rfl⟩
  | cons e es ih =>
    obtain ⟨he, hes⟩ := List.forall_mem_cons.mp hentries
    obtain ⟨hfreeE, hfreeEs⟩ := List.forall_mem_cons.mp hfree
    obtain ⟨t, ht, hvars, hexit', hevents⟩ := ih hes hfreeEs (s := { s with
      captured := none, status := 0
      vars := (s.vars.set e.1.toList e.2.toList).share e.1.toList }) hexit
    refine ⟨t, ?_, hvars, hexit', hevents⟩
    rw [List.map_cons, execAll_cons world hexit, exportCommand, exec_export he.name hfreeE,
      Option.bind_some]
    exact ht

theorem shared_value {name : Chars} (h : ∀ e ∈ environments, e.1.toList ≠ name) (vars : Vars) :
    (shared vars environments).value name = vars.value name := by
  induction environments generalizing vars with
  | nil => rfl
  | cons e es ih =>
    obtain ⟨he, hes⟩ := List.forall_mem_cons.mp h
    rw [shared, List.foldl_cons, ← shared, ih hes]
    exact if_neg (Ne.symm he)

theorem shared_exported {name : Chars} (h : ∀ e ∈ environments, e.1.toList ≠ name) (vars : Vars) :
    (shared vars environments).exported name = vars.exported name := by
  induction environments generalizing vars with
  | nil => rfl
  | cons e es ih =>
    obtain ⟨he, hes⟩ := List.forall_mem_cons.mp h
    have hne : decide (name = e.1.toList) = false := decide_eq_false (Ne.symm he)
    rw [shared, List.foldl_cons, ← shared, ih hes]
    exact (congrArg (· || vars.exported name) hne).trans (Bool.false_or _)

theorem shared_mem (hkeys : (environments.map Prod.fst).Nodup) (vars : Vars)
    {e : String × String} (he : e ∈ environments) :
    (shared vars environments).value e.1.toList = some e.2.toList ∧
      (shared vars environments).env e.1.toList = some e.2.toList := by
  induction environments generalizing vars with
  | nil => cases he
  | cons f fs ih =>
    obtain ⟨hf, hfs⟩ := List.nodup_cons.mp hkeys
    rw [shared, List.foldl_cons, ← shared]
    obtain rfl | he := List.mem_cons.mp he
    · have hother : ∀ g ∈ fs, g.1.toList ≠ e.1.toList := by
        intro g hg heq
        have hmem := List.mem_map.mpr ⟨g, hg, String.toList_injective heq⟩
        exact hf hmem
      have hvalue : (shared ((vars.set e.1.toList e.2.toList).share e.1.toList) fs).value e.1.toList =
          some e.2.toList := by
        rw [shared_value hother]
        exact if_pos rfl
      have hexported : (shared ((vars.set e.1.toList e.2.toList).share e.1.toList) fs).exported
          e.1.toList = true := by
        rw [shared_exported hother]
        have hself : decide (e.1.toList = e.1.toList) = true := decide_eq_true rfl
        exact (congrArg (· || vars.exported e.1.toList) hself).trans (Bool.true_or _)
      refine ⟨hvalue, ?_⟩
      rw [Vars.env, if_pos hexported, hvalue]
    · exact ih hfs _ he

end Exporting

section Launch

variable {world : World} {s t : Shell.State} {scheduler : Scheduler} {launcher args : List Word}
  {info : ScriptInfo} {input : Shell.Input} {n : Chars}

-- The words that the sections of the script have left in front of mpirun.
structure Launches (world : World) (s : Shell.State) (launcher : List Word) : Prop where
  first : ∀ w ∈ (launcher ++ [literal "mpirun".toList]).head?,
    w ≠ literal "export".toList ∧ assignment w = none
  program : ∀ f ∈ ((s.expandWords world launcher).1 ++ ["mpirun".toList]).head?,
    f ≠ "exit".toList ∧ f ∉ steering ∧ f ∉ builtins ∧ f ∉ changing ∧ world.isFunction f = false

-- The redirection can be made.
structure Redirects (world : World) (s : Shell.State) (input : Shell.Input) (target : Stdin) :
    Prop where
  stdin : ∀ t, Substitutes s t → t.stdin world input = some (target, t)
  opens : ∀ path, target = .file path → ∀ t, Substitutes s t → world.opens t.events path = true

-- The state that the command line of the task leaves, and its run.
structure Launched (world : World) (s t : Shell.State) (info : ScriptInfo) (stdin : Stdin) (r : Run) :
    Prop where
  vars : t.vars = s.vars
  exit : t.exit = none
  status : t.status = (world.reply t.events).status
  launch : launched t.events = some (t.events, r)
  name : ∃ front n rest, r.argv =
    front ++ ["mpirun".toList, "-np".toList, n, info.name.toList] ++ rest
  env : r.env = s.vars.env
  stdin : r.stdin = stdin

variable (world launcher args) in
theorem expandWords_launch (hn : s.vars.value scheduler.count.toList = some n) (hfield : IsField n)
    (hname : info.name.toList ≠ [] ∧ ∀ c ∈ info.name.toList, ['*', '?', '['].contains c = false) :
    ∃ rest t, s.expandWords world (launchWords scheduler launcher info args) =
        ((s.expandWords world launcher).1 ++
          ["mpirun".toList, "-np".toList, n, info.name.toList] ++ rest, t) ∧ Substitutes s t := by
  have hsplit : launchWords scheduler launcher info args = launcher ++ literal "mpirun".toList ::
      literal "-np".toList :: [.var false scheduler.count.toList] :: literal info.name.toList :: args := by
    rw [launchWords]
    simp only [List.append_assoc, List.cons_append, List.nil_append]
  have hsub := substitutes_expandWords world s launcher
  have hcount : (s.expandWords world launcher).2.vars.value scheduler.count.toList = some n := by
    rw [hsub.vars, hn]
  have hrest := substitutes_expandWords world (s.expandWords world launcher).2 args
  refine ⟨((s.expandWords world launcher).2.expandWords world args).1,
    ((s.expandWords world launcher).2.expandWords world args).2, ?_, hsub.trans hrest⟩
  rw [hsplit, expandWords_append, expandWords_lit_of_all _ (by decide) rfl,
    expandWords_lit_of_all _ (by decide) rfl, expandWords_var hcount hfield,
    expandWords_lit _ hname.1 hname.2]
  simp only [List.append_assoc, List.cons_append, List.nil_append]

theorem exists_head {α : Type} (front : List α) (a : α) (rest : List α) :
    ∃ b bs, front ++ a :: rest = b :: bs ∧ b ∈ (front ++ [a]).head? := by
  cases front with
  | nil => exact ⟨a, rest, rfl, rfl⟩
  | cons b bs => exact ⟨b, bs ++ a :: rest, rfl, rfl⟩

theorem isLaunch_argv (front rest : List Chars) (n name : Chars) :
    isLaunch (front ++ ["mpirun".toList, "-np".toList, n, name] ++ rest) = true := by
  refine decide_eq_true ⟨front, n :: name :: rest, ?_⟩
  simp only [List.append_assoc, List.cons_append, List.nil_append]

variable (args) in
theorem exec_launch {target : Stdin} (hexit : s.exit = none) (hevents : launched s.events = none)
    (hlaunches : Launches world { s with captured := none } launcher)
    (hn : s.vars.value scheduler.count.toList = some n) (hfield : IsField n)
    (hname : info.name.toList ≠ [] ∧ ∀ c ∈ info.name.toList, ['*', '?', '['].contains c = false)
    (hredirects : Redirects world { s with captured := none } input target) :
    ∃ t r, s.exec world (launch scheduler launcher info args input) = some t ∧
      Launched world s t info target r := by
  obtain ⟨rest, u, hu, hsub⟩ := expandWords_launch world launcher args
    (s := { s with captured := none }) hn hfield hname
  obtain ⟨w, ws, hwords, hw⟩ := exists_head launcher (literal "mpirun".toList)
    (literal "-np".toList :: [.var false scheduler.count.toList] :: literal info.name.toList :: args)
  have hlist : (launch scheduler launcher info args input).words = w :: ws := by
    rw [← hwords, launch, launchWords]
    simp only [List.append_assoc, List.cons_append, List.nil_append]
  obtain ⟨f, fs, hargv, hf⟩ := exists_head
    ((({ s with captured := none } : Shell.State).expandWords world launcher).1) "mpirun".toList
    ("-np".toList :: n :: info.name.toList :: rest)
  obtain ⟨hnotExit, hsteering, hbuiltins, hchanging, hfunction⟩ := hlaunches.program f hf
  obtain ⟨hexport, hassign⟩ := hlaunches.first w hw
  let r : Run := { argv := f :: fs, env := u.vars.env, stdin := target, output := none }
  have hopens : u.opensAll world r = true := by
    cases target with
    | file path =>
      have hopen := hredirects.opens path rfl u hsub
      exact (Bool.and_true _).trans hopen
    | inherited => rfl
    | text text => rfl
  have hexpand : ({ s with captured := none } : Shell.State).expandWords world (w :: ws) =
      (f :: fs, u) := by
    rw [← hargv, ← hlist, launch, hu]
    simp only [List.append_assoc, List.cons_append, List.nil_append]
  have hexec : s.exec world (launch scheduler launcher info args input) = some (u.call world r) := by
    rw [exec, hlist]
    dsimp only
    rw [if_neg hexport, hassign, if_neg (by decide), hexpand]
    dsimp only
    rw [launch, hredirects.stdin u hsub]
    exact dispatch_call rfl hnotExit hsteering hopens
  refine ⟨u.call world r, r, hexec, ?_⟩
  have hcallEvents : (u.call world r).events = u.events ++ [.run r] := call_run rfl hbuiltins
  have hrun : r.argv = (({ s with captured := none } : Shell.State).expandWords world launcher).1 ++
      ["mpirun".toList, "-np".toList, n, info.name.toList] ++ rest := by
    have hlaunch : r.argv = f :: fs := rfl
    rw [hlaunch, ← hargv]
    simp only [List.append_assoc, List.cons_append, List.nil_append]
  have hlaunchOf : launchOf (.run r) = some r := by
    rw [launchOf, hrun, if_pos (isLaunch_argv _ _ _ _)]
  exact {
    vars := (call_vars rfl hchanging hfunction).trans hsub.vars
    exit := hsub.exit.trans hexit
    status := rfl
    launch := by
      have hnone : launched u.events = none := launched_substitutes hsub hevents
      have hone : launched [.run r] = some ([.run r], r) := by
        rw [launched, hlaunchOf]
      rw [hcallEvents, launched_append hnone, hone]
      rfl
    name := ⟨_, n, rest, hrun⟩
    env := congrArg Vars.env hsub.vars
    stdin := rfl }

end Launch

section Leaving

variable {world : World} {s : Shell.State} {info : ScriptInfo}

theorem exec_touch (hecho : world.isFunction "echo".toList = false) (scheduler : Scheduler)
    (info : ScriptInfo) (s : Shell.State) :
    ∃ t, s.exec world (touchCommand scheduler info) = some t ∧ t.vars = s.vars ∧ t.exit = s.exit ∧
      (t.status = 1 ∨ ∃ r, t.status = (world.reply (s.events ++ [.builtin r])).status) := by
  have hwords : (touchCommand scheduler info).words = literal "echo".toList ::
      [literal "-n".toList, .quotes :: (toString info.id).toList.map .quoted] := rfl
  let u : Shell.State := { s with captured := none }
  have hargv : u.expandWords world (literal "echo".toList ::
      [literal "-n".toList, .quotes :: (toString info.id).toList.map .quoted]) =
        ("echo".toList :: "-n".toList ::
          (fields world (.quotes :: (toString info.id).toList.map .quoted) ++ []), u) := by
    rw [expandWords_lit_of_all u (by decide) rfl, expandWords_lit_of_all u (by decide) rfl,
      expandWords, expand, expand_quoted]
    rfl
  have houtput : ∃ path, u.output world (touchCommand scheduler info).output = (some path, u) := by
    rw [touchCommand, output, expand, expand_lit]
    exact ⟨_, rfl⟩
  obtain ⟨path, hpath⟩ := houtput
  let r : Run :=
    { argv := "echo".toList :: "-n".toList ::
        (fields world (.quotes :: (toString info.id).toList.map .quoted) ++ [])
      env := s.vars.env, stdin := .inherited, output := some path }
  have hexec : s.exec world (touchCommand scheduler info) =
      if u.opensAll world r then some (u.call world r) else some { u with status := 1 } := by
    rw [exec_words hwords (by decide) (by decide) rfl hargv, hpath]
    exact dispatch_name rfl (by decide) (by decide)
  rw [hexec]
  split
  · refine ⟨_, rfl, call_vars rfl (by decide) hecho, rfl, .inr ⟨r, ?_⟩⟩
    rw [call_status, call_builtin rfl (by decide)]
  · exact ⟨_, rfl, rfl, rfl, .inl rfl⟩

variable (info) in
theorem execAll_slurm (hecho : world.isFunction "echo".toList = false) (hexit : s.exit = none) :
    ∃ t, s.execAll world ((leaving info .slurm).map some) = some t ∧ t.final = s.status := by
  have hmarks : ({ s with captured := none } : Shell.State).expand world [.status false] =
      (marks false (Nat.toDigits 10 s.status.toNat), { s with captured := none }) := by
    rw [expand, expand, expandPart, List.append_nil]
  let u : Shell.State := { s with
    captured := none, status := 0
    vars := s.vars.set "ec".toList (Nat.toDigits 10 s.status.toNat) }
  have hassign : s.exec world { words := [literal "ec".toList ++ [.lit '=', .status false]] } =
      some u := by
    rw [exec_assign rfl (by decide) (by decide) (by decide), hmarks, plainText_marks]
    rfl
  obtain ⟨t, ht, hvars, hexit', -⟩ := exec_touch hecho .slurm info u
  have hvalue : t.vars.value "ec".toList = some (Nat.toDigits 10 s.status.toNat) := by
    rw [hvars, Vars.set_value]
  have hu : u.exit = none := hexit
  have hnone : t.exit = none := hexit'.trans hexit
  refine ⟨{ t with captured := none, exit := some s.status }, ?_, rfl⟩
  rw [leaving, List.map_cons, execAll_cons world hexit, hassign, Option.bind_some, List.map_cons,
    execAll_cons world hu, ht, Option.bind_some, List.map_cons, execAll_cons world hnone,
    exec_exit rfl rfl rfl hvalue]
  rfl

theorem exits_result : exits "exit $result".toList = some [[.var false "result".toList]] := by
  decide +kernel

-- The status of `$(exit $result)` is that of the substitution: nothing of the command's is left.
theorem exec_result (world : World) (s : Shell.State) :
    ∃ t, s.exec world { words := [[.capture false "exit $result".toList]] } = some t ∧
      t.exit = s.exit ∧ t.status = (s.exitStatus
        (fields world (marks false ((s.vars.value "result".toList).getD [])))).getD 2 := by
  let u : Shell.State := { s with captured := none }
  let status := (s.exitStatus
    (fields world (marks false ((s.vars.value "result".toList).getD [])))).getD 2
  have hstill : ([[.var false "result".toList]] : List Word).mapM (fun w => w.mapM u.still) =
      some [[marks false ((s.vars.value "result".toList).getD [])]] := rfl
  have hcapture : u.capture world "exit $result".toList = ([], { u with captured := some status }) := by
    rw [capture, exits_result, Option.bind_some, hstill]
    dsimp only
    rw [List.flatMap_singleton, List.flatten_singleton]
    rfl
  have hargv : u.expandWords world [[.capture false "exit $result".toList]] =
      ([], { u with captured := some status }) := by
    rw [expandWords, expand, expand, expandPart, hcapture]
    rfl
  have hname : ([.capture false "exit $result".toList] : Word) ≠ literal "export".toList := by
    intro h
    cases h
  rw [exec_simple rfl hname rfl rfl rfl hargv]
  exact ⟨_, rfl, rfl, rfl⟩

variable (world info) in
theorem execAll_pbs (hecho : world.isFunction "echo".toList = false)
    (hresult : world.isFunction "result".toList = false) (hexit : s.exit = none) :
    ∃ t touched : Shell.State, s.execAll world ((leaving info .pbs).map some) = some t ∧
      (touched.status = 1 ∨ ∃ events r,
        touched.status = (world.reply (events ++ [.builtin r])).status) ∧
      t.final = (touched.exitStatus
        (fields world (marks false ((s.vars.value "result".toList).getD [])))).getD 2 := by
  let u : Shell.State := { s with captured := none }
  have hargv : u.expandWords world [literal "result".toList, literal "=".toList, [.status false]] =
      (["result".toList, "=".toList, Nat.toDigits 10 s.status.toNat], u) := by
    rw [expandWords_lit_of_all u (by decide) rfl, expandWords_lit_of_all u (by decide) rfl,
      expandWords, expand, expand, expandPart, List.append_nil]
    dsimp only
    rw [(isField_digits s.status.toNat).fields]
    rfl
  let r : Run :=
    { argv := ["result".toList, "=".toList, Nat.toDigits 10 s.status.toNat]
      env := s.vars.env, stdin := .inherited, output := none }
  have hcall : s.exec world { words := [literal "result".toList, literal "=".toList, [.status false]] } =
      some (u.call world r) := by
    rw [exec_simple rfl (by decide) (by decide) rfl rfl hargv]
    exact dispatch_call rfl (by decide) (by decide) rfl
  have hvars : (u.call world r).vars = s.vars := call_vars rfl (by decide) hresult
  have hnone : (u.call world r).exit = none := hexit
  obtain ⟨t, ht, htvars, htexit, hstatus⟩ := exec_touch hecho .pbs info (u.call world r)
  have hsame : t.vars = s.vars := htvars.trans hvars
  have htouched : t.exit = none := htexit.trans hnone
  obtain ⟨v, hv, hvexit, hvstatus⟩ := exec_result world t
  refine ⟨v, t, ?_, ?_, ?_⟩
  · rw [leaving, List.map_cons, execAll_cons world hexit, hcall, Option.bind_some, List.map_cons,
      execAll_cons world hnone, ht, Option.bind_some, List.map_cons, execAll_cons world htouched, hv]
    rfl
  · obtain hone | ⟨r, hr⟩ := hstatus
    · exact .inl hone
    · exact .inr ⟨_, r, hr⟩
  · rw [State.final, hvexit, htouched, Option.getD_none, hvstatus, hsame]

end Leaving

section Running

variable {world : World} {s t prepared : Shell.State} {scheduler : Scheduler}
  {launcher args : List Word} {info : ScriptInfo} {input : Shell.Input} {target : Stdin}
  {basePath includeEnv text : String} {prelude : List (Option Command)} {checked : Bool}

-- What the shell finds when it comes to the command line of the task.
structure Prepared (scheduler : Scheduler) (world : World) (s : Shell.State) (info : ScriptInfo)
    (prelude : List (Option Command)) (launcher : List Word) (t prepared : Shell.State) : Prop where
  cd : world.isFunction "cd".toList = false
  start : s.exit = none
  fresh : launched s.events = none
  free : ∀ e ∈ info.environments, e.1.toList ∉ reserved
  keys : (info.environments.map Prod.fst).Nodup
  name : ∀ c ∈ info.name.toList, ['*', '?', '['].contains c = false
  entered : s.execAll world (before scheduler info) = some t
  prelude : t.execAll world prelude = some prepared
  running : prepared.exit = none
  quiet : launched prepared.events = none
  kept : ∀ e ∈ info.environments, prepared.vars.env e.1.toList = t.vars.env e.1.toList
  count : ∃ n, prepared.vars.value scheduler.count.toList = some n ∧ IsField n
  launches : Launches world { prepared with captured := none } launcher
  opens : ∀ path, info.stdIn = .file path → ∀ u, Substitutes { prepared with captured := none } u →
    world.opens u.events path.toList = true

theorem execAll_before (hcd : world.isFunction "cd".toList = false) (hstart : s.exit = none)
    (hfresh : launched s.events = none) (hentries : ∀ e ∈ info.environments, PlainEntry e)
    (hfree : ∀ e ∈ info.environments, e.1.toList ∉ reserved) (scheduler : Scheduler) :
    ∃ u t, s.execAll world (before scheduler info) = some t ∧ entered world s u scheduler ∧
      t.vars = shared u.vars info.environments ∧ t.exit = none ∧ launched t.events = none := by
  obtain ⟨u, hu, hentered, huexit, hulaunched⟩ := execAll_entering hcd hstart hfresh scheduler
  obtain ⟨t, ht, hvars, htexit, hevents⟩ := execAll_exports world hentries hfree huexit
  refine ⟨u, t, ?_, hentered, hvars, htexit, ?_⟩
  · rw [before, execAll_append, hu, Option.bind_some, ht]
  · rwa [hevents]

theorem Prepared.env (hp : Prepared scheduler world s info prelude launcher t prepared)
    (hentries : ∀ e ∈ info.environments, PlainEntry e) {e : String × String}
    (he : e ∈ info.environments) : prepared.vars.env e.1.toList = some e.2.toList := by
  obtain ⟨u, v, hv, -, hvars, -⟩ :=
    execAll_before hp.cd hp.start hp.fresh hentries hp.free scheduler
  have hsame : v = t := Option.some.inj (hv.symm.trans hp.entered)
  rw [hp.kept e he, ← hsame, hvars]
  exact (shared_mem hp.keys u.vars he).2

-- The commands up to that of the task.
theorem Prepared.launch (hp : Prepared scheduler world s info prelude launcher t prepared)
    (hw : Written basePath includeEnv info prelude launcher args)
    (hredirects : Redirects world { prepared with captured := none } input target) :
    ∃ u r, (∀ rest, s.execAll world (before scheduler info ++ prelude ++
        some (Agent.launch scheduler launcher info args input) :: rest) = u.execAll world rest) ∧
      Launched world prepared u info target r := by
  obtain ⟨n, hn, hfield⟩ := hp.count
  obtain ⟨u, r, hexec, hlaunched⟩ := exec_launch args hp.running hp.quiet hp.launches hn
    hfield ⟨hw.name.ne_nil, hp.name⟩ hredirects
  refine ⟨u, r, fun rest => ?_, hlaunched⟩
  rw [List.append_assoc, execAll_append, hp.entered, Option.bind_some, execAll_append, hp.prelude,
    Option.bind_some, execAll_cons world hp.running, hexec, Option.bind_some]

def targetOf : Dto.StdInKind → Stdin
  | .text text => .text text.toList
  | .file path => .file path.toList
  | .none => .inherited

theorem Prepared.redirects (hp : Prepared scheduler world s info prelude launcher t prepared)
    (htext : ∀ text, info.stdIn ≠ .text text) :
    Redirects world { prepared with captured := none } (inputOf info.stdIn)
      (targetOf info.stdIn) := by
  cases hstdIn : info.stdIn with
  | text text => exact absurd hstdIn (htext text)
  | none => exact ⟨fun _ _ => rfl, nofun⟩
  | file path =>
    refine ⟨fun u _ => ?_, fun p hpath u hu => ?_⟩
    · rw [inputOf, State.stdin, expand_lit]
      dsimp only
      rw [plainText_lit]
      rfl
    · cases hpath
      exact hp.opens path hstdIn u hu

theorem Launched.runsAs {final u : Shell.State} {r : Run}
    (hl : Launched world prepared u info target r) (hfinal : u.events <+: final.events)
    (henv : ∀ e ∈ info.environments, prepared.vars.env e.1.toList = some e.2.toList)
    (hstdin : ∀ text, info.stdIn = .text text → target = .text text.toList)
    (hexit : final.final = u.status) : RunsAs world info final u.events r := by
  obtain ⟨more, hmore⟩ := hfinal
  exact {
    launch := by
      rw [← hmore]
      exact launched_prefix hl.launch more
    name := hl.name
    env := fun e he => by rw [hl.env, henv e he]
    stdin := fun text h => hl.stdin.trans (hstdin text h)
    exit := hexit.trans hl.status }

theorem faithful_slurm (hp : Prepared .slurm world s info prelude launcher t prepared)
    (hw : Written basePath includeEnv info prelude launcher args)
    (hecho : world.isFunction "echo".toList = false) (hstdIn : ∀ text, info.stdIn ≠ .text text)
    (htext : Scheduler.slurm.genScript checked basePath includeEnv info = .ok text) :
    Faithful world s info text := by
  obtain ⟨u, r, hrun, hl⟩ := hp.launch hw (hp.redirects hstdIn)
  obtain ⟨final, hfinal, hstatus⟩ := execAll_slurm info hecho hl.exit
  refine ⟨final, u.events, r, ?_, ?_⟩
  · rw [commands_script hw htext hstdIn, hrun, hfinal]
  · exact hl.runsAs (grows_execAll hfinal) (fun e he => hp.env hw.entries he)
      (fun text h => absurd h (hstdIn text)) hstatus

end Running

end Kuintessence.Agent
