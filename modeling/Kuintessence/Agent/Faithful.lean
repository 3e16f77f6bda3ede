import Kuintessence.Agent.Launching

namespace Kuintessence.Agent

open Shell Shell.State

-- Sections of the script that change nothing about its variables, whatever they run.
structure Still (prelude : List (Option Command)) : Prop where
  runs : ∀ (world : World) (s : Shell.State), (∀ name, world.isFunction name = false) →
    s.exit = none → ∃ t, s.execAll world prelude = some t ∧ t.exit = none ∧ t.vars = s.vars ∧
      (launched s.events = none → launched t.events = none)

structure Readable (basePath includeEnv : String) (info : ScriptInfo)
    (prelude : List (Option Command)) (args : List Word) : Prop where
  written : Written basePath includeEnv info prelude [] args
  still : Still prelude
  keys : (info.environments.map Prod.fst).Nodup
  free : ∀ e ∈ info.environments, e.1.toList ∉ reserved
  name : ∀ c ∈ info.name.toList, ['*', '?', '['].contains c = false
  count : ∀ e ∈ info.environments, ∀ scheduler : Scheduler, e.1 = scheduler.count →
    IsField e.2.toList
  text : ∀ text, info.stdIn = .text text →
    ∀ c ∈ text.toList, ['$', '\x60', '\\'].contains c = false

-- A host on which the script can start.
structure Ready (scheduler : Scheduler) (world : World) (s : Shell.State) : Prop where
  functions : ∀ name, world.isFunction name = false
  opens : ∀ events path, world.opens events path = true
  start : s.exit = none
  fresh : launched s.events = none
  count : ∀ u, entered world s u scheduler →
    ∃ n, u.vars.value scheduler.count.toList = some n ∧ IsField n

section Running

variable {world : World} {s : Shell.State} {scheduler : Scheduler} {info : ScriptInfo}
  {basePath includeEnv text : String} {prelude : List (Option Command)} {args : List Word}
  {checked : Bool}

theorem shared_count {scheduler : Scheduler} {environments : List (String × String)}
    (hkeys : (environments.map Prod.fst).Nodup)
    (hcount : ∀ e ∈ environments, ∀ scheduler : Scheduler, e.1 = scheduler.count → IsField e.2.toList)
    {vars : Vars} (h : ∃ n, vars.value scheduler.count.toList = some n ∧ IsField n) :
    ∃ n, (shared vars environments).value scheduler.count.toList = some n ∧ IsField n := by
  by_cases hmem : ∃ e ∈ environments, e.1.toList = scheduler.count.toList
  · obtain ⟨e, he, hname⟩ := hmem
    refine ⟨e.2.toList, ?_, hcount e he scheduler (String.toList_injective hname)⟩
    rw [← hname]
    exact (shared_mem hkeys vars he).1
  · have hother : ∀ e ∈ environments, e.1.toList ≠ scheduler.count.toList := fun e he heq =>
      hmem ⟨e, he, heq⟩
    rwa [shared_value hother]

theorem launches_mpirun (hfunctions : ∀ name, world.isFunction name = false) (s : Shell.State) :
    Launches world s [] := by
  refine ⟨fun w hw => ?_, fun f hf => ?_⟩
  · have hw : literal "mpirun".toList = w := Option.some.inj hw
    rw [← hw]
    exact ⟨by decide, by decide⟩
  · have hf : "mpirun".toList = f := Option.some.inj hf
    rw [← hf]
    exact ⟨by decide, by decide, by decide, by decide, hfunctions _⟩

theorem Ready.prepared (hready : Ready scheduler world s)
    (h : Readable basePath includeEnv info prelude args) :
    ∃ u t prepared, Prepared scheduler world s info prelude [] t prepared ∧
      entered world s u scheduler ∧ prepared.vars = shared u.vars info.environments := by
  obtain ⟨u, t, ht, hentered, hvars, htexit, htlaunched⟩ :=
    execAll_before (hready.functions _) hready.start hready.fresh h.written.entries h.free scheduler
  obtain ⟨prepared, hrun, hexit, hsame, hlaunched⟩ := h.still.runs world t hready.functions htexit
  refine ⟨u, t, prepared, ?_, hentered, hsame.trans hvars⟩
  exact {
    cd := hready.functions _
    start := hready.start
    fresh := hready.fresh
    free := h.free
    keys := h.keys
    name := h.name
    entered := ht
    prelude := hrun
    running := hexit
    quiet := hlaunched htlaunched
    kept := fun e _ => by rw [hsame]
    count := by
      rw [hsame, hvars]
      exact shared_count h.keys h.count (hready.count u hentered)
    launches := launches_mpirun hready.functions _
    opens := fun _ _ _ _ => hready.opens _ _ }

-- A text is never what the command reads.
theorem unfaithful_text (hready : Ready scheduler world s)
    (h : Readable basePath includeEnv info prelude args) {stdIn : String}
    (hstdIn : info.stdIn = .text stdIn)
    (htext : scheduler.genScript checked basePath includeEnv info = .ok text) :
    ¬Faithful world s info text := by
  rintro ⟨final, events, r, hfinal, hruns⟩
  obtain ⟨u, t, prepared, hp, -, -⟩ := hready.prepared h
  obtain ⟨body, more, hne, hchars, hcommands⟩ | hbad := commands_text h.written htext hstdIn
  · have hplain : ∀ c ∈ body, ['$', '\x60', '\\'].contains c = false := by
      intro c hc
      obtain hmem | hmem := hchars c hc
      · exact h.text stdIn hstdIn c hmem
      · have hend : ∀ d ∈ "\nEOF".toList, ['$', '\x60', '\\'].contains d = false :=
          List.forall_iff_forall_mem.mp (by decide)
        exact hend c hmem
    have hredirects : Redirects world { prepared with captured := none } (.text body) (.text body) :=
      ⟨fun u _ => stdin_plain hplain, nofun⟩
    obtain ⟨v, q, hrun, hl⟩ := hp.launch h.written hredirects
    rw [hcommands, hrun] at hfinal
    obtain ⟨rest, hrest⟩ := grows_execAll hfinal
    have hlaunch := hruns.launch
    rw [← hrest, launched_prefix hl.launch rest] at hlaunch
    cases hlaunch
    have hstdin := hruns.stdin stdIn hstdIn
    rw [hl.stdin] at hstdin
    exact hne (Stdin.text.inj hstdin)
  · rw [hbad, List.append_assoc, execAll_append, hp.entered, Option.bind_some, execAll_append,
      hp.prelude, Option.bind_some, execAll, hp.running] at hfinal
    cases hfinal

-- Nothing fails, and mpirun leaves the status `status`.
def answering (status : UInt8) : World where
  reply events :=
    { output := ['1']
      status := if (events.getLast?.bind launchOf).isSome then status else 0
      vars := ⟨fun _ => none, fun _ => false⟩ }
  opens _ _ := true
  paths path := [path]
  isFunction _ := false

def fresh : Shell.State :=
  { vars := ⟨fun name => if name = "SLURM_NPROCS".toList then some ['1'] else none, fun _ => true⟩ }

theorem isField_one : IsField ['1'] :=
  ⟨by decide, List.forall_iff_forall_mem.mp (by decide)⟩

theorem ready_answering (scheduler : Scheduler) (status : UInt8) :
    Ready scheduler (answering status) fresh where
  functions _ := rfl
  opens _ _ := rfl
  start := rfl
  fresh := rfl
  count u hu := by
    cases scheduler with
    | pbs =>
      have hvars : u.vars = fresh.vars.set "NP".toList ['1'] := hu
      refine ⟨['1'], ?_, isField_one⟩
      rw [hvars]
      exact Vars.set_value _ _ _
    | slurm =>
      have hvars : u.vars = fresh.vars := hu
      refine ⟨['1'], ?_, isField_one⟩
      rw [hvars]
      rfl

theorem launched_last {events upTo : List Shell.Event} {r : Run}
    (h : launched events = some (upTo, r)) : (upTo.getLast?.bind launchOf) = some r := by
  induction events generalizing upTo with
  | nil => cases h
  | cons e events ih =>
    rw [launched] at h
    cases hlaunch : launchOf e with
    | some q =>
      rw [hlaunch] at h
      cases h
      exact hlaunch
    | none =>
      rw [hlaunch] at h
      obtain ⟨out, hout, heq⟩ := Option.map_eq_some_iff.mp h
      cases heq
      have hlast := ih hout
      cases hupTo : out.1 with
      | nil =>
        rw [hupTo] at hlast
        cases hlast
      | cons x xs =>
        rw [hupTo] at hlast
        rw [List.getLast?_cons_cons]
        exact hlast

theorem exists_ne_both (a b : UInt8) : ∃ c : UInt8, c ≠ a ∧ c ≠ b := by
  by_contra hall
  have hnone (c : UInt8) : c = a ∨ c = b := by
    by_cases hc : c = a
    · exact .inl hc
    · by_cases hc' : c = b
      · exact .inr hc'
      · exact absurd ⟨c, hc, hc'⟩ hall
  have hzero := hnone 0
  have hone := hnone 1
  have htwo := hnone 2
  grind

-- The status of a PBS script owes nothing to the command.
theorem unfaithful_pbs (h : Readable basePath includeEnv info prelude args)
    (hstdIn : ∀ text, info.stdIn ≠ .text text)
    (htext : Scheduler.pbs.genScript checked basePath includeEnv info = .ok text) :
    ∃ status, ¬Faithful (answering status) fresh info text := by
  let vars : Vars := shared (fresh.vars.set "NP".toList ['1']) info.environments
  let left (status : UInt8) : UInt8 := (({ vars := vars, status := status } : Shell.State).exitStatus
    (fields (answering 0) (marks false ((vars.value "result".toList).getD [])))).getD 2
  obtain ⟨status, hzero, hone⟩ := exists_ne_both (left 0) (left 1)
  refine ⟨status, ?_⟩
  rintro ⟨final, events, r, hfinal, hruns⟩
  have hready := ready_answering .pbs status
  obtain ⟨u, t, prepared, hp, hentered, hvars⟩ := hready.prepared h
  obtain ⟨v, q, hrun, hl⟩ := hp.launch h.written (hp.redirects hstdIn)
  obtain ⟨w, touched, hw, htouched, hstatus⟩ :=
    execAll_pbs (answering status) info rfl rfl hl.exit
  rw [commands_script h.written htext hstdIn, hrun, hw] at hfinal
  have hsame : w = final := Option.some.inj hfinal
  have huvars : u.vars = fresh.vars.set "NP".toList ['1'] := hentered
  have hvvars : v.vars = vars := by
    rw [hl.vars, hvars, huvars]
  have hlast := launched_last hruns.launch
  have hreply : ((answering status).reply events).status = status := by
    have hreplied : ((answering status).reply events).status =
        if (events.getLast?.bind launchOf).isSome then status else 0 := rfl
    rw [hreplied, hlast]
    rfl
  have hexit := hruns.exit
  rw [hreply, ← hsame, hstatus, hvvars] at hexit
  obtain hfailed | ⟨events', b, hbuiltin⟩ := htouched
  · refine hone ?_
    rw [← hexit, ← hfailed]
    rfl
  · have hanswer : ((answering status).reply (events' ++ [Shell.Event.builtin b])).status = 0 := by
      have hreplied : ((answering status).reply (events' ++ [Shell.Event.builtin b])).status =
          if ((events' ++ [Shell.Event.builtin b]).getLast?.bind launchOf).isSome then status else 0 := rfl
      rw [hreplied, List.getLast?_concat]
      rfl
    refine hzero ?_
    rw [← hexit, ← hanswer, ← hbuiltin]
    rfl

end Running

-- A sub-task with one value in its environment.
def commandInfo (value : String) (stdIn : Dto.StdInKind) : ScriptInfo :=
  { executionInfo with environments := [("THREADS", value)], stdIn := stdIn }

theorem readable_command : Readable "/work" "" (commandInfo "4" .none) [] [] where
  written := {
    base := by decide
    entries := fun e he => by
      rw [List.mem_singleton.mp he]
      exact ⟨by decide, by decide⟩
    name := ⟨by decide, by decide, by decide⟩
    path := nofun
    arguments := fun read words => by
      rw [List.append_nil]
      rfl
    sections := fun read => by
      rw [List.append_nil]
      rfl }
  still := ⟨fun world s _ hexit => ⟨s, rfl, hexit, rfl, id⟩⟩
  keys := List.nodup_singleton _
  free := fun e he => by
    rw [List.mem_singleton.mp he]
    decide
  name := List.forall_iff_forall_mem.mp (by decide)
  count := fun e he scheduler hname => by
    rw [List.mem_singleton.mp he] at hname ⊢
    cases scheduler with
    | pbs => exact absurd hname (by decide)
    | slurm => exact absurd hname (by decide)
  text := nofun

-- What can be seen of the command: a value of its environment, its input, its status and the script's.
def seen (world : World) (s : Shell.State) (text : String) :
    Option (Option Chars × Stdin × UInt8 × UInt8) :=
  (s.execAll world (commands text.toList)).bind fun final =>
    (launched final.events).map fun out =>
      (out.2.env "THREADS".toList, out.2.stdin, (world.reply out.1).status, final.final)

theorem seen_of_faithful {world : World} {s : Shell.State} {value text : String}
    {stdIn : Dto.StdInKind} (h : Faithful world s (commandInfo value stdIn) text) :
    ∃ stdin status, seen world s text = some (some value.toList, stdin, status, status) ∧
      ∀ text, stdIn = .text text → stdin = .text text.toList := by
  obtain ⟨final, events, r, hfinal, hruns⟩ := h
  refine ⟨r.stdin, (world.reply events).status, ?_, hruns.stdin⟩
  have henv := hruns.env ("THREADS", value) (List.mem_singleton.mpr rfl)
  rw [seen, hfinal, Option.bind_some, hruns.launch, Option.map_some, henv, hruns.exit]

-- The script of a sub-task under Slurm.
def slurmText (info : ScriptInfo) : String :=
  match Slurm.genScript true "/work" "" info with
  | .ok text => text
  | _ => ""

end Kuintessence.Agent
