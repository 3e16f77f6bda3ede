import Kuintessence.Agent.Measures
import Kuintessence.Agent.Repository

namespace Kuintessence.Agent.Pbs

open Decimal Text

structure Job extends Agent.Job where
  id : String
  name : String
  owner : String
  deriving DecidableEq, Repr

-- `Job::default()` under an id.
def Job.fresh (id : List Char) : Job where
  id := String.ofList id
  name := ""
  owner := ""
  state := .unknown
  exitStatusCode := 0
  errorOutput := ""
  resourceUsed := ⟨0, 0, 0, 0, 0, 0, 0, 0, 0⟩

structure ResourcesUsed where
  cput : String
  mem : String
  ncpus : Int64
  walltime : String
  deriving DecidableEq, Repr

structure PBSJob where
  jobName : String
  jobOwner : String
  resourcesUsed : ResourcesUsed
  jobState : String
  errorPath : String
  mtime : String
  nodect : Int64
  stime : String
  exitStatus : Int32
  deriving DecidableEq, Repr

-- What the agent's machine answers: its files, and the time that a text of the format
-- `%a %b %d %T %Y` stands for there.
structure Machine where
  classes : Classes
  readToString : List Char → Option String
  directorySize : List Char → Option UInt64
  timestamp : List Char → Option Int64

def Machine.contents (m : Machine) (path : List Char) : String := (m.readToString path).getD ""

def Machine.size (m : Machine) (path : List Char) : UInt64 := (m.directorySize path).getD 0

def parseTime (m : Machine) (time : List Char) : Int64 :=
  if time = "UNKNOWN".toList then 0 else (m.timestamp time).getD 0

def afterColon (path : List Char) : List Char := ((splitOnce ':' path).map Prod.snd).getD []

-- The two ways in which the readers ask whether a job failed.
def failedEither (exitStatus : Int32) : Bool := exitStatus != 0 || exitStatus != 254

def failedBoth (exitStatus : Int32) : Bool := exitStatus != 0 && exitStatus != 254

def stateOf (failed : Int32 → Bool) (letter : String) (exitStatus : Int32) : JobState :=
  match letter with
  | "R" => .running
  | "E" => if failed exitStatus then .failed else .completing
  | "F" => if failed exitStatus then .failed else .completed
  | "S" => .suspended
  | "U" => .suspended
  | "Q" => .queuing
  | "H" => .suspended
  | _ => .unknown

def jobOf (m : Machine) (checked : Bool) (failed : Int32 → Bool) (id : String) (item : PBSJob) :
    Outcome String Job := do
  let path := afterColon item.errorPath.toList
  let avgMemory ← parseMemory checked m.classes item.resourcesUsed.mem.toList
  let maxMemory ← parseMemory checked m.classes item.resourcesUsed.mem.toList
  let wallTime ← parseDuration checked item.resourcesUsed.walltime.toList
  let cpuTime ← parseDuration checked item.resourcesUsed.cput.toList
  .ok {
    id := id
    name := item.jobName
    owner := item.jobOwner
    state := stateOf failed item.jobState item.exitStatus
    exitStatusCode := item.exitStatus
    errorOutput := m.contents path
    resourceUsed := {
      cpu := item.resourcesUsed.ncpus.toUInt64
      avgMemory := .ofNat avgMemory
      maxMemory := .ofNat maxMemory
      storage := m.size (erase "/STDERR".toList path)
      wallTime := .ofNat wallTime
      cpuTime := .ofNat cpuTime
      node := item.nodect.toUInt64
      startTime := parseTime m item.stime.toList
      endTime := if item.jobState = "F" ∨ item.jobState = "E" then parseTime m item.mtime.toList
        else 0
    }
  }

-- `reply` is what `qstat` and the JSON reader give: the entries of the map, in its order.
def getPbsJobs (m : Machine) (checked : Bool) (reply : Except String (List (String × PBSJob))) :
    Outcome String (List Job) :=
  Outcome.ofExcept reply >>= Outcome.mapEach fun e => jobOf m checked failedEither e.1 e.2

def getPbsJob (m : Machine) (checked : Bool) (reply : Except String (List (String × PBSJob))) :
    Outcome String Job :=
  Outcome.ofExcept reply >>= fun jobs =>
    match jobs with
    | [] => .err "No such job id."
    | e :: _ => jobOf m checked failedBoth e.1 e.2

inductive Key where
  | jobState
  | jobName
  | jobOwner
  | exitStatus
  | walltime
  | cput
  | ncpus
  | mem
  | stime
  | mtime
  | nodect
  | errorPath
  deriving DecidableEq, Repr

def Key.name : Key → String
  | .jobState => "job_state"
  | .jobName => "Job_Name"
  | .jobOwner => "Job_Owner"
  | .exitStatus => "Exit_status"
  | .walltime => "resources_used.walltime"
  | .cput => "resources_used.cput"
  | .ncpus => "resources_used.ncpus"
  | .mem => "resources_used.mem"
  | .stime => "stime"
  | .mtime => "mtime"
  | .nodect => "Resource_List.nodect"
  | .errorPath => "Error_Path"

def Key.text (key : Key) : List Char := key.name.toList ++ " = ".toList

-- In the order in which a line is tried against them.
def keys : List Key :=
  [.jobState, .jobName, .jobOwner, .exitStatus, .walltime, .cput, .ncpus, .mem, .stime, .mtime,
    .nodect, .errorPath]

def attributeOf (line : List Char) : Option (Key × List Char) :=
  let line := trim line
  (keys.find? fun key => key.text.isPrefixOf line).map fun key => (key, erase key.text line)

def ended (state : JobState) : Bool := state = .failed || state = .completed || state = .completing

def exitStatusOf (value : List Char) : Int32 := .ofInt ((signed 32 value).getD 0)

def countOf (value : List Char) : UInt64 := .ofNat ((unsigned 64 value).getD 0)

-- `averages` is whether the reader also sets the average memory.
def Job.read (m : Machine) (checked : Bool) (failed : Int32 → Bool) (averages : Bool) (temp : Job) :
    Key → List Char → Outcome String Job
  | .jobState, state =>
    .ok { temp with state := stateOf failed (String.ofList state) temp.exitStatusCode }
  | .jobName, name => .ok { temp with name := String.ofList name }
  | .jobOwner, owner => .ok { temp with owner := String.ofList owner }
  | .exitStatus, exitStatus => .ok { temp with exitStatusCode := exitStatusOf exitStatus }
  | .walltime, value => do
    let wallTime ← parseDuration checked value
    .ok { temp with resourceUsed.wallTime := .ofNat wallTime }
  | .cput, value => do
    let cpuTime ← parseDuration checked value
    .ok { temp with resourceUsed.cpuTime := .ofNat cpuTime }
  | .ncpus, value => .ok { temp with resourceUsed.cpu := countOf value }
  | .mem, value => do
    let maxMemory ← parseMemory checked m.classes value
    if averages then do
      let avgMemory ← parseMemory checked m.classes value
      .ok { temp with
        resourceUsed.maxMemory := .ofNat maxMemory, resourceUsed.avgMemory := .ofNat avgMemory }
    else .ok { temp with resourceUsed.maxMemory := .ofNat maxMemory }
  | .stime, value => .ok { temp with resourceUsed.startTime := parseTime m value }
  | .mtime, value =>
    if ended temp.state then .ok { temp with resourceUsed.endTime := parseTime m value }
    else .ok temp
  | .nodect, value => .ok { temp with resourceUsed.node := countOf value }
  | .errorPath, value =>
    let path := afterColon value
    .ok { temp with
      errorOutput := m.contents path, resourceUsed.storage := m.size path }

def Job.readAll (m : Machine) (checked : Bool) (failed : Int32 → Bool) (averages : Bool)
    (temp : Job) (attributes : List (Key × List Char)) : Outcome String Job :=
  Outcome.foldEach (fun temp a => Job.read m checked failed averages temp a.1 a.2) temp attributes

def Job.readLine (m : Machine) (checked : Bool) (failed : Int32 → Bool) (averages : Bool)
    (temp : Job) (line : List Char) : Outcome String Job :=
  match attributeOf line with
  | none => .ok temp
  | some (key, value) => temp.read m checked failed averages key value

def heading : List Char := "Job Id: ".toList

def addLine (m : Machine) (checked : Bool) (failed : Int32 → Bool) (averages : Bool)
    (results : List Job) (line : List Char) : Outcome String (List Job) :=
  if heading.isPrefixOf line then .ok (results ++ [Job.fresh (line.drop heading.length)])
  else
    match results.getLast? with
    | none => .ok results
    | some temp => do
      let temp ← temp.readLine m checked failed averages line
      .ok (results.dropLast ++ [temp])

def readText (m : Machine) (checked : Bool) (failed : Int32 → Bool) (averages : Bool)
    (text : List Char) : Outcome String (List Job) :=
  Outcome.foldEach (addLine m checked failed averages) [] (text.splitOn '\n')

def getPbsJobsAlternative (m : Machine) (checked : Bool) (reply : Except String (List Char)) :
    Outcome String (List Job) :=
  Outcome.ofExcept reply >>= readText m checked failedEither true

def getPbsJobAlternative (m : Machine) (checked : Bool) (reply : Except String (List Char)) :
    Outcome String Job :=
  Outcome.ofExcept reply >>= fun text =>
    readText m checked failedBoth false text >>= fun results => .okOr "No such id" results.head?

-- What the text form says of one job: its id and the lines under it.
structure Block where
  id : List Char
  lines : List (List Char)
  whole : '\n' ∉ id ∧ ∀ line ∈ lines, '\n' ∉ line ∧ ¬ heading <+: line

def Block.text (b : Block) : List Char := unlines ((heading ++ b.id) :: b.lines)

def Block.attributes (b : Block) : List (Key × List Char) :=
  b.lines.filterMap attributeOf

def Block.job (m : Machine) (checked : Bool) (failed : Int32 → Bool) (averages : Bool) (b : Block) :
    Outcome String Job :=
  (Job.fresh b.id).readAll m checked failed averages b.attributes

-- The failure test leaves a state undecided for none but these.
def Decided (letter : String) (exitStatus : Int32) : Prop :=
  ¬((letter = "E" ∨ letter = "F") ∧ (exitStatus = 0 ∨ exitStatus = 254))

-- The last letter that is read, and the exit status read before it.
def stateRead (exitStatus : Int32) : List (Key × List Char) → Option (String × Int32)
  | [] => none
  | (key, value) :: rest =>
    if key = .jobState then
      (stateRead exitStatus rest).or (some (String.ofList value, exitStatus))
    else if key = .exitStatus then stateRead (exitStatusOf value) rest
    else stateRead exitStatus rest

def lastOf (key : Key) (attributes : List (Key × List Char)) : Option (List Char) :=
  (attributes.filterMap fun a => if a.1 = key then some a.2 else none).getLast?

structure Block.Settled (m : Machine) (checked : Bool) (b : Block) : Prop where
  state : ∀ p ∈ stateRead 0 b.attributes, Decided p.1 p.2
  memory : ∀ v ∈ lastOf .mem b.attributes,
    parseMemory checked m.classes v = (.ok 0 : Outcome String Nat)

section

variable {m : Machine} {checked averages averages' : Bool} {failed failed' : Int32 → Bool}

theorem addLine_heading (results : List Job) (id : List Char) :
    addLine m checked failed averages results (heading ++ id) = .ok (results ++ [Job.fresh id]) := by
  rw [addLine, if_pos (List.isPrefixOf_iff_prefix.mpr (List.prefix_append heading id)),
    List.drop_left]

theorem addLine_last {line : List Char} (h : ¬ heading <+: line) (results : List Job) (temp : Job) :
    addLine m checked failed averages (results ++ [temp]) line =
      temp.readLine m checked failed averages line >>= fun temp => .ok (results ++ [temp]) := by
  rw [addLine, if_neg fun hpre => h (List.isPrefixOf_iff_prefix.mp hpre), List.getLast?_concat]
  simp only [List.dropLast_concat]

theorem addLine_nil (results : List Job) :
    addLine m checked failed averages results [] = .ok results := by
  have hheading : ¬ heading <+: [] := by decide
  have hnone : attributeOf [] = none := by decide
  obtain rfl | ⟨js, temp, rfl⟩ := List.eq_nil_or_concat' results
  · rw [addLine, if_neg fun hpre => hheading (List.isPrefixOf_iff_prefix.mp hpre)]
    rfl
  · rw [addLine_last hheading, Job.readLine, hnone, Outcome.ok_bind]

theorem addLines_last {lines : List (List Char)} (h : ∀ line ∈ lines, ¬ heading <+: line)
    (results : List Job) (temp : Job) :
    Outcome.foldEach (addLine m checked failed averages) (results ++ [temp]) lines =
      Outcome.foldEach (Job.readLine m checked failed averages) temp lines >>= fun temp =>
        .ok (results ++ [temp]) := by
  induction lines generalizing temp with
  | nil => rfl
  | cons line lines ih =>
    rw [List.forall_mem_cons] at h
    rw [Outcome.foldEach, Outcome.foldEach, addLine_last h.1]
    cases temp.readLine m checked failed averages line with
    | ok temp' => exact ih h.2 temp'
    | err e => rfl
    | panic => rfl

theorem readLines_eq (lines : List (List Char)) (temp : Job) :
    Outcome.foldEach (Job.readLine m checked failed averages) temp lines =
      temp.readAll m checked failed averages (lines.filterMap attributeOf) := by
  induction lines generalizing temp with
  | nil => rfl
  | cons line lines ih =>
    rw [Outcome.foldEach, Job.readLine]
    cases h : attributeOf line with
    | none => rw [List.filterMap_cons_none h, Outcome.ok_bind, ih]
    | some a =>
      obtain ⟨key, value⟩ := a
      rw [List.filterMap_cons_some h]
      exact congrArg (temp.read m checked failed averages key value >>= ·) (funext ih)

def Block.rows (b : Block) : List (List Char) := (heading ++ b.id) :: b.lines

theorem addLines_block (b : Block) (results : List Job) :
    Outcome.foldEach (addLine m checked failed averages) results b.rows =
      b.job m checked failed averages >>= fun j => .ok (results ++ [j]) := by
  rw [Block.rows, Outcome.foldEach, addLine_heading, Outcome.ok_bind,
    addLines_last fun line hline => (b.whole.2 line hline).2, readLines_eq]
  rfl

theorem addLines_blocks (blocks : List Block) (results : List Job) :
    Outcome.foldEach (addLine m checked failed averages) results (blocks.flatMap Block.rows) =
      Outcome.mapEach (Block.job m checked failed averages) blocks >>= fun js =>
        .ok (results ++ js) := by
  induction blocks generalizing results with
  | nil =>
    rw [Outcome.mapEach, Outcome.ok_bind, List.append_nil]
    rfl
  | cons b blocks ih =>
    rw [List.flatMap_cons, Outcome.foldEach_append, addLines_block, Outcome.mapEach]
    cases b.job m checked failed averages with
    | err e => rfl
    | panic => rfl
    | ok j =>
      rw [Outcome.ok_bind, Outcome.ok_bind, Outcome.ok_bind, ih]
      cases Outcome.mapEach (Block.job m checked failed averages) blocks with
      | err e => rfl
      | panic => rfl
      | ok js => rw [Outcome.ok_bind, Outcome.ok_bind, Outcome.ok_bind, List.append_assoc,
          List.singleton_append]

theorem Block.rows_newline {b : Block} {row : List Char} (h : row ∈ b.rows) : '\n' ∉ row := by
  obtain rfl | h := List.mem_cons.mp h
  · rw [List.mem_append, not_or]
    exact ⟨by decide, b.whole.1⟩
  · exact (b.whole.2 row h).1

theorem unlines_blocks (blocks : List Block) :
    blocks.flatMap Block.text = unlines (blocks.flatMap Block.rows) := by
  rw [unlines, List.flatMap_assoc]
  rfl

-- A listing is read block by block.
theorem readText_blocks (blocks : List Block) :
    readText m checked failed averages (blocks.flatMap Block.text) =
      Outcome.mapEach (Block.job m checked failed averages) blocks := by
  have hrows : ∀ row ∈ blocks.flatMap Block.rows, '\n' ∉ row := by
    intro row hrow
    obtain ⟨b, -, hrow⟩ := List.mem_flatMap.mp hrow
    exact b.rows_newline hrow
  rw [readText, unlines_blocks, splitOn_unlines hrows, Outcome.foldEach_append, addLines_blocks]
  cases Outcome.mapEach (Block.job m checked failed averages) blocks with
  | err e => rfl
  | panic => rfl
  | ok js =>
    rw [Outcome.ok_bind, Outcome.ok_bind, List.nil_append, Outcome.foldEach, addLine_nil]
    rfl

theorem getPbsJobAlternative_text (b : Block) :
    getPbsJobAlternative m checked (.ok b.text) = b.job m checked failedBoth false := by
  have htext : b.text = [b].flatMap Block.text := (List.append_nil b.text).symm
  rw [getPbsJobAlternative, Outcome.ofExcept, Outcome.ok_bind, htext, readText_blocks]
  rw [Outcome.mapEach]
  cases b.job m checked failedBoth false <;> rfl

theorem failedEither_eq (exitStatus : Int32) : failedEither exitStatus = true := by
  rw [failedEither, Bool.or_eq_true, bne_iff_ne, bne_iff_ne]
  by_contra h
  rw [not_or, not_not, not_not] at h
  exact absurd (h.1.symm.trans h.2) (by decide)

theorem failedBoth_eq_false_iff {exitStatus : Int32} :
    failedBoth exitStatus = false ↔ exitStatus = 0 ∨ exitStatus = 254 := by
  rw [failedBoth, Bool.and_eq_false_iff, bne_eq_false_iff_eq, bne_eq_false_iff_eq]

theorem stateOf_eq_iff {letter : String} {exitStatus : Int32} :
    stateOf failedBoth letter exitStatus = stateOf failedEither letter exitStatus ↔
      Decided letter exitStatus := by
  rw [Decided, ← failedBoth_eq_false_iff]
  unfold stateOf
  rw [failedEither_eq]
  cases failedBoth exitStatus with
  | true => simp
  | false => split <;> simp_all

theorem ended_stateOf (letter : String) (exitStatus : Int32) :
    ended (stateOf failed letter exitStatus) = ended (stateOf failed' letter exitStatus) := by
  unfold stateOf
  cases failed exitStatus <;> cases failed' exitStatus <;> split <;> rfl

def Job.but (j : Job) (state : JobState) (avgMemory : UInt64) : Job :=
  { j with state := state, resourceUsed.avgMemory := avgMemory }

theorem Job.but_eq_iff {j : Job} {state : JobState} {avgMemory : UInt64} :
    j.but state avgMemory = j ↔ state = j.state ∧ avgMemory = j.resourceUsed.avgMemory := by
  constructor
  · intro h
    exact ⟨congrArg (fun j : Job => j.state) h, congrArg (fun j : Job => j.resourceUsed.avgMemory) h⟩
  · rintro ⟨rfl, rfl⟩
    rfl

-- What a value is converted to before it is set.
def measure (m : Machine) (checked : Bool) : Key → List Char → Outcome String Nat
  | .walltime, value => parseDuration checked value
  | .cput, value => parseDuration checked value
  | .mem, value => parseMemory checked m.classes value
  | _, _ => .ok 0

def Job.set (m : Machine) (failed : Int32 → Bool) (averages : Bool) (temp : Job) (n : Nat) :
    Key → List Char → Job
  | .jobState, value =>
    { temp with state := stateOf failed (String.ofList value) temp.exitStatusCode }
  | .jobName, value => { temp with name := String.ofList value }
  | .jobOwner, value => { temp with owner := String.ofList value }
  | .exitStatus, value => { temp with exitStatusCode := exitStatusOf value }
  | .walltime, _ => { temp with resourceUsed.wallTime := .ofNat n }
  | .cput, _ => { temp with resourceUsed.cpuTime := .ofNat n }
  | .ncpus, value => { temp with resourceUsed.cpu := countOf value }
  | .mem, _ => { temp with
      resourceUsed.maxMemory := .ofNat n
      resourceUsed.avgMemory := if averages then .ofNat n else temp.resourceUsed.avgMemory }
  | .stime, value => { temp with resourceUsed.startTime := parseTime m value }
  | .mtime, value => { temp with
      resourceUsed.endTime :=
        if ended temp.state then parseTime m value else temp.resourceUsed.endTime }
  | .nodect, value => { temp with resourceUsed.node := countOf value }
  | .errorPath, value => { temp with
      errorOutput := m.contents (afterColon value)
      resourceUsed.storage := m.size (afterColon value) }

theorem Job.read_eq (temp : Job) (key : Key) (value : List Char) :
    temp.read m checked failed averages key value =
      measure m checked key value >>= fun n => .ok (temp.set m failed averages n key value) := by
  cases key with
  | mem =>
    rw [Job.read, measure]
    cases parseMemory checked m.classes value with
    | ok n => cases averages <;> rfl
    | err e => rfl
    | panic => rfl
  | mtime =>
    have hif : ∀ b : Bool, (if b then .ok { temp with resourceUsed.endTime := parseTime m value }
        else .ok temp : Outcome String Job) = .ok { temp with
          resourceUsed.endTime :=
            if b then parseTime m value else temp.resourceUsed.endTime } := by
      intro b
      cases b <;> rfl
    exact hif (ended temp.state)
  | _ => rfl

theorem Job.set_state (temp : Job) (n : Nat) (key : Key) (value : List Char) :
    (temp.set m failed averages n key value).state = if key = .jobState then
      stateOf failed (String.ofList value) temp.exitStatusCode else temp.state := by
  cases key <;> rfl

theorem Job.set_exitStatusCode (temp : Job) (n : Nat) (key : Key) (value : List Char) :
    (temp.set m failed averages n key value).exitStatusCode =
      if key = .exitStatus then exitStatusOf value else temp.exitStatusCode := by
  cases key <;> rfl

theorem Job.set_avgMemory (temp : Job) (n : Nat) (key : Key) (value : List Char) :
    (temp.set m failed averages n key value).resourceUsed.avgMemory =
      if key = .mem ∧ averages = true then .ofNat n else temp.resourceUsed.avgMemory := by
  cases key <;> cases averages <;> rfl

-- Another reader reads the same but for the state and the average memory.
theorem Job.set_but {temp : Job} {state : JobState} {avgMemory : UInt64}
    (hended : ended state = ended temp.state) (n : Nat) (key : Key) (value : List Char) :
    ∃ state₁ avgMemory₁, (temp.but state avgMemory).set m failed' averages' n key value =
        (temp.set m failed averages n key value).but state₁ avgMemory₁ ∧
      ended state₁ = ended (temp.set m failed averages n key value).state := by
  cases key with
  | jobState => exact ⟨_, avgMemory, rfl, ended_stateOf _ _⟩
  | mem => exact ⟨state, if averages' then .ofNat n else avgMemory, rfl, hended⟩
  | mtime =>
    refine ⟨state, avgMemory, ?_, hended⟩
    simp only [Job.set, Job.but, hended]
  | _ => exact ⟨state, avgMemory, rfl, hended⟩

theorem Job.readAll_cons {a : Key × List Char} {attributes : List (Key × List Char)} {temp j : Job} :
    temp.readAll m checked failed averages (a :: attributes) = .ok j ↔
      ∃ n, measure m checked a.1 a.2 = .ok n ∧
        (temp.set m failed averages n a.1 a.2).readAll m checked failed averages attributes =
          .ok j := by
  have hread : temp.readAll m checked failed averages (a :: attributes) =
      temp.read m checked failed averages a.1 a.2 >>= fun temp =>
        temp.readAll m checked failed averages attributes := rfl
  rw [hread, Job.read_eq]
  cases measure m checked a.1 a.2 with
  | ok n => simp
  | err e => simp
  | panic => simp

theorem Job.readAll_but {attributes : List (Key × List Char)} {temp j : Job} {state : JobState}
    {avgMemory : UInt64} (hended : ended state = ended temp.state)
    (h : temp.readAll m checked failed averages attributes = .ok j) :
    ∃ state₁ avgMemory₁, (temp.but state avgMemory).readAll m checked failed' averages' attributes =
      .ok (j.but state₁ avgMemory₁) := by
  induction attributes generalizing temp state avgMemory with
  | nil =>
    cases h
    exact ⟨state, avgMemory, rfl⟩
  | cons a attributes ih =>
    obtain ⟨n, hn, h⟩ := Job.readAll_cons.mp h
    obtain ⟨state₁, avgMemory₁, hset, hended₁⟩ := Job.set_but hended n a.1 a.2
    obtain ⟨state₂, avgMemory₂, hrest⟩ := ih hended₁ h
    exact ⟨state₂, avgMemory₂, Job.readAll_cons.mpr ⟨n, hn, hset ▸ hrest⟩⟩

theorem Job.readAll_state {attributes : List (Key × List Char)} {temp j : Job}
    (h : temp.readAll m checked failed averages attributes = .ok j) :
    j.state = ((stateRead temp.exitStatusCode attributes).map fun p =>
      stateOf failed p.1 p.2).getD temp.state := by
  induction attributes generalizing temp with
  | nil =>
    cases h
    rfl
  | cons a attributes ih =>
    obtain ⟨key, value⟩ := a
    obtain ⟨n, -, h⟩ := Job.readAll_cons.mp h
    rw [ih h, Job.set_state, Job.set_exitStatusCode, stateRead]
    by_cases hstate : key = .jobState
    · have hexit : key ≠ .exitStatus := by
        rw [hstate]
        decide
      rw [if_pos hstate, if_pos hstate, if_neg hexit]
      cases stateRead temp.exitStatusCode attributes <;> rfl
    · rw [if_neg hstate, if_neg hstate]
      split <;> rfl

theorem lastOf_cons (key : Key) (a : Key × List Char) (attributes : List (Key × List Char)) :
    lastOf key (a :: attributes) =
      (lastOf key attributes).or (if a.1 = key then some a.2 else none) := by
  rw [lastOf, List.filterMap_cons]
  split
  · next h => rw [h, Option.or_none, lastOf]
  · next v h => rw [h, List.getLast?_cons, lastOf, Option.or_some]

-- A field that one key sets is as the last value of that key has it.
theorem Job.readAll_field {β : Type} {p : Job → β} {key : Key} {g : Nat → List Char → β}
    (hset : ∀ temp n k value, p (Job.set m failed averages temp n k value) =
      if k = key then g n value else p temp)
    {attributes : List (Key × List Char)} {temp j : Job}
    (h : temp.readAll m checked failed averages attributes = .ok j) :
    (lastOf key attributes = none → p j = p temp) ∧
      ∀ v, lastOf key attributes = some v → ∃ n, measure m checked key v = .ok n ∧ p j = g n v := by
  induction attributes generalizing temp with
  | nil =>
    cases h
    exact ⟨fun _ => rfl, fun _ => nofun⟩
  | cons a attributes ih =>
    obtain ⟨n, hn, h⟩ := Job.readAll_cons.mp h
    obtain ⟨hnone, hsome⟩ := ih h
    rw [lastOf_cons]
    cases hlast : lastOf key attributes with
    | some v =>
      rw [Option.some_or]
      exact ⟨nofun, fun _ hv => hsome _ (hlast.trans hv)⟩
    | none =>
      rw [Option.none_or, hnone hlast, hset]
      by_cases hkey : a.1 = key
      · rw [if_pos hkey, if_pos hkey]
        refine ⟨nofun, fun v hv => ?_⟩
        cases hv
        exact ⟨n, hkey ▸ hn, rfl⟩
      · rw [if_neg hkey, if_neg hkey]
        exact ⟨fun _ => rfl, fun _ => nofun⟩

theorem Job.readAll_avgMemory {attributes : List (Key × List Char)} {temp j : Job}
    (h : temp.readAll m checked failed true attributes = .ok j)
    (hzero : temp.resourceUsed.avgMemory = 0) :
    j.resourceUsed.avgMemory = 0 ↔ ∀ v ∈ lastOf .mem attributes,
      parseMemory checked m.classes v = (.ok 0 : Outcome String Nat) := by
  have hset : ∀ temp n k value, (Job.set m failed true temp n k value).resourceUsed.avgMemory =
      if k = .mem then .ofNat n else temp.resourceUsed.avgMemory := by
    intro temp n k value
    cases k <;> rfl
  obtain ⟨hnone, hsome⟩ := Job.readAll_field
    (p := fun j => j.resourceUsed.avgMemory) (g := fun n _ => UInt64.ofNat n) hset h
  cases hlast : lastOf .mem attributes with
  | none =>
    rw [hnone hlast]
    exact iff_of_true hzero fun v hv => by cases hv
  | some v =>
    obtain ⟨n, hn, havg⟩ := hsome v hlast
    have hlt : n < 2 ^ 64 := parseMemory_lt hn
    have hmeasure : parseMemory checked m.classes v = (.ok n : Outcome String Nat) := hn
    rw [havg]
    constructor
    · rintro hn0 w hw
      cases hw
      rw [hmeasure, ← UInt64.toNat_ofNat_of_lt' hlt, hn0]
      rfl
    · intro hall
      have hz := hmeasure.symm.trans (hall v rfl)
      cases hz
      rfl

theorem Job.readAll_avgMemory_kept {attributes : List (Key × List Char)} {temp j : Job}
    (h : temp.readAll m checked failed false attributes = .ok j) :
    j.resourceUsed.avgMemory = temp.resourceUsed.avgMemory := by
  induction attributes generalizing temp with
  | nil =>
    cases h
    rfl
  | cons a attributes ih =>
    obtain ⟨n, -, h⟩ := Job.readAll_cons.mp h
    rw [ih h, Job.set_avgMemory, if_neg fun hmem => Bool.false_ne_true hmem.2]

theorem forall₂_iff {α β : Type} {R S : α → β → Prop} {P : α → Prop} {xs : List α} {ys : List β}
    (hiff : ∀ x y, R x y → (S x y ↔ P x)) (h : List.Forall₂ R xs ys) :
    List.Forall₂ S xs ys ↔ ∀ x ∈ xs, P x := by
  induction h with
  | nil => simp
  | cons hxy _ ih => rw [List.forall₂_cons, List.forall_mem_cons, hiff _ _ hxy, ih]

theorem jobOf_agree {id : String} {item : PBSJob} {j : Job}
    (h : jobOf m checked failedEither id item = .ok j) :
    jobOf m checked failedBoth id item = .ok j ↔ Decided item.jobState item.exitStatus := by
  obtain ⟨avgMemory, havg, h⟩ := Outcome.bind_ok_iff.mp h
  obtain ⟨maxMemory, hmax, h⟩ := Outcome.bind_ok_iff.mp h
  obtain ⟨wallTime, hwall, h⟩ := Outcome.bind_ok_iff.mp h
  obtain ⟨cpuTime, hcpu, h⟩ := Outcome.bind_ok_iff.mp h
  cases havg.symm.trans hmax
  cases h
  rw [jobOf, havg, hwall, hcpu, ← stateOf_eq_iff]
  constructor
  · intro h
    exact congrArg (fun j : Job => j.state) (Outcome.ok.inj h)
  · intro h
    rw [h]
    rfl

theorem Block.job_but {b : Block} {j : Job} (h : b.job m checked failedEither true = .ok j) :
    ∃ state avgMemory, b.job m checked failedBoth false = .ok (j.but state avgMemory) :=
  Job.readAll_but rfl h

theorem Block.agree {b : Block} {j : Job} (h : b.job m checked failedEither true = .ok j) :
    b.job m checked failedBoth false = .ok j ↔ b.Settled m checked := by
  obtain ⟨state, avgMemory, hboth⟩ := Block.job_but h
  have hstate : j.state = ((stateRead 0 b.attributes).map fun p =>
      stateOf failedEither p.1 p.2).getD .unknown := Job.readAll_state h
  have hstate' : state = ((stateRead 0 b.attributes).map fun p =>
      stateOf failedBoth p.1 p.2).getD .unknown := Job.readAll_state hboth
  have havg' : avgMemory = 0 := Job.readAll_avgMemory_kept hboth
  rw [hboth, Outcome.ok.injEq, Job.but_eq_iff, havg', eq_comm (a := (0 : UInt64)),
    Job.readAll_avgMemory h rfl]
  have hiff : state = j.state ↔ ∀ p ∈ stateRead 0 b.attributes, Decided p.1 p.2 := by
    rw [hstate, hstate']
    cases stateRead 0 b.attributes with
    | none => exact iff_of_true rfl nofun
    | some p =>
      rw [Option.map_some, Option.getD_some, Option.map_some, Option.getD_some, stateOf_eq_iff]
      simp
  rw [hiff]
  exact ⟨fun h => ⟨h.1, h.2⟩, fun h => ⟨h.state, h.memory⟩⟩

-- The reader of all jobs and the reader of one agree, where nothing is read that only one of them
-- heeds.
theorem getPbsJobs_agree_iff (m : Machine) (checked : Bool) :
    (∀ jobs listed, getPbsJobs m checked (.ok jobs) = .ok listed →
      (List.Forall₂ (fun e j => getPbsJob m checked (.ok [e]) = .ok j) jobs listed ↔
        ∀ e ∈ jobs, Decided e.2.jobState e.2.exitStatus)) ∧
    ∀ blocks listed,
      getPbsJobsAlternative m checked (.ok (blocks.flatMap Block.text)) = .ok listed →
      (List.Forall₂ (fun b j => getPbsJobAlternative m checked (.ok b.text) = .ok j) blocks listed ↔
        ∀ b ∈ blocks, b.Settled m checked) := by
  constructor
  · intro jobs listed h
    exact forall₂_iff (fun e j hj => jobOf_agree hj) (Outcome.mapEach_forall₂ h)
  · intro blocks listed h
    have hblocks : Outcome.mapEach (Block.job m checked failedEither true) blocks = .ok listed := by
      rw [← readText_blocks]
      exact h
    simp only [getPbsJobAlternative_text]
    exact forall₂_iff (fun b j hj => Block.agree hj) (Outcome.mapEach_forall₂ hblocks)

-- A machine without files, and a job of one second.
def bare : Machine := ⟨ascii, fun _ => none, fun _ => none, fun _ => none⟩

def sample (letter : String) (exitStatus : Int32) : PBSJob where
  jobName := "run"
  jobOwner := "ada@head"
  resourcesUsed := ⟨"00:00:01", "2kb", 4, "00:00:01"⟩
  jobState := letter
  errorPath := "head:/work/1/STDERR"
  mtime := "UNKNOWN"
  nodect := 1
  stime := "UNKNOWN"
  exitStatus := exitStatus

def sampleJob (state : JobState) : Job where
  id := "1"
  name := "run"
  owner := "ada@head"
  state := state
  exitStatusCode := 1
  errorOutput := ""
  resourceUsed := ⟨4, 2048, 2048, 0, 1, 1, 1, 0, 0⟩

def failedText : Block where
  id := "1".toList
  lines := ["    Exit_status = 1".toList, "    job_state = F".toList,
    "    resources_used.mem = 0b".toList]
  whole := by decide

def failedTextJob : Job :=
  { Job.fresh "1".toList with state := .failed, exitStatusCode := 1 }

theorem getPbsJobs_agree_failed :
    List.Forall₂ (fun e j => getPbsJob bare true (.ok [e]) = .ok j) [("1", sample "F" 1)]
        [sampleJob .failed] ∧
      List.Forall₂ (fun b j => getPbsJobAlternative bare true (.ok b.text) = .ok j) [failedText]
        [failedTextJob] := by
  have hagree := getPbsJobs_agree_iff bare true
  constructor
  · refine (hagree.1 _ _ (by decide +kernel)).mpr fun e he => ?_
    cases List.mem_singleton.mp he
    exact fun h => absurd h.2 (by decide)
  · refine (hagree.2 _ _ (by decide +kernel)).mpr fun b hb => ?_
    cases List.mem_singleton.mp hb
    have hattributes : failedText.attributes =
        [(.exitStatus, ['1']), (.jobState, ['F']), (.mem, ['0', 'b'])] := by decide +kernel
    refine ⟨?_, ?_⟩
    · rw [hattributes]
      rintro p hp
      cases hp
      exact fun h => absurd h.2 (by decide)
    · rw [hattributes]
      rintro v hv
      cases hv
      decide +kernel

def finishedText : Block where
  id := "1".toList
  lines := ["    Exit_status = 0".toList, "    job_state = F".toList,
    "    resources_used.mem = 2kb".toList]
  whole := by decide

-- A job that ended well: the list has it failed.
theorem getPbsJobs_disagree :
    getPbsJobs bare true (.ok [("1", { sample "F" 1 with exitStatus := 0 })]) =
        .ok [{ sampleJob .failed with exitStatusCode := 0 }] ∧
      getPbsJob bare true (.ok [("1", { sample "F" 1 with exitStatus := 0 })]) =
        .ok { sampleJob .completed with exitStatusCode := 0 } ∧
      (getPbsJobsAlternative bare true (.ok finishedText.text)).toOption.map
        (List.map fun j => (j.state, j.resourceUsed.avgMemory)) = some [(.failed, 2048)] ∧
      (getPbsJobAlternative bare true (.ok finishedText.text)).toOption.map
        (fun j => (j.state, j.resourceUsed.avgMemory)) = some (.completed, 0) := by
  decide +kernel

end

end Kuintessence.Agent.Pbs
