import Kuintessence.Lib.Decimal
import Kuintessence.Lib.Shell

namespace Kuintessence

namespace Shell

inductive Stdin where
  | inherited
  | file (path : Chars)
  | text (text : Chars)
  deriving DecidableEq, Repr

structure Run where
  argv : List Chars
  env : Chars → Option Chars
  stdin : Stdin
  output : Option Chars

inductive Event where
  | run (r : Run)
  | builtin (r : Run)
  | capture (body : Chars) (env : Chars → Option Chars)

structure Vars where
  value : Chars → Option Chars
  exported : Chars → Bool

-- `output` is what a substitution reads, `vars` what a function leaves.
structure Reply where
  output : Chars
  status : UInt8
  vars : Vars

-- Everything outside of the script; it answers the last of the events.
structure World where
  reply : List Event → Reply
  opens : List Event → Chars → Bool
  paths : Chars → List Chars
  isFunction : Chars → Bool

structure State where
  vars : Vars
  status : UInt8 := 0
  captured : Option UInt8 := none
  exit : Option UInt8 := none
  events : List Event := []

namespace Vars

variable (vars : Vars)

def env (name : Chars) : Option Chars := if vars.exported name then vars.value name else none

def set (name value : Chars) : Vars :=
  { vars with value := fun n => if n = name then some value else vars.value n }

@[simp] theorem set_value (name value : Chars) : (vars.set name value).value name = some value :=
  if_pos rfl

def share (name : Chars) : Vars :=
  { vars with exported := fun n => n = name || vars.exported n }

end Vars

-- Characters after expansion: `split` ones come from an expansion outside of quotes.
inductive Mark where
  | quotes
  | quoted (c : Char)
  | lit (c : Char)
  | split (c : Char)
  deriving DecidableEq, Repr

def Mark.char : Mark → Option Char
  | .quotes => none
  | .quoted c => some c
  | .lit c => some c
  | .split c => some c

def Mark.isPattern : Mark → Bool
  | .lit c => ['*', '?', '['].contains c
  | .split c => ['*', '?', '['].contains c
  | _ => false

def plainText (ms : List Mark) : Chars := ms.filterMap Mark.char

def marks (inQuotes : Bool) (value : Chars) : List Mark :=
  value.map (if inQuotes then .quoted else .split)

def isSeparator : Mark → Bool
  | .split c => [' ', '\t', '\n'].contains c
  | _ => false

def splitFrom (field : List Mark) : List Mark → List (List Mark)
  | [] => if field = [] then [] else [field]
  | m :: ms =>
    if isSeparator m then
      if field = [] then splitFrom [] ms else field :: splitFrom [] ms
    else splitFrom (field ++ [m]) ms

-- Names that the shell keeps for itself.
def reserved : List Chars :=
  ["IFS", "PPID", "UID", "EUID", "BASHOPTS", "SHELLOPTS", "BASH_VERSINFO", "LINENO", "RANDOM",
    "SECONDS", "POSIXLY_CORRECT"].map String.toList

-- Commands that steer the shell itself, and keywords.
def steering : List Chars :=
  ["if", "then", "elif", "else", "fi", "for", "while", "until", "do", "done", "case", "esac", "\x7b",
    "\x7d", "!", "function", "select", "time", "[[", "coproc", "exec", "trap", "return", "break",
    "continue", "shift", "alias", "unalias", "set", "shopt", "export"].map String.toList

def builtins : List Chars := ["cd", "echo", "printf", "test", "[", "true", "false", ":", "umask",
  "ulimit", "pwd", "hash", "type", "wait"].map String.toList

-- Commands that may change variables.
def changing : List Chars :=
  [".", "source", "eval", "unset", "read", "readonly", "declare", "typeset", "local", "let",
    "getopts", "mapfile", "readarray", "enable"].map String.toList

-- `name=value` at the start of a word.
def assignmentFrom (name : Chars) : Word → Option (Chars × Word)
  | .lit c :: w =>
    if c = '=' then if name = [] then none else some (name, w)
    else if (if name = [] then isNameStart c else isNameChar c) then assignmentFrom (name ++ [c]) w
    else none
  | _ => none

def assignment (w : Word) : Option (Chars × Word) := assignmentFrom [] w

-- What a dollar sign in a here-document has led to so far.
def flush : Option Chars → Word
  | none => []
  | some [] => [.quoted '$']
  | some name => [.var true name]

-- The body of a here-document; its only expansions here are those of variables.
def bodyWord (name : Option Chars) : Chars → Option Word
  | [] => some (flush name)
  | c :: cs =>
    if name.any fun n => if n = [] then isNameStart c else isNameChar c then
      bodyWord (name.map (· ++ [c])) cs
    else if c = '$' then (bodyWord (some []) cs).map (flush name ++ ·)
    else if ['\x60', '\\'].contains c then none
    else if name = some [] ∧ (c.isDigit ∨ ['\x7b', '(', '?', '@', '*', '#', '-', '!'].contains c) then
      none
    else (bodyWord none cs).map fun w => flush name ++ .quoted c :: w

variable (world : World)

namespace State

variable (s : State)

-- The parts that call nothing.
def still : Part → Option (List Mark)
  | .lit c => some [.lit c]
  | .quoted c => some [.quoted c]
  | .quotes => some [.quotes]
  | .var inQuotes name => some (marks inQuotes ((s.vars.value name).getD []))
  | .status inQuotes => some (marks inQuotes (Nat.toDigits 10 s.status.toNat))
  | .capture _ _ => none

def fieldOf (field : List Mark) : List Chars :=
  if field.any Mark.isPattern then world.paths (plainText field) else [plainText field]

def fields (ms : List Mark) : List Chars := (splitFrom [] ms).flatMap (fieldOf world)

def exitStatus : List Chars → Option UInt8
  | [] => some s.status
  | [n] => (Decimal.number n).map UInt8.ofNat
  | _ => none

-- The words of a substitution that only exits.
def exits (body : Chars) : Option (List Word) :=
  match commands (body ++ ['\n']) with
  | [some command] =>
    match command.words with
    | w :: ws =>
      if w = literal "exit".toList ∧ command.input = .inherited ∧ command.output = none then some ws
      else none
    | [] => none
  | _ => none

-- The status and the output that a substitution leaves.
def capture (body : Chars) : Chars × State :=
  match (exits body).bind fun ws => ws.mapM fun w => w.mapM s.still with
  | some ms =>
    ([], { s with captured := some ((s.exitStatus (ms.flatMap fun m => fields world m.flatten)).getD 2) })
  | none =>
    let events := s.events ++ [.capture body s.vars.env]
    ((world.reply events).output,
      { s with events := events, captured := some (world.reply events).status })

-- A substitution drops the line feeds at the end of an output.
def trimEnd (cs : Chars) : Chars := (cs.reverse.dropWhile fun c => c = '\n').reverse

def expandPart : Part → List Mark × State
  | .lit c => ([.lit c], s)
  | .quoted c => ([.quoted c], s)
  | .quotes => ([.quotes], s)
  | .var inQuotes name => (marks inQuotes ((s.vars.value name).getD []), s)
  | .status inQuotes => (marks inQuotes (Nat.toDigits 10 s.status.toNat), s)
  | .capture inQuotes body =>
    (marks inQuotes (trimEnd (s.capture world body).1), (s.capture world body).2)

def expand : State → Word → List Mark × State
  | s, [] => ([], s)
  | s, p :: w =>
    let rest := expand (s.expandPart world p).2 w
    ((s.expandPart world p).1 ++ rest.1, rest.2)

def expandWords : State → List Word → List Chars × State
  | s, [] => ([], s)
  | s, w :: ws =>
    let rest := expandWords (s.expand world w).2 ws
    (fields world (s.expand world w).1 ++ rest.1, rest.2)

def stdin : State → Input → Option (Stdin × State)
  | s, .inherited => some (.inherited, s)
  | s, .file path => some (.file (plainText (s.expand world path).1), (s.expand world path).2)
  | s, .text body => (bodyWord none body).map fun w =>
    (.text (plainText (s.expand world w).1), (s.expand world w).2)

def output : State → Option Word → Option Chars × State
  | s, none => (none, s)
  | s, some path => (some (plainText (s.expand world path).1), (s.expand world path).2)

def assign (exported : Bool) (name : Chars) (value : Word) : Option State :=
  if name ∈ reserved then none
  else
    let out := s.expand world value
    let vars := out.2.vars.set name (plainText out.1)
    some { out.2 with vars := if exported then vars.share name else vars }

def assignWord (exported : Bool) (w : Word) : Option State :=
  match assignment w with
  | some out => s.assign world exported out.1 out.2
  | none =>
    if exported then (literalOf w).bind fun name =>
      if isName name then some { s with vars := s.vars.share name } else none
    else none

def assignAll (exported : Bool) : State → List Word → Option State
  | s, [] => some s
  | s, w :: ws => (s.assignWord world exported w).bind fun s => assignAll exported s ws

def call (r : Run) : State :=
  let event := if r.argv.head? ∈ builtins.map some then Event.builtin r else .run r
  let reply := world.reply (s.events ++ [event])
  let changes := r.argv.head? ∈ changing.map some ∨ (r.argv.head?.any world.isFunction) = true
  { s with
    events := s.events ++ [event], status := reply.status
    vars := if changes then reply.vars else s.vars }

def opensAll (r : Run) : Bool :=
  (match r.stdin with
    | .file path => world.opens s.events path
    | _ => true) && r.output.all (world.opens s.events)

def dispatch (r : Run) : Option State :=
  match r.argv with
  | [] => some { s with status := s.captured.getD 0 }
  | name :: args =>
    if name = "exit".toList then (s.exitStatus args).map fun status => { s with exit := some status }
    else if name ∈ steering then none
    else if s.opensAll world r then some (s.call world r)
    else some { s with status := 1 }

def exec (command : Command) : Option State :=
  let s := { s with captured := none }
  match command.words with
  | [] => none
  | w :: ws =>
    if w = literal "export".toList then
      (s.assignAll world true ws).map fun s => { s with status := 0 }
    else if (assignment w).isSome then
      (s.assignAll world false (w :: ws)).map fun s => { s with status := s.captured.getD 0 }
    else
      let argv := s.expandWords world (w :: ws)
      (argv.2.stdin world command.input).bind fun input =>
        let output := input.2.output world command.output
        output.2.dispatch world
          { argv := argv.1, env := output.2.vars.env, stdin := input.1, output := output.1 }

def execAll : State → List (Option Command) → Option State
  | s, [] => some s
  | s, c :: cs =>
    if s.exit.isSome then some s
    else c.bind fun command => (s.exec world command).bind fun s => execAll s cs

-- The status of the whole script.
def final : UInt8 := s.exit.getD s.status

end State

section Fields

variable {world : World} {cs : Chars}

-- A value that is one field, outside of quotes too.
structure IsField (cs : Chars) : Prop where
  ne_nil : cs ≠ []
  plain : ∀ c ∈ cs, [' ', '\t', '\n', '*', '?', '['].contains c = false

theorem splitFrom_whole {field ms : List Mark} (h : ∀ m ∈ ms, isSeparator m = false) :
    splitFrom field ms = if field ++ ms = [] then [] else [field ++ ms] := by
  induction ms generalizing field with
  | nil =>
    rw [splitFrom, List.append_nil]
  | cons m ms ih =>
    obtain ⟨hm, hms⟩ := List.forall_mem_cons.mp h
    rw [splitFrom, if_neg (by rw [hm]; decide), ih hms, List.append_assoc, List.singleton_append]

theorem plainText_map {mark : Char → Mark} (hmark : ∀ c, (mark c).char = some c) (cs : Chars) :
    plainText (cs.map mark) = cs := by
  induction cs with
  | nil => rfl
  | cons c cs ih =>
    rw [plainText, List.map_cons, List.filterMap_cons, hmark c]
    exact congrArg (c :: ·) ih

theorem plainText_lit (cs : Chars) : plainText (cs.map .lit) = cs := plainText_map (fun _ => rfl) cs

theorem plainText_marks (inQuotes : Bool) (cs : Chars) : plainText (marks inQuotes cs) = cs := by
  cases inQuotes with
  | false => exact plainText_map (fun _ => rfl) cs
  | true => exact plainText_map (fun _ => rfl) cs

theorem fields_map {mark : Char → Mark} (hmark : ∀ c, (mark c).char = some c) (hne : cs ≠ [])
    (hseparator : ∀ c ∈ cs, isSeparator (mark c) = false)
    (hpattern : ∀ c ∈ cs, (mark c).isPattern = false) :
    State.fields world (cs.map mark) = [cs] := by
  have hwhole : splitFrom [] (cs.map mark) = [cs.map mark] := by
    rw [splitFrom_whole fun m hm => by
      obtain ⟨c, hc, rfl⟩ := List.mem_map.mp hm
      exact hseparator c hc]
    exact if_neg fun hnil => hne (List.map_eq_nil_iff.mp hnil)
  have hplain : ¬(cs.map mark).any Mark.isPattern = true := by
    rw [List.any_eq_true]
    rintro ⟨m, hm, hbad⟩
    obtain ⟨c, hc, rfl⟩ := List.mem_map.mp hm
    rw [hpattern c hc] at hbad
    cases hbad
  rw [State.fields, hwhole, List.flatMap_singleton, State.fieldOf, if_neg hplain, plainText_map hmark]

theorem fields_lit (hne : cs ≠ []) (h : ∀ c ∈ cs, ['*', '?', '['].contains c = false) :
    State.fields world (cs.map .lit) = [cs] :=
  fields_map (fun _ => rfl) hne (fun _ _ => rfl) h

theorem IsField.fields (h : IsField cs) : State.fields world (marks false cs) = [cs] := by
  have hseparator : ∀ d ∈ [' ', '\t', '\n'], [' ', '\t', '\n', '*', '?', '['].contains d = true :=
    List.forall_iff_forall_mem.mp (by decide)
  have hpattern : ∀ d ∈ ['*', '?', '['], [' ', '\t', '\n', '*', '?', '['].contains d = true :=
    List.forall_iff_forall_mem.mp (by decide)
  refine fields_map (fun _ => rfl) h.ne_nil (fun c hc => ?_) fun c hc => ?_
  · refine Bool.eq_false_iff.mpr fun hbad => ?_
    have hall := hseparator c (List.contains_iff_mem.mp hbad)
    rw [h.plain c hc] at hall
    cases hall
  · refine Bool.eq_false_iff.mpr fun hbad => ?_
    have hall := hpattern c (List.contains_iff_mem.mp hbad)
    rw [h.plain c hc] at hall
    cases hall

theorem isField_digits (n : Nat) : IsField (Nat.toDigits 10 n) := by
  refine ⟨Nat.toDigits_ne_nil, fun c hc => ?_⟩
  have hspecial : ∀ d ∈ [' ', '\t', '\n', '*', '?', '['], d.isDigit = false :=
    List.forall_iff_forall_mem.mp (by decide)
  refine Bool.eq_false_iff.mpr fun hbad => ?_
  have hdigit := hspecial c (List.contains_iff_mem.mp hbad)
  rw [Decimal.isDigit_of_mem hc] at hdigit
  cases hdigit

end Fields

namespace State

section Expansion

variable {world : World} {s t u : State}

-- What expansions leave behind: substitutions they have run.
structure Substitutes (s t : State) : Prop where
  vars : t.vars = s.vars
  status : t.status = s.status
  exit : t.exit = s.exit
  events : ∃ more, t.events = s.events ++ more ∧ ∀ e ∈ more, ∃ body env, e = .capture body env

theorem Substitutes.refl (s : State) : Substitutes s s :=
  ⟨rfl, rfl, rfl, [], (List.append_nil _).symm, nofun⟩

theorem Substitutes.trans (hst : Substitutes s t) (htu : Substitutes t u) : Substitutes s u := by
  obtain ⟨first, hfirst, hall⟩ := hst.events
  obtain ⟨second, hsecond, hrest⟩ := htu.events
  refine ⟨htu.vars.trans hst.vars, htu.status.trans hst.status, htu.exit.trans hst.exit,
    first ++ second, ?_, fun e he => ?_⟩
  · rw [hsecond, hfirst, List.append_assoc]
  · obtain he | he := List.mem_append.mp he
    · exact hall e he
    · exact hrest e he

theorem substitutes_capture (world : World) (s : State) (body : Chars) :
    Substitutes s (s.capture world body).2 := by
  rw [capture]
  split
  · exact ⟨rfl, rfl, rfl, [], (List.append_nil _).symm, nofun⟩
  · refine ⟨rfl, rfl, rfl, [.capture body s.vars.env], rfl, fun e he => ?_⟩
    exact ⟨body, s.vars.env, List.mem_singleton.mp he⟩

theorem substitutes_expandPart (world : World) (s : State) (p : Part) :
    Substitutes s (s.expandPart world p).2 := by
  cases p with
  | capture inQuotes body => exact substitutes_capture world s body
  | lit c => exact .refl s
  | quoted c => exact .refl s
  | quotes => exact .refl s
  | var inQuotes name => exact .refl s
  | status inQuotes => exact .refl s

theorem substitutes_expand (world : World) (s : State) (w : Word) :
    Substitutes s (s.expand world w).2 := by
  induction w generalizing s with
  | nil => exact .refl s
  | cons p w ih => exact (substitutes_expandPart world s p).trans (ih _)

theorem substitutes_expandWords (world : World) (s : State) (ws : List Word) :
    Substitutes s (s.expandWords world ws).2 := by
  induction ws generalizing s with
  | nil => exact .refl s
  | cons w ws ih => exact (substitutes_expand world s w).trans (ih _)

theorem expand_lit (world : World) (s : State) (cs : Chars) :
    s.expand world (literal cs) = (cs.map .lit, s) := by
  induction cs with
  | nil => rfl
  | cons c cs ih =>
    have hrest : s.expand world (cs.map .lit) = (cs.map .lit, s) := ih
    rw [literal, List.map_cons, expand]
    simp only [expandPart]
    rw [hrest]
    rfl

theorem expandWords_lit (s : State) {cs : Chars} (hne : cs ≠ [])
    (h : ∀ c ∈ cs, ['*', '?', '['].contains c = false) (ws : List Word) :
    s.expandWords world (literal cs :: ws) =
      (cs :: (s.expandWords world ws).1, (s.expandWords world ws).2) := by
  rw [expandWords, expand_lit]
  dsimp only
  rw [fields_lit hne h]
  rfl

theorem expandWords_lit_of_all (s : State) {cs : Chars} (hne : cs ≠ [])
    (h : cs.all (fun c => !List.contains ['*', '?', '['] c) = true) (ws : List Word) :
    s.expandWords world (literal cs :: ws) =
      (cs :: (s.expandWords world ws).1, (s.expandWords world ws).2) :=
  expandWords_lit s hne (fun c hc => Bool.not_eq_true' _ ▸ List.all_eq_true.mp h c hc) ws

theorem expandWords_var {name value : Chars} (hvalue : s.vars.value name = some value)
    (h : IsField value) (ws : List Word) :
    s.expandWords world ([.var false name] :: ws) =
      (value :: (s.expandWords world ws).1, (s.expandWords world ws).2) := by
  rw [expandWords, expand, expand, expandPart, hvalue]
  dsimp only
  rw [Option.getD_some, List.append_nil, h.fields]
  rfl

theorem expandWords_append (world : World) (s : State) (ws vs : List Word) :
    s.expandWords world (ws ++ vs) =
      ((s.expandWords world ws).1 ++ ((s.expandWords world ws).2.expandWords world vs).1,
        ((s.expandWords world ws).2.expandWords world vs).2) := by
  induction ws generalizing s with
  | nil => rfl
  | cons w ws ih =>
    rw [List.cons_append, expandWords, ih]
    simp only [expandWords, List.append_assoc]

theorem substitutes_stdin {input : Input} {out : Stdin × State}
    (h : s.stdin world input = some out) : Substitutes s out.2 := by
  cases input with
  | inherited =>
    cases h
    exact .refl s
  | file path =>
    cases h
    exact substitutes_expand world s path
  | text body =>
    obtain ⟨w, -, rfl⟩ := Option.map_eq_some_iff.mp h
    exact substitutes_expand world s w

theorem substitutes_output (world : World) (s : State) (path : Option Word) :
    Substitutes s (s.output world path).2 := by
  cases path with
  | none => exact .refl s
  | some path => exact substitutes_expand world s path

theorem Substitutes.grows (h : Substitutes s t) : s.events <+: t.events := by
  obtain ⟨more, hmore, -⟩ := h.events
  exact ⟨more, hmore.symm⟩

end Expansion

section Growth

variable {world : World} {s t : State}

theorem grows_dispatch {r : Run} (h : s.dispatch world r = some t) : s.events <+: t.events := by
  rw [dispatch] at h
  split at h
  · cases h
    exact List.prefix_rfl
  · split at h
    · obtain ⟨status, -, rfl⟩ := Option.map_eq_some_iff.mp h
      exact List.prefix_rfl
    · split at h
      · cases h
      · split at h
        · cases h
          exact List.prefix_append _ _
        · cases h
          exact List.prefix_rfl

theorem grows_assignWord {exported : Bool} {w : Word}
    (h : s.assignWord world exported w = some t) : s.events <+: t.events := by
  rw [assignWord] at h
  split at h
  · next out _ =>
    rw [assign] at h
    split at h
    · cases h
    · cases h
      exact (substitutes_expand world s out.2).grows
  · split at h
    · obtain ⟨name, -, h⟩ := Option.bind_eq_some_iff.mp h
      split at h
      · cases h
        exact List.prefix_rfl
      · cases h
    · cases h

theorem grows_assignAll {exported : Bool} {ws : List Word}
    (h : s.assignAll world exported ws = some t) : s.events <+: t.events := by
  induction ws generalizing s with
  | nil =>
    cases h
    exact List.prefix_rfl
  | cons w ws ih =>
    obtain ⟨u, hu, hrest⟩ := Option.bind_eq_some_iff.mp h
    exact (grows_assignWord hu).trans (ih hrest)

theorem grows_exec {command : Command} (h : s.exec world command = some t) :
    s.events <+: t.events := by
  rw [exec] at h
  split at h
  · cases h
  · next w ws _ =>
    split at h
    · obtain ⟨u, hu, rfl⟩ := Option.map_eq_some_iff.mp h
      have hgrow := grows_assignAll hu
      exact hgrow
    · split at h
      · obtain ⟨u, hu, rfl⟩ := Option.map_eq_some_iff.mp h
        have hgrow := grows_assignAll hu
        exact hgrow
      · obtain ⟨input, hinput, hdispatch⟩ := Option.bind_eq_some_iff.mp h
        have hwords := (substitutes_expandWords world { s with captured := none } (w :: ws)).grows
        have hstdin := (substitutes_stdin hinput).grows
        have houtput := (substitutes_output world input.2 command.output).grows
        exact hwords.trans (hstdin.trans (houtput.trans (grows_dispatch hdispatch)))

theorem grows_execAll {cs : List (Option Command)} (h : s.execAll world cs = some t) :
    s.events <+: t.events := by
  induction cs generalizing s with
  | nil =>
    cases h
    exact List.prefix_rfl
  | cons c cs ih =>
    rw [execAll] at h
    split at h
    · cases h
      exact List.prefix_rfl
    · obtain ⟨command, -, h⟩ := Option.bind_eq_some_iff.mp h
      obtain ⟨u, hu, h⟩ := Option.bind_eq_some_iff.mp h
      exact (grows_exec hu).trans (ih h)

end Growth

section Sequence

variable {world : World} {s t : State}

theorem execAll_append (world : World) (s : State) (as bs : List (Option Command)) :
    s.execAll world (as ++ bs) = (s.execAll world as).bind fun t => t.execAll world bs := by
  induction as generalizing s with
  | nil => rfl
  | cons a as ih =>
    rw [List.cons_append, execAll, execAll]
    split
    · next hexit =>
      cases bs with
      | nil => rfl
      | cons b bs =>
        rw [Option.bind_some, execAll, if_pos hexit]
    · cases a with
      | none => rfl
      | some command =>
        rw [Option.bind_some, Option.bind_some, Option.bind_assoc]
        exact congrArg _ (funext fun u => ih u)

theorem execAll_cons (world : World) (hexit : s.exit = none) (command : Command)
    (cs : List (Option Command)) :
    s.execAll world (some command :: cs) =
      (s.exec world command).bind fun t => t.execAll world cs := by
  rw [execAll, hexit]
  rfl

end Sequence

section Commands

variable {world : World} {s : State} {w : Word} {ws : List Word} {name value : Chars}

theorem assignmentFrom_literal (start : Chars) (hstart : start ≠ []) (name : Chars)
    (hname : ∀ c ∈ name, isNameChar c = true) (w : Word) :
    assignmentFrom start (literal name ++ .lit '=' :: w) = some (start ++ name, w) := by
  induction name generalizing start with
  | nil =>
    rw [literal, List.map_nil, List.nil_append, assignmentFrom, if_pos rfl, if_neg hstart,
      List.append_nil]
  | cons c name ih =>
    obtain ⟨hc, hrest⟩ := List.forall_mem_cons.mp hname
    have hequals : c ≠ '=' := by
      rintro rfl
      cases hc
    have hnext : (if start = [] then isNameStart c else isNameChar c) = true := by
      rw [if_neg hstart, hc]
    have happend : start ++ [c] ≠ [] := List.append_ne_nil_of_right_ne_nil _ (List.cons_ne_nil c [])
    rw [literal, List.map_cons, List.cons_append, assignmentFrom, if_neg hequals, if_pos hnext,
      ← literal, ih (start ++ [c]) happend hrest, List.append_assoc, List.singleton_append]

theorem assignment_literal (h : isName name = true) (w : Word) :
    assignment (literal name ++ .lit '=' :: w) = some (name, w) := by
  cases name with
  | nil => cases h
  | cons c name =>
    obtain ⟨hc, hrest⟩ := Bool.and_eq_true_iff.mp h
    have hequals : c ≠ '=' := by
      rintro rfl
      cases hc
    have hnext : (if ([] : Chars) = [] then isNameStart c else isNameChar c) = true := by
      rw [if_pos rfl, hc]
    rw [assignment, literal, List.map_cons, List.cons_append, assignmentFrom, if_neg hequals,
      if_pos hnext, ← literal, List.nil_append]
    exact assignmentFrom_literal [c] (List.cons_ne_nil c []) name (List.all_eq_true.mp hrest) w

theorem exec_export (hname : isName name = true) (hreserved : name ∉ reserved) :
    s.exec world { words := [literal "export".toList, literal name ++ .lit '=' :: literal value] } =
      some { s with captured := none, vars := (s.vars.set name value).share name, status := 0 } := by
  rw [exec]
  dsimp only
  rw [if_pos rfl, assignAll, assignWord, assignment_literal hname]
  dsimp only
  rw [assign, if_neg hreserved, expand_lit]
  dsimp only
  rw [plainText_lit, Option.bind_some, assignAll, if_pos rfl]
  rfl

-- A command without redirection of its input.
theorem exec_words {command : Command} (hwords : command.words = w :: ws)
    (hexport : w ≠ literal "export".toList) (hassign : assignment w = none)
    (hinput : command.input = .inherited) {argv : List Chars} {u : State}
    (hargv : ({ s with captured := none } : State).expandWords world (w :: ws) = (argv, u)) :
    s.exec world command =
      (u.output world command.output).2.dispatch world
        { argv := argv, env := s.vars.env, stdin := .inherited
          output := (u.output world command.output).1 } := by
  have hvars := (substitutes_expandWords world { s with captured := none } (w :: ws)).vars
  rw [hargv] at hvars
  have houtput := (substitutes_output world u command.output).vars.trans hvars
  rw [exec, hwords]
  dsimp only
  rw [if_neg hexport, hassign, hinput, if_neg (by decide), hargv]
  dsimp only
  rw [stdin, Option.bind_some, houtput]

theorem exec_simple {command : Command} (hwords : command.words = w :: ws)
    (hexport : w ≠ literal "export".toList) (hassign : assignment w = none)
    (hinput : command.input = .inherited) (houtput : command.output = none)
    {argv : List Chars} {u : State}
    (hargv : ({ s with captured := none } : State).expandWords world (w :: ws) = (argv, u)) :
    s.exec world command = u.dispatch world
      { argv := argv, env := s.vars.env, stdin := .inherited, output := none } := by
  rw [exec_words hwords hexport hassign hinput hargv, houtput]
  rfl

theorem exec_assign {command : Command} (hwords : command.words = [literal name ++ .lit '=' :: w])
    (hname : isName name = true) (hreserved : name ∉ reserved)
    (hexport : literal name ++ .lit '=' :: w ≠ literal "export".toList) :
    s.exec world command =
      some { (({ s with captured := none } : State).expand world w).2 with
        vars := s.vars.set name (plainText (({ s with captured := none } : State).expand world w).1)
        status := (({ s with captured := none } : State).expand world w).2.captured.getD 0 } := by
  have hvars := (substitutes_expand world { s with captured := none } w).vars
  rw [exec, hwords]
  dsimp only
  rw [if_neg hexport, assignment_literal hname, Option.isSome_some, if_pos rfl, assignAll, assignWord,
    assignment_literal hname]
  dsimp only
  rw [assign, if_neg hreserved, Option.bind_some, assignAll, hvars]
  rfl

theorem dispatch_name {r : Run} {args : List Chars} (hargv : r.argv = name :: args)
    (hexit : name ≠ "exit".toList) (hsteering : name ∉ steering) :
    s.dispatch world r =
      if s.opensAll world r then some (s.call world r) else some { s with status := 1 } := by
  rw [dispatch, hargv]
  dsimp only
  rw [if_neg hexit, if_neg hsteering]

theorem dispatch_call {r : Run} {args : List Chars} (hargv : r.argv = name :: args)
    (hexit : name ≠ "exit".toList) (hsteering : name ∉ steering) (hopens : s.opensAll world r = true) :
    s.dispatch world r = some (s.call world r) := by
  rw [dispatch_name hargv hexit hsteering, if_pos hopens]

theorem call_vars {r : Run} {args : List Chars} (hargv : r.argv = name :: args)
    (hchanging : name ∉ changing) (hfunction : world.isFunction name = false) :
    (s.call world r).vars = s.vars := by
  have hchanges : ¬(r.argv.head? ∈ changing.map some ∨
      (r.argv.head?.any world.isFunction) = true) := by
    rw [hargv]
    rintro (hmem | hfun)
    · obtain ⟨n, hn, heq⟩ := List.mem_map.mp hmem
      cases heq
      exact hchanging hn
    · have hsome : world.isFunction name = true := hfun
      rw [hfunction] at hsome
      cases hsome
  rw [call]
  exact if_neg hchanges

theorem call_builtin {r : Run} {args : List Chars} (hargv : r.argv = name :: args)
    (h : name ∈ builtins) : (s.call world r).events = s.events ++ [.builtin r] := by
  have hmem : r.argv.head? ∈ builtins.map some := by
    rw [hargv]
    exact List.mem_map.mpr ⟨name, h, rfl⟩
  rw [call]
  dsimp only
  rw [if_pos hmem]

theorem call_run {r : Run} {args : List Chars} (hargv : r.argv = name :: args)
    (h : name ∉ builtins) : (s.call world r).events = s.events ++ [.run r] := by
  have hmem : r.argv.head? ∉ builtins.map some := by
    rw [hargv]
    intro hmem
    obtain ⟨n, hn, heq⟩ := List.mem_map.mp hmem
    cases heq
    exact h hn
  rw [call]
  dsimp only
  rw [if_neg hmem]

theorem exec_exit {command : Command} {status : UInt8}
    (hwords : command.words = [literal "exit".toList, [.var false name]])
    (hinput : command.input = .inherited) (houtput : command.output = none)
    (hvalue : s.vars.value name = some (Nat.toDigits 10 status.toNat)) :
    s.exec world command = some { s with captured := none, exit := some status } := by
  have hargv : ({ s with captured := none } : State).expandWords world
      [literal "exit".toList, [.var false name]] =
        (["exit".toList, Nat.toDigits 10 status.toNat], { s with captured := none }) := by
    have hfield : ({ s with captured := none } : State).vars.value name =
        some (Nat.toDigits 10 status.toNat) := hvalue
    rw [expandWords_lit_of_all _ (by decide) rfl, expandWords_var hfield (isField_digits _)]
    rfl
  rw [exec_simple hwords (by decide) (by decide) hinput houtput hargv, dispatch]
  dsimp only
  rw [if_pos rfl, exitStatus, Decimal.number_toDigits, Option.map_some, Option.map_some,
    UInt8.ofNat_toNat]

theorem call_status (s : State) (r : Run) :
    (s.call world r).status = (world.reply (s.call world r).events).status := rfl

theorem bodyWord_plain {body : Chars} (h : ∀ c ∈ body, ['$', '\x60', '\\'].contains c = false) :
    bodyWord none body = some (body.map .quoted) := by
  induction body with
  | nil => rfl
  | cons c body ih =>
    obtain ⟨hc, hrest⟩ := List.forall_mem_cons.mp h
    have hdollar : c ≠ '$' := by
      rintro rfl
      cases hc
    have hother : ¬['\x60', '\\'].contains c = true := by
      intro hmem
      have hall : ∀ d ∈ ['\x60', '\\'], ['$', '\x60', '\\'].contains d = true :=
        List.forall_iff_forall_mem.mp (by decide)
      rw [hall c (List.contains_iff_mem.mp hmem)] at hc
      cases hc
    rw [bodyWord, if_neg (by exact nofun), if_neg hdollar, if_neg hother,
      if_neg (fun hbad => nomatch hbad.1), ih hrest]
    rfl

theorem expand_quoted (world : World) (s : State) (cs : Chars) :
    s.expand world (cs.map .quoted) = (cs.map .quoted, s) := by
  induction cs with
  | nil => rfl
  | cons c cs ih =>
    rw [List.map_cons, expand]
    simp only [expandPart]
    rw [ih]
    rfl

theorem stdin_plain {body : Chars} (h : ∀ c ∈ body, ['$', '\x60', '\\'].contains c = false) :
    s.stdin world (.text body) = some (.text body, s) := by
  have htext : plainText (body.map .quoted) = body := plainText_map (fun _ => rfl) body
  rw [stdin, bodyWord_plain h, Option.map_some, expand_quoted, htext]

end Commands

end State

end Shell

end Kuintessence
