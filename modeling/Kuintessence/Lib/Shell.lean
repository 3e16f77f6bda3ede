import Mathlib.Data.List.Infix

namespace Kuintessence

-- The commands of a shell script, read by one character after the other.
namespace Shell

abbrev Chars := List Char

inductive Part where
  | lit (c : Char)
  | quoted (c : Char)
  | quotes
  | var (inQuotes : Bool) (name : Chars)
  | status (inQuotes : Bool)
  | capture (inQuotes : Bool) (body : Chars)
  deriving DecidableEq, Repr

abbrev Word := List Part

def literal (cs : Chars) : Word := cs.map .lit

inductive Input where
  | inherited
  | file (path : Word)
  | text (body : Chars)
  deriving DecidableEq, Repr

structure Command where
  words : List Word := []
  input : Input := .inherited
  output : Option Word := none
  deriving DecidableEq, Repr

inductive Redirect where
  | input
  | output
  | here
  deriving DecidableEq, Repr

inductive Mode where
  | blank
  | word
  | comment
  | less
  | single
  | double
  | escape (back : Mode)
  | dollar (inQuotes : Bool)
  | name (inQuotes : Bool) (name : Chars)
  | tick (inQuotes : Bool) (body : Chars)
  | paren (inQuotes : Bool) (body : Chars)
  | here (delimiter body line : Chars)
  | bad
  deriving DecidableEq, Repr

-- `none` stands for what these rules do not read.
structure Reader where
  read : List (Option Command) := []
  mode : Mode := .blank
  word : Word := []
  command : Command := {}
  target : Option Redirect := none
  delimiter : Option Chars := none
  deriving DecidableEq, Repr

def isNameStart (c : Char) : Bool := c.isAlpha || c = '_'

def isNameChar (c : Char) : Bool := c.isAlphanum || c = '_'

def isName : Chars → Bool
  | [] => false
  | c :: cs => isNameStart c && cs.all isNameChar

-- A word without quotes and expansions.
def literalOf (w : Word) : Option Chars :=
  w.mapM fun p => match p with
    | .lit c => some c
    | _ => none

namespace Reader

def fail (r : Reader) : Reader := { r with read := r.read ++ [none], mode := .bad }

def push (r : Reader) (p : Part) (mode : Mode) : Reader :=
  { r with word := r.word ++ [p], mode := mode }

def endWord (r : Reader) : Reader :=
  match r.target with
  | none => { r with
      word := [], mode := .blank
      command := { r.command with words := r.command.words ++ [r.word] } }
  | some .input => { r with
      word := [], mode := .blank, target := none, command := { r.command with input := .file r.word } }
  | some .output => { r with
      word := [], mode := .blank, target := none
      command := { r.command with output := some r.word } }
  | some .here =>
    match literalOf r.word with
    | some delimiter =>
      { r with word := [], mode := .blank, target := none, delimiter := some delimiter }
    | none => r.fail

def endLine (r : Reader) : Reader :=
  if r.target ≠ none then r.fail
  else match r.delimiter with
    | some delimiter => { r with mode := .here delimiter [] [] }
    | none =>
      if r.command = {} then { r with mode := .blank }
      else { r with mode := .blank, read := r.read ++ [some r.command], command := {} }

-- A tilde is no character of its own where a home directory may stand for it.
def atTilde (r : Reader) : Bool :=
  r.word = [] ∨ r.word.getLast? = some (.lit ':') ∨ r.word.getLast? = some (.lit '=')

def redirect (r : Reader) (mode : Mode) (target : Option Redirect) : Reader :=
  if r.target = none then { r with mode := mode, target := target } else r.fail

-- Outside of quotes and in a word.
def inWord (r : Reader) (c : Char) : Reader :=
  if c = ' ' ∨ c = '\t' then r.endWord
  else if c = '\n' then
    let r := r.endWord
    if r.mode = .bad then r else r.endLine
  else if c = '<' ∨ c = '>' then
    if r.target = none ∧ ¬(r.word.all fun p => match p with
      | .lit d => d.isDigit
      | _ => false) then
      if c = '<' then r.endWord.redirect .less none else r.endWord.redirect .blank (some .output)
    else r.fail
  else if c = '\'' then r.push .quotes .single
  else if c = '"' then r.push .quotes .double
  else if c = '\\' then { r with mode := .escape .word }
  else if c = '$' then { r with mode := .dollar false }
  else if c = '\x60' then { r with mode := .tick false [] }
  else if ['|', '&', ';', '(', ')'].contains c then r.fail
  else if c = '~' ∧ r.atTilde then r.fail
  else r.push (.lit c) .word

-- Between two words.
def between (r : Reader) (c : Char) : Reader :=
  if c = ' ' ∨ c = '\t' then r
  else if c = '\n' then r.endLine
  else if c = '#' then { r with mode := .comment }
  else if c = '<' then r.redirect .less none
  else if c = '>' then r.redirect .blank (some .output)
  else if c = '\\' then { r with mode := .escape .blank }
  else r.inWord c

def inDouble (r : Reader) (c : Char) : Reader :=
  if c = '"' then { r with mode := .word }
  else if c = '\\' then { r with mode := .escape .double }
  else if c = '$' then { r with mode := .dollar true }
  else if c = '\x60' then { r with mode := .tick true [] }
  else r.push (.quoted c) .double

def resume (r : Reader) (inQuotes : Bool) (c : Char) : Reader :=
  if inQuotes then r.inDouble c else r.inWord c

def around (inQuotes : Bool) : Mode := if inQuotes then .double else .word

def inEscape (r : Reader) (back : Mode) (c : Char) : Reader :=
  if c = '\n' then { r with mode := back }
  else if back = .double ∧ ¬['$', '\x60', '"', '\\'].contains c then
    (r.push (.quoted '\\') .double).push (.quoted c) .double
  else r.push (.quoted c) (if back = .double then .double else .word)

def afterDollar (r : Reader) (inQuotes : Bool) (c : Char) : Reader :=
  if c = '?' then r.push (.status inQuotes) (around inQuotes)
  else if isNameStart c then { r with mode := .name inQuotes [c] }
  else if c = '(' then { r with mode := .paren inQuotes [] }
  else if c.isDigit ∨ ['\x7b', '@', '*', '#', '-', '$', '!', '\'', '"'].contains c then r.fail
  else (r.push (if inQuotes then .quoted '$' else .lit '$') (around inQuotes)).resume inQuotes c

def step (r : Reader) (c : Char) : Reader :=
  match r.mode with
  | .blank => r.between c
  | .word => r.inWord c
  | .comment => if c = '\n' then r.endLine else r
  | .less =>
    if c = '<' then { r with mode := .blank, target := some .here }
    else if ['&', '>'].contains c then r.fail
    else { r with mode := .blank, target := some .input }.between c
  | .single => if c = '\'' then { r with mode := .word } else r.push (.quoted c) .single
  | .double => r.inDouble c
  | .escape back => r.inEscape back c
  | .dollar inQuotes => r.afterDollar inQuotes c
  | .name inQuotes name =>
    if isNameChar c then { r with mode := .name inQuotes (name ++ [c]) }
    else (r.push (.var inQuotes name) (around inQuotes)).resume inQuotes c
  | .tick inQuotes body =>
    if c = '\x60' then r.push (.capture inQuotes body) (around inQuotes)
    else if c = '\\' then r.fail
    else { r with mode := .tick inQuotes (body ++ [c]) }
  | .paren inQuotes body =>
    if c = ')' then r.push (.capture inQuotes body) (around inQuotes)
    else if ['(', '\'', '"', '\\', '\x60', '#'].contains c then r.fail
    else { r with mode := .paren inQuotes (body ++ [c]) }
  | .here delimiter body line =>
    if c = '\n' then
      if line = delimiter then { r with
        read := r.read ++ [some { r.command with input := .text body }]
        mode := .blank, command := {}, delimiter := none }
      else if line.getLast? = some '\\' then r.fail
      else { r with mode := .here delimiter (body ++ line ++ ['\n']) [] }
    else { r with mode := .here delimiter body (line ++ [c]) }
  | .bad => r

def run (r : Reader) (cs : Chars) : Reader := cs.foldl step r

-- What the end of the text makes of the rest.
def finish (r : Reader) : List (Option Command) :=
  match r.mode with
  | .blank | .comment => if r.delimiter = none then r.endLine.read else r.fail.read
  | .word =>
    let r := r.endWord
    if r.mode = .bad then r.read else if r.delimiter = none then r.endLine.read else r.fail.read
  | .bad => r.read
  | _ => r.fail.read

section Reading

variable {r : Reader} {c : Char} {cs t : Chars}

theorem run_append (r : Reader) (a b : Chars) : r.run (a ++ b) = (r.run a).run b :=
  List.foldl_append

theorem run_cons (r : Reader) (c : Char) (cs : Chars) : r.run (c :: cs) = (r.step c).run cs := rfl

-- Characters without a meaning of their own inside of a word.
def isSafe (c : Char) : Bool :=
  ¬[' ', '\t', '\n', '<', '>', '\'', '"', '\\', '$', '\x60', '|', '&', ';', '(', ')'].contains c

-- A text that stands for itself after the character `prev` of a word.
def plainFrom (prev : Option Char) : Chars → Bool
  | [] => true
  | c :: cs => isSafe c && (c != '~' || !List.contains [none, some ':', some '='] prev) &&
      plainFrom (some c) cs

-- A word that stands for itself.
structure Plain (cs : Chars) : Prop where
  ne_nil : cs ≠ []
  comment : cs.head? ≠ some '#'
  plain : plainFrom none cs = true

theorem isSafe_of_isNameChar (h : isNameChar c = true) : isSafe c = true := by
  have hspecial : ∀ d ∈ [' ', '\t', '\n', '<', '>', '\'', '"', '\\', '$', '\x60', '|', '&', ';', '(',
      ')'], isNameChar d = false := List.forall_iff_forall_mem.mp (by decide)
  rw [isSafe, decide_eq_true_iff, List.contains_iff_mem]
  intro hmem
  rw [hspecial c hmem] at h
  cases h

theorem ne_of_isSafe {d : Char} (hc : isSafe c = true) (hd : isSafe d = false) : c ≠ d := by
  rintro rfl
  rw [hc] at hd
  cases hd

theorem inWord_safe (hsafe : isSafe c = true) (htilde : c = '~' → r.atTilde = false) :
    r.inWord c = r.push (.lit c) .word := by
  have hne {d : Char} (hd : isSafe d = false) : c ≠ d := ne_of_isSafe hsafe hd
  have hspecial : ¬['|', '&', ';', '(', ')'].contains c := by
    rw [List.contains_iff_mem]
    intro hmem
    have hall : ∀ d ∈ ['|', '&', ';', '(', ')'], isSafe d = false :=
      List.forall_iff_forall_mem.mp (by decide)
    exact hne (hall c hmem) rfl
  have hblank : ¬(c = ' ' ∨ c = '\t') := not_or.mpr ⟨hne rfl, hne rfl⟩
  have hangle : ¬(c = '<' ∨ c = '>') := not_or.mpr ⟨hne rfl, hne rfl⟩
  have htilde : ¬(c = '~' ∧ r.atTilde = true) := fun h => by
    rw [htilde h.1] at h
    cases h.2
  rw [inWord, if_neg hblank, if_neg (hne rfl), if_neg hangle, if_neg (hne rfl), if_neg (hne rfl),
    if_neg (hne rfl), if_neg (hne rfl), if_neg (hne rfl), if_neg hspecial, if_neg htilde]

theorem between_safe (hsafe : isSafe c = true) (hsharp : c ≠ '#') : r.between c = r.inWord c := by
  have hne {d : Char} (hd : isSafe d = false) : c ≠ d := ne_of_isSafe hsafe hd
  have hblank : ¬(c = ' ' ∨ c = '\t') := not_or.mpr ⟨hne rfl, hne rfl⟩
  rw [between, if_neg hblank, if_neg (hne rfl), if_neg hsharp, if_neg (hne rfl), if_neg (hne rfl),
    if_neg (hne rfl)]

theorem atTilde_eq {prev : Option Char} (hlast : r.word.getLast? = prev.map .lit)
    (h : (!List.contains [none, some ':', some '='] prev) = true) : r.atTilde = false := by
  cases prev with
  | none => cases h
  | some d =>
    have hcolon : d ≠ ':' := by
      rintro rfl
      cases h
    have hequals : d ≠ '=' := by
      rintro rfl
      cases h
    have hword : r.word ≠ [] := by
      intro hnil
      rw [hnil] at hlast
      cases hlast
    rw [atTilde, hlast]
    simp [hword, hcolon, hequals]

theorem run_plain {prev : Option Char} (hmode : r.mode = .word)
    (hlast : r.word.getLast? = prev.map .lit) (h : plainFrom prev t = true) :
    r.run t = { r with word := r.word ++ literal t } := by
  induction t generalizing r prev with
  | nil =>
    rw [literal, List.map_nil, List.append_nil]
    rfl
  | cons c t ih =>
    obtain ⟨hc, ht⟩ := Bool.and_eq_true_iff.mp h
    obtain ⟨hsafe, htilde⟩ := Bool.and_eq_true_iff.mp hc
    have hstep : r.step c = r.push (.lit c) .word := by
      rw [step, hmode]
      refine inWord_safe hsafe fun heq => atTilde_eq hlast ?_
      rw [heq] at htilde
      exact htilde
    rw [run_cons, hstep, ih rfl (List.getLast?_concat) ht]
    simp [push, hmode, literal]

theorem run_word (hmode : r.mode = .blank) (hword : r.word = []) (h : Plain t) :
    r.run t = { r with mode := .word, word := literal t } := by
  obtain ⟨hne, hcomment, hplain⟩ := h
  cases t with
  | nil => exact absurd rfl hne
  | cons c t =>
    obtain ⟨hc, ht⟩ := Bool.and_eq_true_iff.mp hplain
    obtain ⟨hsafe, htilde⟩ := Bool.and_eq_true_iff.mp hc
    have hsharp : c ≠ '#' := fun heq => hcomment (congrArg some heq)
    have hplainTilde : c = '~' → r.atTilde = false := by
      rintro rfl
      cases htilde
    have hstep : r.step c = r.push (.lit c) .word := by
      rw [step, hmode]
      exact (between_safe hsafe hsharp).trans (inWord_safe hsafe hplainTilde)
    rw [run_cons, hstep, run_plain rfl (List.getLast?_concat) ht]
    simp [push, hword, literal]

-- In front of the next word of a command, or of its first one.
def atWord (read : List (Option Command)) (words : List Word) : Reader :=
  { read := read, command := { words := words } }

variable {read : List (Option Command)} {words : List Word}

theorem run_commentFrom (hmode : r.mode = .comment) (h : '\n' ∉ t) : r.run t = r := by
  induction t with
  | nil => rfl
  | cons c t ih =>
    obtain ⟨hc, ht⟩ := not_or.mp (mt List.mem_cons.mpr h)
    have hstep : r.step c = r := by
      rw [step, hmode]
      exact if_neg (Ne.symm hc)
    rw [run_cons, hstep, ih ht]

variable (read words) in
theorem run_blankWord (h : Plain t) :
    (atWord read words).run (t ++ [' ']) = atWord read (words ++ [literal t]) := by
  rw [run_append, run_word rfl rfl h]
  rfl

theorem endLine_command {command : Command} (h : command ≠ {}) (read : List (Option Command)) :
    ({ read := read, command := command } : Reader).endLine =
      atWord (read ++ [some command]) [] := by
  rw [endLine, if_neg (fun hbad => hbad rfl)]
  exact if_neg h

theorem run_lastWord (h : Plain t) : (atWord read words).run (t ++ ['\n']) =
    atWord (read ++ [some { words := words ++ [literal t] }]) [] := by
  have hcommand : ({ words := words ++ [literal t] } : Command) ≠ {} := by
    simp
  rw [run_append, run_word rfl rfl h]
  exact endLine_command hcommand read

-- A text that adds these words to a command.
def Words (t : Chars) (ws : List Word) : Prop :=
  ∀ read words, (atWord read words).run (t ++ [' ']) = atWord read (words ++ ws)

theorem inWord_newline (h : (r.inWord ' ').mode = .blank) :
    r.inWord '\n' = (r.inWord ' ').endLine := by
  have hspace : r.inWord ' ' = r.endWord := rfl
  have hline : r.inWord '\n' = if r.endWord.mode = .bad then r.endWord else r.endWord.endLine := rfl
  rw [hspace] at h
  rw [hline, hspace, h]
  rfl

theorem resume_newline {inQuotes : Bool} (h : (r.resume inQuotes ' ').mode = .blank) :
    r.resume inQuotes '\n' = (r.resume inQuotes ' ').endLine := by
  cases inQuotes with
  | false => exact inWord_newline h
  | true => cases h

theorem step_newline (h : (r.step ' ').mode = .blank) : r.step '\n' = (r.step ' ').endLine := by
  rw [step] at h ⊢
  rw [step]
  cases hmode : r.mode with
  | blank => rfl
  | word =>
    rw [hmode] at h
    exact inWord_newline h
  | comment =>
    rw [hmode] at h
    exact absurd (hmode.symm.trans h) nofun
  | less => rfl
  | single =>
    rw [hmode] at h
    cases h
  | double =>
    rw [hmode] at h
    cases h
  | escape back =>
    rw [hmode] at h
    cases back with
    | double => cases h
    | _ => cases h
  | dollar inQuotes =>
    rw [hmode] at h
    exact resume_newline h
  | name inQuotes name =>
    rw [hmode] at h
    exact resume_newline h
  | tick inQuotes body =>
    rw [hmode] at h
    cases h
  | paren inQuotes body =>
    rw [hmode] at h
    cases h
  | here delimiter body line =>
    rw [hmode] at h
    cases h
  | bad =>
    rw [hmode] at h
    exact absurd (hmode.symm.trans h) nofun

theorem Words.newline {ws : List Word} (h : Words t ws) (hne : words ++ ws ≠ []) :
    ((atWord read words).run t).run ['\n'] =
      atWord (read ++ [some { words := words ++ ws }]) [] := by
  have hspace : ((atWord read words).run t).step ' ' = atWord read (words ++ ws) := by
    have hrun := h read words
    rwa [run_append] at hrun
  have hmode : (((atWord read words).run t).step ' ').mode = .blank := by
    rw [hspace]
    rfl
  have hcommand : ({ words := words ++ ws } : Command) ≠ {} := fun heq =>
    hne (congrArg Command.words heq)
  have hline := step_newline hmode
  rw [hspace] at hline
  exact hline.trans (endLine_command hcommand read)

theorem run_input (h : Plain t) :
    (((atWord read words).run ['<', ' ']).run t).run ['\n'] =
      atWord (read ++ [some { words := words, input := .file (literal t) }]) [] := by
  have hblank : (atWord read words).run ['<', ' '] =
      { atWord read words with target := some .input } := rfl
  have hcommand : ({ words := words, input := .file (literal t) } : Command) ≠ {} := fun heq => by
    cases congrArg Command.input heq
  rw [hblank, run_word rfl rfl h]
  exact endLine_command hcommand read

-- In the middle of a here-document.
def atHere (read : List (Option Command)) (command : Command) (delimiter body line : Chars) :
    Reader :=
  { read := read, command := command, mode := .here delimiter body line
    delimiter := some delimiter }

variable {command : Command} {delimiter body line : Chars}

theorem step_here_newline : (atHere read command delimiter body line).step '\n' =
    if line = delimiter then
      atWord (read ++ [some { command with input := .text body }]) []
    else if line.getLast? = some '\\' then (atHere read command delimiter body line).fail
    else atHere read command delimiter (body ++ line ++ ['\n']) [] := rfl

theorem step_here (hc : c ≠ '\n') : (atHere read command delimiter body line).step c =
    atHere read command delimiter body (line ++ [c]) := if_neg hc

theorem run_bad (h : r.mode = .bad) (cs : Chars) : r.run cs = r := by
  induction cs with
  | nil => rfl
  | cons c cs ih =>
    have hstep : r.step c = r := by
      rw [step, h]
    rw [run_cons, hstep, ih]

theorem run_here_line (h : '\n' ∉ t) : (atHere read command delimiter body line).run t =
    atHere read command delimiter body (line ++ t) := by
  induction t generalizing line with
  | nil =>
    rw [List.append_nil]
    rfl
  | cons c t ih =>
    obtain ⟨hc, ht⟩ := not_or.mp (mt List.mem_cons.mpr h)
    rw [run_cons, step_here (Ne.symm hc), ih ht, List.append_assoc, List.singleton_append]

-- A here-document ends at the first line that is its delimiter.
variable (read command) in
theorem run_here (hdelimiter : '\n' ∉ delimiter) (t : Chars) (body line : Chars) :
    (∃ consumed rest, line ++ t ++ '\n' :: delimiter ++ ['\n'] = consumed ++ delimiter ++ '\n' :: rest ∧
      (atHere read command delimiter body line).run (t ++ '\n' :: delimiter ++ ['\n']) =
        (atWord (read ++ [some { command with input := .text (body ++ consumed) }]) []).run rest) ∨
    (∃ r : Reader, r.mode = .bad ∧ r.read = read ++ [none] ∧
      (atHere read command delimiter body line).run (t ++ '\n' :: delimiter ++ ['\n']) = r) := by
  induction t generalizing body line with
  | nil =>
    rw [List.nil_append, List.cons_append, run_cons, step_here_newline]
    split
    · next heq =>
      refine .inl ⟨[], delimiter ++ ['\n'], ?_, ?_⟩
      · rw [heq, List.append_nil, List.append_assoc]
        rfl
      · rw [List.append_nil]
    · split
      · exact .inr ⟨_, rfl, rfl, run_bad rfl _⟩
      · refine .inl ⟨line ++ ['\n'], [], ?_, ?_⟩
        · simp only [List.append_nil, List.append_assoc, List.cons_append, List.nil_append]
        · rw [run_append, run_here_line hdelimiter, run_cons, step_here_newline, List.nil_append,
            if_pos rfl, ← List.append_assoc]
  | cons c t ih =>
    rw [List.cons_append, List.cons_append, run_cons]
    by_cases hc : c = '\n'
    · rw [hc, step_here_newline]
      split
      · next heq =>
        refine .inl ⟨[], t ++ '\n' :: delimiter ++ ['\n'], ?_, ?_⟩
        · rw [heq]
          simp only [List.append_assoc, List.cons_append, List.nil_append]
        · rw [List.append_nil]
      · split
        · exact .inr ⟨_, rfl, rfl, run_bad rfl _⟩
        · obtain ⟨consumed, rest, hconsumed, hrun⟩ | hbad := ih (body ++ line ++ ['\n']) []
          · refine .inl ⟨line ++ '\n' :: consumed, rest, ?_, ?_⟩
            · rw [List.nil_append] at hconsumed
              simp only [List.append_assoc, List.cons_append] at hconsumed ⊢
              rw [hconsumed]
            · rw [hrun]
              simp only [List.append_assoc, List.cons_append, List.nil_append]
          · exact .inr hbad
    · rw [step_here hc]
      obtain ⟨consumed, rest, hconsumed, hrun⟩ | hbad := ih body (line ++ [c])
      · refine .inl ⟨consumed, rest, ?_, hrun⟩
        rw [← hconsumed]
        simp only [List.append_assoc, List.cons_append, List.nil_append]
      · exact .inr hbad

theorem run_name {inQuotes : Bool} {start name : Chars} (hmode : r.mode = .name inQuotes start)
    (h : ∀ c ∈ name, isNameChar c = true) :
    r.run name = { r with mode := .name inQuotes (start ++ name) } := by
  induction name generalizing r start with
  | nil =>
    rw [List.append_nil, ← hmode]
    rfl
  | cons c name ih =>
    obtain ⟨hc, hrest⟩ := List.forall_mem_cons.mp h
    have hstep : r.step c = { r with mode := .name inQuotes (start ++ [c]) } := by
      rw [step, hmode]
      exact if_pos hc
    rw [run_cons, hstep, ih rfl hrest, List.append_assoc, List.singleton_append]

theorem run_dollar {name : Chars} (hmode : r.mode = .blank) (h : isName name = true) :
    r.run ('$' :: name) = { r with mode := .name false name } := by
  cases name with
  | nil => cases h
  | cons c name =>
    obtain ⟨hc, hrest⟩ := Bool.and_eq_true_iff.mp h
    have hdollar : r.step '$' = { r with mode := .dollar false } := by
      rw [step, hmode]
      rfl
    have hquestion : c ≠ '?' := by
      rintro rfl
      cases hc
    have hstart : ({ r with mode := .dollar false } : Reader).step c =
        { r with mode := .name false [c] } := by
      rw [step]
      dsimp only
      rw [afterDollar, if_neg hquestion, if_pos hc]
    rw [run_cons, hdollar, run_cons, hstart, run_name rfl (List.all_eq_true.mp hrest)]
    rfl

variable (read words) in
theorem run_blankVar {name : Chars} (h : isName name = true) :
    ((atWord read words).run ('$' :: name)).run [' '] =
      atWord read (words ++ [[.var false name]]) := by
  rw [run_dollar rfl h]
  rfl

-- In double quotes.
def atQuote (read : List (Option Command)) (words : List Word) (word : Word) : Reader :=
  { read := read, mode := .double, word := word, command := { words := words } }

theorem run_quote {word : Word} (h : ∀ c ∈ t, ['"', '\\', '$', '\x60'].contains c = false) :
    (atQuote read words word).run t = atQuote read words (word ++ t.map .quoted) := by
  induction t generalizing word with
  | nil =>
    rw [List.map_nil, List.append_nil]
    rfl
  | cons c t ih =>
    obtain ⟨hc, ht⟩ := List.forall_mem_cons.mp h
    have hne {d : Char} (hd : ['"', '\\', '$', '\x60'].contains d = true) : c ≠ d := by
      rintro rfl
      rw [hd] at hc
      cases hc
    have hstep : (atQuote read words word).step c = atQuote read words (word ++ [.quoted c]) := by
      have hinDouble : (atQuote read words word).inDouble c =
          (atQuote read words word).push (.quoted c) .double := by
        rw [inDouble, if_neg (hne rfl), if_neg (hne rfl), if_neg (hne rfl), if_neg (hne rfl)]
      exact hinDouble
    rw [run_cons, hstep, ih ht, List.append_assoc, List.map_cons, List.singleton_append]

variable (read words) in
theorem run_output {name : Chars} (h : isName name = true)
    (ht : plainFrom (some '/') t = true) :
    (((atWord read words).run ['>', ' ']).run ('$' :: name)).run ('/' :: (t ++ ['\n'])) =
      atWord (read ++ [some { words := words, output := some (.var false name :: .lit '/' :: literal t) }])
        [] := by
  have hblank : (atWord read words).run ['>', ' '] =
      { atWord read words with target := some .output } := rfl
  have hslash : ({ atWord read words with target := some .output, mode := .name false name } :
      Reader).step '/' = { atWord read words with
        target := some .output, mode := .word, word := [.var false name, .lit '/'] } := rfl
  have hcommand : ({ words := words, output := some (.var false name :: .lit '/' :: literal t) } :
      Command) ≠ {} := fun heq => by
    cases congrArg Command.output heq
  rw [hblank, run_dollar rfl h, run_cons, hslash, run_append, run_plain rfl rfl ht]
  exact endLine_command hcommand read

end Reading

section Frame

variable (before : List (Option Command)) (r : Reader) (c : Char)

-- The same reader after some other commands.
def after : Reader := { r with read := before ++ r.read }

theorem after_fail : (after before r).fail = after before r.fail := by
  simp only [after, fail, List.append_assoc]

theorem after_endWord : (after before r).endWord = after before r.endWord := by
  have htarget : (after before r).target = r.target := rfl
  rw [endWord, endWord, htarget]
  cases r.target with
  | none => rfl
  | some target =>
    cases target with
    | input => rfl
    | output => rfl
    | here =>
      have hword : (after before r).word = r.word := rfl
      rw [hword]
      cases literalOf r.word with
      | none => exact after_fail before r
      | some delimiter => rfl

theorem after_endLine : (after before r).endLine = after before r.endLine := by
  rw [endLine, endLine, apply_ite (after before), ← after_fail]
  refine if_congr Iff.rfl rfl ?_
  have hdelimiter : (after before r).delimiter = r.delimiter := rfl
  rw [hdelimiter]
  cases r.delimiter with
  | some delimiter => rfl
  | none =>
    dsimp only
    rw [apply_ite (after before)]
    refine if_congr Iff.rfl rfl ?_
    simp only [after, List.append_assoc]

theorem after_redirect (mode : Mode) (target : Option Redirect) :
    (after before r).redirect mode target = after before (r.redirect mode target) := by
  rw [redirect, redirect, apply_ite (after before), ← after_fail]
  rfl

theorem after_inWord : (after before r).inWord c = after before (r.inWord c) := by
  simp only [inWord, apply_ite (after before), after_endWord, ← after_fail, ← after_endLine,
    ← after_redirect]
  rfl

theorem after_between : (after before r).between c = after before (r.between c) := by
  simp only [between, apply_ite (after before), ← after_inWord, ← after_endLine, ← after_redirect]
  rfl

theorem after_inDouble : (after before r).inDouble c = after before (r.inDouble c) := by
  simp only [inDouble, apply_ite (after before)]
  rfl

theorem after_resume (inQuotes : Bool) :
    (after before r).resume inQuotes c = after before (r.resume inQuotes c) := by
  simp only [resume, apply_ite (after before), ← after_inWord, ← after_inDouble]

theorem after_inEscape (back : Mode) :
    (after before r).inEscape back c = after before (r.inEscape back c) := by
  simp only [inEscape, apply_ite (after before)]
  rfl

theorem after_afterDollar (inQuotes : Bool) :
    (after before r).afterDollar inQuotes c = after before (r.afterDollar inQuotes c) := by
  simp only [afterDollar, apply_ite (after before), ← after_fail, ← after_resume]
  rfl

theorem after_step : (after before r).step c = after before (r.step c) := by
  have hmode : (after before r).mode = r.mode := rfl
  rw [step, step, hmode]
  cases r.mode with
  | blank => exact after_between before r c
  | word => exact after_inWord before r c
  | comment =>
    dsimp only
    rw [apply_ite (after before), ← after_endLine]
  | less =>
    simp only [apply_ite (after before), ← after_fail, ← after_between]
    rfl
  | single =>
    simp only [apply_ite (after before)]
    rfl
  | double => exact after_inDouble before r c
  | escape back => exact after_inEscape before r c back
  | dollar inQuotes => exact after_afterDollar before r c inQuotes
  | name inQuotes name =>
    simp only [apply_ite (after before), ← after_resume]
    rfl
  | tick inQuotes body =>
    simp only [apply_ite (after before), ← after_fail]
    rfl
  | paren inQuotes body =>
    simp only [apply_ite (after before), ← after_fail]
    rfl
  | here delimiter body line =>
    simp only [apply_ite (after before), ← after_fail]
    simp only [after, List.append_assoc]
  | bad => rfl

theorem after_run (cs : Chars) : (after before r).run cs = after before (r.run cs) := by
  induction cs generalizing r with
  | nil => rfl
  | cons c cs ih => rw [run_cons, run_cons, after_step, ih]

theorem after_finish : (after before r).finish = before ++ r.finish := by
  have hline (s : Reader) : (if (after before s).delimiter = none then (after before s).endLine.read
      else (after before s).fail.read) =
        before ++ if s.delimiter = none then s.endLine.read else s.fail.read := by
    rw [after_endLine, after_fail, apply_ite (before ++ ·)]
    rfl
  have hmode : (after before r).mode = r.mode := rfl
  have hfail : (after before r).fail.read = before ++ r.fail.read := by
    rw [after_fail]
    rfl
  rw [finish, finish, hmode]
  cases r.mode with
  | blank => exact hline r
  | comment => exact hline r
  | word =>
    dsimp only
    rw [after_endWord, hline]
    exact (apply_ite (before ++ ·) _ _ _).symm
  | bad => rfl
  | less => exact hfail
  | single => exact hfail
  | double => exact hfail
  | escape back => exact hfail
  | dollar inQuotes => exact hfail
  | name inQuotes name => exact hfail
  | tick inQuotes body => exact hfail
  | paren inQuotes body => exact hfail
  | here delimiter body line => exact hfail

theorem after_atWord (before read : List (Option Command)) (words : List Word) :
    after before (atWord read words) = atWord (before ++ read) words := rfl

theorem run_line {cs : List (Option Command)} {t : Chars}
    (h : (atWord [] []).run t = atWord cs []) (read : List (Option Command)) :
    (atWord read []).run t = atWord (read ++ cs) [] := by
  have hread : atWord read [] = after read (atWord [] []) := by
    rw [after_atWord, List.append_nil]
  rw [hread, after_run, h, after_atWord]

end Frame

section Ends

variable {r : Reader}

theorem finish_run (read : List (Option Command)) (cs : Chars) :
    ((atWord read []).run cs).finish = read ++ ((atWord [] []).run cs).finish := by
  have hread : atWord read [] = after read (atWord [] []) := by
    rw [after_atWord, List.append_nil]
  rw [hread, after_run, after_finish]

theorem finish_atWord (read : List (Option Command)) : (atWord read []).finish = read := rfl

theorem finish_bad (h : r.mode = .bad) : r.finish = r.read := by
  rw [finish, h]

end Ends

end Reader

-- The commands of a text.
def commands (text : Chars) : List (Option Command) := (Reader.run {} text).finish

end Shell

end Kuintessence
