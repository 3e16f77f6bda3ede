import Kuintessence.Lib.Outcome
import Kuintessence.Lib.Regex
import Mathlib.Data.List.Forall2

namespace Kuintessence.Agent.Spack

open Regex

structure SoftwareInstallOptions where
  parameters : List String
  version : String
  name : String
  deriving DecidableEq, Repr

-- `compiler` is the name of the compiler; the flags are the entries of a map, in its order.
structure SpackSpec where
  name : String
  version : String
  compiler : String
  flags : List (String × Bool)
  hash : String
  deriving DecidableEq, Repr

def enabled (flags : List (String × Bool)) : List String :=
  flags.filterMap fun e => if e.2 then some e.1 else none

def SoftwareInstallOptions.of (val : SpackSpec) : SoftwareInstallOptions :=
  ⟨enabled val.flags, val.version, val.name⟩

-- `reply` is what `spack` and the JSON reader give.
def loadInstalledFromJson (reply : Except String (List SpackSpec)) :
    Outcome String (List SoftwareInstallOptions) :=
  Outcome.ofExcept reply >>= fun specs => .ok (specs.map .of)

-- The characters of `\w`: neither a blank nor a line feed is one.
structure Words where
  isWord : Char → Bool
  blank : isWord ' ' = false
  feed : isWord '\n' = false

def dot (c : Char) : Bool := c != '\n'

def flagStart (c : Char) : Bool := c == '~' || c == '|' || c == '+'

def flagsGroup : Regex :=
  .optional (.seq (.char ' ') (.group "flags" (.seq (.one flagStart) (.plus true dot))))

def optionsGroup : Regex := .optional (.seq (.char ' ') (.group "options" (.plus true dot)))

def specPattern (w : Words) : Regex :=
  .seq (.group "hash" (.count 32 w.isWord)) (.seq (.char ' ')
    (.seq (.group "packageName" (.plus true dot)) (.seq (.char '@')
      (.seq (.group "version" (.plus true dot)) (.seq (.char '%')
        (.seq (.group "compiler" (.plus false w.isWord)) (.seq flagsGroup optionsGroup)))))))

def lineCapture (w : Words) : Regex := (specPattern w).wholeLine

def flagChar (c : Char) : Bool := c != '+' && c != '~'

def paramterCapture : Regex := .seq (.char '+') (.group "name" (.plus false flagChar))

def optionsOf (x : Groups) : Outcome String SoftwareInstallOptions := do
  let flags ← .unwrap (capture "flags" x)
  let parameters ← Outcome.mapEach (fun x => .unwrap (capture "name" x))
    (paramterCapture.capturesIter flags)
  let version ← .unwrap (capture "version" x)
  let name ← .unwrap (capture "packageName" x)
  .ok ⟨parameters.map String.ofList, String.ofList version, String.ofList name⟩

def loadInstalledFromLines (w : Words) (reply : Except String (List Char)) :
    Outcome String (List SoftwareInstallOptions) :=
  Outcome.ofExcept reply >>= fun text => Outcome.mapEach optionsOf ((lineCapture w).capturesIter text)

def flagText (e : String × Bool) : List Char := (if e.2 then '+' else '~') :: e.1.toList

-- An installed spec and the line for it: its flags in whatever order, and what follows them.
structure Installed (w : Words) where
  spec : SpackSpec
  shown : List (String × Bool)
  options : Option (List Char)
  perm : shown.Perm spec.flags
  hash : spec.hash.toList.length = 32 ∧ ∀ c ∈ spec.hash.toList, w.isWord c = true
  name : spec.name.toList ≠ [] ∧ ∀ c ∈ spec.name.toList, c ≠ '@' ∧ c ≠ '\n'
  version : spec.version.toList ≠ [] ∧ ∀ c ∈ spec.version.toList, c ≠ '%' ∧ c ≠ '\n'
  compiler : spec.compiler.toList ≠ [] ∧ ∀ c ∈ spec.compiler.toList, c ≠ ' ' ∧ c ≠ '\n'
  flags : ∀ e ∈ shown, e.1.toList ≠ [] ∧ ∀ c ∈ e.1.toList, flagChar c = true ∧ c ≠ ' ' ∧ c ≠ '\n'
  rest : ∀ o ∈ options, o ≠ [] ∧ '\n' ∉ o ∧ ∀ c ∈ o.head?, flagStart c = false

variable {w : Words}

def Installed.flagsText (i : Installed w) : List Char :=
  if i.shown = [] then [] else ' ' :: i.shown.flatMap flagText

def Installed.optionsText (i : Installed w) : List Char := i.options.elim [] fun o => ' ' :: o

def Installed.tail (i : Installed w) : List Char := i.flagsText ++ i.optionsText

def Installed.line (i : Installed w) : List Char :=
  i.spec.hash.toList ++ ' ' :: (i.spec.name.toList ++ '@' :: (i.spec.version.toList ++ '%' ::
    (i.spec.compiler.toList ++ i.tail)))

def listing (items : List (Installed w)) : List Char := Text.unlines (items.map Installed.line)

-- The same name, the same version and the same flags.
def Alike (a b : SoftwareInstallOptions) : Prop :=
  a.parameters.Perm b.parameters ∧ a.version = b.version ∧ a.name = b.name

section

variable {b : Bool} {xs rest : List Char} {g : Groups} {x : Place}

def ending : Place → Option Place := lineEnd.run some

theorem ending_none (hne : xs ≠ []) (hfeed : '\n' ∉ xs) : ending ⟨b, xs ++ rest, g⟩ = none := by
  obtain ⟨c, cs, rfl⟩ := List.exists_cons_of_ne_nil hne
  rw [List.mem_cons, not_or] at hfeed
  have hc : ¬ (c == '\n') = true := fun h => hfeed.1 (beq_iff_eq.mp h).symm
  exact if_neg hc

theorem options_nil : optionsGroup.run ending ⟨b, [], g⟩ = some ⟨b, [], g⟩ := rfl

theorem options_blank (hne : xs ≠ []) (hfeed : '\n' ∉ xs) :
    optionsGroup.run ending ⟨b, ' ' :: xs, g⟩ =
      some ⟨after false xs, [], ("options", xs) :: g⟩ := by
  have hdot : ∀ c ∈ xs, dot c = true := fun c hc =>
    bne_iff_ne.mpr fun h => hfeed (h ▸ hc)
  have hgroup : (group "options" (.plus true dot)).run ending ⟨false, xs ++ [], g⟩ =
      some ⟨after false xs, [], ("options", xs) :: g⟩ :=
    run_group_lazy hne hdot (fun ys zs h _ hzs b g => ending_none hzs fun hmem =>
      hfeed (h ▸ List.mem_append_right ys hmem)) rfl
  rw [List.append_nil] at hgroup
  rw [optionsGroup, Regex.run, Regex.run, run_char, show (' ' == '\n') = false from rfl, hgroup,
    Option.some_or]

theorem options_none (hne : xs ≠ []) (hhead : ∀ c ∈ xs, c ≠ ' ' ∧ c ≠ '\n') :
    optionsGroup.run ending ⟨b, xs ++ rest, g⟩ = none := by
  have hend : ending ⟨b, xs ++ rest, g⟩ = none := ending_none hne fun h => (hhead _ h).2 rfl
  obtain ⟨c, cs, rfl⟩ := List.exists_cons_of_ne_nil hne
  have hblank : (Regex.char ' ').run ((group "options" (.plus true dot)).run ending)
      ⟨b, c :: cs ++ rest, g⟩ = none := by
    refine run_char_of_not fun d hd => ?_
    cases hd
    exact (hhead c List.mem_cons_self).1
  rw [optionsGroup, Regex.run, Regex.run, hblank, hend]
  rfl

theorem capture_append (name : String) (g g' : Groups) :
    capture name (g ++ g') = (capture name g).or (capture name g') := by
  rw [capture, capture, capture, List.find?_append, Option.map_or]

theorem capture_eq_none {name : String} (h : ∀ e ∈ g, e.1 ≠ name) : capture name g = none := by
  rw [capture, Option.map_eq_none_iff, List.find?_eq_none]
  exact fun e he hname => h e he (of_decide_eq_true hname)

def Installed.flagsShown (i : Installed w) : List Char := i.shown.flatMap flagText

theorem flagText_chars {i : Installed w} {c : Char} (h : c ∈ i.flagsShown) : c ≠ ' ' ∧ c ≠ '\n' := by
  obtain ⟨e, he, hc⟩ := List.mem_flatMap.mp h
  obtain rfl | hc := List.mem_cons.mp hc
  · split <;> decide
  · exact ((i.flags e he).2 c hc).2

theorem flagsShown_cons {i : Installed w} (h : i.shown ≠ []) :
    ∃ c cs, i.flagsShown = c :: cs ∧ flagStart c = true ∧ cs ≠ [] := by
  rw [Installed.flagsShown]
  cases hshown : i.shown with
  | nil => exact absurd hshown h
  | cons e es =>
    have hne := (i.flags e (hshown ▸ List.mem_cons_self)).1
    refine ⟨_, _, rfl, ?_, List.append_ne_nil_of_left_ne_nil hne _⟩
    split <;> rfl

theorem optionsText_cases (i : Installed w) : i.optionsText = [] ∨ ∃ o, i.optionsText = ' ' :: o ∧
    o ≠ [] ∧ '\n' ∉ o ∧ ∀ c ∈ o.head?, flagStart c = false := by
  rw [Installed.optionsText]
  cases ho : i.options with
  | none => exact .inl rfl
  | some o => exact .inr ⟨o, rfl, i.rest o ho⟩

theorem options_run (i : Installed w) (b : Bool) (g : Groups) :
    ∃ b' added, optionsGroup.run ending ⟨b, i.optionsText, g⟩ = some ⟨b', [], added ++ g⟩ ∧
      ∀ e ∈ added, e.1 = "options" := by
  obtain h | ⟨o, h, hne, hfeed, -⟩ := optionsText_cases i
  · exact ⟨b, [], by rw [h]; exact options_nil, nofun⟩
  · refine ⟨_, [("options", o)], by rw [h]; exact options_blank hne hfeed, fun e he => ?_⟩
    cases List.mem_singleton.mp he
    rfl

theorem flags_run {i : Installed w} (h : i.shown ≠ []) (b : Bool) (g : Groups) :
    ∃ b' added, flagsGroup.run (optionsGroup.run ending) ⟨b, i.tail, g⟩ =
        some ⟨b', [], added ++ ("flags", i.flagsShown) :: g⟩ ∧ ∀ e ∈ added, e.1 = "options" := by
  obtain ⟨c, cs, hcons, hstart, hne⟩ := flagsShown_cons h
  have hchars : ∀ d ∈ c :: cs, d ≠ ' ' ∧ d ≠ '\n' := hcons ▸ fun d hd => flagText_chars hd
  rw [List.forall_mem_cons] at hchars
  have htail : i.tail = ' ' :: (c :: cs ++ i.optionsText) := by
    rw [Installed.tail, Installed.flagsText, if_neg h, ← Installed.flagsShown, hcons]
    rfl
  obtain ⟨b', added, hrun, hadded⟩ :=
    options_run i (after (c == '\n') cs) (("flags", i.flagsShown) :: g)
  refine ⟨b', added, ?_, hadded⟩
  have hplus : (Regex.plus true dot).run (fun d => optionsGroup.run ending ⟨d.start, d.rest,
      ("flags", (c :: cs ++ i.optionsText).take
        ((c :: cs ++ i.optionsText).length - d.rest.length)) :: d.groups⟩)
      ⟨c == '\n', cs ++ i.optionsText, g⟩ = some ⟨b', [], added ++ ("flags", i.flagsShown) :: g⟩ := by
    refine run_plus_lazy hne (fun d hd => bne_iff_ne.mpr (hchars.2 d hd).2)
      (fun ys zs hsplit _ hzs b => ?_) ?_
    · exact options_none hzs fun d hd => hchars.2 d (hsplit ▸ List.mem_append_right ys hd)
    · change optionsGroup.run ending ⟨_, i.optionsText, ("flags", (c :: cs ++ i.optionsText).take
        ((c :: cs ++ i.optionsText).length - i.optionsText.length)) :: g⟩ = _
      rw [take_append, ← hcons]
      exact hrun
  have hgroup : (Regex.group "flags" (.seq (.one flagStart) (.plus true dot))).run
      (optionsGroup.run ending) ⟨false, c :: cs ++ i.optionsText, g⟩ =
        some ⟨b', [], added ++ ("flags", i.flagsShown) :: g⟩ := by
    rw [Regex.run, Regex.run, List.cons_append, run_one hstart]
    exact hplus
  rw [flagsGroup, Regex.run, Regex.run, htail, run_char, show (' ' == '\n') = false from rfl,
    hgroup, Option.some_or]

theorem flagless_run {i : Installed w} (h : i.shown = []) (b : Bool) (g : Groups) :
    ∃ b' added, flagsGroup.run (optionsGroup.run ending) ⟨b, i.tail, g⟩ =
        some ⟨b', [], added ++ g⟩ ∧ ∀ e ∈ added, e.1 = "options" := by
  obtain ⟨b', added, hrun, hadded⟩ := options_run i b g
  refine ⟨b', added, ?_, hadded⟩
  have htail : i.tail = i.optionsText := by
    rw [Installed.tail, Installed.flagsText, if_pos h, List.nil_append]
  have hnone : (Regex.seq (.char ' ') (.group "flags" (.seq (.one flagStart) (.plus true dot)))).run
      (optionsGroup.run ending) ⟨b, i.tail, g⟩ = none := by
    rw [htail]
    obtain h | ⟨o, h, hne, -, hhead⟩ := optionsText_cases i
    · rw [h]
      rfl
    · rw [h, Regex.run, run_char, Regex.run, Regex.run]
      exact run_one_of_not hhead
  rw [flagsGroup, Regex.run, hnone, Option.none_or, htail]
  exact hrun

def Installed.heads (i : Installed w) : Groups :=
  [("compiler", i.spec.compiler.toList), ("version", i.spec.version.toList),
    ("packageName", i.spec.name.toList), ("hash", i.spec.hash.toList)]

theorem tail_head (i : Installed w) : ∀ c ∈ i.tail.head?, c = ' ' := by
  rw [Installed.tail, Installed.flagsText]
  split
  · obtain h | ⟨o, h, -⟩ := optionsText_cases i
    · rw [h]
      exact nofun
    · rw [h]
      exact fun c hc => (Option.some.inj hc).symm
  · exact fun c hc => (Option.some.inj hc).symm

-- A lazy field ends at the first separator.
theorem run_field {name : String} {d : Char} {k : Place → Option Place} (hne : xs ≠ [])
    (hchars : ∀ c ∈ xs, c ≠ d ∧ c ≠ '\n') (hd : (d == '\n') = false)
    (hk : k ⟨false, rest, (name, xs) :: g⟩ = some x) :
    (Regex.group name (.plus true dot)).run ((Regex.char d).run k) ⟨b, xs ++ d :: rest, g⟩ =
      some x := by
  refine run_group_lazy hne (fun c hc => bne_iff_ne.mpr (hchars c hc).2) (fun ys zs h _ hzs b g => ?_)
    ?_
  · refine run_char_of_not fun c hc => ?_
    obtain ⟨z, zs, rfl⟩ := List.exists_cons_of_ne_nil hzs
    cases hc
    exact (hchars c (h ▸ List.mem_append_right ys List.mem_cons_self)).1
  · rw [run_char, hd]
    exact hk

theorem line_run {i : Installed w} (hword : ∀ c ∈ i.spec.compiler.toList, w.isWord c = true)
    (h : flagsGroup.run (optionsGroup.run ending)
      ⟨after false i.spec.compiler.toList, i.tail, i.heads⟩ = some x) :
    (lineCapture w).matchAt true i.line = some x := by
  have hcompiler : (Regex.group "compiler" (.plus false w.isWord)).run
      (flagsGroup.run (optionsGroup.run ending)) ⟨false, i.spec.compiler.toList ++ i.tail,
        i.heads.tail⟩ = some x :=
    run_group_greedy i.compiler.1 hword (fun c hc => tail_head i c hc ▸ w.blank) h
  have hversion := run_field (b := false) i.version.1 i.version.2 rfl hcompiler
  have hname := run_field (b := false) i.name.1 i.name.2 rfl hversion
  have hhash : ∀ k, (Regex.group "hash" (.count 32 w.isWord)).run k ⟨true, i.line, []⟩ =
      k ⟨after true i.spec.hash.toList, ' ' :: (i.spec.name.toList ++ '@' ::
        (i.spec.version.toList ++ '%' :: (i.spec.compiler.toList ++ i.tail))),
        [("hash", i.spec.hash.toList)]⟩ := by
    intro k
    rw [← i.hash.1]
    exact run_group_count i.hash.2
  have hline : (lineCapture w).matchAt true i.line =
      (Regex.group "hash" (.count 32 w.isWord)).run ((Regex.char ' ').run
        ((Regex.group "packageName" (.plus true dot)).run ((Regex.char '@').run
          ((Regex.group "version" (.plus true dot)).run ((Regex.char '%').run
            ((Regex.group "compiler" (.plus false w.isWord)).run
              (flagsGroup.run (optionsGroup.run ending)))))))) ⟨true, i.line, []⟩ := rfl
  rw [hline, hhash, run_char]
  exact hname

theorem paramter_match (hne : xs ≠ []) (hchars : ∀ c ∈ xs, flagChar c = true)
    (hstop : ∀ c ∈ rest.head?, flagChar c = false) :
    paramterCapture.matchAt b ('+' :: (xs ++ rest)) = some ⟨after false xs, rest, [("name", xs)]⟩ := by
  rw [matchAt, paramterCapture, Regex.run, run_char]
  exact run_group_greedy hne hchars hstop rfl

theorem paramter_pass (hchars : ∀ c ∈ xs, c ≠ '+') :
    paramterCapture.iter 0 b (xs ++ rest) = paramterCapture.iter 0 (after b xs) rest := by
  induction xs generalizing b with
  | nil => rfl
  | cons c cs ih =>
    rw [List.forall_mem_cons] at hchars
    have hnone : paramterCapture.matchAt b (c :: (cs ++ rest)) = none := by
      refine run_char_of_not fun d hd => ?_
      cases hd
      exact hchars.1
    rw [List.cons_append, iter, hnone]
    exact ih hchars.2

theorem flagText_stop (es : List (String × Bool)) :
    ∀ c ∈ (es.flatMap flagText).head?, flagChar c = false := by
  cases es with
  | nil => exact nofun
  | cons e es =>
    rintro c hc
    cases hc
    split <;> decide

theorem paramter_flags {shown : List (String × Bool)}
    (h : ∀ e ∈ shown, e.1.toList ≠ [] ∧ ∀ c ∈ e.1.toList, flagChar c = true) (b : Bool) :
    paramterCapture.iter 0 b (shown.flatMap flagText) =
      (enabled shown).map fun n => [("name", n.toList)] := by
  induction shown generalizing b with
  | nil => rfl
  | cons e es ih =>
    rw [List.forall_mem_cons] at h
    obtain ⟨name, value⟩ := e
    obtain ⟨⟨hne, hchars⟩, hes⟩ := h
    rw [List.flatMap_cons]
    cases value with
    | true =>
      have hmatch := paramter_match (b := b) hne hchars (flagText_stop es)
      have hskip : (name.toList ++ es.flatMap flagText).length - (es.flatMap flagText).length =
          name.toList.length := by
        rw [List.length_append, Nat.add_sub_cancel]
      have htext : flagText (name, true) = '+' :: name.toList := rfl
      rw [htext, List.cons_append, iter, hmatch]
      simp only [hskip, iter_skip, ih hes]
      rfl
    | false =>
      have htext : flagText (name, false) = '~' :: name.toList := rfl
      have hpass : ∀ c ∈ flagText (name, false), c ≠ '+' := by
        rw [htext]
        rintro c hc rfl
        obtain hc | hc := List.mem_cons.mp hc
        · exact absurd hc (by decide)
        · exact absurd (hchars _ hc) (by decide)
      rw [paramter_pass hpass, ih hes]
      rfl

theorem optionsOf_eq {i : Installed w} (hflags : capture "flags" g = some i.flagsShown)
    {version name : List Char} (hversion : capture "version" g = some version)
    (hname : capture "packageName" g = some name) :
    optionsOf g = .ok ⟨enabled i.shown, String.ofList version, String.ofList name⟩ := by
  have hiter : paramterCapture.capturesIter i.flagsShown =
      (enabled i.shown).map fun n => [("name", n.toList)] :=
    paramter_flags (fun e he => ⟨(i.flags e he).1, fun c hc => ((i.flags e he).2 c hc).1⟩) true
  have heach : Outcome.mapEach (fun x => (.unwrap (capture "name" x) : Outcome String (List Char)))
      ((enabled i.shown).map fun n => [("name", n.toList)]) =
        .ok ((enabled i.shown).map String.toList) := by
    have hmap : ∀ names : List String, Outcome.mapEach
        (fun x => (.unwrap (capture "name" x) : Outcome String (List Char)))
        (names.map fun n => [("name", n.toList)]) = .ok (names.map String.toList) := by
      intro names
      induction names with
      | nil => rfl
      | cons n names ih =>
        rw [List.map_cons, Outcome.mapEach, ih]
        rfl
    exact hmap _
  have hback : ((enabled i.shown).map String.toList).map String.ofList = enabled i.shown := by
    rw [List.map_map]
    exact (List.map_congr_left fun n _ => String.ofList_toList).trans (List.map_id _)
  rw [optionsOf, hflags, hversion, hname, Outcome.unwrap, Outcome.ok_bind, hiter, heach,
    Outcome.ok_bind, hback]
  rfl

theorem optionsOf_flagless (h : capture "flags" g = none) : optionsOf g = .panic := by
  rw [optionsOf, h]
  rfl

theorem captures_flags {i : Installed w} (hword : ∀ c ∈ i.spec.compiler.toList, w.isWord c = true)
    (h : i.shown ≠ []) : ∃ g, (lineCapture w).captures i.line = some g ∧
      optionsOf g = .ok ⟨enabled i.shown, i.spec.version, i.spec.name⟩ := by
  obtain ⟨b', added, hrun, hadded⟩ := flags_run h (after false i.spec.compiler.toList) i.heads
  refine ⟨added ++ ("flags", i.flagsShown) :: i.heads, ?_, ?_⟩
  · rw [captures, line_run hword hrun]
    rfl
  · have hcapture : ∀ name, name ≠ "options" → capture name
        (added ++ ("flags", i.flagsShown) :: i.heads) =
          capture name (("flags", i.flagsShown) :: i.heads) := by
      intro name hname
      rw [capture_append, capture_eq_none fun e he => hadded e he ▸ Ne.symm hname, Option.none_or]
    have heq := optionsOf_eq (i := i) ((hcapture "flags" (by decide)).trans rfl)
      ((hcapture "version" (by decide)).trans rfl)
      ((hcapture "packageName" (by decide)).trans rfl)
    rw [heq, String.ofList_toList, String.ofList_toList]

theorem captures_flagless {i : Installed w}
    (hword : ∀ c ∈ i.spec.compiler.toList, w.isWord c = true) (h : i.shown = []) :
    ∃ g, (lineCapture w).captures i.line = some g ∧ optionsOf g = .panic := by
  obtain ⟨b', added, hrun, hadded⟩ := flagless_run h (after false i.spec.compiler.toList) i.heads
  refine ⟨added ++ i.heads, ?_, ?_⟩
  · rw [captures, line_run hword hrun]
    rfl
  · refine optionsOf_flagless ?_
    rw [capture_append, capture_eq_none fun e he => hadded e he ▸ by decide, Option.none_or]
    rfl

theorem tail_sound {zs : List Char}
    (h : flagsGroup.run (optionsGroup.run ending) ⟨b, zs, g⟩ = some x) :
    (∀ c ∈ zs.head?, c = ' ' ∨ c = '\n') ∧ ∃ added, x.groups = added ++ g ∧
      ∀ e ∈ added, e.1 = "flags" ∨ e.1 = "options" := by
  constructor
  · intro c hc
    rw [flagsGroup, Regex.run, Option.or_eq_some_iff] at h
    obtain h | ⟨-, h⟩ := h
    · obtain ⟨_, _, hrest, -⟩ := run_char_sound h
      have hrest : zs = ' ' :: _ := hrest
      rw [hrest] at hc
      exact .inl (Option.some.inj hc).symm
    · rw [optionsGroup, Regex.run, Option.or_eq_some_iff] at h
      obtain h | ⟨-, h⟩ := h
      · obtain ⟨_, _, hrest, -⟩ := run_char_sound h
        have hrest : zs = ' ' :: _ := hrest
        rw [hrest] at hc
        exact .inl (Option.some.inj hc).symm
      · rw [ending, Regex.run] at h
        split at h
        · next hhead =>
          have hhead : zs.head?.all (· == '\n') = true := hhead
          rw [hc, Option.all_some, beq_iff_eq] at hhead
          exact .inr hhead
        · cases h
  · have hall : (Regex.seq flagsGroup (.seq optionsGroup lineEnd)).run some ⟨b, zs, g⟩ = some x := h
    obtain ⟨d, added, -, hgroups, hnames, hd⟩ := run_sound hall
    cases Option.some.inj hd
    refine ⟨added, hgroups, fun e he => ?_⟩
    have hmem : e.1 ∈ ["flags", "options"] := hnames e he
    simpa using hmem

theorem takeWhile_stop {q : Char → Bool} {ys : List Char} (hxs : ∀ c ∈ xs, q c = true)
    (hys : ∀ c ∈ ys.head?, q c = false) : (xs ++ ys).takeWhile q = xs := by
  rw [List.takeWhile_append_of_pos hxs]
  cases ys with
  | nil => exact List.append_nil xs
  | cons y ys =>
    rw [List.takeWhile_cons_of_neg (Bool.eq_false_iff.mp (hys y rfl)), List.append_nil]

-- A line whose compiler is no word is lost, or read as another version.
theorem word_of_captures {i : Installed w} (h : (lineCapture w).captures i.line = some g)
    (hversion : capture "version" g = some i.spec.version.toList)
    (hname : capture "packageName" g = some i.spec.name.toList) :
    ∀ c ∈ i.spec.compiler.toList, w.isWord c = true := by
  obtain ⟨x, hx, rfl⟩ := Option.map_eq_some_iff.mp h
  have hline : (Regex.group "hash" (.count 32 w.isWord)).run ((Regex.char ' ').run
      ((Regex.group "packageName" (.plus true dot)).run ((Regex.char '@').run
        ((Regex.group "version" (.plus true dot)).run ((Regex.char '%').run
          ((Regex.group "compiler" (.plus false w.isWord)).run
            (flagsGroup.run (optionsGroup.run ending)))))))) ⟨true, i.line, []⟩ = some x := hx
  obtain ⟨hash, r₁, b₁, hr₁, hlength, hrun⟩ := run_group_count_sound hline
  obtain ⟨r₂, b₂, hr₂, hrun⟩ := run_char_sound hrun
  obtain ⟨n, r₃, b₃, hr₃, -, hrun⟩ := run_group_plus_sound hrun
  obtain ⟨r₄, b₄, hr₄, hrun⟩ := run_char_sound hrun
  obtain ⟨v, r₅, b₅, hr₅, -, hrun⟩ := run_group_plus_sound hrun
  obtain ⟨r₆, b₆, hr₆, hrun⟩ := run_char_sound hrun
  obtain ⟨c, r₇, b₇, hr₇, hword, hrun⟩ := run_group_plus_sound hrun
  obtain ⟨hhead, added, hgroups, hadded⟩ := tail_sound hrun
  have hcapture : ∀ name, name ≠ "flags" → name ≠ "options" → capture name x.groups =
      capture name [("compiler", c), ("version", v), ("packageName", n), ("hash", hash)] := by
    intro name hflags hoptions
    rw [hgroups, capture_append, capture_eq_none, Option.none_or]
    intro e he hename
    obtain h | h := hadded e he
    · exact hflags (hename.symm.trans h)
    · exact hoptions (hename.symm.trans h)
  rw [hcapture _ (by decide) (by decide)] at hversion hname
  have hv : v = i.spec.version.toList := Option.some.inj hversion
  have hn : n = i.spec.name.toList := Option.some.inj hname
  have hrest : i.line = hash ++ ' ' :: (n ++ '@' :: (v ++ '%' :: (c ++ r₇))) := by
    have hr₇ : r₆ = c ++ r₇ := hr₇
    have hr₆ : r₅ = '%' :: r₆ := hr₆
    have hr₅ : r₄ = v ++ r₅ := hr₅
    have hr₄ : r₃ = '@' :: r₄ := hr₄
    have hr₃ : r₂ = n ++ r₃ := hr₃
    have hr₂ : r₁ = ' ' :: r₂ := hr₂
    rw [← hr₇, ← hr₆, ← hr₅, ← hr₄, ← hr₃, ← hr₂]
    exact hr₁
  rw [Installed.line, hn, hv] at hrest
  obtain ⟨-, hrest⟩ := List.append_inj hrest (i.hash.1.trans hlength.symm)
  have hrest := List.append_cancel_left (List.cons.inj hrest).2
  have hrest := List.append_cancel_left (List.cons.inj hrest).2
  have hrest : i.spec.compiler.toList ++ i.tail = c ++ r₇ := (List.cons.inj hrest).2
  -- Both compilers are what comes before the first separator.
  have hsplit := congrArg (List.takeWhile fun d => d != ' ' && d != '\n') hrest
  rw [takeWhile_stop, takeWhile_stop] at hsplit
  · rw [hsplit]
    exact hword
  · intro d hd
    rw [Bool.and_eq_true, bne_iff_ne, bne_iff_ne]
    constructor
    · rintro rfl
      exact absurd (hword _ hd) (by rw [w.blank]; decide)
    · rintro rfl
      exact absurd (hword _ hd) (by rw [w.feed]; decide)
  · intro d hd
    obtain rfl | rfl := hhead d hd <;> rfl
  · intro d hd
    rw [Bool.and_eq_true, bne_iff_ne, bne_iff_ne]
    exact i.compiler.2 d hd
  · intro d hd
    rw [tail_head i d hd]
    rfl

theorem line_newline (i : Installed w) : '\n' ∉ i.line := by
  have hhash : '\n' ∉ i.spec.hash.toList := fun h => by
    have := i.hash.2 _ h
    rw [w.feed] at this
    cases this
  have hname : '\n' ∉ i.spec.name.toList := fun h => (i.name.2 _ h).2 rfl
  have hversion : '\n' ∉ i.spec.version.toList := fun h => (i.version.2 _ h).2 rfl
  have hcompiler : '\n' ∉ i.spec.compiler.toList := fun h => (i.compiler.2 _ h).2 rfl
  have hflags : '\n' ∉ i.flagsText := by
    rw [Installed.flagsText]
    split
    · exact List.not_mem_nil
    · rw [List.mem_cons, not_or]
      exact ⟨by decide, fun h => (flagText_chars h).2 rfl⟩
  have hoptions : '\n' ∉ i.optionsText := by
    obtain h | ⟨o, h, -, hfeed, -⟩ := optionsText_cases i
    · rw [h]
      exact List.not_mem_nil
    · rw [h, List.mem_cons, not_or]
      exact ⟨by decide, hfeed⟩
  simp [Installed.line, Installed.tail, hhash, hname, hversion, hcompiler, hflags, hoptions]

theorem loadInstalledFromLines_listing (items : List (Installed w)) :
    loadInstalledFromLines w (.ok (listing items)) = Outcome.mapEach optionsOf
      ((items.map Installed.line).filterMap (lineCapture w).captures) := by
  have hinline : (specPattern w).InLine := by
    refine ⟨w.feed, rfl, rfl, rfl, rfl, rfl, w.feed, ⟨rfl, rfl, rfl⟩, rfl, rfl⟩
  rw [loadInstalledFromLines, Outcome.ofExcept, Outcome.ok_bind, listing]
  refine congrArg (Outcome.mapEach optionsOf) (capturesIter_unlines hinline rfl ?_)
  exact List.forall_mem_map.mpr fun i _ => line_newline i

theorem shown_nil_iff (i : Installed w) : i.shown = [] ↔ i.spec.flags = [] := by
  rw [← List.length_eq_zero_iff, i.perm.length_eq, List.length_eq_zero_iff]

def Installed.Legible (i : Installed w) : Prop :=
  i.spec.flags ≠ [] ∧ ∀ c ∈ i.spec.compiler.toList, w.isWord c = true

theorem legible_of_alike {i : Installed w} {o : SoftwareInstallOptions}
    (h : (lineCapture w).captures i.line = some g) (ho : optionsOf g = .ok o)
    (halike : Alike o (.of i.spec)) : i.Legible := by
  obtain ⟨flags, hflags, hrest⟩ := Outcome.bind_ok_iff.mp ho
  obtain ⟨parameters, -, hrest⟩ := Outcome.bind_ok_iff.mp hrest
  obtain ⟨version, hversion, hrest⟩ := Outcome.bind_ok_iff.mp hrest
  obtain ⟨name, hname, hrest⟩ := Outcome.bind_ok_iff.mp hrest
  cases hrest
  obtain ⟨-, hv, hn⟩ := halike
  have hv : String.ofList version = i.spec.version := hv
  have hn : String.ofList name = i.spec.name := hn
  have hword : ∀ c ∈ i.spec.compiler.toList, w.isWord c = true := by
    refine word_of_captures h ?_ ?_
    · rw [Outcome.unwrap_ok_iff.mp hversion, ← hv, String.toList_ofList]
    · rw [Outcome.unwrap_ok_iff.mp hname, ← hn, String.toList_ofList]
  refine ⟨fun hnil => ?_, hword⟩
  obtain ⟨g', hg', hpanic⟩ := captures_flagless hword ((shown_nil_iff i).mpr hnil)
  cases h.symm.trans hg'
  cases ho.symm.trans hpanic

theorem forall₂_filterMap {α β : Type} {f : α → Option β} {as : List α}
    (h : (as.filterMap f).length = as.length) :
    List.Forall₂ (fun a b => f a = some b) as (as.filterMap f) := by
  induction as with
  | nil => exact .nil
  | cons a as ih =>
    cases hf : f a with
    | none =>
      rw [List.filterMap_cons_none hf, List.length_cons] at h
      have hle := List.length_filterMap_le f as
      omega
    | some b =>
      rw [List.filterMap_cons_some hf] at h ⊢
      exact .cons hf (ih (Nat.succ.inj h))

theorem legible_of_forall₂ {items : List (Installed w)} {gs : List Groups}
    {listed : List SoftwareInstallOptions}
    (hcaptures : List.Forall₂ (fun i g => (lineCapture w).captures (Installed.line i) = some g)
      items gs)
    (hoptions : List.Forall₂ (fun g o => optionsOf g = .ok o) gs listed)
    (halike : List.Forall₂ Alike listed (items.map fun i => .of i.spec)) :
    ∀ i ∈ items, i.Legible := by
  induction hcaptures generalizing listed with
  | nil => exact nofun
  | cons hcapture _ ih =>
    cases hoptions with
    | cons ho hos =>
      cases halike with
      | cons ha has =>
        exact List.forall_mem_cons.mpr ⟨legible_of_alike hcapture ho ha, ih hos has⟩

theorem mapEach_legible {items : List (Installed w)} (h : ∀ i ∈ items, i.Legible) :
    Outcome.mapEach optionsOf ((items.map Installed.line).filterMap (lineCapture w).captures) =
      .ok (items.map fun i => ⟨enabled i.shown, i.spec.version, i.spec.name⟩) := by
  induction items with
  | nil => rfl
  | cons i items ih =>
    rw [List.forall_mem_cons] at h
    obtain ⟨g, hg, ho⟩ := captures_flags h.1.2 fun hnil => h.1.1 ((shown_nil_iff i).mp hnil)
    rw [List.map_cons, List.filterMap_cons_some hg, Outcome.mapEach, ho, ih h.2]
    rfl

def asciiWords : Words := ⟨fun c => c.isAlphanum || c == '_', by decide, by decide⟩

def zlib (compiler : String) (flags : List (String × Bool)) : SpackSpec :=
  ⟨"zlib", "1.2.11", compiler, flags, "abcdefghijklmnopqrstuvwxyz234567"⟩

def flagged : Installed asciiWords where
  spec := zlib "gcc" [("shared", true), ("optimize", true), ("pic", false)]
  shown := [("optimize", true), ("pic", false), ("shared", true)]
  options := some "build_system=makefile".toList
  perm := by decide
  hash := ⟨by decide, List.all_eq_true.mp (by decide)⟩
  name := ⟨by decide, List.forall_iff_forall_mem.mp (by decide)⟩
  version := ⟨by decide, List.forall_iff_forall_mem.mp (by decide)⟩
  compiler := ⟨by decide, List.forall_iff_forall_mem.mp (by decide)⟩
  flags := by
    have hall : ∀ e ∈ [("optimize", true), ("pic", false), ("shared", true)], e.1.toList ≠ [] ∧
        e.1.toList.Forall fun c => flagChar c = true ∧ c ≠ ' ' ∧ c ≠ '\n' :=
      List.forall_iff_forall_mem.mp (by decide)
    exact fun e he => ⟨(hall e he).1, List.forall_iff_forall_mem.mp (hall e he).2⟩
  rest := by
    rintro o ⟨⟩
    exact ⟨by decide, by decide, fun c hc => by cases hc; rfl⟩

example : loadInstalledFromLines asciiWords (.ok (listing [flagged])) =
    .ok [⟨["optimize", "shared"], "1.2.11", "zlib"⟩] := by decide +kernel

def flagless : Installed asciiWords where
  spec := zlib "gcc" []
  shown := []
  options := none
  perm := .refl _
  hash := ⟨by decide, List.all_eq_true.mp (by decide)⟩
  name := ⟨by decide, List.forall_iff_forall_mem.mp (by decide)⟩
  version := ⟨by decide, List.forall_iff_forall_mem.mp (by decide)⟩
  compiler := ⟨by decide, List.forall_iff_forall_mem.mp (by decide)⟩
  flags := nofun
  rest := nofun

end

end Kuintessence.Agent.Spack
