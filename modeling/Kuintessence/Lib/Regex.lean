import Kuintessence.Lib.Text

namespace Kuintessence

inductive Regex where
  | lineStart
  | lineEnd
  | count (n : Nat) (p : Char → Bool)
  | plus (lazily : Bool) (p : Char → Bool)
  | seq (r s : Regex)
  | optional (r : Regex)
  | group (name : String) (r : Regex)

namespace Regex

-- The groups that took part, the last one first.
abbrev Groups := List (String × List Char)

-- A place in a text: whether a line starts there, and what follows.
structure Place where
  start : Bool
  rest : List Char
  groups : Groups
  deriving DecidableEq, Repr

def runCount (p : Char → Bool) (k : Place → Option Place) :
    Nat → Bool → List Char → Groups → Option Place
  | 0, b, cs, g => k ⟨b, cs, g⟩
  | _ + 1, _, [], _ => none
  | n + 1, _, c :: cs, g => if p c then runCount p k n (c == '\n') cs g else none

def runStar (lazily : Bool) (p : Char → Bool) (k : Place → Option Place) :
    Bool → List Char → Groups → Option Place
  | b, [], g => k ⟨b, [], g⟩
  | b, c :: cs, g =>
    let more := if p c then runStar lazily p k (c == '\n') cs g else none
    if lazily then (k ⟨b, c :: cs, g⟩).or more else more.or (k ⟨b, c :: cs, g⟩)

-- Leftmost first: what is tried first wins, if the rest of the pattern matches behind it.
def run : Regex → (Place → Option Place) → Place → Option Place
  | lineStart, k, c => if c.start then k c else none
  | lineEnd, k, c => if c.rest.head?.all (· == '\n') then k c else none
  | count n p, k, c => runCount p k n c.start c.rest c.groups
  | plus lazily p, k, c => runCount p (fun c => runStar lazily p k c.start c.rest c.groups) 1
      c.start c.rest c.groups
  | seq r s, k, c => r.run (s.run k) c
  | optional r, k, c => (r.run k c).or (k c)
  | group name r, k, c => r.run (fun d =>
      k ⟨d.start, d.rest, (name, c.rest.take (c.rest.length - d.rest.length)) :: d.groups⟩) c

def matchAt (r : Regex) (start : Bool) (cs : List Char) : Option Place := r.run some ⟨start, cs, []⟩

-- The matches of a pattern that never matches nothing, from left to right; `skip` characters of
-- the last one are still to be passed over.
def iter (r : Regex) : Nat → Bool → List Char → List Groups
  | _, _, [] => []
  | skip + 1, _, c :: cs => iter r skip (c == '\n') cs
  | 0, b, c :: cs =>
    match r.matchAt b (c :: cs) with
    | some d => d.groups :: iter r (cs.length - d.rest.length) (c == '\n') cs
    | none => iter r 0 (c == '\n') cs

def capturesIter (r : Regex) (text : List Char) : List Groups := r.iter 0 true text

-- The groups of a match that starts a text.
def captures (r : Regex) (text : List Char) : Option Groups :=
  (r.matchAt true text).map Place.groups

def capture (name : String) (g : Groups) : Option (List Char) :=
  (g.find? fun e => e.1 = name).map Prod.snd

def one (p : Char → Bool) : Regex := count 1 p

def char (c : Char) : Regex := one (· == c)

-- `^…$`
def wholeLine (r : Regex) : Regex := seq lineStart (seq r lineEnd)

def after (b : Bool) : List Char → Bool
  | [] => b
  | c :: cs => after (c == '\n') cs

section

variable {p : Char → Bool} {k : Place → Option Place} {b : Bool} {xs rest : List Char} {g : Groups}
  {r : Regex} {c x : Place} {n : Nat} {lazily : Bool}

theorem after_eq_false (h : '\n' ∉ xs) : after false xs = false := by
  induction xs with
  | nil => rfl
  | cons c cs ih =>
    rw [List.mem_cons, not_or] at h
    rw [after, beq_eq_false_iff_ne.mpr (Ne.symm h.1)]
    exact ih h.2

theorem runCount_append (h : ∀ c ∈ xs, p c = true) :
    runCount p k xs.length b (xs ++ rest) g = k ⟨after b xs, rest, g⟩ := by
  induction xs generalizing b with
  | nil => cases rest <;> rfl
  | cons c cs ih =>
    rw [List.forall_mem_cons] at h
    rw [List.length_cons, List.cons_append, runCount, if_pos h.1, ih h.2, after]

theorem run_one {d : Char} (h : p d = true) :
    (one p).run k ⟨b, d :: rest, g⟩ = k ⟨d == '\n', rest, g⟩ := by
  have hall : ∀ c ∈ [d], p c = true := List.forall_mem_singleton.mpr h
  exact runCount_append hall

theorem run_one_of_not (h : ∀ d ∈ c.rest.head?, p d = false) : (one p).run k c = none := by
  obtain ⟨b, cs, g⟩ := c
  cases cs with
  | nil => rfl
  | cons d ds =>
    rw [one, run, runCount, h d rfl]
    exact if_neg Bool.false_ne_true

theorem run_char {d : Char} : (char d).run k ⟨b, d :: rest, g⟩ = k ⟨d == '\n', rest, g⟩ :=
  run_one (beq_self_eq_true d)

theorem run_char_of_not {d : Char} (h : ∀ e ∈ c.rest.head?, e ≠ d) : (char d).run k c = none :=
  run_one_of_not fun e he => beq_eq_false_iff_ne.mpr (h e he)

theorem runStar_lazy (hp : ∀ c ∈ xs, p c = true)
    (hfail : ∀ ys zs, xs = ys ++ zs → zs ≠ [] → k ⟨after b ys, zs ++ rest, g⟩ = none)
    (hk : k ⟨after b xs, rest, g⟩ = some x) : runStar true p k b (xs ++ rest) g = some x := by
  induction xs generalizing b with
  | nil =>
    cases rest with
    | nil => exact hk
    | cons c cs => rw [List.nil_append, runStar, if_pos rfl, show k ⟨b, c :: cs, g⟩ = some x from hk,
        Option.some_or]
  | cons c cs ih =>
    rw [List.forall_mem_cons] at hp
    have hnone : k ⟨b, c :: (cs ++ rest), g⟩ = none := hfail [] (c :: cs) rfl (List.cons_ne_nil c cs)
    rw [List.cons_append, runStar, if_pos rfl, hnone, Option.none_or, if_pos hp.1]
    exact ih hp.2 (fun ys zs h => hfail (c :: ys) zs (by rw [h, List.cons_append])) hk

-- A lazy repetition ends where the rest of the pattern first matches.
theorem run_plus_lazy (hne : xs ≠ []) (hp : ∀ c ∈ xs, p c = true)
    (hfail : ∀ ys zs, xs = ys ++ zs → ys ≠ [] → zs ≠ [] → ∀ b, k ⟨b, zs ++ rest, g⟩ = none)
    (hk : k ⟨after b xs, rest, g⟩ = some x) : (plus true p).run k ⟨b, xs ++ rest, g⟩ = some x := by
  obtain ⟨c, cs, rfl⟩ := List.exists_cons_of_ne_nil hne
  rw [List.forall_mem_cons] at hp
  rw [run, List.cons_append, runCount, if_pos hp.1, runCount]
  refine runStar_lazy hp.2 (fun ys zs h hzs => ?_) hk
  exact hfail (c :: ys) zs (by rw [h, List.cons_append]) (List.cons_ne_nil c ys) hzs _

theorem runStar_greedy (hp : ∀ c ∈ xs, p c = true) (hstop : ∀ c ∈ rest.head?, p c = false)
    (hk : k ⟨after b xs, rest, g⟩ = some x) : runStar false p k b (xs ++ rest) g = some x := by
  induction xs generalizing b with
  | nil =>
    cases rest with
    | nil => exact hk
    | cons c cs =>
      have hc : ¬ p c = true := Bool.eq_false_iff.mp (hstop c rfl)
      rw [List.nil_append, runStar, if_neg Bool.false_ne_true, if_neg hc, Option.none_or]
      exact hk
  | cons c cs ih =>
    rw [List.forall_mem_cons] at hp
    rw [List.cons_append, runStar, if_neg Bool.false_ne_true, if_pos hp.1, ih hp.2 hk,
      Option.some_or]

theorem run_plus_greedy (hne : xs ≠ []) (hp : ∀ c ∈ xs, p c = true)
    (hstop : ∀ c ∈ rest.head?, p c = false) (hk : k ⟨after b xs, rest, g⟩ = some x) :
    (plus false p).run k ⟨b, xs ++ rest, g⟩ = some x := by
  obtain ⟨c, cs, rfl⟩ := List.exists_cons_of_ne_nil hne
  rw [List.forall_mem_cons] at hp
  rw [run, List.cons_append, runCount, if_pos hp.1, runCount]
  exact runStar_greedy hp.2 hstop hk

theorem runCount_sound {cs : List Char} (h : runCount p k n b cs g = some x) :
    ∃ ys zs b', cs = ys ++ zs ∧ ys.length = n ∧ (∀ c ∈ ys, p c = true) ∧
      k ⟨b', zs, g⟩ = some x := by
  induction n generalizing b cs with
  | zero => exact ⟨[], cs, b, rfl, rfl, nofun, by cases cs <;> exact h⟩
  | succ n ih =>
    cases cs with
    | nil => cases h
    | cons c cs =>
      rw [runCount] at h
      split at h
      · next hc =>
        obtain ⟨ys, zs, b', rfl, hlength, hall, hk⟩ := ih h
        exact ⟨c :: ys, zs, b', rfl, congrArg Nat.succ hlength,
          List.forall_mem_cons.mpr ⟨hc, hall⟩, hk⟩
      · cases h

theorem runStar_sound {cs : List Char} (h : runStar lazily p k b cs g = some x) :
    ∃ ys zs b', cs = ys ++ zs ∧ (∀ c ∈ ys, p c = true) ∧ k ⟨b', zs, g⟩ = some x := by
  induction cs generalizing b with
  | nil => exact ⟨[], [], b, rfl, nofun, h⟩
  | cons c cs ih =>
    have hor : (if p c then runStar lazily p k (c == '\n') cs g else none) = some x ∨
        k ⟨b, c :: cs, g⟩ = some x := by
      rw [runStar] at h
      cases lazily with
      | true =>
        rw [if_pos rfl, Option.or_eq_some_iff] at h
        exact h.symm.imp And.right id
      | false =>
        rw [if_neg Bool.false_ne_true, Option.or_eq_some_iff] at h
        exact h.imp id And.right
    obtain hmore | hk := hor
    · split at hmore
      · next hc =>
        obtain ⟨ys, zs, b', rfl, hall, hk⟩ := ih hmore
        exact ⟨c :: ys, zs, b', rfl, List.forall_mem_cons.mpr ⟨hc, hall⟩, hk⟩
      · cases hmore
    · exact ⟨[], c :: cs, b, rfl, nofun, hk⟩

theorem run_plus_sound (h : (plus lazily p).run k c = some x) :
    ∃ ys zs b', c.rest = ys ++ zs ∧ ys ≠ [] ∧ (∀ d ∈ ys, p d = true) ∧
      k ⟨b', zs, c.groups⟩ = some x := by
  obtain ⟨ys, zs, b', hrest, hlength, hall, hstar⟩ := runCount_sound h
  obtain ⟨ys', zs', b'', rfl, hall', hk⟩ := runStar_sound hstar
  refine ⟨ys ++ ys', zs', b'', by rw [hrest, List.append_assoc], ?_, ?_, hk⟩
  · rintro hnil
    rw [(List.append_eq_nil_iff.mp hnil).1] at hlength
    cases hlength
  · exact List.forall_mem_append.mpr ⟨hall, hall'⟩

theorem run_char_sound {d : Char} (h : (char d).run k c = some x) :
    ∃ zs b', c.rest = d :: zs ∧ k ⟨b', zs, c.groups⟩ = some x := by
  obtain ⟨ys, zs, b', hrest, hlength, hall, hk⟩ := runCount_sound h
  obtain ⟨e, rfl⟩ := List.length_eq_one_iff.mp hlength
  have he := hall e List.mem_cons_self
  rw [beq_iff_eq] at he
  exact ⟨zs, b', he ▸ hrest, hk⟩

def names : Regex → List String
  | lineStart => []
  | lineEnd => []
  | count _ _ => []
  | plus _ _ => []
  | seq r s => r.names ++ s.names
  | optional r => r.names
  | group name r => name :: r.names

-- A match goes on from some place behind it, with groups of its own names only.
theorem run_sound (h : r.run k c = some x) : ∃ d added, d.rest <:+ c.rest ∧
    d.groups = added ++ c.groups ∧ (∀ e ∈ added, e.1 ∈ r.names) ∧ k d = some x := by
  induction r generalizing k c with
  | lineStart =>
    rw [run] at h
    split at h
    · exact ⟨c, [], List.suffix_refl _, rfl, nofun, h⟩
    · cases h
  | lineEnd =>
    rw [run] at h
    split at h
    · exact ⟨c, [], List.suffix_refl _, rfl, nofun, h⟩
    · cases h
  | count n p =>
    obtain ⟨ys, zs, b', hrest, -, -, hk⟩ := runCount_sound h
    exact ⟨⟨b', zs, c.groups⟩, [], hrest ▸ List.suffix_append ys zs, rfl, nofun, hk⟩
  | plus lazily p =>
    obtain ⟨ys, zs, b', hrest, -, -, hk⟩ := run_plus_sound h
    exact ⟨⟨b', zs, c.groups⟩, [], hrest ▸ List.suffix_append ys zs, rfl, nofun, hk⟩
  | seq r s ihr ihs =>
    obtain ⟨d, added, hd, hgroups, hnames, hs⟩ := ihr h
    obtain ⟨e, added', he, hgroups', hnames', hk⟩ := ihs hs
    refine ⟨e, added' ++ added, he.trans hd, by rw [hgroups', hgroups, List.append_assoc],
      fun a ha => ?_, hk⟩
    obtain ha | ha := List.mem_append.mp ha
    · exact List.mem_append_right _ (hnames' a ha)
    · exact List.mem_append_left _ (hnames a ha)
  | optional r ih =>
    rw [run, Option.or_eq_some_iff] at h
    obtain h | ⟨-, h⟩ := h
    · exact ih h
    · exact ⟨c, [], List.suffix_refl _, rfl, nofun, h⟩
  | group name r ih =>
    obtain ⟨d, added, hd, hgroups, hnames, hk⟩ := ih h
    refine ⟨⟨d.start, d.rest, (name, c.rest.take (c.rest.length - d.rest.length)) :: d.groups⟩,
      (name, c.rest.take (c.rest.length - d.rest.length)) :: added, hd,
      by rw [hgroups, List.cons_append], fun a ha => ?_, hk⟩
    obtain rfl | ha := List.mem_cons.mp ha
    · exact List.mem_cons_self
    · exact List.mem_cons_of_mem name (hnames a ha)

theorem take_append (xs rest : List Char) :
    (xs ++ rest).take ((xs ++ rest).length - rest.length) = xs := by
  rw [List.length_append, Nat.add_sub_cancel, List.take_left]

theorem run_group_lazy {name : String} (hne : xs ≠ []) (hp : ∀ c ∈ xs, p c = true)
    (hfail : ∀ ys zs, xs = ys ++ zs → ys ≠ [] → zs ≠ [] → ∀ b g, k ⟨b, zs ++ rest, g⟩ = none)
    (hk : k ⟨after b xs, rest, (name, xs) :: g⟩ = some x) :
    (group name (plus true p)).run k ⟨b, xs ++ rest, g⟩ = some x := by
  refine run_plus_lazy hne hp (fun ys zs h hys hzs b' => hfail ys zs h hys hzs b' _) ?_
  change k ⟨_, rest, (name, (xs ++ rest).take ((xs ++ rest).length - rest.length)) :: g⟩ = some x
  rw [take_append]
  exact hk

theorem run_group_greedy {name : String} (hne : xs ≠ []) (hp : ∀ c ∈ xs, p c = true)
    (hstop : ∀ c ∈ rest.head?, p c = false)
    (hk : k ⟨after b xs, rest, (name, xs) :: g⟩ = some x) :
    (group name (plus false p)).run k ⟨b, xs ++ rest, g⟩ = some x := by
  refine run_plus_greedy hne hp hstop ?_
  change k ⟨_, rest, (name, (xs ++ rest).take ((xs ++ rest).length - rest.length)) :: g⟩ = some x
  rw [take_append]
  exact hk

theorem run_group_count {name : String} (hp : ∀ c ∈ xs, p c = true) :
    (group name (count xs.length p)).run k ⟨b, xs ++ rest, g⟩ =
      k ⟨after b xs, rest, (name, xs) :: g⟩ := by
  have hcount : (count xs.length p).run (fun d => k ⟨d.start, d.rest,
      (name, (xs ++ rest).take ((xs ++ rest).length - d.rest.length)) :: d.groups⟩)
      ⟨b, xs ++ rest, g⟩ = _ := runCount_append hp
  rw [take_append] at hcount
  exact hcount

theorem run_group_plus_sound {name : String} (h : (group name (plus lazily p)).run k c = some x) :
    ∃ ys zs b', c.rest = ys ++ zs ∧ (∀ d ∈ ys, p d = true) ∧
      k ⟨b', zs, (name, ys) :: c.groups⟩ = some x := by
  obtain ⟨ys, zs, b', hrest, -, hall, hk⟩ := run_plus_sound h
  refine ⟨ys, zs, b', hrest, hall, ?_⟩
  simp only [hrest, take_append] at hk
  exact hk

theorem run_group_count_sound {name : String} (h : (group name (count n p)).run k c = some x) :
    ∃ ys zs b', c.rest = ys ++ zs ∧ ys.length = n ∧
      k ⟨b', zs, (name, ys) :: c.groups⟩ = some x := by
  obtain ⟨ys, zs, b', hrest, hlength, -, hk⟩ := runCount_sound h
  refine ⟨ys, zs, b', hrest, hlength, ?_⟩
  simp only [hrest, take_append] at hk
  exact hk

end

-- A pattern none of whose characters is a line feed.
def InLine : Regex → Prop
  | lineStart => True
  | lineEnd => True
  | count _ p => p '\n' = false
  | plus _ p => p '\n' = false
  | seq r s => r.InLine ∧ s.InLine
  | optional r => r.InLine
  | group _ r => r.InLine

def Place.before (tail : List Char) (c : Place) : Place := { c with rest := c.rest ++ tail }

section

variable {p : Char → Bool} {k k' : Place → Option Place} {b : Bool} {line tail : List Char}
  {g : Groups} {r : Regex} {n : Nat} {lazily : Bool}

theorem runCount_local (hp : p '\n' = false) (htail : ∀ c ∈ tail.head?, c = '\n')
    (hk : ∀ c : Place, k (c.before tail) = (k' c).map (Place.before tail)) :
    runCount p k n b (line ++ tail) g = (runCount p k' n b line g).map (Place.before tail) := by
  induction n generalizing b line with
  | zero =>
    have hzero : ∀ k cs, runCount p k 0 b cs g = k ⟨b, cs, g⟩ := fun k cs => by cases cs <;> rfl
    rw [hzero, hzero]
    exact hk ⟨b, line, g⟩
  | succ n ih =>
    cases line with
    | nil =>
      cases tail with
      | nil => rfl
      | cons c cs =>
        cases htail c rfl
        have hnone : runCount p k (n + 1) b ('\n' :: cs) g = none := by
          rw [runCount, if_neg (Bool.eq_false_iff.mp hp)]
        exact hnone
    | cons c cs =>
      rw [List.cons_append, runCount, runCount]
      split
      · exact ih
      · rfl

theorem runStar_local (hp : p '\n' = false) (htail : ∀ c ∈ tail.head?, c = '\n')
    (hk : ∀ c : Place, k (c.before tail) = (k' c).map (Place.before tail)) :
    runStar lazily p k b (line ++ tail) g =
      (runStar lazily p k' b line g).map (Place.before tail) := by
  induction line generalizing b with
  | nil =>
    cases tail with
    | nil => exact hk ⟨b, [], g⟩
    | cons c cs =>
      cases htail c rfl
      have hstar : runStar lazily p k b ('\n' :: cs) g = k ⟨b, '\n' :: cs, g⟩ := by
        rw [runStar, if_neg (Bool.eq_false_iff.mp hp), Option.or_none, Option.none_or, ite_self]
      exact hstar.trans (hk ⟨b, [], g⟩)
  | cons c cs ih =>
    have hmore : (if p c then runStar lazily p k (c == '\n') (cs ++ tail) g else none) =
        (if p c then runStar lazily p k' (c == '\n') cs g else none).map (Place.before tail) := by
      split
      · exact ih
      · rfl
    have hhere : k ⟨b, c :: (cs ++ tail), g⟩ = (k' ⟨b, c :: cs, g⟩).map (Place.before tail) :=
      hk ⟨b, c :: cs, g⟩
    rw [List.cons_append, runStar, runStar, hmore, hhere]
    cases lazily with
    | true => rw [if_pos rfl, if_pos rfl, Option.map_or]
    | false => rw [if_neg Bool.false_ne_true, if_neg Bool.false_ne_true, Option.map_or]

-- What stands behind the line changes nothing.
theorem run_local (h : r.InLine) (htail : ∀ c ∈ tail.head?, c = '\n')
    (hk : ∀ c : Place, k (c.before tail) = (k' c).map (Place.before tail)) (c : Place) :
    r.run k (c.before tail) = (r.run k' c).map (Place.before tail) := by
  induction r generalizing k k' c with
  | lineStart =>
    have hstart : (c.before tail).start = c.start := rfl
    rw [run, run, hstart]
    split
    · exact hk c
    · rfl
  | lineEnd =>
    have hend : (c.before tail).rest.head?.all (· == '\n') = c.rest.head?.all (· == '\n') := by
      obtain ⟨b, cs, g⟩ := c
      cases cs with
      | cons d ds => rfl
      | nil =>
        cases htail' : tail.head? with
        | none => simp [Place.before, htail']
        | some d =>
          cases htail d htail'
          simp [Place.before, htail']
    rw [run, run, hend]
    split
    · exact hk c
    · rfl
  | count n p => exact runCount_local h htail hk
  | plus lazily p => exact runCount_local h htail fun c => runStar_local h htail hk
  | seq r s ihr ihs => exact ihr h.1 (fun c => ihs h.2 hk c) c
  | optional r ih => rw [run, run, ih h hk, hk, Option.map_or]
  | group name r ih =>
    refine ih h (fun d => ?_) c
    have htaken : (c.before tail).rest.take
        ((c.before tail).rest.length - (d.before tail).rest.length) =
          c.rest.take (c.rest.length - d.rest.length) := by
      simp only [Place.before, List.length_append, Nat.add_sub_add_right]
      exact List.take_append_of_le_length (Nat.sub_le _ _)
    rw [htaken]
    exact hk ⟨d.start, d.rest, (name, c.rest.take (c.rest.length - d.rest.length)) :: d.groups⟩

theorem matchAt_local (h : r.InLine) (htail : ∀ c ∈ tail.head?, c = '\n') :
    r.matchAt b (line ++ tail) = (r.matchAt b line).map (Place.before tail) :=
  run_local h htail (fun _ => rfl) ⟨b, line, []⟩

theorem matchAt_wholeLine_false (r : Regex) (cs : List Char) :
    r.wholeLine.matchAt false cs = none := rfl

theorem matchAt_wholeLine_rest {c : Place} (hline : '\n' ∉ line)
    (h : r.wholeLine.matchAt b line = some c) : c.rest = [] := by
  have hrun : r.run (lineEnd.run some) ⟨b, line, []⟩ = some c := by
    rw [matchAt, wholeLine, run, run] at h
    split at h
    · exact h
    · cases h
  obtain ⟨d, _, hsuffix, -, -, hend⟩ := run_sound hrun
  rw [run] at hend
  split at hend
  · next hhead =>
    cases Option.some.inj hend
    cases hrest : c.rest with
    | nil => rfl
    | cons e es =>
      rw [hrest, List.head?_cons, Option.all_some, beq_iff_eq] at hhead
      exact absurd (hsuffix.subset (hrest ▸ hhead ▸ List.mem_cons_self)) hline
  · cases hend

theorem iter_skip (r : Regex) (b : Bool) (xs cs : List Char) :
    r.iter xs.length b (xs ++ cs) = r.iter 0 (after b xs) cs := by
  induction xs generalizing b with
  | nil => rfl
  | cons x xs ih => exact ih _

theorem iter_inside (hline : '\n' ∉ line) (more : List Char) :
    r.wholeLine.iter 0 false (line ++ '\n' :: more) = r.wholeLine.iter 0 true more := by
  induction line with
  | nil => rfl
  | cons c cs ih =>
    rw [List.mem_cons, not_or] at hline
    rw [List.cons_append, iter, matchAt_wholeLine_false, beq_eq_false_iff_ne.mpr (Ne.symm hline.1)]
    exact ih hline.2

theorem iter_wholeLine (h : r.InLine) (hnil : r.wholeLine.matchAt true [] = none)
    (hline : '\n' ∉ line) (more : List Char) :
    r.wholeLine.iter 0 true (line ++ '\n' :: more) =
      (r.wholeLine.captures line).toList ++ r.wholeLine.iter 0 true more := by
  have hlocal : r.wholeLine.matchAt true (line ++ '\n' :: more) =
      (r.wholeLine.matchAt true line).map (Place.before ('\n' :: more)) :=
    matchAt_local ⟨trivial, h, trivial⟩ (fun c hc => (Option.some.inj hc).symm)
  rw [captures]
  cases line with
  | nil =>
    rw [hnil] at hlocal ⊢
    rw [List.nil_append] at hlocal ⊢
    rw [iter, hlocal]
    rfl
  | cons c cs =>
    rw [List.mem_cons, not_or] at hline
    have hfeed : (c == '\n') = false := beq_eq_false_iff_ne.mpr (Ne.symm hline.1)
    rw [List.cons_append] at hlocal ⊢
    rw [iter, hlocal]
    cases hmatch : r.wholeLine.matchAt true (c :: cs) with
    | none =>
      rw [hfeed]
      exact iter_inside hline.2 more
    | some d =>
      have hrest := matchAt_wholeLine_rest
        (by rw [List.mem_cons, not_or]; exact hline) hmatch
      have hskip : (cs ++ '\n' :: more).length - (d.before ('\n' :: more)).rest.length =
          cs.length := by
        rw [Place.before, hrest, List.length_append, List.nil_append, Nat.add_sub_cancel]
      simp only [Option.map_some, Option.toList_some, List.singleton_append, hskip, hfeed,
        iter_skip, after_eq_false hline.2]
      exact congrArg (d.groups :: ·) (iter_inside List.not_mem_nil more)

-- A pattern for whole lines is matched line by line.
theorem capturesIter_unlines (h : r.InLine) (hnil : r.wholeLine.matchAt true [] = none)
    {lines : List (List Char)} (hlines : ∀ line ∈ lines, '\n' ∉ line) :
    r.wholeLine.capturesIter (Text.unlines lines) =
      lines.filterMap r.wholeLine.captures := by
  induction lines with
  | nil => rfl
  | cons line lines ih =>
    rw [List.forall_mem_cons] at hlines
    rw [Text.unlines, List.flatMap_cons, List.append_assoc, List.singleton_append, capturesIter,
      iter_wholeLine h hnil hlines.1, ← capturesIter, ← Text.unlines, ih hlines.2]
    cases hmatch : r.wholeLine.captures line with
    | none => rw [List.filterMap_cons_none hmatch, Option.toList_none, List.nil_append]
    | some g => rw [List.filterMap_cons_some hmatch, Option.toList_some, List.singleton_append]

end

end Regex

end Kuintessence
