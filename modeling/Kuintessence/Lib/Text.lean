import Mathlib.Data.List.Basic
import Mathlib.Data.List.DropRight
import Mathlib.Data.List.TakeWhile

namespace Kuintessence

namespace Text

-- The lines of a text, each of which a line feed ends.
def rows (cs : List Char) : List (List Char) := (cs.splitOn '\n').dropLast

theorem rows_append {row : List Char} (h : '\n' ∉ row) (rest : List Char) :
    rows (row ++ '\n' :: rest) = row :: rows rest := by
  rw [rows, List.splitOn_append_cons_self_of_not_mem h,
    List.dropLast_cons_of_ne_nil (List.splitOn_ne_nil '\n' rest), rows]

def unlines (lines : List (List Char)) : List Char := lines.flatMap (· ++ ['\n'])

theorem splitOn_unlines {lines : List (List Char)} (h : ∀ line ∈ lines, '\n' ∉ line) :
    (unlines lines).splitOn '\n' = lines ++ [[]] := by
  induction lines with
  | nil => rfl
  | cons line lines ih =>
    rw [List.forall_mem_cons] at h
    rw [unlines, List.flatMap_cons, List.append_assoc, List.singleton_append,
      List.splitOn_append_cons_self_of_not_mem h.1, List.cons_append, ← ih h.2, unlines]

-- The property `White_Space` of Unicode.
def isBlank (c : Char) : Bool :=
  (0x9 ≤ c.toNat && c.toNat ≤ 0xD) || (0x2000 ≤ c.toNat && c.toNat ≤ 0x200A) ||
  [0x20, 0x85, 0xA0, 0x1680, 0x2028, 0x2029, 0x202F, 0x205F, 0x3000].contains c.toNat

def trimStart (cs : List Char) : List Char := cs.dropWhile isBlank

def trimEnd (cs : List Char) : List Char := cs.rdropWhile isBlank

def trim (cs : List Char) : List Char := trimEnd (trimStart cs)

def splitOnce (c : Char) : List Char → Option (List Char × List Char)
  | [] => none
  | d :: cs => if d = c then some ([], cs) else (splitOnce c cs).map fun p => (d :: p.1, p.2)

def rsplitOnce (c : Char) : List Char → Option (List Char × List Char)
  | [] => none
  | d :: cs =>
    match rsplitOnce c cs with
    | some (before, after) => some (d :: before, after)
    | none => if d = c then some ([], cs) else none

-- `skip` characters of an occurrence are still to be passed over.
def eraseFrom (pat : List Char) : Nat → List Char → List Char
  | _, [] => []
  | skip + 1, _ :: cs => eraseFrom pat skip cs
  | 0, c :: cs =>
    if pat.isPrefixOf (c :: cs) then eraseFrom pat (pat.length - 1) cs
    else c :: eraseFrom pat 0 cs

-- `replace(pat, "")` for a pattern that is not empty.
def erase (pat cs : List Char) : List Char := eraseFrom pat 0 cs

-- The same for `split(pat)`.
def splitFrom (pat : List Char) : Nat → List Char → List (List Char)
  | _, [] => [[]]
  | skip + 1, _ :: cs => splitFrom pat skip cs
  | 0, c :: cs =>
    if pat.isPrefixOf (c :: cs) then [] :: splitFrom pat (pat.length - 1) cs
    else (splitFrom pat 0 cs).modifyHead (c :: ·)

def splitAll (pat cs : List Char) : List (List Char) := splitFrom pat 0 cs

section

variable {c : Char} {cs xs ys pat : List Char}

theorem rsplitOnce_eq_none_iff : rsplitOnce c cs = none ↔ c ∉ cs := by
  induction cs with
  | nil => simp [rsplitOnce]
  | cons d cs ih =>
    rw [rsplitOnce, List.mem_cons, not_or]
    cases h : rsplitOnce c cs with
    | some p =>
      have hmem : c ∈ cs := by
        by_contra hnot
        rw [ih.mpr hnot] at h
        cases h
      simp [hmem]
    | none =>
      have hnot := ih.mp h
      by_cases hd : d = c
      · simp [hd]
      · simp [hd, Ne.symm hd, hnot]

theorem mem_trim_iff (h : isBlank c = false) : c ∈ trim cs ↔ c ∈ cs := by
  have hdrop : ∀ xs : List Char, c ∈ xs.dropWhile isBlank ↔ c ∈ xs := by
    intro xs
    constructor
    · exact fun hmem => List.dropWhile_sublist isBlank |>.subset hmem
    · intro hmem
      rw [← List.takeWhile_append_dropWhile (p := isBlank) (l := xs)] at hmem
      obtain htake | hdrop := List.mem_append.mp hmem
      · rw [List.mem_takeWhile_imp htake] at h
        cases h
      · exact hdrop
  rw [trim, trimEnd, List.rdropWhile, List.mem_reverse, hdrop, List.mem_reverse, trimStart, hdrop]

theorem length_eraseFrom_le (pat cs : List Char) (skip : Nat) :
    (eraseFrom pat skip cs).length ≤ cs.length := by
  induction cs generalizing skip with
  | nil => exact Nat.le_of_eq (congrArg List.length (by rw [eraseFrom]))
  | cons c cs ih =>
    cases skip with
    | succ skip => exact Nat.le_succ_of_le (ih skip)
    | zero =>
      rw [eraseFrom]
      split
      · exact Nat.le_succ_of_le (ih _)
      · exact Nat.succ_le_succ (ih 0)

theorem erase_eq_self_iff (hpat : pat ≠ []) : erase pat cs = cs ↔ ¬ pat <:+: cs := by
  induction cs with
  | nil => simp [erase, eraseFrom, hpat]
  | cons c cs ih =>
    rw [erase, eraseFrom, List.infix_cons_iff, not_or]
    split
    · next h =>
      have hle := length_eraseFrom_le pat cs (pat.length - 1)
      constructor
      · intro heq
        rw [heq, List.length_cons] at hle
        omega
      · exact fun hnot => absurd (List.isPrefixOf_iff_prefix.mp h) hnot.1
    · next h =>
      have hnot : ¬ pat <+: c :: cs := fun hpre => h (List.isPrefixOf_iff_prefix.mpr hpre)
      rw [and_iff_right hnot, ← ih, List.cons.injEq, and_iff_right rfl, erase]

theorem splitFrom_ne_nil (pat cs : List Char) (skip : Nat) : splitFrom pat skip cs ≠ [] := by
  induction cs generalizing skip with
  | nil => exact List.cons_ne_nil _ _
  | cons c cs ih =>
    cases skip with
    | succ skip => exact ih skip
    | zero =>
      rw [splitFrom]
      split
      · exact List.cons_ne_nil _ _
      · rw [Ne, List.modifyHead_eq_nil_iff]
        exact ih 0

theorem splitAll_cons (h : ¬ pat <+: c :: cs) :
    splitAll pat (c :: cs) = (splitAll pat cs).modifyHead (c :: ·) := by
  rw [splitAll, splitFrom, if_neg fun hpre => h (List.isPrefixOf_iff_prefix.mp hpre), ← splitAll]

theorem splitAll_of_not_infix (h : ¬ pat <:+: cs) : splitAll pat cs = [cs] := by
  induction cs with
  | nil => rfl
  | cons c cs ih =>
    rw [List.infix_cons_iff, not_or] at h
    rw [splitAll_cons h.1, ih h.2]
    rfl

theorem prefix_of_prefix_append (hc : c ∉ pat) (h : pat <+: xs ++ c :: ys) : pat <+: xs := by
  obtain hpre | ⟨rest, rfl⟩ := List.prefix_or_prefix_of_prefix h (List.prefix_append xs _)
  · exact hpre
  · cases rest with
    | nil => exact (List.append_nil xs).symm ▸ List.prefix_rfl
    | cons d rest =>
      rw [List.prefix_append_right_inj, List.cons_prefix_cons] at h
      exact absurd (List.mem_append_right xs (h.1 ▸ List.mem_cons_self)) hc

theorem splitFrom_length (pat xs ys : List Char) :
    splitFrom pat xs.length (xs ++ ys) = splitAll pat ys := by
  induction xs with
  | nil => rfl
  | cons x xs ih => exact ih

theorem splitAll_prefix (hne : pat ≠ []) (ys : List Char) :
    splitAll pat (pat ++ ys) = [] :: splitAll pat ys := by
  obtain ⟨d, ds, rfl⟩ := List.exists_cons_of_ne_nil hne
  have hpre : (d :: ds).isPrefixOf (d :: (ds ++ ys)) = true :=
    List.isPrefixOf_iff_prefix.mpr (List.prefix_append (d :: ds) ys)
  rw [splitAll, List.cons_append, splitFrom, if_pos hpre, List.length_cons, Nat.add_sub_cancel,
    splitFrom_length]

-- The first occurrence, which a character that is not in `pat` keeps apart from what is before it.
theorem splitAll_append (hne : pat ≠ []) (hc : c ∉ pat) (h : ¬ pat <:+: xs) (ys : List Char) :
    splitAll pat (xs ++ c :: (pat ++ ys)) = (xs ++ [c]) :: splitAll pat ys := by
  induction xs with
  | nil =>
    have hnot : ¬ pat <+: c :: (pat ++ ys) := fun hpre =>
      hne (List.prefix_nil.mp (prefix_of_prefix_append hc hpre))
    rw [List.nil_append, splitAll_cons hnot, splitAll_prefix hne]
    rfl
  | cons x xs ih =>
    rw [List.infix_cons_iff, not_or] at h
    have hnot : ¬ pat <+: x :: (xs ++ c :: (pat ++ ys)) := fun hpre =>
      h.1 (prefix_of_prefix_append hc hpre)
    rw [List.cons_append, splitAll_cons hnot, ih h.2]
    rfl

theorem eraseFrom_append (pat xs ys : List Char) :
    eraseFrom pat xs.length (xs ++ ys) = erase pat ys := by
  induction xs with
  | nil =>
    cases ys <;> rfl
  | cons x xs ih => exact ih

theorem erase_prefix (hpat : pat ≠ []) (cs : List Char) : erase pat (pat ++ cs) = erase pat cs := by
  obtain ⟨c, rest, rfl⟩ := List.exists_cons_of_ne_nil hpat
  have hpre : (c :: rest).isPrefixOf (c :: (rest ++ cs)) = true :=
    List.isPrefixOf_iff_prefix.mpr (List.prefix_append (c :: rest) cs)
  rw [erase, List.cons_append, eraseFrom, if_pos hpre]
  exact eraseFrom_append (c :: rest) rest cs

theorem isBlank_of_isDigit (h : c.isDigit = true) : isBlank c = false := by
  have hrange : 48 ≤ c.toNat ∧ c.toNat ≤ 57 := by
    rw [Char.isDigit, Bool.and_eq_true, decide_eq_true_iff, decide_eq_true_iff] at h
    exact ⟨UInt32.le_iff_toNat_le.mp h.1, UInt32.le_iff_toNat_le.mp h.2⟩
  simp [isBlank]
  omega

theorem trimEnd_append (xs ys : List Char) :
    trimEnd (xs ++ ys) = if ys.all isBlank then trimEnd xs else xs ++ trimEnd ys := by
  rw [trimEnd, List.rdropWhile, List.reverse_append, List.dropWhile_append]
  by_cases h : ys.all isBlank = true
  · have hempty : ys.reverse.dropWhile isBlank = [] :=
      List.dropWhile_eq_nil_iff.mpr fun c hc => List.all_eq_true.mp h c (List.mem_reverse.mp hc)
    rw [hempty, if_pos h]
    rfl
  · have hne : ys.reverse.dropWhile isBlank ≠ [] := fun hnil => h (List.all_eq_true.mpr fun c hc =>
      List.dropWhile_eq_nil_iff.mp hnil c (List.mem_reverse.mpr hc))
    rw [if_neg h, if_neg (by rwa [List.isEmpty_iff]), List.reverse_append, List.reverse_reverse]
    rfl

theorem trimEnd_eq_self_iff : trimEnd cs = cs ↔ ∀ c ∈ cs.getLast?, isBlank c = false := by
  rw [trimEnd, List.rdropWhile_eq_self_iff]
  cases h : cs.getLast? with
  | none =>
    rw [List.getLast?_eq_none_iff] at h
    exact iff_of_true (fun hl => absurd h hl) nofun
  | some c =>
    constructor
    · intro hlast d hd
      cases hd
      have hne : cs ≠ [] := by
        rintro rfl
        cases h
      have := hlast hne
      rw [List.getLast?_eq_some_getLast hne] at h
      cases h
      exact Bool.eq_false_iff.mpr this
    · intro hlast hne
      rw [List.getLast?_eq_some_getLast hne] at h
      cases h
      rw [hlast _ rfl]
      exact Bool.false_ne_true

theorem erase_trimEnd_eq_iff (hpat : pat ≠ []) :
    erase pat (trimEnd cs) = cs ↔ trimEnd cs = cs ∧ ¬ pat <:+: cs := by
  constructor
  · intro h
    have hle : cs.length ≤ (trimEnd cs).length := by
      have := length_eraseFrom_le pat (trimEnd cs) 0
      rw [← erase, h] at this
      exact this
    have heq : trimEnd cs = cs := (List.rdropWhile_prefix isBlank cs).eq_of_length_le hle
    refine ⟨heq, ?_⟩
    rw [heq] at h
    exact (erase_eq_self_iff hpat).mp h
  · rintro ⟨heq, hnot⟩
    rw [heq]
    exact (erase_eq_self_iff hpat).mpr hnot

-- Texts that start with a word of their own.
theorem word_prefix_iff (hx : c ∉ xs) (hy : c ∉ ys) {as bs : List Char} :
    xs ++ c :: as <+: ys ++ c :: bs ↔ xs = ys ∧ as <+: bs := by
  induction xs generalizing ys with
  | nil =>
    cases ys with
    | nil => simp [List.cons_prefix_cons]
    | cons y ys =>
      have hne : c ≠ y := fun h => hy (h ▸ List.mem_cons_self)
      simp [List.cons_prefix_cons, hne]
  | cons x xs ih =>
    rw [List.mem_cons, not_or] at hx
    cases ys with
    | nil => simp [List.cons_prefix_cons, Ne.symm hx.1]
    | cons y ys =>
      rw [List.mem_cons, not_or] at hy
      rw [List.cons_append, List.cons_append, List.cons_prefix_cons, ih hx.2 hy.2, List.cons.injEq,
        and_assoc]

end

end Text

end Kuintessence
