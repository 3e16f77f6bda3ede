import Mathlib.Data.List.Basic

namespace Kuintessence

-- `std::path` on Unix; a path is its text.
namespace Path

def isAbsolute (path : String) : Bool := path.toList.head? = some '/'

def push (path component : String) : String :=
  if isAbsolute component then component
  else if path = "" ∨ path.toList.getLast? = some '/' then path ++ component
  else path ++ "/" ++ component

-- The names between the separators: empty ones and those of the directory itself do not count.
def names (path : String) : List (List Char) :=
  (path.toList.splitOn '/').filter fun name => name ≠ [] ∧ name ≠ ['.']

-- `parent()` is `None` at the root and for the empty path.
def hasParent (path : String) : Bool :=
  if isAbsolute path then decide (names path ≠ []) else decide (path ≠ "")

abbrev Dir := List (List Char)

-- The directory that a name leads to, without symbolic links.
def enter (dir : Dir) (name : List Char) : Dir :=
  if name = ['.', '.'] then dir.dropLast else dir ++ [name]

def resolve (cwd : Dir) (path : String) : Dir :=
  (names path).foldl enter (if isAbsolute path then [] else cwd)

-- A shell replaces a tilde in front by the directory it starts in.
def tilde : Dir → Dir
  | n :: ns => if n = ['~'] then ns else n :: ns
  | [] => []

def expand (home : Dir) (path : String) : Dir :=
  (tilde (names path)).foldl enter (if isAbsolute path then [] else home)

-- One name below a directory.
structure Plain (name : String) : Prop where
  names : names name = [name.toList]
  relative : isAbsolute name = false
  proper : name.toList ≠ ['.', '.'] ∧ name.toList ≠ ['~']

section Names

variable {path component name : String} {cwd : Dir}

theorem names_slash (a b : List Char) : ((a ++ '/' :: b).splitOn '/').filter
      (fun name => name ≠ [] ∧ name ≠ ['.']) =
    (a.splitOn '/').filter (fun name => name ≠ [] ∧ name ≠ ['.']) ++
      (b.splitOn '/').filter (fun name => name ≠ [] ∧ name ≠ ['.']) := by
  rw [List.splitOn_append_cons_self, List.filter_append]

theorem names_append (path component : String) :
    names (path ++ "/" ++ component) = names path ++ names component := by
  have hlist : (path ++ "/" ++ component).toList = path.toList ++ '/' :: component.toList := by
    rw [String.toList_append, String.toList_append, List.append_assoc]
    rfl
  rw [names, hlist, names_slash, ← names, ← names]

theorem names_push (h : isAbsolute component = false) :
    names (push path component) = names path ++ names component := by
  rw [push, if_neg (by rw [h]; decide)]
  split
  · next hend =>
    obtain rfl | hlast := hend
    · rw [String.empty_append]
      rfl
    · obtain ⟨front, hfront⟩ := List.getLast?_eq_some_iff.mp hlast
      have hpath : names path = (front.splitOn '/').filter fun name => name ≠ [] ∧ name ≠ ['.'] := by
        rw [names, hfront, names_slash]
        exact List.append_nil _
      rw [hpath, names, String.toList_append, hfront, List.append_assoc, List.singleton_append,
        names_slash, ← names]
  · exact names_append path component

theorem isAbsolute_push (h : isAbsolute component = false) :
    isAbsolute (push path component) = isAbsolute path := by
  rw [push, if_neg (by rw [h]; decide)]
  by_cases hempty : path = ""
  · rw [if_pos (.inl hempty), hempty, String.empty_append, h]
    rfl
  · have hne : path.toList ≠ [] := fun hnil => hempty (String.toList_eq_nil_iff.mp hnil)
    split
    · rw [isAbsolute, isAbsolute, String.toList_append, List.head?_append_of_ne_nil _ hne]
    · rw [isAbsolute, isAbsolute, String.toList_append, String.toList_append, List.append_assoc,
        List.head?_append_of_ne_nil _ hne]

theorem resolve_push (h : isAbsolute component = false) (cwd : Dir) (path : String) :
    resolve cwd (push path component) = (names component).foldl enter (resolve cwd path) := by
  rw [resolve, names_push h, isAbsolute_push h, List.foldl_append, ← resolve]

theorem expand_push (h : isAbsolute component = false)
    (htilde : (names component).head? ≠ some ['~']) (home : Dir) (path : String) :
    expand home (push path component) = (names component).foldl enter (expand home path) := by
  have hhead : tilde (names path ++ names component) = tilde (names path) ++ names component := by
    cases hpath : names path with
    | nil =>
      cases hcomponent : names component with
      | nil => rfl
      | cons n ns =>
        rw [hcomponent] at htilde
        exact if_neg fun heq => htilde (congrArg some heq)
    | cons n ns =>
      rw [List.cons_append, tilde, tilde]
      split
      · rfl
      · rfl
  rw [expand, names_push h, isAbsolute_push h, hhead, List.foldl_append, ← expand]

theorem foldl_plain (h : Plain name) (dir : Dir) :
    (names name).foldl enter dir = dir ++ [name.toList] := by
  rw [h.names, List.foldl_cons, List.foldl_nil, enter, if_neg h.proper.1]

theorem resolve_push_plain (h : Plain name) (cwd : Dir) (path : String) :
    resolve cwd (push path name) = resolve cwd path ++ [name.toList] := by
  rw [resolve_push h.relative, foldl_plain h]

theorem expand_push_plain (h : Plain name) (home : Dir) (path : String) :
    expand home (push path name) = expand home path ++ [name.toList] := by
  rw [expand_push h.relative (by rw [h.names]; exact fun heq => h.proper.2 (Option.some.inj heq)),
    foldl_plain h]

-- Two plain names below a directory.
theorem below (h : Plain name) {file : String} (hfile : Plain file) (dir : Dir) :
    isAbsolute (name ++ "/" ++ file) = false ∧ (names (name ++ "/" ++ file)).head? ≠ some ['~'] ∧
      (names (name ++ "/" ++ file)).foldl enter dir = dir ++ [name.toList, file.toList] := by
  have hnames := names_append name file
  refine ⟨?_, ?_, ?_⟩
  · have hne : name.toList ≠ [] := by
      intro hnil
      have hbad := h.names
      rw [Path.names, hnil] at hbad
      cases hbad
    have hrelative := h.relative
    rw [isAbsolute] at hrelative ⊢
    rwa [String.toList_append, String.toList_append, List.append_assoc,
      List.head?_append_of_ne_nil _ hne]
  · rw [hnames, h.names]
    exact fun heq => h.proper.2 (Option.some.inj heq)
  · rw [hnames, List.foldl_append, foldl_plain h, foldl_plain hfile, List.append_assoc]
    rfl

theorem names_trailing (path : String) : names (path ++ "/") = names path := by
  have hempty := names_append path ""
  rw [String.append_empty] at hempty
  rw [hempty]
  exact List.append_nil _

theorem isAbsolute_slash (path component : String) :
    isAbsolute (path ++ "/" ++ component) = isAbsolute (path ++ "/") := by
  have hne : (path ++ "/").toList ≠ [] := by
    rw [String.toList_append]
    exact List.append_ne_nil_of_right_ne_nil _ (by decide)
  rw [isAbsolute, isAbsolute, String.toList_append, List.head?_append_of_ne_nil _ hne]

theorem resolve_slash (h : Plain name) (cwd : Dir) (path : String) :
    resolve cwd (path ++ "/" ++ name) = resolve cwd (path ++ "/") ++ [name.toList] := by
  rw [resolve, names_append, isAbsolute_slash, List.foldl_append, h.names, List.foldl_cons,
    List.foldl_nil, enter, if_neg h.proper.1, resolve, names_trailing]

theorem resolve_trailing (h : path ≠ "") (cwd : Dir) :
    resolve cwd (path ++ "/") = resolve cwd path := by
  have hne : path.toList ≠ [] := fun hnil => h (String.toList_eq_nil_iff.mp hnil)
  rw [resolve, resolve, names_trailing, isAbsolute, isAbsolute, String.toList_append,
    List.head?_append_of_ne_nil _ hne]

theorem append_ne_empty (path : String) (h : component ≠ "") : path ++ component ≠ "" := by
  intro heq
  have hlist := congrArg String.toList heq
  rw [String.toList_append] at hlist
  exact h (String.toList_eq_nil_iff.mp (List.append_eq_nil_iff.mp hlist).2)

theorem plain_digits (n : Nat) : Plain (toString n) := by
  have hlist : (toString n).toList = Nat.toDigits 10 n := by
    rw [Nat.toString_eq_ofList_toDigits, String.toList_ofList]
  have hdigit {c : Char} (hc : c ∈ Nat.toDigits 10 n) : c.isDigit = true :=
    Nat.isDigit_of_mem_toDigits (by decide) (by decide) hc
  have hslash : '/' ∉ Nat.toDigits 10 n := fun hc => absurd (hdigit hc) (by decide)
  have hproper {c : Char} {cs : List Char} (hc : c.isDigit = false) :
      Nat.toDigits 10 n ≠ c :: cs := by
    intro heq
    have hmem : c ∈ Nat.toDigits 10 n := heq ▸ List.mem_cons_self
    rw [hdigit hmem] at hc
    cases hc
  refine ⟨?_, ?_, ?_⟩
  · rw [names, hlist, List.splitOn_eq_singleton hslash, List.filter_cons_of_pos, List.filter_nil]
    exact decide_eq_true ⟨Nat.toDigits_ne_nil, hproper (by decide)⟩
  · rw [isAbsolute, hlist]
    refine decide_eq_false fun hhead => ?_
    obtain ⟨cs, hcs⟩ := List.head?_eq_some_iff.mp hhead
    exact hproper (by decide) hcs
  · rw [hlist]
    exact ⟨hproper (by decide), hproper (by decide)⟩

end Names

example : push "/work" "a" = "/work/a" := by decide

example : hasParent "/." = false := by decide

end Path

end Kuintessence
