import Mathlib.Data.List.Infix

namespace Kuintessence.Glob

inductive Token where
  | many
  | one
  | set (negated : Bool) (ranges : List (Char × Char))
  | char (c : Char)
  deriving DecidableEq, Repr

-- The members of a set up to its bracket, and what follows it; a set left open ends the pattern.
def parseSet : List Char → List (Char × Char) × List Char
  | [] => ([], [])
  | '\\' :: c :: cs => let rest := parseSet cs; ((c, c) :: rest.1, rest.2)
  | ']' :: cs => ([], cs)
  | c :: '-' :: d :: cs => let rest := parseSet cs; ((c, d) :: rest.1, rest.2)
  | c :: cs => let rest := parseSet cs; ((c, c) :: rest.1, rest.2)

def parse : Nat → List Char → List Token
  | 0, _ => []
  | _ + 1, [] => []
  | n + 1, '*' :: cs => .many :: parse n cs
  | n + 1, '?' :: cs => .one :: parse n cs
  | n + 1, '[' :: '^' :: cs => let set := parseSet cs; .set true set.1 :: parse n set.2
  | n + 1, '[' :: cs => let set := parseSet cs; .set false set.1 :: parse n set.2
  | n + 1, '\\' :: c :: cs => .char c :: parse n cs
  | n + 1, c :: cs => .char c :: parse n cs

def inRange (c : Char) (range : Char × Char) : Bool :=
  range.1 ≤ c && c ≤ range.2 || range.2 ≤ c && c ≤ range.1

def Token.accepts (c : Char) : Token → Bool
  | .many => false
  | .one => true
  | .set negated ranges => ranges.any (inRange c) != negated
  | .char d => c == d

def accepts : List Token → List Char → Bool
  | [], text => text.isEmpty
  | .many :: tokens, text => text.tails.any (accepts tokens)
  | _ :: _, [] => false
  | token :: tokens, c :: text => token.accepts c && accepts tokens text

def isPlain (c : Char) : Bool := c ≠ '*' ∧ c ≠ '?' ∧ c ≠ '[' ∧ c ≠ '\\'

theorem parse_plain {cs rest : List Char} (h : ∀ c ∈ cs, isPlain c = true) {n : Nat}
    (hn : cs.length ≤ n) :
    parse n (cs ++ rest) = cs.map .char ++ parse (n - cs.length) rest := by
  induction cs generalizing n with
  | nil => rfl
  | cons c cs ih =>
    obtain ⟨n, rfl⟩ : ∃ m, n = m + 1 := ⟨n - 1, by rw [List.length_cons] at hn; omega⟩
    have hc := h c List.mem_cons_self
    rw [isPlain, decide_eq_true_eq] at hc
    have hrest := ih (fun d hd => h d (List.mem_cons_of_mem c hd)) (Nat.le_of_succ_le_succ hn)
    rw [List.cons_append, parse, hrest, List.length_cons, Nat.add_sub_add_right]
    · rfl
    · exact fun heq => hc.1 heq
    · exact fun heq => hc.2.1 heq
    · exact fun _ heq => absurd heq hc.2.2.1
    · exact fun heq => hc.2.2.1 heq
    · exact fun _ _ heq => absurd heq hc.2.2.2

theorem accepts_plain {cs text : List Char} {tokens : List Token} :
    accepts (cs.map .char ++ tokens) text = true ↔
      ∃ rest, text = cs ++ rest ∧ accepts tokens rest = true := by
  induction cs generalizing text with
  | nil => exact ⟨fun h => ⟨text, rfl, h⟩, fun ⟨rest, heq, h⟩ => heq ▸ h⟩
  | cons c cs ih =>
    cases text with
    | nil => simp [accepts]
    | cons d text =>
      rw [List.map_cons, List.cons_append, accepts, Bool.and_eq_true, ih, Token.accepts, beq_iff_eq]
      · constructor
        · rintro ⟨rfl, rest, rfl, h⟩
          exact ⟨rest, rfl, h⟩
        · rintro ⟨rest, heq, h⟩
          cases heq
          exact ⟨rfl, rest, rfl, h⟩
      · exact fun heq => nomatch heq

theorem accepts_many {tokens : List Token} {text : List Char} :
    accepts (.many :: tokens) text = true ↔ ∃ start rest, text = start ++ rest ∧
      accepts tokens rest = true := by
  rw [accepts, List.any_eq_true]
  constructor
  · rintro ⟨rest, hrest, h⟩
    obtain ⟨start, rfl⟩ := (List.mem_tails _ _).mp hrest
    exact ⟨start, rest, rfl, h⟩
  · rintro ⟨start, rest, rfl, h⟩
    exact ⟨rest, (List.mem_tails _ _).mpr (List.suffix_append _ _), h⟩

-- A pattern of plain pieces with a star between each two of them, and what it fits.
def starred : List (List Char) → List Char
  | [] => []
  | [cs] => cs
  | cs :: css => cs ++ '*' :: starred css

def Fits : List (List Char) → List Char → Prop
  | [], text => text = []
  | [cs], text => text = cs
  | cs :: css, text => ∃ start rest, text = cs ++ (start ++ rest) ∧ Fits css rest

theorem accepts_starred {css : List (List Char)} (h : ∀ cs ∈ css, ∀ c ∈ cs, isPlain c = true)
    {n : Nat} (hn : (starred css).length ≤ n) {text : List Char} :
    accepts (parse n (starred css)) text = true ↔ Fits css text := by
  induction css generalizing n text with
  | nil =>
    cases n <;> simp [starred, parse, accepts, Fits]
  | cons cs css ih =>
    have hcs := h cs List.mem_cons_self
    cases css with
    | nil =>
      have hparse : parse n (cs ++ []) = cs.map .char ++ parse (n - cs.length) [] :=
        parse_plain hcs hn
      rw [List.append_nil] at hparse
      rw [starred, hparse, accepts_plain]
      have hend : parse (n - cs.length) [] = [] := by cases n - cs.length <;> rfl
      rw [hend]
      constructor
      · rintro ⟨rest, rfl, hrest⟩
        rw [Fits, List.isEmpty_iff.mp hrest, List.append_nil]
      · rintro rfl
        exact ⟨[], (List.append_nil _).symm, rfl⟩
    | cons cs' css =>
      rw [starred, List.length_append, List.length_cons] at hn
      · obtain ⟨m, hm⟩ : ∃ m, n - cs.length = m + 1 := ⟨n - cs.length - 1, by omega⟩
        have hrest : (starred (cs' :: css)).length ≤ m := by omega
        rw [starred, parse_plain hcs (by omega), accepts_plain, hm, parse, Fits]
        · have hih := @ih (fun cs hcs => h cs (List.mem_cons_of_mem _ hcs)) m hrest
          constructor
          · rintro ⟨mid, rfl, hmid⟩
            obtain ⟨start, rest, rfl, hfits⟩ := accepts_many.mp hmid
            exact ⟨start, rest, rfl, hih.mp hfits⟩
          · rintro ⟨start, rest, rfl, hrest⟩
            exact ⟨start ++ rest, rfl, accepts_many.mpr ⟨start, rest, rfl, hih.mpr hrest⟩⟩
        · exact fun heq => nomatch heq
        · exact fun heq => nomatch heq
      · exact fun heq => nomatch heq

-- The last piece is where the text ends.
theorem Fits.suffix {css : List (List Char)} {cs text : List Char} (h : Fits (css ++ [cs]) text) :
    cs <:+ text := by
  induction css generalizing text with
  | nil =>
    rw [List.nil_append, Fits] at h
    exact h ▸ List.suffix_rfl
  | cons first css ih =>
    obtain ⟨next, others, hcss⟩ := List.exists_cons_of_ne_nil (List.append_ne_nil_of_right_ne_nil css
      (List.cons_ne_nil cs []))
    rw [List.cons_append, hcss] at h
    obtain ⟨start, rest, rfl, hfits⟩ := h
    rw [← hcss] at hfits
    exact ((ih hfits).trans (List.suffix_append _ _)).trans (List.suffix_append _ _)

end Glob

def glob (pattern text : String) : Bool :=
  Glob.accepts (Glob.parse pattern.length pattern.toList) text.toList

theorem glob_starred {pattern text : String} {css : List (List Char)}
    (hpattern : pattern.toList = Glob.starred css)
    (h : ∀ cs ∈ css, ∀ c ∈ cs, Glob.isPlain c = true) :
    glob pattern text = true ↔ Glob.Fits css text.toList := by
  have hlength : (Glob.starred css).length ≤ pattern.length := by
    rw [← hpattern, String.length_toList]
  rw [glob, hpattern, Glob.accepts_starred h hlength]

theorem glob_plain {start text : String} (h : ∀ c ∈ start.toList, Glob.isPlain c = true) :
    glob (start ++ "*") text = true ↔ start.toList <+: text.toList := by
  have hpattern : (start ++ "*").toList = Glob.starred [start.toList, []] := by
    rw [String.toList_append]
    rfl
  rw [glob_starred hpattern (by simpa using h)]
  constructor
  · rintro ⟨mid, rest, htext, rfl⟩
    exact ⟨mid, by rw [htext, List.append_nil]⟩
  · rintro ⟨mid, htext⟩
    exact ⟨mid, [], by rw [List.append_nil, htext], rfl⟩

example : glob "h*[a-c]?" "hellocx" = true := by decide +kernel

end Kuintessence
