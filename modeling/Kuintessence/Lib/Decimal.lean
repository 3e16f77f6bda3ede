import Mathlib.Algebra.GroupWithZero.Nat
import Mathlib.Algebra.Ring.Int.Defs
import Mathlib.Data.List.Basic

namespace Kuintessence

-- Decimal numbers inside a text of characters.
namespace Decimal

def readNat (cs : List Char) : Option (Nat × List Char) :=
  if cs.takeWhile Char.isDigit = [] then none
  else some (Nat.ofDigitChars 10 (cs.takeWhile Char.isDigit) 0, cs.dropWhile Char.isDigit)

-- A text that is a number and nothing else.
def number (cs : List Char) : Option Nat :=
  match readNat cs with
  | some (n, []) => some n
  | _ => none

-- The number that `parse` reads in a text of digits, before it looks at the range.
def natural : List Char → Option Nat
  | '+' :: cs => number cs
  | cs => number cs

def integer : List Char → Option Int
  | '-' :: cs => (number cs).map fun n : Nat => -(n : Int)
  | cs => (natural cs).map fun n : Nat => (n : Int)

-- `parse` for the integers of so many bits.
def unsigned (bits : Nat) (cs : List Char) : Option Nat := (natural cs).filter fun n => n < 2 ^ bits

def signed (bits : Nat) (cs : List Char) : Option Int :=
  (integer cs).filter fun n => -2 ^ (bits - 1) ≤ n ∧ n < 2 ^ (bits - 1)

def strip : List Char → List Char → Option (List Char)
  | [], cs => some cs
  | _ :: _, [] => none
  | p :: ps, c :: cs => if p = c then strip ps cs else none

variable {n : Nat} {cs rest : List Char}

theorem strip_append (p cs : List Char) : strip p (p ++ cs) = some cs := by
  induction p with
  | nil => rfl
  | cons c p ih => rw [List.cons_append, strip, if_pos rfl, ih]

theorem isDigit_of_mem {c : Char} (h : c ∈ Nat.toDigits 10 n) : c.isDigit = true :=
  Nat.isDigit_of_mem_toDigits (by decide) (by decide) h

theorem readNat_digits {ds : List Char} (hds : ∀ c ∈ ds, c.isDigit = true) (hne : ds ≠ [])
    (hrest : ∀ c ∈ rest.head?, c.isDigit = false) :
    readNat (ds ++ rest) = some (Nat.ofDigitChars 10 ds 0, rest) := by
  have hstop : rest.takeWhile Char.isDigit = [] ∧ rest.dropWhile Char.isDigit = rest := by
    cases rest with
    | nil => exact ⟨rfl, rfl⟩
    | cons c rest =>
      have hc := hrest c rfl
      exact ⟨List.takeWhile_cons_of_neg (by rw [hc]; decide),
        List.dropWhile_cons_of_neg (by rw [hc]; decide)⟩
  have htake : (ds ++ rest).takeWhile Char.isDigit = ds := by
    rw [List.takeWhile_append_of_pos hds, hstop.1, List.append_nil]
  rw [readNat, htake, if_neg hne, List.dropWhile_append_of_pos hds, hstop.2]

theorem readNat_toDigits (n : Nat) (hrest : ∀ c ∈ rest.head?, c.isDigit = false) :
    readNat (Nat.toDigits 10 n ++ rest) = some (n, rest) := by
  rw [readNat_digits (fun c hc => isDigit_of_mem hc) Nat.toDigits_ne_nil hrest,
    Nat.ofDigitChars_ten_toDigits]

theorem number_digits {ds : List Char} (hds : ∀ c ∈ ds, c.isDigit = true) (hne : ds ≠ []) :
    number ds = some (Nat.ofDigitChars 10 ds 0) := by
  have hread : readNat (ds ++ []) = some (Nat.ofDigitChars 10 ds 0, []) :=
    readNat_digits hds hne nofun
  rw [List.append_nil] at hread
  rw [number, hread]

theorem number_toDigits (n : Nat) : number (Nat.toDigits 10 n) = some n := by
  rw [number_digits (fun c hc => isDigit_of_mem hc) Nat.toDigits_ne_nil,
    Nat.ofDigitChars_ten_toDigits]

theorem digits_head {c : Char} {rest : List Char} (h : Nat.toDigits 10 n = c :: rest) :
    c ≠ '+' ∧ c ≠ '-' := by
  have hdigit : c.isDigit = true := isDigit_of_mem (h ▸ List.mem_cons_self)
  refine ⟨?_, ?_⟩
  · rintro rfl
    exact absurd hdigit (by decide)
  · rintro rfl
    exact absurd hdigit (by decide)

theorem natural_toDigits (n : Nat) : natural (Nat.toDigits 10 n) = some n := by
  rw [← number_toDigits n]
  unfold natural
  split
  · next cs h => exact absurd rfl (digits_head h).1
  · rfl

theorem unsigned_toDigits {bits : Nat} (h : n < 2 ^ bits) :
    unsigned bits (Nat.toDigits 10 n) = some n := by
  rw [unsigned, natural_toDigits, Option.filter_some, if_pos (decide_eq_true h)]

theorem unsigned_lt {bits : Nat} (h : unsigned bits cs = some n) : n < 2 ^ bits := by
  rw [unsigned, Option.filter_eq_some_iff] at h
  exact of_decide_eq_true h.2

-- An integer as `to_string` writes it.
def shown : Int → List Char
  | .ofNat n => Nat.toDigits 10 n
  | .negSucc n => '-' :: Nat.toDigits 10 (n + 1)

theorem integer_shown (i : Int) : integer (shown i) = some i := by
  cases i with
  | ofNat n =>
    have hnatural : integer (Nat.toDigits 10 n) =
        (natural (Nat.toDigits 10 n)).map fun n : Nat => (n : Int) := by
      unfold integer
      split
      · next cs h => exact absurd rfl (digits_head h).2
      · rfl
    rw [shown, hnatural, natural_toDigits]
    rfl
  | negSucc n =>
    rw [shown, integer, number_toDigits]
    rfl

theorem signed_shown {bits : Nat} {i : Int}
    (h : -2 ^ (bits - 1) ≤ i ∧ i < 2 ^ (bits - 1)) : signed bits (shown i) = some i := by
  rw [signed, integer_shown, Option.filter_some, if_pos (decide_eq_true h)]

theorem unsigned_shown {bits : Nat} {i : Int} (h : i < 2 ^ bits) :
    unsigned bits (shown i) = if 0 ≤ i then some i.toNat else none := by
  cases i with
  | ofNat n =>
    have hnonneg : 0 ≤ Int.ofNat n := Int.natCast_nonneg n
    have hn : (n : Int) < 2 ^ bits := h
    rw [if_pos hnonneg]
    exact unsigned_toDigits (by exact_mod_cast hn)
  | negSucc n =>
    rw [if_neg (Int.negSucc_not_nonneg n).mp]
    rfl

theorem mem_shown {i : Int} {c : Char} (h : c ∈ shown i) : c = '-' ∨ c.isDigit = true := by
  cases i with
  | ofNat n => exact .inr (isDigit_of_mem h)
  | negSucc n =>
    obtain h | h := List.mem_cons.mp h
    · exact .inl h
    · exact .inr (isDigit_of_mem h)

-- At least two digits.
def padded (n : Nat) : List Char := if n < 10 then '0' :: Nat.toDigits 10 n else Nat.toDigits 10 n

theorem isDigit_of_mem_padded {c : Char} (h : c ∈ padded n) : c.isDigit = true := by
  rw [padded] at h
  split at h
  · obtain rfl | h := List.mem_cons.mp h
    · rfl
    · exact isDigit_of_mem h
  · exact isDigit_of_mem h

theorem padded_ne_nil (n : Nat) : padded n ≠ [] := by
  rw [padded]
  split
  · exact List.cons_ne_nil _ _
  · exact Nat.toDigits_ne_nil

theorem ofDigitChars_padded (n : Nat) : Nat.ofDigitChars 10 (padded n) 0 = n := by
  rw [padded]
  split
  · rw [Nat.ofDigitChars_cons, show 10 * 0 + ('0'.toNat - '0'.toNat) = 0 from rfl,
      Nat.ofDigitChars_ten_toDigits]
  · rw [Nat.ofDigitChars_ten_toDigits]

theorem readNat_padded (n : Nat) (hrest : ∀ c ∈ rest.head?, c.isDigit = false) :
    readNat (padded n ++ rest) = some (n, rest) := by
  rw [readNat_digits (fun c hc => isDigit_of_mem_padded hc) (padded_ne_nil n) hrest,
    ofDigitChars_padded]

end Decimal

end Kuintessence
