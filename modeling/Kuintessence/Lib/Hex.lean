import Mathlib.Data.Nat.Digits.Defs

namespace Kuintessence.Hex

def digit (n : Nat) : Char := if n < 10 then .ofNat (48 + n) else .ofNat (87 + n)

def value (c : Char) : Nat := if c.toNat < 58 then c.toNat - 48 else c.toNat - 87

theorem value_digit : ∀ n < 16, value (digit n) = n ∧ digit n ≠ '-' := by decide

def write (width n : Nat) : List Char :=
  let digits := Nat.digits 16 n
  ((digits ++ List.replicate (width - digits.length) 0).map digit).reverse

def read (digits : List Char) : Nat := Nat.ofDigits 16 (digits.reverse.map value)

section Padding

variable (width n : Nat)

theorem padded_lt : ∀ d ∈ Nat.digits 16 n ++ List.replicate width 0, d < 16 := by
  intro d hd
  rcases List.mem_append.mp hd with hd | hd
  · exact Nat.digits_lt_base (by omega) hd
  · have hzero := List.eq_of_mem_replicate hd
    omega

theorem read_write : read (write width n) = n := by
  have hdigits : ∀ l : List Nat, (∀ d ∈ l, d < 16) → (l.map digit).map value = l := by
    intro l hl
    rw [List.map_map]
    exact (List.map_congr_left fun d hd => (value_digit d (hl d hd)).1).trans (List.map_id l)
  rw [read, write, List.reverse_reverse, hdigits _ (padded_lt _ n),
    Nat.ofDigits_append_replicate_zero, Nat.ofDigits_digits]

theorem mem_write {c : Char} (h : c ∈ write width n) : ∃ d < 16, digit d = c := by
  rw [write, List.mem_reverse, List.mem_map] at h
  obtain ⟨d, hd, rfl⟩ := h
  exact ⟨d, padded_lt _ n d hd, rfl⟩

theorem write_plain : '-' ∉ write width n := by
  rw [write, List.mem_reverse, List.mem_map]
  rintro ⟨d, hd, hdash⟩
  exact (value_digit d (padded_lt _ n d hd)).2 hdash

end Padding

def group : List Nat → List Char → List Char
  | [], digits => digits
  | n :: sizes, digits => digits.take n ++ '-' :: group sizes (digits.drop n)

theorem mem_group {sizes : List Nat} {digits : List Char} {c : Char} (h : c ∈ group sizes digits) :
    c = '-' ∨ c ∈ digits := by
  induction sizes generalizing digits with
  | nil => exact .inr h
  | cons n sizes ih =>
    rw [group, List.mem_append, List.mem_cons] at h
    obtain h | h | h := h
    · exact .inr (List.mem_of_mem_take h)
    · exact .inl h
    · exact (ih h).imp_right List.mem_of_mem_drop

def ungroup (text : List Char) : List Char := text.filter (· ≠ '-')

theorem ungroup_plain {digits : List Char} (h : '-' ∉ digits) : ungroup digits = digits := by
  rw [ungroup, List.filter_eq_self]
  intro c hc
  simpa using ne_of_mem_of_not_mem hc h

theorem ungroup_group (sizes : List Nat) {digits : List Char} (h : '-' ∉ digits) :
    ungroup (group sizes digits) = digits := by
  induction sizes generalizing digits with
  | nil => exact ungroup_plain h
  | cons n sizes ih =>
    have htake := ungroup_plain fun hin => h (List.mem_of_mem_take (i := n) hin)
    have hdrop := ih fun hin => h (List.mem_of_mem_drop (i := n) hin)
    rw [ungroup] at htake hdrop ⊢
    rw [group, List.filter_append, htake, List.filter_cons_of_neg (by simp), hdrop,
      List.take_append_drop]

end Kuintessence.Hex
