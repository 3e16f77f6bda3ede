import Kuintessence.Lib.Outcome
import Mathlib.Tactic.Linarith

namespace Kuintessence

-- A result of 64 bits: debug builds panic where release builds wrap around.
def u64 {ε : Type} (checked : Bool) (n : Int) : Outcome ε Nat :=
  if 0 ≤ n ∧ n < 2 ^ 64 then .ok n.toNat
  else if checked then .panic else .ok (n % 2 ^ 64).toNat

section

variable {ε : Type} {checked : Bool} {a b : Nat} {n : Int}

theorem u64_of_nat (h : a < 2 ^ 64) : (u64 checked a : Outcome ε Nat) = .ok a := by
  rw [u64, if_pos ⟨Int.natCast_nonneg a, by exact_mod_cast h⟩, Int.toNat_natCast]

theorem u64_of_eq (hn : n = a) (h : a < 2 ^ 64) : (u64 checked n : Outcome ε Nat) = .ok a :=
  hn ▸ u64_of_nat h

theorem u64_sub (h : b ≤ a) (ha : a < 2 ^ 64) :
    (u64 checked ((a : Int) - b) : Outcome ε Nat) = .ok (a - b) :=
  u64_of_eq (Nat.cast_sub h).symm (Nat.lt_of_le_of_lt (Nat.sub_le a b) ha)

theorem u64_lt (h : (u64 checked n : Outcome ε Nat) = .ok a) : a < 2 ^ 64 := by
  rw [u64] at h
  split at h
  · next hrange =>
    cases h
    omega
  · cases checked with
    | true => cases h
    | false =>
      cases h
      omega

theorem u64_true_ok_iff : (u64 true n : Outcome ε Nat) = .ok a ↔ n = a ∧ a < 2 ^ 64 := by
  constructor
  · intro h
    rw [u64] at h
    split at h
    · next hrange =>
      cases h
      omega
    · cases h
  · rintro ⟨rfl, h⟩
    exact u64_of_nat h

end

-- A signed result of 32 bits.
def i32 {ε : Type} (checked : Bool) (n : Int) : Outcome ε Int :=
  if -2 ^ 31 ≤ n ∧ n < 2 ^ 31 then .ok n
  else if checked then .panic else .ok (Int.bmod n (2 ^ 32))

theorem i32_of_range {ε : Type} {checked : Bool} {n : Int} (h : -2 ^ 31 ≤ n ∧ n < 2 ^ 31) :
    (i32 checked n : Outcome ε Int) = .ok n := if_pos h

theorem i32_eq_bmod {ε : Type} {checked : Bool} {n v : Int}
    (h : (i32 checked n : Outcome ε Int) = .ok v) : v = Int.bmod n (2 ^ 32) := by
  rw [i32] at h
  split at h
  · next hrange =>
    cases h
    exact (Int.bmod_eq_of_le_mul_two (by omega) (by omega)).symm
  · cases checked with
    | true => cases h
    | false =>
      cases h
      rfl

theorem exists_i32_ok_iff {ε : Type} {checked : Bool} {n : Int} :
    (∃ v, (i32 checked n : Outcome ε Int) = .ok v) ↔
      (checked = true → -2 ^ 31 ≤ n ∧ n < 2 ^ 31) := by
  by_cases hrange : -2 ^ 31 ≤ n ∧ n < 2 ^ 31
  · rw [i32, if_pos hrange]
    exact iff_of_true ⟨n, rfl⟩ fun _ => hrange
  · rw [i32, if_neg hrange]
    cases checked with
    | true => exact iff_of_false (fun ⟨_, h⟩ => by cases h) fun h => hrange (h rfl)
    | false => exact iff_of_true ⟨_, rfl⟩ nofun

-- The difference of two values of 64 bits.
def usizeSub {ε : Type} (checked : Bool) (a b : Nat) : Outcome ε Nat :=
  if b ≤ a then .ok (a - b) else if checked then .panic else .ok (a + 2 ^ 64 - b)

theorem usizeSub_of_le {ε : Type} {checked : Bool} {a b : Nat} (h : b ≤ a) :
    (usizeSub checked a b : Outcome ε Nat) = .ok (a - b) := if_pos h

theorem usizeSub_of_gt {ε : Type} {a b : Nat} (h : a < b) :
    (usizeSub true a b : Outcome ε Nat) = .panic := if_neg (Nat.not_le.mpr h)

end Kuintessence
