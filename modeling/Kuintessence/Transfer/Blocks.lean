import Kuintessence.Lib.Machine
import Kuintessence.Model.Common
import Mathlib.Algebra.BigOperators.Group.List.Basic

namespace Kuintessence

namespace Transfer

abbrev Bytes := List UInt8

-- A file whose length is a `u64`.
structure Content where
  bytes : Bytes
  fits : bytes.length < 2 ^ 64

-- The runners' `(block_length, block_count)`.
def blocks (checked : Bool) (maxBlockLength fileLength : Nat) : Outcome String (Nat × Nat) :=
  if maxBlockLength < fileLength then
    if maxBlockLength = 0 then .panic
    else if fileLength % maxBlockLength ≠ 0 then do
      let blockCount ← u64 checked (fileLength / maxBlockLength + 1 : Nat)
      .ok (maxBlockLength, blockCount)
    else .ok (maxBlockLength, fileLength / maxBlockLength)
  else .ok (fileLength, 1)

def realBlockLength (checked : Bool) (blockCount blockLength fileLength index : Nat) :
    Outcome String Nat := do
  let last ← u64 checked ((blockCount : Int) - 1)
  if index = last then do
    let before ← u64 checked (index * blockLength : Nat)
    let rest ← u64 checked ((fileLength : Int) - before)
    u64 checked ((rest : Int) - 1)
  else u64 checked ((blockLength : Int) - 1)

structure Layout (fileLength blockLength blockCount : Nat) : Prop where
  length : 0 < blockLength
  below : (blockCount - 1) * blockLength < fileLength
  above : fileLength ≤ blockCount * blockLength
  count : 0 < blockCount

section Layout

variable {checked : Bool} {maxBlockLength fileLength blockLength blockCount index : Nat}

theorem blocks_layout (checked : Bool) (hmax : 0 < maxBlockLength) (hpos : 0 < fileLength)
    (hfits : fileLength < 2 ^ 64) : ∃ blockLength blockCount,
      blocks checked maxBlockLength fileLength = .ok (blockLength, blockCount) ∧
        Layout fileLength blockLength blockCount := by
  have hdiv := Nat.div_add_mod fileLength maxBlockLength
  have hmod := Nat.mod_lt fileLength hmax
  rw [Nat.mul_comm] at hdiv
  rw [blocks]
  by_cases hlong : maxBlockLength < fileLength
  · have hquot : 0 < fileLength / maxBlockLength := Nat.div_pos hlong.le hmax
    rw [if_pos hlong, if_neg hmax.ne']
    by_cases hrest : fileLength % maxBlockLength ≠ 0
    · have hone : 1 < maxBlockLength := by
        by_contra hle
        have hmax' : maxBlockLength = 1 := by omega
        exact hrest (hmax' ▸ Nat.mod_one fileLength)
      have hquot' : fileLength / maxBlockLength < fileLength := Nat.div_lt_self hpos hone
      rw [if_pos hrest, u64_of_nat (by omega)]
      refine ⟨maxBlockLength, fileLength / maxBlockLength + 1, rfl, hmax, ?_, ?_, Nat.succ_pos _⟩
      · rw [Nat.add_sub_cancel]
        omega
      · rw [Nat.add_mul, Nat.one_mul]
        omega
    · rw [if_neg hrest]
      refine ⟨maxBlockLength, fileLength / maxBlockLength, rfl, hmax, ?_, ?_, hquot⟩
      · rw [Nat.sub_mul, Nat.one_mul]
        omega
      · omega
  · rw [if_neg hlong]
    refine ⟨fileLength, 1, rfl, hpos, ?_, ?_, Nat.one_pos⟩
    · rwa [Nat.sub_self, Nat.zero_mul]
    · rw [Nat.one_mul]

theorem Layout.start_lt (h : Layout fileLength blockLength blockCount) (hindex : index < blockCount) :
    index * blockLength < fileLength :=
  Nat.lt_of_le_of_lt (Nat.mul_le_mul_right blockLength (Nat.le_sub_one_of_lt hindex)) h.below

-- What a block would have to cover.
def span (fileLength blockLength index : Nat) : Nat :=
  min blockLength (fileLength - index * blockLength)

theorem Layout.span_pos (h : Layout fileLength blockLength blockCount)
    (hindex : index < blockCount) : 0 < span fileLength blockLength index := by
  have hstart := h.start_lt hindex
  have hlength := h.length
  rw [span]
  omega

theorem Layout.real (h : Layout fileLength blockLength blockCount) (hfits : fileLength < 2 ^ 64)
    (hindex : index < blockCount) : realBlockLength checked blockCount blockLength fileLength index =
      .ok (span fileLength blockLength index - 1) := by
  have hstart := h.start_lt hindex
  have hcount := h.count
  have hlength := h.length
  have hlast : blockCount - 1 ≤ (blockCount - 1) * blockLength :=
    Nat.le_mul_of_pos_right _ hlength
  have hbelow := h.below
  rw [realBlockLength, u64_of_eq (a := blockCount - 1) (by omega) (by omega), Outcome.ok_bind]
  by_cases heq : index = blockCount - 1
  · have habove := h.above
    have hsplit : blockCount * blockLength = index * blockLength + blockLength := by
      rw [heq, Nat.sub_mul, Nat.one_mul]
      have hle := Nat.le_mul_of_pos_left blockLength hcount
      omega
    rw [if_pos heq, u64_of_nat (by omega), Outcome.ok_bind, u64_sub hstart.le hfits,
      Outcome.ok_bind, u64_of_eq (a := fileLength - index * blockLength - 1) (by omega) (by omega)]
    rw [span]
    congr 1
    omega
  · have hnext : (index + 1) * blockLength < fileLength := h.start_lt (by omega)
    rw [Nat.add_mul, Nat.one_mul] at hnext
    rw [if_neg heq, u64_of_eq (a := blockLength - 1) (by omega) (by omega), span]
    congr 1
    omega

theorem sum_spans (fileLength blockLength blockCount : Nat) :
    ((List.range blockCount).map (span fileLength blockLength)).sum =
      min fileLength (blockCount * blockLength) := by
  induction blockCount with
  | zero => rw [Nat.zero_mul, Nat.min_zero]; rfl
  | succ n ih =>
    rw [List.range_succ, List.map_append, List.sum_append, ih, List.map_singleton,
      List.sum_singleton, span, Nat.add_mul, Nat.one_mul]
    omega

end Layout

end Transfer

end Kuintessence
