import Kuintessence.Transfer.Blocks
import Mathlib.Algebra.Order.BigOperators.Group.List

namespace Kuintessence

namespace Transfer

def readExact (file : Bytes) (start n : Nat) : Outcome String Bytes :=
  if n = 0 ∨ start + n ≤ file.length then .ok ((file.drop start).take n) else .err "early eof"

-- The buffer that `http_post_file` fills; no vector is longer than `isize::MAX`.
def readBlock (checked : Bool) (file : Bytes) (blockCount blockLength fileLength index : Nat) :
    Outcome String Bytes := do
  let real ← realBlockLength checked blockCount blockLength fileLength index
  let start ← u64 checked (index * blockLength : Nat)
  if isizeMax < real then .panic else readExact file start real

def readBlocks (checked : Bool) (maxBlockLength : Nat) (file : Content) :
    Outcome String (List Bytes) := do
  let b ← blocks checked maxBlockLength file.bytes.length
  Outcome.mapEach (readBlock checked file.bytes b.2 b.1 file.bytes.length) (List.range b.2)

def Whole (checked : Bool) (maxBlockLength : Nat) (file : Content) : Prop :=
  ∃ bs, readBlocks checked maxBlockLength file = .ok bs ∧ bs.flatten = file.bytes

section Reading

variable {checked : Bool} {file : Bytes} {blockLength blockCount index start n : Nat} {b : Bytes}

theorem readExact_length (h : readExact file start n = .ok b) : b.length = n := by
  rw [readExact] at h
  split at h
  · next hcond =>
    cases h
    rw [List.length_take, List.length_drop]
    omega
  · cases h

theorem Layout.read (h : Layout file.length blockLength blockCount)
    (hfits : file.length < 2 ^ 64) (hindex : index < blockCount)
    (hb : readBlock checked file blockCount blockLength file.length index = .ok b) :
    b.length = span file.length blockLength index - 1 := by
  rw [readBlock, h.real hfits hindex, Outcome.ok_bind] at hb
  obtain ⟨start, -, hb⟩ := Outcome.bind_ok_iff.mp hb
  split at hb
  · cases hb
  · exact readExact_length hb

theorem Layout.lengths (h : Layout file.length blockLength blockCount)
    (hfits : file.length < 2 ^ 64) {bs : List Bytes}
    (hbs : Outcome.mapEach (readBlock checked file blockCount blockLength file.length)
      (List.range blockCount) = .ok bs) :
    bs.map List.length = (List.range blockCount).map
      fun index => span file.length blockLength index - 1 := by
  have hall := Outcome.mapEach_forall₂ hbs
  have hmem : ∀ index ∈ List.range blockCount, index < blockCount := fun _ => List.mem_range.mp
  clear hbs
  revert hall hmem
  generalize List.range blockCount = indices
  intro hall hmem
  induction hall with
  | nil => rfl
  | cons hb _ ih =>
    rw [List.map_cons, List.map_cons, h.read hfits (hmem _ List.mem_cons_self) hb,
      ih fun i hi => hmem i (List.mem_cons_of_mem _ hi)]

-- Every block is one byte short.
theorem Layout.total (h : Layout file.length blockLength blockCount)
    (hfits : file.length < 2 ^ 64) {bs : List Bytes}
    (hbs : Outcome.mapEach (readBlock checked file blockCount blockLength file.length)
      (List.range blockCount) = .ok bs) : bs.flatten.length < file.length := by
  have hlt : ((List.range blockCount).map
      fun index => span file.length blockLength index - 1).sum <
      ((List.range blockCount).map (span file.length blockLength)).sum := by
    refine List.sum_lt_sum _ _ (fun index _ => Nat.sub_le _ 1) ⟨0, List.mem_range.mpr h.count, ?_⟩
    exact Nat.sub_lt (h.span_pos h.count) Nat.one_pos
  rw [sum_spans, Nat.min_eq_left h.above, ← h.lengths hfits hbs] at hlt
  rwa [List.length_flatten]

end Reading

theorem readBlocks_nil (checked : Bool) (maxBlockLength : Nat) (file : Content)
    (h : file.bytes = []) : readBlocks checked maxBlockLength file = .panic := by
  have hnot : ¬maxBlockLength < ([] : Bytes).length := Nat.not_lt_zero maxBlockLength
  rw [readBlocks, h, blocks, if_neg hnot]
  cases checked with
  | true => rfl
  | false => decide +kernel

theorem never_whole (checked : Bool) (maxBlockLength : Nat) (hmax : 0 < maxBlockLength)
    (file : Content) : ¬Whole checked maxBlockLength file := by
  rintro ⟨bs, hbs, hwhole⟩
  by_cases hnil : file.bytes = []
  · rw [readBlocks_nil checked maxBlockLength file hnil] at hbs
    cases hbs
  · obtain ⟨blockLength, blockCount, hblocks, hlayout⟩ := blocks_layout checked hmax
      (List.length_pos_iff.mpr hnil) file.fits
    rw [readBlocks, hblocks, Outcome.ok_bind] at hbs
    have hlt := hlayout.total file.fits hbs
    rw [hwhole] at hlt
    exact Nat.lt_irrefl _ hlt

def twoBytes : Content := ⟨[10, 20], by decide⟩

theorem twoBytes_never_whole : ¬Whole true 1 twoBytes :=
  never_whole true 1 Nat.one_pos twoBytes

theorem twoBytes_lost : readBlocks true 2 twoBytes = .ok [[10]] ∧ ¬Whole true 2 twoBytes := by
  refine ⟨by decide +kernel, fun ⟨bs, hbs, hwhole⟩ => ?_⟩
  have hread : readBlocks true 2 twoBytes = .ok [[10]] := by decide +kernel
  cases hread.symm.trans hbs
  revert hwhole
  decide

end Transfer

end Kuintessence
