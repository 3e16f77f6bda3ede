import Kuintessence.Transfer.Blocks
import Mathlib.Data.List.GetD

namespace Kuintessence

namespace Transfer

-- The inclusive bounds of the `Range` header.
def range (checked : Bool) (blockCount blockLength fileLength block : Nat) :
    Outcome String (Nat × Nat) := do
  let real ← realBlockLength checked blockCount blockLength fileLength block
  let start ← u64 checked (block * blockLength : Nat)
  let stop ← u64 checked (start + real : Nat)
  .ok (start, stop)

def writeAt (position : Nat) (data file : Bytes) : Bytes :=
  file.take position ++ List.replicate (position - file.length) 0 ++
    (data ++ file.drop (position + data.length))

def downloadTask (checked : Bool) (serve : Nat → Nat → Bytes)
    (blockCount blockLength fileLength : Nat) (file : Bytes) (block : Nat) :
    Outcome String Bytes := do
  let r ← range checked blockCount blockLength fileLength block
  let position ← u64 checked (block * blockLength : Nat)
  .ok (writeAt position (serve r.1 r.2) file)

-- `set_len` on the file that was just created.
def created (fileLength : Nat) : Bytes := List.replicate fileLength 0

def slice (source : Bytes) (start stop : Nat) : Bytes := (source.drop start).take (stop + 1 - start)

section Writing

variable {position : Nat} {data file source : Bytes}

theorem writeAt_length (h : position + data.length ≤ file.length) :
    (writeAt position data file).length = file.length := by
  rw [writeAt, List.length_append, List.length_append, List.length_append, List.length_take,
    List.length_replicate, List.length_drop]
  omega

theorem writeAt_getElem? (h : position + data.length ≤ file.length) (i : Nat) :
    (writeAt position data file)[i]? =
      if position ≤ i ∧ i < position + data.length then data[i - position]? else file[i]? := by
  have hpad : List.replicate (position - file.length) (0 : UInt8) = [] := by
    rw [Nat.sub_eq_zero_of_le (Nat.le_trans (Nat.le_add_right _ _) h)]
    rfl
  have htake : (file.take position).length = position := by
    rw [List.length_take]
    omega
  rw [writeAt, hpad, List.append_nil, List.getElem?_append, htake]
  by_cases hbefore : i < position
  · rw [if_pos hbefore, if_neg fun hin => absurd hin.1 (Nat.not_le.mpr hbefore),
      List.getElem?_take_of_lt hbefore]
  · rw [if_neg hbefore, List.getElem?_append]
    by_cases hin : i - position < data.length
    · rw [if_pos hin, if_pos ⟨Nat.not_lt.mp hbefore, by omega⟩]
    · rw [if_neg hin, if_neg fun hin' => hin (by omega), List.getElem?_drop]
      congr 1
      omega

end Writing

section Ranges

variable {checked : Bool} {fileLength blockLength blockCount block : Nat}

theorem Layout.range (h : Layout fileLength blockLength blockCount) (hfits : fileLength < 2 ^ 64)
    (hblock : block < blockCount) : range checked blockCount blockLength fileLength block =
      .ok (block * blockLength, block * blockLength + (span fileLength blockLength block - 1)) := by
  have hstart := h.start_lt hblock
  have hspan := h.span_pos hblock
  have hle : span fileLength blockLength block ≤ fileLength - block * blockLength := Nat.min_le_right _ _
  rw [Transfer.range, h.real hfits hblock, Outcome.ok_bind, u64_of_nat (by omega), Outcome.ok_bind,
    u64_of_nat (by omega), Outcome.ok_bind]

-- The block that a position lies in.
theorem Layout.block_of (h : Layout fileLength blockLength blockCount) {position : Nat}
    (hposition : position < fileLength) : position / blockLength < blockCount :=
  Nat.div_lt_of_lt_mul (Nat.mul_comm blockLength blockCount ▸ Nat.lt_of_lt_of_le hposition h.above)

theorem Layout.mem_range_iff (h : Layout fileLength blockLength blockCount)
    (hblock : block < blockCount) {position : Nat} (hposition : position < fileLength) :
    block * blockLength ≤ position ∧
        position ≤ block * blockLength + (span fileLength blockLength block - 1) ↔
      position / blockLength = block := by
  have hspan := h.span_pos hblock
  rw [Nat.div_eq_iff h.length, span] at *
  omega

-- The ranges are a partition of the positions.
structure Covers (ranges : Nat → Outcome String (Nat × Nat)) (fileLength blockCount : Nat) :
    Prop where
  bounds : ∀ block < blockCount, ∃ start stop,
    ranges block = .ok (start, stop) ∧ start ≤ stop ∧ stop < fileLength
  unique : ∀ position < fileLength, ∃! block, block < blockCount ∧ ∃ start stop,
    ranges block = .ok (start, stop) ∧ start ≤ position ∧ position ≤ stop

theorem Layout.covers (h : Layout fileLength blockLength blockCount) (hfits : fileLength < 2 ^ 64) :
    Covers (Transfer.range checked blockCount blockLength fileLength) fileLength blockCount where
  bounds block hblock := by
    have hstart := h.start_lt hblock
    have hle : span fileLength blockLength block ≤ fileLength - block * blockLength :=
      Nat.min_le_right _ _
    exact ⟨_, _, h.range hfits hblock, Nat.le_add_right _ _, by omega⟩
  unique position hposition := by
    refine ⟨position / blockLength, ⟨h.block_of hposition, _, _,
      h.range hfits (h.block_of hposition), ?_⟩, ?_⟩
    · exact (h.mem_range_iff (h.block_of hposition) hposition).mpr rfl
    · rintro block ⟨hblock, start, stop, hrange, hin⟩
      cases (h.range hfits hblock).symm.trans hrange
      exact ((h.mem_range_iff hblock hposition).mp hin).symm

end Ranges

section Downloads

variable {checked : Bool} {source file : Bytes} {blockLength blockCount block : Nat}
  {serve : Nat → Nat → Bytes} {arrived order : List Nat}

-- The server answers a range request with the bytes of the range.
def Serves (serve : Nat → Nat → Bytes) (source : Bytes) : Prop :=
  ∀ start stop, start ≤ stop → stop < source.length → serve start stop = slice source start stop

structure Filled (source : Bytes) (blockLength : Nat) (arrived : List Nat) (file : Bytes) : Prop where
  length : file.length = source.length
  same : ∀ position < source.length, position / blockLength ∈ arrived →
    file[position]? = source[position]?

theorem slice_length (source : Bytes) (start : Nat) {n : Nat} (hn : 0 < n) (h : start + n ≤ source.length) :
    (slice source start (start + (n - 1))).length = n := by
  rw [slice, List.length_take, List.length_drop]
  omega

theorem slice_getElem? {start stop i : Nat} (h : start + i ≤ stop) :
    (slice source start stop)[i]? = source[start + i]? := by
  rw [slice, List.getElem?_take_of_lt (by omega), List.getElem?_drop]

variable (checked) in
theorem Filled.task (h : Filled source blockLength arrived file)
    (hlayout : Layout source.length blockLength blockCount) (hfits : source.length < 2 ^ 64)
    (hserve : Serves serve source) (hblock : block < blockCount) : ∃ file',
      downloadTask checked serve blockCount blockLength source.length file block = .ok file' ∧
        Filled source blockLength (block :: arrived) file' := by
  have hstart := hlayout.start_lt hblock
  have hspan := hlayout.span_pos hblock
  have hle : span source.length blockLength block ≤ source.length - block * blockLength :=
    Nat.min_le_right _ _
  have hanswer := hserve (block * blockLength)
    (block * blockLength + (span source.length blockLength block - 1)) (Nat.le_add_right _ _)
    (by omega)
  have hlength := slice_length source (block * blockLength) hspan (by omega)
  have hroom : block * blockLength + (slice source (block * blockLength)
      (block * blockLength + (span source.length blockLength block - 1))).length ≤ file.length := by
    rw [hlength, h.length]
    omega
  rw [downloadTask, hlayout.range hfits hblock, Outcome.ok_bind, u64_of_nat (by omega),
    Outcome.ok_bind, hanswer]
  refine ⟨_, rfl, (writeAt_length hroom).trans h.length, fun position hposition hin => ?_⟩
  rw [writeAt_getElem? hroom, hlength]
  have hiff := hlayout.mem_range_iff hblock hposition
  split
  · next hmem =>
    rw [slice_getElem? (by omega)]
    congr 1
    omega
  · next hmem =>
    obtain heq | hin := List.mem_cons.mp hin
    · exact absurd (hiff.mpr heq) (by omega)
    · exact h.same position hposition hin

variable (checked) in
theorem Filled.tasks (h : Filled source blockLength arrived file)
    (hlayout : Layout source.length blockLength blockCount) (hfits : source.length < 2 ^ 64)
    (hserve : Serves serve source) (horder : ∀ block ∈ order, block < blockCount) : ∃ file',
      Outcome.foldEach (downloadTask checked serve blockCount blockLength source.length) file order =
        .ok file' ∧ Filled source blockLength (order.reverse ++ arrived) file' := by
  induction order generalizing file arrived with
  | nil => exact ⟨file, rfl, h⟩
  | cons block order ih =>
    obtain ⟨file₁, hfile₁, h₁⟩ := h.task checked hlayout hfits hserve
      (horder block List.mem_cons_self)
    obtain ⟨file₂, hfile₂, h₂⟩ := ih h₁ fun b hb => horder b (List.mem_cons_of_mem block hb)
    refine ⟨file₂, Outcome.bind_ok_iff.mpr ⟨file₁, hfile₁, hfile₂⟩, ?_⟩
    rw [List.reverse_cons, List.append_assoc]
    exact h₂

theorem Filled.eq (h : Filled source blockLength arrived file)
    (hall : ∀ position < source.length, position / blockLength ∈ arrived) : file = source := by
  refine List.ext_getElem? fun position => ?_
  obtain hlt | hge := Nat.lt_or_ge position source.length
  · exact h.same position hlt (hall position hlt)
  · rw [List.getElem?_eq_none hge, List.getElem?_eq_none (h.length ▸ hge)]

end Downloads

theorem blocks_downloaded (checked : Bool) (maxBlockLength : Nat) (hmax : 0 < maxBlockLength)
    (source : Content) (hpos : 0 < source.bytes.length) : ∃ blockLength blockCount,
      blocks checked maxBlockLength source.bytes.length = .ok (blockLength, blockCount) ∧
      Covers (range checked blockCount blockLength source.bytes.length) source.bytes.length
        blockCount ∧
      ∀ serve, Serves serve source.bytes → ∀ order : List Nat, order.Perm (List.range blockCount) →
        Outcome.foldEach (downloadTask checked serve blockCount blockLength source.bytes.length)
          (created source.bytes.length) order = .ok source.bytes := by
  obtain ⟨blockLength, blockCount, hblocks, hlayout⟩ :=
    blocks_layout checked hmax hpos source.fits
  refine ⟨blockLength, blockCount, hblocks, hlayout.covers source.fits,
    fun serve hserve order horder => ?_⟩
  have hstart : Filled source.bytes blockLength [] (created source.bytes.length) :=
    ⟨List.length_replicate, fun _ _ hin => absurd hin List.not_mem_nil⟩
  obtain ⟨file, hfile, hfilled⟩ := hstart.tasks checked hlayout source.fits hserve
    fun block hblock => List.mem_range.mp (horder.mem_iff.mp hblock)
  rw [hfile, hfilled.eq fun position hposition => ?_]
  rw [List.append_nil, List.mem_reverse, horder.mem_iff]
  exact List.mem_range.mpr (hlayout.block_of hposition)

def fiveBytes : Content := ⟨[1, 2, 3, 4, 5], by decide⟩

theorem fiveBytes_downloaded : ∃ blockLength blockCount,
    blocks true 2 5 = .ok (blockLength, blockCount) ∧
      Outcome.foldEach (downloadTask true (slice fiveBytes.bytes) blockCount blockLength 5)
        (created 5) [2, 0, 1] = .ok fiveBytes.bytes := by
  obtain ⟨blockLength, blockCount, hblocks, -, hall⟩ :=
    blocks_downloaded true 2 Nat.two_pos fiveBytes (by decide)
  have hcount : blocks true 2 5 = .ok (2, 3) := by decide +kernel
  cases hcount.symm.trans hblocks
  exact ⟨2, 3, hblocks, hall _ (fun _ _ _ _ => rfl) [2, 0, 1] (by decide)⟩

end Transfer

end Kuintessence
