import Kuintessence.Lib.Decimal
import Kuintessence.Lib.Machine
import Kuintessence.Lib.Text
import Mathlib.Algebra.BigOperators.Ring.Finset

namespace Kuintessence.Agent

open Decimal Text

-- The classes of characters that Unicode gives `char::is_numeric` and `char::is_alphabetic`.
structure Classes where
  isNumeric : Char → Bool
  isAlphabetic : Char → Bool

variable {ε : Type}

-- `* 1024`, so many times.
def times (checked : Bool) : Nat → Nat → Outcome ε Nat
  | 0, n => .ok n
  | k + 1, n => u64 checked ((n * 1024 : Nat) : Int) >>= times checked k

def exponent (unit : List Char) : Nat :=
  match String.ofList unit with
  | "b" => 0
  | "kb" => 1
  | "mb" => 2
  | "gb" => 3
  | "tb" => 4
  | "pb" => 5
  | _ => 1

def parseMemory (checked : Bool) (classes : Classes) (memory : List Char) : Outcome ε Nat :=
  let unit := memory.dropWhile classes.isNumeric
  let size := (unsigned 64 (memory.rdropWhile classes.isAlphabetic)).getD 0
  times checked (exponent unit) size

def addPiece (checked : Bool) (second i : Nat) (time : List Char) : Outcome ε Nat :=
  let i := i % 2 ^ 32
  let time := (unsigned 64 time).getD 0
  if i ≤ 2 then do
    let seconds ← u64 checked ((60 ^ i * time : Nat) : Int)
    u64 checked ((second + seconds : Nat) : Int)
  else if i = 3 then do
    let seconds ← u64 checked ((86400 * time : Nat) : Int)
    u64 checked ((second + seconds : Nat) : Int)
  else .ok second

def addPieces (checked : Bool) : Nat → Nat → List (List Char) → Outcome ε Nat
  | second, _, [] => .ok second
  | second, i, time :: times =>
    addPiece checked second i time >>= fun second => addPieces checked second (i + 1) times

def parseDuration (checked : Bool) (duration : List Char) : Outcome ε Nat :=
  addPieces checked 0 0 (duration.splitOn ':').reverse

namespace Sinfo

structure CsvNodeTotal where
  memory : UInt64
  cpus : UInt64
  deriving DecidableEq, Repr

structure NodeTotal where
  memory : Nat := 0
  cpus : Nat := 0
  deriving DecidableEq, Repr

structure CsvNodeAlloc where
  memory : UInt64
  freeMem : UInt64
  cpus : List Char
  deriving DecidableEq, Repr

structure NodeAlloc where
  allocMemory : Nat
  allocCpus : Nat
  deriving DecidableEq, Repr

structure NodeAllocSum where
  allocMemory : Nat := 0
  allocCpus : Nat := 0
  allocNodes : Nat := 0
  deriving DecidableEq, Repr

def deserializeMemory (checked : Bool) (memMib : UInt64) : Outcome ε Nat :=
  times checked 2 memMib.toNat

def NodeTotal.of (checked : Bool) (record : CsvNodeTotal) : Outcome String NodeTotal := do
  let memory ← deserializeMemory checked record.memory
  .ok ⟨memory, record.cpus.toNat⟩

-- The records are what the CSV reader makes of the lines, one after the other.
def NodeTotal.new (checked : Bool) (records : List (Except String CsvNodeTotal)) :
    Outcome String (List NodeTotal) :=
  Outcome.mapEach (fun record => Outcome.ofExcept record >>= NodeTotal.of checked) records

def NodeTotal.add (checked : Bool) (acc n : NodeTotal) : Outcome String NodeTotal := do
  let cpus ← u64 checked ((acc.cpus + n.cpus : Nat) : Int)
  let memory ← u64 checked ((acc.memory + n.memory : Nat) : Int)
  .ok ⟨memory, cpus⟩

def total (checked : Bool) (nodes : List NodeTotal) : Outcome String NodeTotal :=
  Outcome.foldEach (NodeTotal.add checked) {} nodes

def allocated (cpus : List Char) : Option Nat :=
  (splitOnce '/' cpus).bind fun p => unsigned 64 p.1

def NodeAlloc.of (checked : Bool) (node : CsvNodeAlloc) : Outcome String NodeAlloc := do
  let used ← u64 checked ((node.memory.toNat : Int) - node.freeMem.toNat)
  let allocMemory ← times checked 2 used
  let allocCpus ← .okOr "Failed to parse CPUS(A)" (allocated node.cpus)
  .ok ⟨allocMemory, allocCpus⟩

def NodeAlloc.new (checked : Bool) (records : List (Except String CsvNodeAlloc)) :
    Outcome String (List NodeAlloc) :=
  Outcome.mapEach (fun record => Outcome.ofExcept record >>= NodeAlloc.of checked) records

-- The nodes are counted in memory, so their number does not overflow.
def NodeAllocSum.add (checked : Bool) (acc : NodeAllocSum) (n : NodeAlloc) :
    Outcome String NodeAllocSum := do
  let allocMemory ← u64 checked ((acc.allocMemory + n.allocMemory : Nat) : Int)
  let allocCpus ← u64 checked ((acc.allocCpus + n.allocCpus : Nat) : Int)
  .ok ⟨allocMemory, allocCpus, if 0 < n.allocCpus then acc.allocNodes + 1 else acc.allocNodes⟩

def alloc (checked : Bool) (nodes : List NodeAlloc) : Outcome String NodeAllocSum :=
  Outcome.foldEach (NodeAllocSum.add checked) {} nodes

end Sinfo

namespace Stat

def totalNumbers (s : List Char) : Option (Nat × Nat) := do
  let (frsize, blocks) ← splitOnce ' ' (trimEnd s)
  let frsize ← unsigned 64 frsize
  let blocks ← unsigned 64 blocks
  some (frsize, blocks)

def parseTotalStorage (checked : Bool) (s : List Char) : Outcome ε (Option Nat) :=
  match totalNumbers s with
  | none => .ok none
  | some (frsize, blocks) => do
    let size ← u64 checked ((frsize * blocks : Nat) : Int)
    .ok (some size)

def usedNumbers (s : List Char) : Option (Nat × Nat × Nat) := do
  let (frsize, s) ← splitOnce ' ' (trimEnd s)
  let (blocks, bfree) ← splitOnce ' ' s
  let frsize ← unsigned 64 frsize
  let blocks ← unsigned 64 blocks
  let bfree ← unsigned 64 bfree
  some (frsize, blocks, bfree)

def parseUsedStorage (checked : Bool) (s : List Char) : Outcome ε (Option Nat) :=
  match usedNumbers s with
  | none => .ok none
  | some (frsize, blocks, bfree) => do
    let used ← u64 checked ((blocks : Int) - bfree)
    let size ← u64 checked ((frsize * used : Nat) : Int)
    .ok (some size)

end Stat

-- The outputs that are converted.
inductive Source where
  | memory (text : List Char)
  | duration (text : List Char)
  | total (records : List Sinfo.CsvNodeTotal)
  | alloc (records : List Sinfo.CsvNodeAlloc)
  | totalStorage (text : List Char)
  | usedStorage (text : List Char)

-- Every field and sum that comes out.
def Source.converted (checked : Bool) (classes : Classes) : Source → Outcome String (List Nat)
  | .memory text => do
    let size ← parseMemory checked classes text
    .ok [size]
  | .duration text => do
    let seconds ← parseDuration checked text
    .ok [seconds]
  | .total records => do
    let nodes ← Sinfo.NodeTotal.new checked (records.map .ok)
    let sum ← Sinfo.total checked nodes
    .ok (nodes.map Sinfo.NodeTotal.memory ++ [sum.memory, sum.cpus])
  | .alloc records => do
    let nodes ← Sinfo.NodeAlloc.new checked (records.map .ok)
    let sum ← Sinfo.alloc checked nodes
    .ok (nodes.map Sinfo.NodeAlloc.allocMemory ++ [sum.allocMemory, sum.allocCpus])
  | .totalStorage text => do
    let size ← Stat.parseTotalStorage checked text
    let size ← .okOr "The format of \x60stat\x60 result is wrong" size
    .ok [size]
  | .usedStorage text => do
    let size ← Stat.parseUsedStorage checked text
    let size ← .okOr "The format of \x60stat\x60 result is wrong" size
    .ok [size]

-- The same in whole numbers of any size; `none` for an output that is not accepted.
def memoryValue (classes : Classes) (text : List Char) : Option Nat :=
  (natural (text.rdropWhile classes.isAlphabetic)).map fun size =>
    size * 1024 ^ exponent (text.dropWhile classes.isNumeric)

def weight (i : Nat) : Nat :=
  if i % 2 ^ 32 ≤ 2 then 60 ^ (i % 2 ^ 32) else if i % 2 ^ 32 = 3 then 86400 else 0

def pieceValue (i : Nat) (time : List Char) : Option Nat :=
  if weight i = 0 then some 0 else (natural time).map (weight i * ·)

def piecesValue : Nat → List (List Char) → Option Nat
  | _, [] => some 0
  | i, time :: times =>
    (pieceValue i time).bind fun first => (piecesValue (i + 1) times).map (first + ·)

def durationValue (text : List Char) : Option Nat := piecesValue 0 (text.splitOn ':').reverse

def mib (n : Int) : Int := n * 1024 ^ 2

def Source.values (classes : Classes) : Source → Option (List Int)
  | .memory text => (memoryValue classes text).map fun n : Nat => [(n : Int)]
  | .duration text => (durationValue text).map fun n : Nat => [(n : Int)]
  | .total records =>
    let memory := records.map fun r => mib r.memory.toNat
    some (memory ++ [memory.sum, (records.map fun r => (r.cpus.toNat : Int)).sum])
  | .alloc records =>
    let memory := records.map fun r => mib ((r.memory.toNat : Int) - r.freeMem.toNat)
    (records.mapM fun r => Sinfo.allocated r.cpus).map fun cpus =>
      memory ++ [memory.sum, (cpus.sum : Int)]
  | .totalStorage text =>
    (Stat.totalNumbers text).map fun n => [(n.1 : Int) * n.2]
  | .usedStorage text =>
    (Stat.usedNumbers text).map fun n => [(n.1 : Int) * ((n.2.1 : Int) - n.2.2)]

-- No more blocks are free than there are.
def Source.Spare : Source → Prop
  | .usedStorage text => ∀ p, Stat.usedNumbers text = some p → p.2.2 ≤ p.2.1
  | _ => True

def InU64 (n : Int) : Prop := 0 ≤ n ∧ n < 2 ^ 64

section

variable {checked : Bool} {classes : Classes} {text : List Char} {n k i second : Nat}

theorem inU64_natCast : InU64 (n : Int) ↔ n < 2 ^ 64 := by
  rw [InU64]
  omega

theorem times_lt (hn : n < 2 ^ 64) {m : Nat} (h : times checked k n = (.ok m : Outcome ε Nat)) :
    m < 2 ^ 64 := by
  induction k generalizing n with
  | zero =>
    cases h
    exact hn
  | succ k ih =>
    obtain ⟨n', hn', h⟩ := Outcome.bind_ok_iff.mp h
    exact ih (u64_lt hn') h

theorem times_exact (h : n * 1024 ^ k < 2 ^ 64) :
    times checked k n = (.ok (n * 1024 ^ k) : Outcome ε Nat) := by
  induction k generalizing n with
  | zero => rw [times, pow_zero, mul_one]
  | succ k ih =>
    have hsplit : n * 1024 ^ (k + 1) = n * 1024 * 1024 ^ k := by
      rw [pow_succ', mul_assoc]
    have hstep : n * 1024 < 2 ^ 64 :=
      Nat.lt_of_le_of_lt (Nat.le_mul_of_pos_right _ (by positivity)) (hsplit ▸ h)
    rw [times, u64_of_nat hstep, Outcome.ok_bind, ih (hsplit ▸ h), hsplit]

theorem unsigned_getD_lt (cs : List Char) : (unsigned 64 cs).getD 0 < 2 ^ 64 := by
  cases h : unsigned 64 cs with
  | none => exact Nat.two_pow_pos 64
  | some n => exact unsigned_lt h

theorem unsigned_of_natural {cs : List Char} (h : natural cs = some n) (hn : n < 2 ^ 64) :
    unsigned 64 cs = some n := by
  rw [unsigned, h, Option.filter_some, if_pos (decide_eq_true hn)]

theorem parseMemory_lt (h : parseMemory checked classes text = (.ok n : Outcome ε Nat)) :
    n < 2 ^ 64 := times_lt (unsigned_getD_lt _) h

theorem parseMemory_exact (h : memoryValue classes text = some n) (hn : n < 2 ^ 64) :
    parseMemory checked classes text = (.ok n : Outcome ε Nat) := by
  obtain ⟨size, hsize, rfl⟩ := Option.map_eq_some_iff.mp h
  have hle : size < 2 ^ 64 :=
    Nat.lt_of_le_of_lt (Nat.le_mul_of_pos_right size (by positivity)) hn
  rw [parseMemory, unsigned_of_natural hsize hle]
  exact times_exact hn

theorem addPiece_lt {time : List Char} (hsecond : second < 2 ^ 64)
    (h : addPiece checked second i time = (.ok n : Outcome ε Nat)) : n < 2 ^ 64 := by
  rw [addPiece] at h
  split at h
  · obtain ⟨_, -, h⟩ := Outcome.bind_ok_iff.mp h
    exact u64_lt h
  · split at h
    · obtain ⟨_, -, h⟩ := Outcome.bind_ok_iff.mp h
      exact u64_lt h
    · cases h
      exact hsecond

theorem addPieces_lt {times : List (List Char)} (hsecond : second < 2 ^ 64)
    (h : addPieces checked second i times = (.ok n : Outcome ε Nat)) : n < 2 ^ 64 := by
  induction times generalizing second i with
  | nil =>
    cases h
    exact hsecond
  | cons time times ih =>
    obtain ⟨second', hpiece, h⟩ := Outcome.bind_ok_iff.mp h
    exact ih (addPiece_lt hsecond hpiece) h

theorem addPiece_exact {time : List Char} {v : Nat} (h : pieceValue i time = some v)
    (hv : second + v < 2 ^ 64) :
    addPiece checked second i time = (.ok (second + v) : Outcome ε Nat) := by
  have hread : weight i ≠ 0 → ∃ t, unsigned 64 time = some t ∧ weight i * t = v := by
    intro hweight
    rw [pieceValue, if_neg hweight] at h
    obtain ⟨t, ht, rfl⟩ := Option.map_eq_some_iff.mp h
    have hle : t ≤ weight i * t := Nat.le_mul_of_pos_left t (Nat.pos_of_ne_zero hweight)
    exact ⟨t, unsigned_of_natural ht (by omega), rfl⟩
  have hsum : ∀ seconds, seconds = v → (u64 checked (seconds : Int) >>= fun seconds =>
      u64 checked ((second + seconds : Nat) : Int) : Outcome ε Nat) = .ok (second + v) := by
    rintro seconds rfl
    rw [u64_of_nat (by omega), Outcome.ok_bind, u64_of_nat hv]
  rw [addPiece]
  by_cases hsmall : i % 2 ^ 32 ≤ 2
  · have hweight : weight i = 60 ^ (i % 2 ^ 32) := if_pos hsmall
    obtain ⟨t, ht, hv⟩ := hread (by rw [hweight]; positivity)
    rw [if_pos hsmall, ht]
    exact hsum _ (hweight ▸ hv)
  · rw [if_neg hsmall]
    by_cases hthree : i % 2 ^ 32 = 3
    · have hweight : weight i = 86400 := by rw [weight, if_neg hsmall, if_pos hthree]
      obtain ⟨t, ht, hv⟩ := hread (by rw [hweight]; decide)
      rw [if_pos hthree, ht]
      exact hsum _ (hweight ▸ hv)
    · have hweight : weight i = 0 := by rw [weight, if_neg hsmall, if_neg hthree]
      rw [pieceValue, if_pos hweight] at h
      cases h
      rw [if_neg hthree, add_zero]

theorem addPieces_exact {times : List (List Char)} {v : Nat} (h : piecesValue i times = some v)
    (hv : second + v < 2 ^ 64) :
    addPieces checked second i times = (.ok (second + v) : Outcome ε Nat) := by
  induction times generalizing second i v with
  | nil =>
    cases h
    rfl
  | cons time times ih =>
    obtain ⟨first, hfirst, h⟩ := Option.bind_eq_some_iff.mp h
    obtain ⟨rest, hrest, rfl⟩ := Option.map_eq_some_iff.mp h
    rw [addPieces, addPiece_exact hfirst (by omega), Outcome.ok_bind, ih hrest (by omega),
      Nat.add_assoc]

theorem parseDuration_lt (h : parseDuration checked text = (.ok n : Outcome ε Nat)) :
    n < 2 ^ 64 := addPieces_lt (Nat.two_pow_pos 64) h

theorem parseDuration_exact (h : durationValue text = some n) (hn : n < 2 ^ 64) :
    parseDuration checked text = (.ok n : Outcome ε Nat) := by
  rw [parseDuration, addPieces_exact h (by omega), Nat.zero_add]

end

namespace Sinfo

variable {checked : Bool}

theorem NodeTotal.of_lt {record : CsvNodeTotal} {node : NodeTotal}
    (h : NodeTotal.of checked record = .ok node) : node.memory < 2 ^ 64 := by
  obtain ⟨memory, hmemory, h⟩ := Outcome.bind_ok_iff.mp h
  cases h
  exact times_lt record.memory.toNat_lt hmemory

theorem NodeAlloc.of_lt {record : CsvNodeAlloc} {node : NodeAlloc}
    (h : NodeAlloc.of checked record = .ok node) : node.allocMemory < 2 ^ 64 := by
  obtain ⟨used, hused, h⟩ := Outcome.bind_ok_iff.mp h
  obtain ⟨memory, hmemory, h⟩ := Outcome.bind_ok_iff.mp h
  obtain ⟨cpus, -, h⟩ := Outcome.bind_ok_iff.mp h
  cases h
  exact times_lt (u64_lt hused) hmemory

theorem NodeTotal.new_lt {records : List (Except String CsvNodeTotal)} {nodes : List NodeTotal}
    (h : NodeTotal.new checked records = .ok nodes) : ∀ n ∈ nodes, n.memory < 2 ^ 64 := by
  intro n hn
  obtain ⟨_, -, hof⟩ := Outcome.mapEach_mem h hn
  obtain ⟨_, -, hof⟩ := Outcome.bind_ok_iff.mp hof
  exact NodeTotal.of_lt hof

theorem NodeAlloc.new_lt {records : List (Except String CsvNodeAlloc)} {nodes : List NodeAlloc}
    (h : NodeAlloc.new checked records = .ok nodes) : ∀ n ∈ nodes, n.allocMemory < 2 ^ 64 := by
  intro n hn
  obtain ⟨_, -, hof⟩ := Outcome.mapEach_mem h hn
  obtain ⟨_, -, hof⟩ := Outcome.bind_ok_iff.mp hof
  exact NodeAlloc.of_lt hof

theorem total_lt {nodes : List NodeTotal} {sum : NodeTotal} (h : total checked nodes = .ok sum) :
    sum.memory < 2 ^ 64 ∧ sum.cpus < 2 ^ 64 := by
  refine Outcome.foldEach_keeps (P := fun acc => acc.memory < 2 ^ 64 ∧ acc.cpus < 2 ^ 64)
    ⟨Nat.two_pow_pos 64, Nat.two_pow_pos 64⟩ (fun n _ acc acc' _ hadd => ?_) h
  obtain ⟨cpus, hcpus, hadd⟩ := Outcome.bind_ok_iff.mp hadd
  obtain ⟨memory, hmemory, hadd⟩ := Outcome.bind_ok_iff.mp hadd
  cases hadd
  exact ⟨u64_lt hmemory, u64_lt hcpus⟩

theorem alloc_lt {nodes : List NodeAlloc} {sum : NodeAllocSum}
    (h : alloc checked nodes = .ok sum) : sum.allocMemory < 2 ^ 64 ∧ sum.allocCpus < 2 ^ 64 := by
  refine Outcome.foldEach_keeps
    (P := fun acc : NodeAllocSum => acc.allocMemory < 2 ^ 64 ∧ acc.allocCpus < 2 ^ 64)
    ⟨Nat.two_pow_pos 64, Nat.two_pow_pos 64⟩ (fun n _ acc acc' _ hadd => ?_) h
  obtain ⟨memory, hmemory, hadd⟩ := Outcome.bind_ok_iff.mp hadd
  obtain ⟨cpus, hcpus, hadd⟩ := Outcome.bind_ok_iff.mp hadd
  cases hadd
  exact ⟨u64_lt hmemory, u64_lt hcpus⟩

def NodeTotal.exact (record : CsvNodeTotal) : NodeTotal :=
  ⟨record.memory.toNat * 1024 ^ 2, record.cpus.toNat⟩

theorem NodeTotal.new_exact {records : List CsvNodeTotal}
    (h : ∀ r ∈ records, r.memory.toNat * 1024 ^ 2 < 2 ^ 64) :
    NodeTotal.new checked (records.map .ok) = .ok (records.map NodeTotal.exact) := by
  have heach : ∀ record ∈ records.map (Except.ok (ε := String)),
      (Outcome.ofExcept record >>= NodeTotal.of checked) =
        .ok ((record.toOption.map NodeTotal.exact).getD {}) := by
    intro record hrecord
    obtain ⟨r, hr, rfl⟩ := List.mem_map.mp hrecord
    rw [Outcome.ofExcept, Outcome.ok_bind, NodeTotal.of, deserializeMemory, times_exact (h r hr)]
    rfl
  rw [NodeTotal.new, Outcome.mapEach_eq_map heach, List.map_map]
  rfl

theorem total_exact {nodes : List NodeTotal} {acc : NodeTotal}
    (hmemory : acc.memory + (nodes.map NodeTotal.memory).sum < 2 ^ 64)
    (hcpus : acc.cpus + (nodes.map NodeTotal.cpus).sum < 2 ^ 64) :
    Outcome.foldEach (NodeTotal.add checked) acc nodes =
      .ok ⟨acc.memory + (nodes.map NodeTotal.memory).sum, acc.cpus + (nodes.map NodeTotal.cpus).sum⟩ := by
  induction nodes generalizing acc with
  | nil => rfl
  | cons n nodes ih =>
    rw [List.map_cons, List.sum_cons, ← Nat.add_assoc] at hmemory hcpus
    have hadd : NodeTotal.add checked acc n = .ok ⟨acc.memory + n.memory, acc.cpus + n.cpus⟩ := by
      rw [NodeTotal.add, u64_of_nat (by omega), Outcome.ok_bind, u64_of_nat (by omega)]
      rfl
    rw [Outcome.foldEach, hadd, Outcome.ok_bind, ih hmemory hcpus]
    simp only [List.map_cons, List.sum_cons, Nat.add_assoc]

theorem NodeAlloc.of_exact {record : CsvNodeAlloc} {cpus : Nat}
    (hcpus : allocated record.cpus = some cpus)
    (h : InU64 (mib ((record.memory.toNat : Int) - record.freeMem.toNat))) :
    ∃ node, NodeAlloc.of checked record = .ok node ∧ node.allocCpus = cpus ∧
      (node.allocMemory : Int) = mib ((record.memory.toNat : Int) - record.freeMem.toNat) := by
  rw [InU64, mib] at h
  have hle : record.freeMem.toNat ≤ record.memory.toNat := by omega
  have hfit : (record.memory.toNat - record.freeMem.toNat) * 1024 ^ 2 < 2 ^ 64 := by omega
  refine ⟨⟨(record.memory.toNat - record.freeMem.toNat) * 1024 ^ 2, cpus⟩, ?_, rfl, ?_⟩
  · rw [NodeAlloc.of, u64_sub hle record.memory.toNat_lt, Outcome.ok_bind, times_exact hfit,
      Outcome.ok_bind, hcpus]
    rfl
  · change (((record.memory.toNat - record.freeMem.toNat) * 1024 ^ 2 : Nat) : Int) = _
    rw [mib]
    omega

theorem NodeAlloc.new_exact {records : List CsvNodeAlloc} {cpus : List Nat}
    (hcpus : (records.mapM fun r => allocated r.cpus) = some cpus)
    (h : ∀ r ∈ records, InU64 (mib ((r.memory.toNat : Int) - r.freeMem.toNat))) :
    ∃ nodes, NodeAlloc.new checked (records.map .ok) = .ok nodes ∧
      nodes.map NodeAlloc.allocCpus = cpus ∧
      nodes.map (fun n => (n.allocMemory : Int)) =
        records.map fun r => mib ((r.memory.toNat : Int) - r.freeMem.toNat) := by
  induction records generalizing cpus with
  | nil =>
    cases hcpus
    exact ⟨[], rfl, rfl, rfl⟩
  | cons r records ih =>
    rw [List.mapM_cons] at hcpus
    obtain ⟨c, hc, hcpus⟩ := Option.bind_eq_some_iff.mp hcpus
    obtain ⟨cs, hcs, hcpus⟩ := Option.bind_eq_some_iff.mp hcpus
    cases hcpus
    obtain ⟨node, hof, hnode, hmemory⟩ := @NodeAlloc.of_exact checked _ _ hc
      (h r List.mem_cons_self)
    obtain ⟨nodes, hnew, hnodes, hmemories⟩ := ih hcs fun r' hr' =>
      h r' (List.mem_cons_of_mem r hr')
    refine ⟨node :: nodes, ?_, ?_, ?_⟩
    · exact Outcome.mapEach_cons_ok_iff.mpr ⟨node, nodes, hof, hnew, rfl⟩
    · rw [List.map_cons, hnode, hnodes]
    · rw [List.map_cons, List.map_cons, hmemory, hmemories]

theorem alloc_exact {nodes : List NodeAlloc} {acc : NodeAllocSum}
    (hmemory : acc.allocMemory + (nodes.map NodeAlloc.allocMemory).sum < 2 ^ 64)
    (hcpus : acc.allocCpus + (nodes.map NodeAlloc.allocCpus).sum < 2 ^ 64) :
    ∃ sum, Outcome.foldEach (NodeAllocSum.add checked) acc nodes = .ok sum ∧
      sum.allocMemory = acc.allocMemory + (nodes.map NodeAlloc.allocMemory).sum ∧
      sum.allocCpus = acc.allocCpus + (nodes.map NodeAlloc.allocCpus).sum := by
  induction nodes generalizing acc with
  | nil => exact ⟨acc, rfl, rfl, rfl⟩
  | cons n nodes ih =>
    rw [List.map_cons, List.sum_cons, ← Nat.add_assoc] at hmemory hcpus
    let acc' : NodeAllocSum := ⟨acc.allocMemory + n.allocMemory, acc.allocCpus + n.allocCpus,
      if 0 < n.allocCpus then acc.allocNodes + 1 else acc.allocNodes⟩
    have hadd : NodeAllocSum.add checked acc n = .ok acc' := by
      rw [NodeAllocSum.add, u64_of_nat (by omega), Outcome.ok_bind, u64_of_nat (by omega)]
      rfl
    obtain ⟨sum, hsum, hm, hc⟩ := @ih acc' hmemory hcpus
    refine ⟨sum, ?_, ?_, ?_⟩
    · rw [Outcome.foldEach, hadd, Outcome.ok_bind, hsum]
    · rw [hm, List.map_cons, List.sum_cons, Nat.add_assoc]
    · rw [hc, List.map_cons, List.sum_cons, Nat.add_assoc]

end Sinfo

section

variable {checked : Bool} {classes : Classes} {source : Source} {values : List Int}

theorem Stat.parseTotalStorage_ok_iff {s : List Char} {n : Nat} :
    Stat.parseTotalStorage checked s = (.ok (some n) : Outcome String (Option Nat)) ↔
      ∃ p, Stat.totalNumbers s = some p ∧
        (u64 checked ((p.1 * p.2 : Nat) : Int) : Outcome String Nat) = .ok n := by
  rw [Stat.parseTotalStorage]
  cases Stat.totalNumbers s with
  | none => simp
  | some p => simp [Outcome.bind_ok_iff]

theorem Stat.parseUsedStorage_ok_iff {s : List Char} {n : Nat} :
    Stat.parseUsedStorage checked s = (.ok (some n) : Outcome String (Option Nat)) ↔
      ∃ p, Stat.usedNumbers s = some p ∧ ∃ used,
        (u64 checked ((p.2.1 : Int) - p.2.2) : Outcome String Nat) = .ok used ∧
        (u64 checked ((p.1 * used : Nat) : Int) : Outcome String Nat) = .ok n := by
  rw [Stat.parseUsedStorage]
  cases Stat.usedNumbers s with
  | none => simp
  | some p => simp [Outcome.bind_ok_iff]

theorem Source.converted_lt {nats : List Nat} (h : source.converted checked classes = .ok nats) :
    ∀ n ∈ nats, n < 2 ^ 64 := by
  cases source with
  | memory text =>
    obtain ⟨size, hsize, h⟩ := Outcome.bind_ok_iff.mp h
    cases h
    exact List.forall_mem_singleton.mpr (parseMemory_lt hsize)
  | duration text =>
    obtain ⟨seconds, hseconds, h⟩ := Outcome.bind_ok_iff.mp h
    cases h
    exact List.forall_mem_singleton.mpr (parseDuration_lt hseconds)
  | total records =>
    obtain ⟨nodes, hnodes, h⟩ := Outcome.bind_ok_iff.mp h
    obtain ⟨sum, hsum, h⟩ := Outcome.bind_ok_iff.mp h
    cases h
    have hlt := Sinfo.total_lt hsum
    rw [List.forall_mem_append, List.forall_mem_map, List.forall_mem_cons,
      List.forall_mem_singleton]
    exact ⟨Sinfo.NodeTotal.new_lt hnodes, hlt.1, hlt.2⟩
  | alloc records =>
    obtain ⟨nodes, hnodes, h⟩ := Outcome.bind_ok_iff.mp h
    obtain ⟨sum, hsum, h⟩ := Outcome.bind_ok_iff.mp h
    cases h
    have hlt := Sinfo.alloc_lt hsum
    rw [List.forall_mem_append, List.forall_mem_map, List.forall_mem_cons,
      List.forall_mem_singleton]
    exact ⟨Sinfo.NodeAlloc.new_lt hnodes, hlt.1, hlt.2⟩
  | totalStorage text =>
    obtain ⟨size, hsize, h⟩ := Outcome.bind_ok_iff.mp h
    obtain ⟨n, hn, h⟩ := Outcome.bind_ok_iff.mp h
    cases h
    cases Outcome.okOr_ok_iff.mp hn
    obtain ⟨_, -, hsize⟩ := Stat.parseTotalStorage_ok_iff.mp hsize
    exact List.forall_mem_singleton.mpr (u64_lt hsize)
  | usedStorage text =>
    obtain ⟨size, hsize, h⟩ := Outcome.bind_ok_iff.mp h
    obtain ⟨n, hn, h⟩ := Outcome.bind_ok_iff.mp h
    cases h
    cases Outcome.okOr_ok_iff.mp hn
    obtain ⟨_, -, _, -, hsize⟩ := Stat.parseUsedStorage_ok_iff.mp hsize
    exact List.forall_mem_singleton.mpr (u64_lt hsize)

theorem mib_natCast (n : Nat) : mib n = ((n * 1024 ^ 2 : Nat) : Int) := by
  rw [mib]
  push_cast
  rfl

theorem converted_total {records : List Sinfo.CsvNodeTotal}
    (hvalues : (Source.total records).values classes = some values) (h : ∀ v ∈ values, InU64 v) :
    ∃ nats, (Source.total records).converted checked classes = .ok nats ∧
      nats.map (fun n : Nat => (n : Int)) = values := by
  cases hvalues
  rw [List.forall_mem_append, List.forall_mem_map, List.forall_mem_cons,
    List.forall_mem_singleton] at h
  obtain ⟨heach, hmemory, hcpus⟩ := h
  have hlist : (records.map fun r => mib r.memory.toNat) =
      ((records.map Sinfo.NodeTotal.exact).map Sinfo.NodeTotal.memory).map fun n : Nat => (n : Int) := by
    rw [List.map_map, List.map_map]
    exact List.map_congr_left fun r _ => mib_natCast r.memory.toNat
  have hlistCpus : (records.map fun r => (r.cpus.toNat : Int)) =
      ((records.map Sinfo.NodeTotal.exact).map Sinfo.NodeTotal.cpus).map fun n : Nat => (n : Int) := by
    rw [List.map_map, List.map_map]
    rfl
  rw [hlist, ← Nat.cast_list_sum, inU64_natCast] at hmemory
  rw [hlistCpus, ← Nat.cast_list_sum, inU64_natCast] at hcpus
  have hnew := @Sinfo.NodeTotal.new_exact checked _ fun r hr =>
    inU64_natCast.mp (mib_natCast r.memory.toNat ▸ heach r hr)
  have hsum := @Sinfo.total_exact checked (records.map Sinfo.NodeTotal.exact) {}
    (by rwa [Nat.zero_add]) (by rwa [Nat.zero_add])
  rw [Nat.zero_add, Nat.zero_add] at hsum
  refine ⟨(records.map Sinfo.NodeTotal.exact).map Sinfo.NodeTotal.memory ++
    [((records.map Sinfo.NodeTotal.exact).map Sinfo.NodeTotal.memory).sum,
      ((records.map Sinfo.NodeTotal.exact).map Sinfo.NodeTotal.cpus).sum], ?_, ?_⟩
  · rw [Source.converted, hnew, Outcome.ok_bind, Sinfo.total, hsum, Outcome.ok_bind]
  · simp only [List.map_append, List.map_cons, List.map_nil, Nat.cast_list_sum, hlist, hlistCpus]

theorem converted_alloc {records : List Sinfo.CsvNodeAlloc}
    (hvalues : (Source.alloc records).values classes = some values) (h : ∀ v ∈ values, InU64 v) :
    ∃ nats, (Source.alloc records).converted checked classes = .ok nats ∧
      nats.map (fun n : Nat => (n : Int)) = values := by
  obtain ⟨cpus, hcpus, rfl⟩ := Option.map_eq_some_iff.mp hvalues
  rw [List.forall_mem_append, List.forall_mem_map, List.forall_mem_cons,
    List.forall_mem_singleton] at h
  obtain ⟨heach, hmemory, hsum⟩ := h
  obtain ⟨nodes, hnew, rfl, hmemories⟩ := @Sinfo.NodeAlloc.new_exact checked _ _ hcpus heach
  have hlist : (nodes.map Sinfo.NodeAlloc.allocMemory).map (fun n : Nat => (n : Int)) =
      records.map fun r => mib ((r.memory.toNat : Int) - r.freeMem.toNat) := by
    rw [List.map_map, ← hmemories]
    rfl
  rw [← hlist, ← Nat.cast_list_sum, inU64_natCast] at hmemory
  rw [inU64_natCast] at hsum
  obtain ⟨sum, halloc, hm, hc⟩ := @Sinfo.alloc_exact checked nodes {}
    (by rwa [Nat.zero_add]) (by rwa [Nat.zero_add])
  rw [Nat.zero_add] at hm hc
  refine ⟨nodes.map Sinfo.NodeAlloc.allocMemory ++ [sum.allocMemory, sum.allocCpus], ?_, ?_⟩
  · rw [Source.converted, hnew, Outcome.ok_bind, Sinfo.alloc, halloc, Outcome.ok_bind]
  · simp only [List.map_append, List.map_cons, List.map_nil, hm, hc, Nat.cast_list_sum, hlist]

theorem converted_totalStorage {text : List Char}
    (hvalues : (Source.totalStorage text).values classes = some values)
    (h : ∀ v ∈ values, InU64 v) :
    ∃ nats, (Source.totalStorage text).converted checked classes = .ok nats ∧
      nats.map (fun n : Nat => (n : Int)) = values := by
  obtain ⟨p, hp, rfl⟩ := Option.map_eq_some_iff.mp hvalues
  have hfit := List.forall_mem_singleton.mp h
  rw [← Nat.cast_mul, inU64_natCast] at hfit
  have hsize : Stat.parseTotalStorage checked text =
      (.ok (some (p.1 * p.2)) : Outcome String (Option Nat)) :=
    Stat.parseTotalStorage_ok_iff.mpr ⟨p, hp, u64_of_nat hfit⟩
  refine ⟨[p.1 * p.2], ?_, ?_⟩
  · rw [Source.converted, hsize]
    rfl
  · rw [List.map_singleton, Nat.cast_mul]

theorem usedNumbers_lt {s : List Char} {p : Nat × Nat × Nat} (h : Stat.usedNumbers s = some p) :
    p.1 < 2 ^ 64 ∧ p.2.1 < 2 ^ 64 ∧ p.2.2 < 2 ^ 64 := by
  obtain ⟨_, -, h⟩ := Option.bind_eq_some_iff.mp h
  obtain ⟨_, -, h⟩ := Option.bind_eq_some_iff.mp h
  obtain ⟨frsize, hfrsize, h⟩ := Option.bind_eq_some_iff.mp h
  obtain ⟨blocks, hblocks, h⟩ := Option.bind_eq_some_iff.mp h
  obtain ⟨bfree, hbfree, h⟩ := Option.bind_eq_some_iff.mp h
  cases h
  exact ⟨unsigned_lt hfrsize, unsigned_lt hblocks, unsigned_lt hbfree⟩

theorem converted_usedStorage {text : List Char}
    (hvalues : (Source.usedStorage text).values classes = some values)
    (h : ∀ v ∈ values, InU64 v) (hspare : checked = true → (Source.usedStorage text).Spare) :
    ∃ nats, (Source.usedStorage text).converted checked classes = .ok nats ∧
      nats.map (fun n : Nat => (n : Int)) = values := by
  obtain ⟨⟨frsize, blocks, bfree⟩, hp, rfl⟩ := Option.map_eq_some_iff.mp hvalues
  have hfit := List.forall_mem_singleton.mp h
  have hlt := usedNumbers_lt hp
  have hsize : ∃ used n, (u64 checked ((blocks : Int) - bfree) : Outcome String Nat) = .ok used ∧
      (u64 checked ((frsize * used : Nat) : Int) : Outcome String Nat) = .ok n ∧
      (n : Int) = frsize * ((blocks : Int) - bfree) := by
    by_cases hle : bfree ≤ blocks
    · have hcast : (frsize : Int) * ((blocks : Int) - bfree) = ((frsize * (blocks - bfree) : Nat) : Int) := by
        rw [Nat.cast_mul, Nat.cast_sub hle]
      rw [hcast, inU64_natCast] at hfit
      exact ⟨blocks - bfree, frsize * (blocks - bfree), u64_sub hle hlt.2.1, u64_of_nat hfit,
        hcast.symm⟩
    · have hzero : frsize = 0 := by
        by_contra hne
        have hneg : (frsize : Int) * ((blocks : Int) - bfree) < 0 :=
          mul_neg_of_pos_of_neg (by omega) (by omega)
        exact absurd hfit.1 (not_le.mpr hneg)
      cases checked with
      | true => exact absurd (hspare rfl _ hp) hle
      | false =>
        refine ⟨_, 0, by rw [u64, if_neg fun h => hle (by omega)]; rfl, ?_, ?_⟩
        · rw [hzero, Nat.zero_mul]
          exact u64_of_nat (Nat.two_pow_pos 64)
        · rw [hzero]
          exact (Int.zero_mul _).symm
  obtain ⟨used, n, hused, hn, hexact⟩ := hsize
  have hparse : Stat.parseUsedStorage checked text =
      (.ok (some n) : Outcome String (Option Nat)) :=
    Stat.parseUsedStorage_ok_iff.mpr ⟨_, hp, used, hused, hn⟩
  refine ⟨[n], ?_, ?_⟩
  · rw [Source.converted, hparse]
    rfl
  · rw [List.map_singleton, hexact]

theorem Source.converted_spare {nats : List Nat}
    (h : source.converted true classes = .ok nats) : source.Spare := by
  cases source with
  | usedStorage text =>
    obtain ⟨size, hsize, h⟩ := Outcome.bind_ok_iff.mp h
    obtain ⟨n, hn, -⟩ := Outcome.bind_ok_iff.mp h
    cases Outcome.okOr_ok_iff.mp hn
    obtain ⟨p, hp, used, hused, -⟩ := Stat.parseUsedStorage_ok_iff.mp hsize
    intro q hq
    cases hp.symm.trans hq
    have heq := (u64_true_ok_iff.mp hused).1
    omega
  | _ => trivial

theorem Source.converted_exact (hvalues : source.values classes = some values)
    (h : ∀ v ∈ values, InU64 v) (hspare : checked = true → source.Spare) :
    ∃ nats, source.converted checked classes = .ok nats ∧
      nats.map (fun n : Nat => (n : Int)) = values := by
  cases source with
  | memory text =>
    obtain ⟨n, hn, rfl⟩ := Option.map_eq_some_iff.mp hvalues
    have hfit := inU64_natCast.mp (List.forall_mem_singleton.mp h)
    exact ⟨[n], by rw [Source.converted, parseMemory_exact hn hfit]; rfl, rfl⟩
  | duration text =>
    obtain ⟨n, hn, rfl⟩ := Option.map_eq_some_iff.mp hvalues
    have hfit := inU64_natCast.mp (List.forall_mem_singleton.mp h)
    exact ⟨[n], by rw [Source.converted, parseDuration_exact hn hfit]; rfl, rfl⟩
  | total records => exact converted_total hvalues h
  | alloc records => exact converted_alloc hvalues h
  | totalStorage text => exact converted_totalStorage hvalues h
  | usedStorage text => exact converted_usedStorage hvalues h hspare

-- What an accepted output holds comes out exactly, if and only if it fits.
theorem Source.converted_exact_iff (checked : Bool) (classes : Classes) (source : Source)
    (values : List Int) (h : source.values classes = some values) :
    (∃ nats, source.converted checked classes = .ok nats ∧
        nats.map (fun n : Nat => (n : Int)) = values) ↔
      (∀ v ∈ values, InU64 v) ∧ (checked = true → source.Spare) := by
  constructor
  · rintro ⟨nats, hnats, rfl⟩
    refine ⟨List.forall_mem_map.mpr fun n hn => inU64_natCast.mpr (converted_lt hnats n hn), ?_⟩
    rintro rfl
    exact converted_spare hnats
  · rintro ⟨hfit, hspare⟩
    exact converted_exact h hfit hspare

def ascii : Classes := ⟨Char.isDigit, Char.isAlpha⟩

theorem Source.converted_exact_used :
    ∃ nats, (Source.usedStorage "4096 114010190 51605000\n".toList).converted true ascii = .ok nats ∧
      nats.map (fun n : Nat => (n : Int)) = [255611658240] := by
  refine (Source.converted_exact_iff true ascii _ [255611658240] (by decide +kernel)).mpr
    ⟨?_, fun _ p hp => ?_⟩
  · rintro v hv
    cases List.mem_singleton.mp hv
    exact ⟨by decide, by decide⟩
  · have hnumbers : Stat.usedNumbers "4096 114010190 51605000\n".toList =
        some (4096, 114010190, 51605000) := by decide +kernel
    cases hp.symm.trans hnumbers
    decide

-- The free memory that the system measures exceeds the memory that is configured.
theorem Source.converted_wrong :
    (Source.alloc [⟨100, 200, "0/8/0/8".toList⟩]).values ascii =
        some [-104857600, -104857600, 0] ∧
      (Source.alloc [⟨100, 200, "0/8/0/8".toList⟩]).converted true ascii = .panic ∧
      (Source.alloc [⟨100, 200, "0/8/0/8".toList⟩]).converted false ascii =
        .ok [18446744073604694016, 18446744073604694016, 0] := by
  decide +kernel

end

end Kuintessence.Agent
