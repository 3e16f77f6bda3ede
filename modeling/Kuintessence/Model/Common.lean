import Kuintessence.Lib.Outcome
import Mathlib.Algebra.Ring.Int.Defs
import Mathlib.Algebra.Ring.Nat

namespace Kuintessence

abbrev Uuid := Nat

def usizeMax : Nat := 2 ^ 64 - 1

def isizeMax : Nat := 2 ^ 63 - 1

structure RVec (α : Type) where
  toList : List α
  len_le : toList.length ≤ isizeMax := by decide
  deriving DecidableEq, Repr

def RVec.single {α : Type} (a : α) : RVec α := ⟨[a], by simp [isizeMax]⟩

inductive SchedulingStrategy where
  | manual (clusters : List Uuid)
  | auto
  | prefer (clusters : List Uuid)
  deriving DecidableEq, Repr

inductive TransferStrategy where
  | network
  | disk
  deriving DecidableEq, Repr

structure SlotRelation where
  fromSlot : String
  toSlot : String
  transferStrategy : TransferStrategy := .network
  deriving DecidableEq, Repr

structure NodeRelation where
  fromId : Uuid
  toId : Uuid
  slotRelations : List SlotRelation
  deriving DecidableEq, Repr

inductive Filler where
  | autoNumber (start step : Int32)
  | enumeration (items : List String)
  deriving DecidableEq, Repr

inductive BatchStrategyKind where
  | originalBatch
  | matchRegex (regexToMatch : String) (fillCount : Nat) (filler : Filler)
  | fromBatchOutputs
  deriving DecidableEq, Repr

structure BatchStrategy where
  inputSlotDescriptor : String
  renamingPattern : Option String
  kind : BatchStrategyKind
  deriving DecidableEq, Repr

structure FileInput where
  fileMetadataId : Uuid
  fileMetadataName : String := ""
  hash : String := ""
  size : Nat := 0
  deriving DecidableEq, Repr

inductive Input where
  | text (key : Uuid)
  | file (input : FileInput)
  deriving DecidableEq, Repr

inductive NodeInputSlotKind where
  | text (contents : Option (RVec Uuid))
  | file (contents : Option (RVec FileInput)) (expectedFileName : Option String) (isBatch : Bool)
  | unknown
  deriving DecidableEq, Repr

structure NodeInputSlot where
  kind : NodeInputSlotKind
  optional : Bool := false
  descriptor : String
  deriving DecidableEq, Repr

inductive FileOutOrigin where
  | collectedOut
  | usecaseOut
  deriving DecidableEq, Repr

inductive NodeKind where
  | softwareUsecaseComputing (usecaseVersionId softwareVersionId : Uuid)
  | noAction
  | script
  | milestone (name url customMessage : String)
  deriving DecidableEq, Repr

inductive NodeInstanceKind where
  | softwareUsecaseComputing
  | noAction
  | script
  | milestone
  deriving DecidableEq, Repr

def NodeInstanceKind.from : NodeKind → NodeInstanceKind
  | .softwareUsecaseComputing _ _ => .softwareUsecaseComputing
  | .noAction => .noAction
  | .script => .script
  | .milestone _ _ _ => .milestone

variable {ε : Type}

namespace NodeInputSlot

def inputsCount (s : NodeInputSlot) : Outcome ε Nat :=
  match s.kind with
  | .text contents => .unwrap contents >>= fun c => .ok c.toList.length
  | .file contents _ _ => .unwrap contents >>= fun c => .ok c.toList.length
  | .unknown => .panic

def inputs (s : NodeInputSlot) : Outcome ε (List Input) :=
  match s.kind with
  | .text contents => .unwrap contents >>= fun c => .ok (c.toList.map Input.text)
  | .file contents _ _ => .unwrap contents >>= fun c => .ok (c.toList.map Input.file)
  | .unknown => .panic

end NodeInputSlot

-- `str::replace`: `skip` counts the characters of a match that are still to be passed over.
def replaceFrom (pat new : List Char) : Nat → List Char → List Char
  | _, [] => if pat = [] then new else []
  | skip + 1, _ :: cs => replaceFrom pat new skip cs
  | 0, c :: cs =>
    if pat = [] then new ++ c :: replaceFrom pat new 0 cs
    else if pat <+: c :: cs then new ++ replaceFrom pat new (pat.length - 1) cs
    else c :: replaceFrom pat new 0 cs

def replace (s pat new : String) : String :=
  String.ofList (replaceFrom pat.toList new.toList 0 s.toList)

def checkedAddI32 (a b : Int32) : Outcome ε Int32 :=
  if -2 ^ 31 ≤ a.toInt + b.toInt ∧ a.toInt + b.toInt < 2 ^ 31 then .ok (a + b) else .panic

namespace Filler

def fillAutoNumber (content regexToMatch : String) (step : Int32) :
    Nat → Int32 → Outcome ε (List String)
  | 0, _ => .ok []
  | n + 1, current => do
    let next ← checkedAddI32 current step
    let texts ← fillAutoNumber content regexToMatch step n next
    .ok (replace content regexToMatch (toString current.toInt) :: texts)

-- `gen_range(0..len)` panics on the empty range.
def fillEnumeration (content regexToMatch : String) (items : List String) (random : Nat → Nat) :
    Nat → Outcome ε (List String)
  | 0 => .ok []
  | n + 1 => do
    let item ← .unwrap items[random n % items.length]?
    let texts ← fillEnumeration content regexToMatch items random n
    .ok (replace content regexToMatch item :: texts)

def fillMatchRegex (random : Nat → Nat) (content regexToMatch : String) (fillCount : Nat) :
    Filler → Outcome ε (List String)
  | .autoNumber start step => fillAutoNumber content regexToMatch step fillCount start
  | .enumeration items => fillEnumeration content regexToMatch items random fillCount

end Filler

-- The bitwise complement of a `usize`.
def usizeNot (n : Nat) : Nat := usizeMax - n

theorem RVec.one_le_usizeNot {α : Type} (v : RVec α) : 1 ≤ usizeNot v.toList.length := by
  have h := v.len_le
  unfold usizeNot usizeMax
  unfold isizeMax at h
  omega

theorem NodeInputSlot.one_le_usizeNot {s : NodeInputSlot} {n : Nat}
    (h : (s.inputsCount : Outcome ε Nat) = .ok n) : 1 ≤ usizeNot n := by
  cases hk : s.kind with
  | text contents =>
    simp only [inputsCount, hk, Outcome.bind_ok_iff, Outcome.ok.injEq] at h
    obtain ⟨c, -, rfl⟩ := h
    exact c.one_le_usizeNot
  | file contents _ _ =>
    simp only [inputsCount, hk, Outcome.bind_ok_iff, Outcome.ok.injEq] at h
    obtain ⟨c, -, rfl⟩ := h
    exact c.one_le_usizeNot
  | unknown => simp [inputsCount, hk] at h

end Kuintessence
