import Kuintessence.Lib.Assoc
import Mathlib.Algebra.Ring.Int.Defs
import Mathlib.Data.List.Basic

namespace Kuintessence

inductive Json where
  | null
  | bool (b : Bool)
  | num (n : Int)
  | str (s : String)
  | arr (items : List Json)
  | obj (entries : List (String × Json))

namespace Json

variable {α β : Type}

section Writing

def ofUInt64 (n : UInt64) : Json := .num n.toNat

def ofInt64 (n : Int64) : Json := .num n.toInt

def ofOption (write : α → Json) : Option α → Json
  | none => .null
  | some a => write a

def ofList (write : α → Json) (items : List α) : Json := .arr (items.map write)

def ofMap (write : α → Json) (entries : List (String × α)) : Json :=
  .obj (entries.map fun e => (e.1, write e.2))

end Writing

section Reading

def toBool : Json → Option Bool
  | .bool b => some b
  | _ => none

def toStr : Json → Option String
  | .str s => some s
  | _ => none

def toUInt64 : Json → Option UInt64
  | .num n => if 0 ≤ n ∧ n < 2 ^ 64 then some (.ofNat n.toNat) else none
  | _ => none

def toInt64 : Json → Option Int64
  | .num n => if -2 ^ 63 ≤ n ∧ n < 2 ^ 63 then some (.ofInt n) else none
  | _ => none

def toOption (read : Json → Option α) : Json → Option (Option α)
  | .null => some none
  | j => (read j).map some

def readAll (read : Json → Option α) : List Json → Option (List α)
  | [] => some []
  | j :: js => (read j).bind fun a => (readAll read js).map (a :: ·)

def toList (read : Json → Option α) : Json → Option (List α)
  | .arr items => readAll read items
  | _ => none

def readEntries (read : Json → Option α) :
    List (String × α) → List (String × Json) → Option (List (String × α))
  | m, [] => some m
  | m, e :: es => (read e.2).bind fun a => readEntries read (Assoc.insert m e.1 a) es

def toMap (read : Json → Option α) : Json → Option (List (String × α))
  | .obj entries => readEntries read [] entries
  | _ => none

-- An externally tagged variant: its bare name, or an object of its name and content.
def toVariant : Json → Option (String × Json)
  | .str name => some (name, .null)
  | .obj [(name, content)] => some (name, content)
  | _ => none

-- The members of an object whose known ones stand once; the others are passed over.
def toFields (known : List String) : Json → Option (List (String × Json))
  | .obj entries => if ((Assoc.keys entries).filter (· ∈ known)).Nodup then some entries else none
  | _ => none

def toOnlyFields (known : List String) (j : Json) : Option (List (String × Json)) :=
  (toFields known j).bind fun entries =>
    if ∀ k ∈ Assoc.keys entries, k ∈ known then some entries else none

def field (read : Json → Option α) (name : String) (entries : List (String × Json)) : Option α :=
  (Assoc.get entries name).bind read

def optionField (read : Json → Option α) (name : String) (entries : List (String × Json)) :
    Option (Option α) :=
  match Assoc.get entries name with
  | some j => toOption read j
  | none => some none

def defaultField (read : Json → Option α) (default : α) (name : String)
    (entries : List (String × Json)) : Option α :=
  match Assoc.get entries name with
  | some j => read j
  | none => some default

end Reading

section Members

variable {read : Json → Option α}

@[simp] theorem toVariant_str (name : String) : toVariant (.str name) = some (name, .null) := rfl

@[simp] theorem toVariant_tagged (name : String) (content : Json) :
    toVariant (.obj [(name, content)]) = some (name, content) := rfl

@[simp] theorem field_cons (k name : String) (j : Json) (entries : List (String × Json)) :
    field read name ((k, j) :: entries) = if k = name then read j else field read name entries := by
  unfold field
  rw [Assoc.get]
  by_cases h : k = name
  · rw [if_pos h, if_pos h, Option.bind_some]
  · rw [if_neg h, if_neg h]

@[simp] theorem optionField_cons (k name : String) (j : Json) (entries : List (String × Json)) :
    optionField read name ((k, j) :: entries) =
      if k = name then toOption read j else optionField read name entries := by
  unfold optionField
  rw [Assoc.get]
  by_cases h : k = name
  · rw [if_pos h, if_pos h]
  · rw [if_neg h, if_neg h]

@[simp] theorem defaultField_cons (default : α) (k name : String) (j : Json)
    (entries : List (String × Json)) :
    defaultField read default name ((k, j) :: entries) =
      if k = name then read j else defaultField read default name entries := by
  unfold defaultField
  rw [Assoc.get]
  by_cases h : k = name
  · rw [if_pos h, if_pos h]
  · rw [if_neg h, if_neg h]

@[simp] theorem defaultField_nil (default : α) (name : String) :
    defaultField read default name [] = some default := rfl

@[simp] theorem toStr_str (s : String) : toStr (.str s) = some s := rfl

@[simp] theorem toBool_bool (b : Bool) : toBool (.bool b) = some b := rfl

end Members

section RoundTrips

@[simp] theorem toUInt64_ofUInt64 (n : UInt64) : toUInt64 (ofUInt64 n) = some n := by
  have hlt := n.toNat_lt
  have hrange : (0 : Int) ≤ n.toNat ∧ (n.toNat : Int) < 2 ^ 64 := by omega
  rw [ofUInt64, toUInt64, if_pos hrange, Int.toNat_natCast, UInt64.ofNat_toNat]

@[simp] theorem toInt64_ofInt64 (n : Int64) : toInt64 (ofInt64 n) = some n := by
  have hlow := n.le_toInt
  have hhigh := n.toInt_lt
  rw [ofInt64, toInt64, if_pos ⟨hlow, hhigh⟩, Int64.ofInt_toInt]

def Reads (read : Json → Option α) (write : α → Json) : Prop := ∀ a, read (write a) = some a

theorem Reads.list {read : Json → Option α} {write : α → Json} (h : Reads read write) :
    Reads (toList read) (ofList write) := by
  intro items
  rw [ofList, toList]
  induction items with
  | nil => rfl
  | cons a items ih => rw [List.map_cons, readAll, h a, Option.bind_some, ih, Option.map_some]

theorem toOption_of_ne {read : Json → Option α} {j : Json} (h : j ≠ .null) :
    toOption read j = (read j).map some := by
  cases j <;> first | rfl | exact absurd rfl h

theorem Reads.option {read : Json → Option α} {write : α → Json} (h : Reads read write)
    (hnull : read .null = none) : Reads (toOption read) (ofOption write) := by
  intro a
  cases a with
  | none => rfl
  | some a =>
    have hne : write a ≠ .null := by
      intro heq
      have hread := h a
      rw [heq, hnull] at hread
      cases hread
    rw [ofOption, toOption_of_ne hne, h a, Option.map_some]

theorem insert_new {m : List (String × α)} {k : String} (h : k ∉ Assoc.keys m) (a : α) :
    Assoc.insert m k a = m ++ [(k, a)] := by
  induction m with
  | nil => rfl
  | cons e m ih =>
    rw [Assoc.keys_cons, List.mem_cons, not_or] at h
    rw [Assoc.insert, if_neg (Ne.symm h.1), ih h.2, List.cons_append]

theorem toMap_ofMap {read : Json → Option α} {write : α → Json} (h : Reads read write)
    {entries : List (String × α)} (hkeys : (Assoc.keys entries).Nodup) :
    toMap read (ofMap write entries) = some entries := by
  have main : ∀ m, (Assoc.keys (m ++ entries)).Nodup →
      readEntries read m (entries.map fun e => (e.1, write e.2)) = some (m ++ entries) := by
    clear hkeys
    induction entries with
    | nil =>
      intro m _
      rw [List.append_nil]
      rfl
    | cons e entries ih =>
      intro m hm
      have hnew : e.1 ∉ Assoc.keys m := by
        rw [Assoc.keys, List.map_append, List.nodup_append] at hm
        exact fun hin => hm.2.2 e.1 hin e.1 (by simp) rfl
      rw [List.append_cons] at hm ⊢
      rw [List.map_cons, readEntries, h e.2, Option.bind_some, insert_new hnew]
      exact ih _ hm
  exact main [] hkeys

end RoundTrips

end Json

end Kuintessence
