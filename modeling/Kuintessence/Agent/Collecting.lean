import Kuintessence.Agent.Services
import Kuintessence.Lib.Machine
import Mathlib.Data.List.DropRight

namespace Kuintessence.Agent.Collection

def join (texts : List String) : String := "\n".intercalate texts

-- `lines().skip(lines - n).take(n)`
def bottomLines (checked : Bool) (input : String) (n : UInt64) : Outcome String (List String) := do
  let skip ← usizeSub checked (lines input).length n.toNat
  .ok (((lines input).drop skip).take n.toNat)

def topLines (input : String) (n : UInt64) : List String := (lines input).take n.toNat

-- The output of a rule; `checked` is a build that looks for overflows.
def collected (checked : Bool) (regex : String → Option (String → List String)) (input : String) :
    Dto.CollectRule → Outcome String String
  | .regex exp =>
    match regex exp with
    | some captures => .ok (join (captures input))
    | none => .err "regex parse error"
  | .bottomLines n => do
    let texts ← bottomLines checked input n
    .ok (join texts)
  | .topLines n => .ok (join (topLines input n))

theorem collected_checked (regex : String → Option (String → List String)) (input : String)
    (rule : Dto.CollectRule) : collected true regex input rule = collect regex input rule := by
  cases rule with
  | regex exp => rfl
  | bottomLines n =>
    rw [collected, collect, bottomLines]
    by_cases h : n.toNat ≤ (lines input).length
    · rw [if_pos h, usizeSub_of_le h]
      rfl
    · rw [if_neg h, usizeSub_of_gt (Nat.not_le.mp h)]
      rfl
  | topLines n => rfl

-- Both rules, in every build, and the whole text from the two of them.
structure Collects (input : String) (n : UInt64) : Prop where
  bottom : ∀ checked regex, collected checked regex input (.bottomLines n) =
    .ok (join ((lines input).rtake (min n.toNat (lines input).length)))
  top : ∀ checked regex, collected checked regex input (.topLines n) =
    .ok (join ((lines input).take (min n.toNat (lines input).length)))
  rest : n.toNat ≤ (lines input).length → ∀ m : UInt64,
    m.toNat = (lines input).length - n.toNat → ∀ checked, ∃ bottom,
      bottomLines checked input m = .ok bottom ∧ topLines input n ++ bottom = lines input

section

variable {checked : Bool} {input : String} {n : UInt64}

theorem bottomLines_of_le (h : n.toNat ≤ (lines input).length) : bottomLines checked input n =
    .ok ((lines input).drop ((lines input).length - n.toNat)) := by
  rw [bottomLines, usizeSub_of_le h, Outcome.ok_bind, List.take_of_length_le]
  rw [List.length_drop, Nat.sub_sub_self h]

-- A release build goes past the end of the text.
theorem bottomLines_of_gt (h : (lines input).length < n.toNat) :
    bottomLines false input n = .ok [] := by
  have hn : n.toNat < 2 ^ 64 := UInt64.toNat_lt n
  rw [bottomLines, usizeSub, if_neg (Nat.not_le.mpr h), if_neg Bool.false_ne_true, Outcome.ok_bind,
    List.drop_eq_nil_of_le (by omega), List.take_nil]

theorem Collects.le (h : Collects input n) : n.toNat ≤ (lines input).length := by
  by_contra hgt
  have hbottom := h.bottom true fun _ => none
  rw [collected, bottomLines, usizeSub_of_gt (Nat.not_le.mp hgt)] at hbottom
  cases hbottom

theorem collects_of_le (h : n.toNat ≤ (lines input).length) : Collects input n where
  bottom checked regex := by
    rw [collected, bottomLines_of_le h, Nat.min_eq_left h, List.rtake]
    rfl
  top checked regex := by
    rw [collected, topLines, List.take_eq_take_min]
  rest _ m hm checked := by
    have hle : m.toNat ≤ (lines input).length := hm ▸ Nat.sub_le _ _
    refine ⟨_, bottomLines_of_le hle, ?_⟩
    rw [hm, Nat.sub_sub_self h, topLines, List.take_append_drop]

end

theorem collects_iff (input : String) (n : UInt64) :
    Collects input n ↔ n.toNat ≤ (lines input).length :=
  ⟨Collects.le, collects_of_le⟩

-- One line, of which the last two are asked for.
theorem oneLine_not_collected : ¬Collects "done\n" 2 ∧
    collected true (fun _ => none) "done\n" (.bottomLines 2) = .panic ∧
    collected false (fun _ => none) "done\n" (.bottomLines 2) = .ok "" := by
  have hpanic : collected true (fun _ => none) "done\n" (.bottomLines 2) = .panic := by
    decide +kernel
  refine ⟨fun h => ?_, hpanic, by decide +kernel⟩
  cases hpanic.symm.trans (h.bottom true fun _ => none)

end Kuintessence.Agent.Collection
