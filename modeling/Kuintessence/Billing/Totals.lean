import Kuintessence.Billing.Recording
import Mathlib.Tactic.Ring

namespace Kuintessence.Billing

namespace Decimal

theorem rescale_self (d : Decimal) : d.rescale d.scale = d := by
  rw [rescale, if_pos (Nat.le_refl _), Nat.sub_self, pow_zero, mul_one]

theorem rescale_of_scale {d : Decimal} {scale : Nat} (h : d.scale = scale) :
    d.rescale scale = d := by
  subst h
  exact rescale_self d

theorem roundDiv_mul (k : Int) {K : Nat} (hK : 0 < K) : roundDiv (k * K) K = k := by
  have habs : ((k * K).natAbs + K / 2) / K = k.natAbs := by
    rw [Int.natAbs_mul, Int.natAbs_natCast, Nat.mul_comm, Nat.mul_add_div hK,
      Nat.div_eq_of_lt (Nat.div_lt_self hK (Nat.lt_succ_self 1)), Nat.add_zero]
  rw [roundDiv, habs, Int.sign_mul, Int.sign_eq_one_of_pos (Int.natCast_pos.mpr hK), mul_one]
  exact Int.sign_mul_natAbs k

-- In units of the tenth decimal place.
def units (d : Decimal) : Int := (d.rescale 10).mantissa

theorem units_of_two {d : Decimal} (h : d.scale = 2) : d.units = d.mantissa * 10 ^ 8 := by
  rw [units, rescale, h, if_pos (by decide)]

theorem units_of_ten {d : Decimal} (h : d.scale = 10) : d.units = d.mantissa := by
  rw [units, rescale_of_scale h]

theorem add_two_ten {a b : Decimal} (ha : a.scale = 2) (hb : b.scale = 10) :
    a.add b = ⟨a.mantissa * 10 ^ 8 + b.mantissa, 10⟩ := by
  have hmax : max a.scale b.scale = 10 := by
    rw [ha, hb]
    rfl
  rw [add, hmax, rescale_of_scale hb, rescale, ha, if_pos (by decide)]

theorem zero_add_ten {b : Decimal} (hb : b.scale = 10) : (⟨0, 0⟩ : Decimal).add b = b := by
  have hmax : max 0 b.scale = 10 := by
    rw [hb]
    rfl
  rw [add, hmax, rescale_of_scale hb, rescale, if_pos (Nat.zero_le _), zero_mul, zero_add, ← hb]

theorem zero_two_add_ten {b : Decimal} (hb : b.scale = 10) : (⟨0, 2⟩ : Decimal).add b = b := by
  rw [add_two_ten rfl hb, zero_mul, zero_add, ← hb]

-- A price in whole hundredths is not rounded.
theorem units_saved {a b : Decimal} (ha : a.scale = 2) (hb : b.scale = 10)
    (hwhole : b.mantissa % 10 ^ 8 = 0) : ((a.add b).rescale 2).units = a.units + b.units := by
  obtain ⟨k, hk⟩ := Int.dvd_of_emod_eq_zero hwhole
  have hsum : a.mantissa * 10 ^ 8 + b.mantissa = (a.mantissa + k) * (10 ^ 8 : Nat) := by
    rw [hk]
    push_cast
    ring
  have hrescale : (⟨a.mantissa * 10 ^ 8 + b.mantissa, 10⟩ : Decimal).rescale 2 =
      ⟨a.mantissa + k, 2⟩ := by
    rw [rescale, if_neg (Nat.not_le.mpr (show 2 < 10 by decide)), hsum]
    exact congrArg (Decimal.mk · 2) (roundDiv_mul _ (by decide))
  rw [add_two_ten ha hb, hrescale, units_of_two rfl, units_of_two ha, units_of_ten hb, hk]
  ring

theorem scale_rescale (d : Decimal) (scale : Nat) : (d.rescale scale).scale = scale := by
  rw [rescale]
  split <;> rfl

theorem column_eq_some {d c : Decimal} {precision scale : Nat}
    (h : d.column precision scale = some c) : c = d.rescale scale := by
  rw [column] at h
  split at h
  · exact (Option.some.inj h).symm
  · cases h

end Decimal

inductive Measure where
  | cpu
  | memory
  | storage
  | cpuTime
  | wallTime
  | price
  deriving DecidableEq, Repr

def Usage.amount (u : Usage) (price : Decimal) : Measure → Int
  | .cpu => u.cpu.toInt
  | .memory => u.memory.toInt
  | .storage => u.storage.toInt
  | .cpuTime => u.cpuTime.toInt
  | .wallTime => u.wallTime.toInt
  | .price => price.units

theorem Usage.toInt_add {a b : Int64} (h : fits a b) : (a + b).toInt = a.toInt + b.toInt := by
  obtain ⟨hle, hlt⟩ := h
  rw [Int64.toInt_add]
  exact Int.bmod_eq_of_le (by omega) (by omega)

theorem Usage.amount_add {u v : Usage} (h : u.Fits v) {p q r : Decimal}
    (hr : r.units = p.units + q.units) (m : Measure) :
    (u.add v).amount r m = u.amount p m + v.amount q m := by
  obtain ⟨hcpu, hmemory, hstorage, hcpuTime, hwallTime⟩ := h
  cases m with
  | cpu => exact toInt_add hcpu
  | memory => exact toInt_add hmemory
  | storage => exact toInt_add hstorage
  | cpuTime => exact toInt_add hcpuTime
  | wallTime => exact toInt_add hwallTime
  | price => exact hr

theorem Usage.amount_zero {p : Decimal} (hp : p.units = 0) (m : Measure) :
    zero.amount p m = 0 := by
  cases m with
  | price => exact hp
  | _ => exact Int64.toInt_zero

def FlowInstanceBilling.amount (b : FlowInstanceBilling) : Measure → Int :=
  b.toUsage.amount b.totalPrice

def NodeInstanceBilling.amount (n : NodeInstanceBilling) : Measure → Int :=
  n.toUsage.amount n.price

section Calculation

variable {F : Type} {mentions : String → List String} {fl : Floats F} {ev : Evaluator F mentions}

theorem calculate_scale {meter : TaskUsedResource} {settings : ClusterIdSettings}
    {priced : Decimal × List (String × String)} (h : calculate fl ev meter settings = .ok priced) :
    priced.1.scale = 10 := by
  obtain ⟨evaluated, -, h⟩ := Outcome.bind_ok_iff.mp h
  obtain ⟨pNodeTxt, -, h⟩ := Outcome.bind_ok_iff.mp h
  obtain ⟨pNode, -, h⟩ := Outcome.bind_ok_iff.mp h
  cases h
  rfl

end Calculation

end Kuintessence.Billing
