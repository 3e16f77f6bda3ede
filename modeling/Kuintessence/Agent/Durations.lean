import Kuintessence.Agent.Measures
import Kuintessence.Agent.Script

namespace Kuintessence.Agent

open Decimal

def Numeral (cs : List Char) : Prop := cs ≠ [] ∧ ∀ c ∈ cs, c.isDigit = true

-- Seconds, minutes, hours and days, in seconds.
def units : List Nat := [1, 60, 3600, 86400]

def clock (fields : List (List Char)) : List Char := [':'].intercalate fields

def clockSeconds (fields : List (List Char)) : Nat :=
  (List.zipWith (fun unit field => unit * Nat.ofDigitChars 10 field 0) units fields.reverse).sum

def hoursMinutesSeconds (d : Nat) : List (List Char) :=
  [padded (d / 3600), padded (d % 3600 / 60), padded (d % 3600 % 60)]

variable {fields : List (List Char)} {cs : List Char}

theorem Numeral.natural (h : Numeral cs) : natural cs = some (Nat.ofDigitChars 10 cs 0) := by
  rw [← number_digits h.2 h.1]
  unfold Decimal.natural
  split
  · next cs => exact absurd (h.2 '+' List.mem_cons_self) (by decide)
  · rfl

theorem Numeral.pieceValue (h : Numeral cs) (i : Nat) :
    pieceValue i cs = some (weight i * Nat.ofDigitChars 10 cs 0) := by
  rw [Agent.pieceValue]
  split
  · next hweight => rw [hweight, Nat.zero_mul]
  · rw [h.natural, Option.map_some]

theorem units_drop {i : Nat} (h : i < 4) : units.drop i = weight i :: units.drop (i + 1) := by
  obtain rfl | rfl | rfl | rfl : i = 0 ∨ i = 1 ∨ i = 2 ∨ i = 3 := by omega
  · rfl
  · rfl
  · rfl
  · rfl

theorem piecesValue_numerals {i : Nat} (h : ∀ field ∈ fields, Numeral field)
    (hfour : i + fields.length ≤ 4) : piecesValue i fields = some
      (List.zipWith (fun unit field => unit * Nat.ofDigitChars 10 field 0)
        (units.drop i) fields).sum := by
  induction fields generalizing i with
  | nil => rw [List.zipWith_nil_right, piecesValue, List.sum_nil]
  | cons field fields ih =>
    rw [List.forall_mem_cons] at h
    rw [List.length_cons] at hfour
    have hunits : units.drop i = weight i :: units.drop (i + 1) := units_drop (by omega)
    rw [piecesValue, h.1.pieceValue, Option.bind_some, ih h.2 (by omega), Option.map_some, hunits,
      List.zipWith_cons_cons, List.sum_cons]

theorem splitOn_clock (h : ∀ field ∈ fields, Numeral field) (hne : fields ≠ []) :
    (clock fields).splitOn ':' = fields := by
  refine List.splitOn_intercalate ':' (fun field hfield hcolon => ?_) hne
  exact absurd ((h field hfield).2 ':' hcolon) (by decide)

theorem durationValue_clock (h : ∀ field ∈ fields, Numeral field) (hne : fields ≠ [])
    (hfour : fields.length ≤ 4) : durationValue (clock fields) = some (clockSeconds fields) := by
  have hreverse : ∀ field ∈ fields.reverse, Numeral field :=
    fun field hfield => h field (List.mem_reverse.mp hfield)
  have hlength : 0 + fields.reverse.length ≤ 4 := by
    rw [List.length_reverse, Nat.zero_add]
    exact hfour
  rw [durationValue, splitOn_clock h hne, piecesValue_numerals hreverse hlength, List.drop_zero,
    clockSeconds]

theorem numeral_padded (n : Nat) : Numeral (padded n) :=
  ⟨padded_ne_nil n, fun _ hc => isDigit_of_mem_padded hc⟩

theorem formatDuration_eq_clock (d : Nat) :
    (formatDuration d).toList = clock (hoursMinutesSeconds d) := by
  rw [formatDuration]
  simp [clock, hoursMinutesSeconds, List.intercalate]

theorem clockSeconds_hoursMinutesSeconds (d : Nat) : clockSeconds (hoursMinutesSeconds d) = d := by
  have hsum : clockSeconds (hoursMinutesSeconds d) =
      1 * (d % 3600 % 60) + (60 * (d % 3600 / 60) + (3600 * (d / 3600) + 0)) := by
    rw [← ofDigitChars_padded (d % 3600 % 60), ← ofDigitChars_padded (d % 3600 / 60),
      ← ofDigitChars_padded (d / 3600)]
    rfl
  rw [hsum]
  omega

theorem clock_read_exact (checked : Bool) :
    (∀ d : UInt64,
      parseDuration checked (formatDuration d.toNat).toList = (.ok d.toNat : Outcome String Nat)) ∧
    ∀ fields : List (List Char), fields ≠ [] → fields.length ≤ 4 →
      (∀ field ∈ fields, Numeral field) → clockSeconds fields < 2 ^ 64 →
        parseDuration checked (clock fields) = (.ok (clockSeconds fields) : Outcome String Nat) := by
  have hread : ∀ fields : List (List Char), fields ≠ [] → fields.length ≤ 4 →
      (∀ field ∈ fields, Numeral field) → clockSeconds fields < 2 ^ 64 →
        parseDuration checked (clock fields) = (.ok (clockSeconds fields) : Outcome String Nat) :=
    fun fields hne hfour h hfit => parseDuration_exact (durationValue_clock h hne hfour) hfit
  refine ⟨fun d => ?_, hread⟩
  have hnumerals : ∀ field ∈ hoursMinutesSeconds d.toNat, Numeral field := by
    rw [hoursMinutesSeconds, List.forall_mem_cons, List.forall_mem_cons, List.forall_mem_singleton]
    exact ⟨numeral_padded _, numeral_padded _, numeral_padded _⟩
  have hclock := hread (hoursMinutesSeconds d.toNat) (List.cons_ne_nil _ _) (by decide : 3 ≤ 4)
    hnumerals (by rw [clockSeconds_hoursMinutesSeconds]; exact d.toNat_lt)
  rwa [clockSeconds_hoursMinutesSeconds, ← formatDuration_eq_clock] at hclock

theorem clock_read_exact_days :
    parseDuration true (formatDuration 446400).toList = (.ok 446400 : Outcome String Nat) ∧
    parseDuration true (clock [['1'], ['0', '2'], ['3'], ['4']]) =
      (.ok 93784 : Outcome String Nat) := by
  have h := clock_read_exact true
  refine ⟨h.1 446400, h.2 [['1'], ['0', '2'], ['3'], ['4']] (List.cons_ne_nil _ _)
    (by decide) ?_ (by decide +kernel)⟩
  have hall : ∀ field ∈ [['1'], ['0', '2'], ['3'], ['4']],
      field ≠ [] ∧ field.all Char.isDigit = true :=
    List.forall_iff_forall_mem.mp (by decide)
  exact fun field hfield => ⟨(hall field hfield).1, List.all_eq_true.mp (hall field hfield).2⟩

end Kuintessence.Agent
