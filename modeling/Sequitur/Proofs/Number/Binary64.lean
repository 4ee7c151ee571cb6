import Mathlib.Algebra.Field.Rat
import Mathlib.Algebra.Order.Ring.Rat
import Mathlib.Data.Rat.Cast.Order
import Sequitur.Number.Binary64

/-!
# Binary64 numbers as rational numbers

A finite binary64 number has an exact value, a rational number, and what is said about the number
is said about this value. The numbers of the format are those whose distance to their neighbours
divides them. Rounding gives numbers of the format, and a natural number that has more than 53
bits is rounded to a multiple of the distance around it.
-/

namespace Sequitur.Number

/-! ### Rounded quotients -/

/-- A quotient that is rounded is one of its two neighbours: the lower one below a half, the upper
one above, and at a half the one that is even. -/
theorem roundDiv_cases (numerator denominator : Nat) :
    let quotient := numerator / denominator
    let twice := 2 * (numerator % denominator)
    (roundDiv numerator denominator = quotient ∧
      (twice < denominator ∨ twice = denominator ∧ quotient % 2 = 0)) ∨
    (roundDiv numerator denominator = quotient + 1 ∧
      (denominator < twice ∨ twice = denominator ∧ quotient % 2 = 1)) := by
  intro quotient twice
  unfold roundDiv
  dsimp only
  split
  · next hbelow => exact .inl ⟨rfl, .inl hbelow⟩
  · split
    · next habove => exact .inr ⟨rfl, .inl habove⟩
    · split
      · next heven => exact .inl ⟨rfl, .inr ⟨by omega, heven⟩⟩
      · next hodd => exact .inr ⟨rfl, .inr ⟨by omega, by omega⟩⟩

theorem le_roundDiv (numerator denominator : Nat) :
    numerator / denominator ≤ roundDiv numerator denominator := by
  rcases roundDiv_cases numerator denominator with ⟨h, -⟩ | ⟨h, -⟩ <;> omega

theorem roundDiv_le (numerator denominator : Nat) :
    roundDiv numerator denominator ≤ numerator / denominator + 1 := by
  rcases roundDiv_cases numerator denominator with ⟨h, -⟩ | ⟨h, -⟩ <;> omega

/-- A common factor makes no difference. -/
theorem roundDiv_mul_right (numerator denominator : Nat) {factor : Nat} (h : 0 < factor) :
    roundDiv (numerator * factor) (denominator * factor) = roundDiv numerator denominator := by
  have hquotient : numerator * factor / (denominator * factor) = numerator / denominator :=
    Nat.mul_div_mul_right numerator denominator h
  have hrest : 2 * (numerator * factor % (denominator * factor)) =
      2 * (numerator % denominator) * factor := by
    rw [Nat.mul_mod_mul_right, Nat.mul_assoc]
  simp only [roundDiv, hquotient, hrest, Nat.mul_lt_mul_right h]

namespace Binary64

/-! ### Magnitudes of the format -/

theorem unitsPerOne_eq : unitsPerOne = 2 ^ unitsPerOne.log2 := by decide +kernel

theorem unitsPerOne_pos : 0 < unitsPerOne := by
  rw [unitsPerOne_eq]
  exact Nat.two_pow_pos _

theorem overflow_pos : 0 < overflow := by decide +kernel

theorem spacing_eq (units : Nat) : spacing units = 2 ^ (units.log2 - 52) := rfl

/-- A magnitude in range whose distance to its neighbours divides it. -/
def IsMagnitude (units : Nat) : Prop := units < overflow ∧ spacing units ∣ units

theorem isMagnitude_zero : IsMagnitude 0 := ⟨overflow_pos, Nat.dvd_zero _⟩

/-- A magnitude is less than 53 bits worth of the distance around it. -/
theorem lt_mul_spacing (units : Nat) : units < 2 ^ 53 * spacing units := by
  have hbits : units < 2 ^ (units.log2 + 1) := Nat.lt_log2_self
  have hpower : 2 ^ (units.log2 + 1) ≤ 2 ^ (53 + (units.log2 - 52)) :=
    Nat.pow_le_pow_right (by decide) (by omega)
  rw [spacing_eq, ← Nat.pow_add]
  exact Nat.lt_of_lt_of_le hbits hpower

/-- A significand of 53 bits, and also the first that has more, leaves no distance that does not
divide the magnitude. -/
theorem spacing_dvd {significand : Nat} (h : significand ≤ 2 ^ 53) (exponent : Nat) :
    spacing (significand * 2 ^ exponent) ∣ significand * 2 ^ exponent := by
  rw [spacing_eq]
  rcases Nat.lt_or_eq_of_le h with hlt | rfl
  · by_cases hzero : significand = 0
    · rw [hzero, Nat.zero_mul]
      exact Nat.dvd_zero _
    · have hpos : 0 < significand * 2 ^ exponent :=
        Nat.mul_pos (Nat.pos_of_ne_zero hzero) (Nat.two_pow_pos exponent)
      have hbits : (significand * 2 ^ exponent).log2 < 53 + exponent := by
        rw [Nat.log2_lt (Nat.ne_of_gt hpos), Nat.pow_add]
        exact Nat.mul_lt_mul_of_pos_right hlt (Nat.two_pow_pos exponent)
      have hpower : 2 ^ ((significand * 2 ^ exponent).log2 - 52) ∣ 2 ^ exponent :=
        Nat.pow_dvd_pow 2 (by omega)
      exact hpower.trans (Nat.dvd_mul_left _ _)
  · rw [← Nat.pow_add, Nat.log2_two_pow]
    exact Nat.pow_dvd_pow 2 (by omega)

/-- What is rounded is a number of the format. -/
theorem isMagnitude_of_round {numerator denominator units : Nat}
    (h : round numerator denominator = some units) : IsMagnitude units := by
  unfold round at h
  dsimp only at h
  split at h
  · next hrange =>
    obtain rfl := Option.some.inj h
    refine ⟨hrange, spacing_dvd ?_ _⟩
    generalize hstep : spacing (numerator / denominator) = step
    have hbelow : numerator / (denominator * step) < 2 ^ 53 := by
      rw [← Nat.div_div_eq_div_mul]
      apply Nat.div_lt_of_lt_mul
      rw [Nat.mul_comm, ← hstep]
      exact lt_mul_spacing _
    have hround := roundDiv_le numerator (denominator * step)
    omega
  · exact absurd h (Option.some_ne_none units).symm

/-! ### Natural numbers -/

theorem log2_mul_two_pow {n : Nat} (h : n ≠ 0) (exponent : Nat) :
    (n * 2 ^ exponent).log2 = n.log2 + exponent := by
  obtain ⟨hlower, hupper⟩ := (Nat.log2_eq_iff h).mp rfl
  rw [Nat.log2_eq_iff (Nat.mul_ne_zero h (Nat.ne_of_gt (Nat.two_pow_pos exponent)))]
  constructor
  · rw [Nat.pow_add]
    exact Nat.mul_le_mul_right _ hlower
  · rw [Nat.add_right_comm, Nat.pow_add]
    exact Nat.mul_lt_mul_of_pos_right hupper (Nat.two_pow_pos exponent)

theorem spacing_mul_unitsPerOne {n : Nat} (h : 52 ≤ n.log2) :
    spacing (n * unitsPerOne) = spacing n * unitsPerOne := by
  have hne : n ≠ 0 := by
    rintro rfl
    simp at h
  rw [spacing_eq, spacing_eq, unitsPerOne_eq, log2_mul_two_pow hne, ← Nat.pow_add,
    Nat.sub_add_comm h]

theorem mul_unitsPerOne_lt_overflow {n : Nat} (h : n < 2 ^ 65) : n * unitsPerOne < overflow := by
  have hmul : n * unitsPerOne < 2 ^ 65 * unitsPerOne :=
    Nat.mul_lt_mul_of_pos_right h unitsPerOne_pos
  have hroom : 2 ^ 65 * unitsPerOne ≤ overflow := by decide +kernel
  exact hmul.trans_le hroom

/-- A word of more than 52 bits becomes a nearest multiple of the distance around it. -/
theorem ofNat_eq {n : Nat} (hbits : 52 ≤ n.log2) (hword : n < 2 ^ 64) :
    ofNat n = some (roundDiv n (spacing n) * spacing n * unitsPerOne) := by
  have hrange : roundDiv n (spacing n) * spacing n < 2 ^ 65 := by
    have hround := Nat.mul_le_mul_right (spacing n) (roundDiv_le n (spacing n))
    have hquotient : n / spacing n * spacing n ≤ n := Nat.div_mul_le_self n (spacing n)
    have hspacing : spacing n ≤ 2 ^ 64 := by
      have hlog : n.log2 < 64 := (Nat.log2_lt (by rintro rfl; simp at hbits)).mpr hword
      exact Nat.pow_le_pow_right (by decide) (by omega)
    rw [Nat.add_mul, Nat.one_mul] at hround
    omega
  rw [ofNat, round, Nat.div_one, Nat.one_mul, spacing_mul_unitsPerOne hbits,
    roundDiv_mul_right n (spacing n) unitsPerOne_pos, ← Nat.mul_assoc,
    if_pos (mul_unitsPerOne_lt_overflow hrange)]

/-! ### Exact values -/

/-- A number of the format. -/
def IsFinite (x : Binary64) : Prop := IsMagnitude x.units

/-- The number of units with its sign. -/
def signedUnits (x : Binary64) : Int := if x.negative then -x.units else x.units

/-- The rational number that a binary64 number is. -/
def value (x : Binary64) : ℚ := x.signedUnits / unitsPerOne

theorem natAbs_signedUnits (x : Binary64) : x.signedUnits.natAbs = x.units := by
  rw [signedUnits]
  split
  · rw [Int.natAbs_neg, Int.natAbs_natCast]
  · rw [Int.natAbs_natCast]

theorem units_of_signedUnits {x : Binary64} {n : Int} (h : x.signedUnits = n * unitsPerOne) :
    x.units = n.natAbs * unitsPerOne := by
  rw [← natAbs_signedUnits, h, Int.natAbs_mul, Int.natAbs_natCast]

theorem value_eq_intCast_iff (x : Binary64) (n : Int) :
    x.value = n ↔ x.signedUnits = n * unitsPerOne := by
  have hunits : (unitsPerOne : ℚ) ≠ 0 := Nat.cast_ne_zero.mpr (Nat.ne_of_gt unitsPerOne_pos)
  rw [value, div_eq_iff hunits, ← Int.cast_natCast, ← Int.cast_mul, Int.cast_inj]

/-- A number has an integer exactly when its value is that integer. -/
theorem toInt?_eq_some_iff (x : Binary64) (n : Int) : x.toInt? = some n ↔ x.value = n := by
  rw [value_eq_intCast_iff]
  by_cases hwhole : x.units % unitsPerOne = 0
  · obtain ⟨magnitude, hunits⟩ := Nat.dvd_of_mod_eq_zero hwhole
    have hmagnitude : x.units / unitsPerOne = magnitude := by
      rw [hunits, Nat.mul_div_cancel_left magnitude unitsPerOne_pos]
    have hsigned : x.signedUnits =
        (if x.negative then -(magnitude : Int) else magnitude) * unitsPerOne := by
      rw [signedUnits, hunits, Nat.cast_mul, Int.mul_comm (unitsPerOne : Int)]
      split
      · rw [Int.neg_mul]
      · rfl
    have hne : (unitsPerOne : Int) ≠ 0 := Nat.cast_ne_zero.mpr (Nat.ne_of_gt unitsPerOne_pos)
    rw [toInt?, if_pos hwhole, hmagnitude, hsigned, Option.some_inj, mul_left_inj' hne]
  · rw [toInt?, if_neg hwhole]
    constructor
    · intro h
      exact absurd h (Option.some_ne_none n).symm
    · intro h
      have hunits : x.units = n.natAbs * unitsPerOne := units_of_signedUnits h
      exact absurd (hunits ▸ Nat.mul_mod_left _ _) hwhole

/-- A natural number of more than 52 bits that is the value of a number of the format is a
multiple of the distance around it. -/
theorem IsFinite.spacing_dvd_of_value {x : Binary64} (h : x.IsFinite) {n : Nat}
    (hvalue : x.value = (n : Int)) (hbits : 52 ≤ n.log2) : spacing n ∣ n := by
  have hunits : x.units = n * unitsPerOne := by
    rw [units_of_signedUnits ((value_eq_intCast_iff x n).mp hvalue), Int.natAbs_natCast]
  have hdvd : spacing n * unitsPerOne ∣ n * unitsPerOne := by
    rw [← spacing_mul_unitsPerOne hbits, ← hunits]
    exact h.2
  exact Nat.dvd_of_mul_dvd_mul_right unitsPerOne_pos hdvd

end Binary64

end Sequitur.Number
