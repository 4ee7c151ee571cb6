import Mathlib.Data.List.Basic
import Sequitur.Json.Printer
import Sequitur.Json.Reader
import Sequitur.Proofs.Text.Scanning

/-!
# Integers as they are written

An integer of 64 bits is written as its digits, behind a hyphen if it is negative, and is read
back from them wherever no digit, point or exponent follows.
-/

namespace Sequitur.Json

open Sequitur.Text Sequitur.Text.Scanner

/-! ### Decimal digits -/

theorem digitsValue_eq (digits : List Char) :
    digitsValue digits = Nat.ofDigitChars 10 digits 0 := by
  rw [Nat.ofDigitChars_eq_foldl, digitsValue]
  congr 1
  funext value c
  rw [Nat.mul_comm]
  rfl

theorem digitsValue_toDigits (n : Nat) : digitsValue (Nat.toDigits 10 n) = n := by
  rw [digitsValue_eq, Nat.ofDigitChars_ten_toDigits]

theorem isDigit_of_mem_toDigits {n : Nat} : ∀ c ∈ Nat.toDigits 10 n, c.isDigit = true :=
  fun _ => Nat.isDigit_of_mem_toDigits (by decide) (by decide)

theorem exists_toDigits_eq_cons (n : Nat) :
    ∃ c digits, Nat.toDigits 10 n = c :: digits ∧ c.isDigit = true := by
  obtain ⟨c, digits, hdigits⟩ := List.exists_cons_of_ne_nil (Nat.toDigits_ne_nil (b := 10) (n := n))
  refine ⟨c, digits, hdigits, isDigit_of_mem_toDigits (n := n) c ?_⟩
  rw [hdigits]
  exact List.mem_cons_self

theorem head?_toDigits_ne_zero {n : Nat} (h : 0 < n) : (Nat.toDigits 10 n).head? ≠ some '0' := by
  induction n using Nat.strongRecOn with
  | ind n ih =>
      by_cases hn : n < 10
      · simp [Nat.toDigits_of_lt_base hn]
        omega
      · have htenth : (Nat.toDigits 10 (n / 10)).head? ≠ some '0' :=
          ih (n / 10) (by omega) (by omega)
        rw [Nat.toDigits_of_base_le (by decide) (Nat.le_of_not_lt hn),
          List.head?_append_of_ne_nil _ Nat.toDigits_ne_nil]
        exact htenth

/-! ### The text of a number -/

/-- What may stand behind the digits of an integer: no digit, no point and no exponent. -/
def EndsDigits (rest : List Char) : Prop :=
  ∀ c ∈ rest.head?, c.isDigit = false ∧ c ≠ '.' ∧ c ≠ 'e' ∧ c ≠ 'E'

variable {rest : List Char} {fault : ε}

theorem takes_digits1 {digits : List Char} (hne : digits ≠ [])
    (hdigits : ∀ c ∈ digits, c.isDigit = true) (hrest : EndsDigits rest) :
    Takes (digits1 fault) (digits ++ rest) digits rest := by
  refine .bind (takes_takeWhile hdigits fun c hc => (hrest c hc).1) (.ite_neg ?_ (takes_pure _ _))
  simpa using hne

theorem takes_fractionDigits (hrest : EndsDigits rest) :
    Takes (fractionDigits fault) rest [] rest := by
  have hpoint : rest.head? ≠ some '.' := fun hhead => (hrest '.' hhead).2.1 rfl
  exact .bind (takes_accept_of_head?_ne hpoint) (.ite_neg (by simp) (takes_pure _ _))

theorem takes_exponentDigits (hrest : EndsDigits rest) :
    Takes (exponentDigits fault) rest none rest := by
  have hlower : rest.head? ≠ some 'e' := fun hhead => (hrest 'e' hhead).2.2.1 rfl
  have hupper : rest.head? ≠ some 'E' := fun hhead => (hrest 'E' hhead).2.2.2 rfl
  refine .bind (takes_accept_of_head?_ne hlower) (.ite_neg (by simp) ?_)
  exact .bind (takes_accept_of_head?_ne hupper) (.ite_neg (by simp) (takes_pure _ _))

/-- The digits of a natural number, with or without a hyphen, are all of the text of a number. -/
theorem takes_numberParts {negative : Bool} {text : List Char} (n : Nat)
    (hsign : Takes (accept '-' : Scanner ε Bool) text negative (Nat.toDigits 10 n ++ rest))
    (hrest : EndsDigits rest) :
    Takes (numberParts fault) text ⟨negative, Nat.toDigits 10 n, [], none⟩ rest := by
  refine .bind hsign (.bind (takes_digits1 Nat.toDigits_ne_nil isDigit_of_mem_toDigits hrest) ?_)
  refine .ite_neg ?_ (.bind (takes_fractionDigits hrest) (.bind (takes_exponentDigits hrest)
    (takes_pure _ _)))
  by_cases hn : n = 0
  · simp [hn]
  · have hhead := head?_toDigits_ne_zero (Nat.pos_of_ne_zero hn)
    simp [hhead]

/-! ### The value of a number -/

theorem integer?_natCast {n : Nat} (hn : Number.isUnsigned64 n = true) :
    NumberParts.integer? ⟨false, Nat.toDigits 10 n, [], none⟩ = some (n : Int) := by
  simp [NumberParts.integer?, digitsValue_toDigits, hn]

theorem integer?_neg {n : Nat} (hpos : 0 < n) (hn : Number.isSigned64 (-(n : Int)) = true) :
    NumberParts.integer? ⟨true, Nat.toDigits 10 n, [], none⟩ = some (-(n : Int)) := by
  simp [NumberParts.integer?, digitsValue_toDigits, Number.signed64?, hn, Nat.ne_of_gt hpos]

theorem takes_anyNumber {parts : NumberParts} {text : List Char} {n : Int}
    (h : Takes (numberParts Fault.malformed) text parts rest) (hvalue : parts.integer? = some n) :
    Takes anyNumber text (.integer n) rest := by
  refine .bind h ?_
  rw [NumberParts.value, hvalue]
  exact takes_pure _ _

/-! ### The text of an integer -/

theorem toList_toString_natCast (n : Nat) : (toString (n : Int)).toList = Nat.toDigits 10 n := by
  simp [Int.toString_eq_repr, Int.repr_eq_if]

theorem toList_toString_negSucc (n : Nat) :
    (toString (Int.negSucc n)).toList = '-' :: Nat.toDigits 10 (n + 1) := by
  simp [Int.toString_eq_repr, Int.repr_eq_if]

theorem exists_toString_eq_cons (n : Int) :
    ∃ c text, (toString n).toList = c :: text ∧ (c = '-' ∨ c.isDigit = true) := by
  cases n with
  | ofNat n =>
      obtain ⟨c, digits, hdigits, hc⟩ := exists_toDigits_eq_cons n
      exact ⟨c, digits, (toList_toString_natCast n).trans hdigits, .inr hc⟩
  | negSucc n => exact ⟨'-', _, toList_toString_negSucc n, .inl rfl⟩

/-- An integer of 64 bits is read back from its text. -/
theorem takes_anyNumber_toString {n : Int} (hn : Number.isSigned64 n = true)
    (hrest : EndsDigits rest) :
    Takes anyNumber ((toString n).toList ++ rest) (.integer n) rest := by
  cases n with
  | ofNat n =>
      have hunsigned : Number.isUnsigned64 n = true := by
        simp only [Number.isSigned64, Number.isUnsigned64, Int.ofNat_eq_natCast, Bool.and_eq_true,
          decide_eq_true_eq] at hn ⊢
        omega
      have hhead : (Nat.toDigits 10 n ++ rest).head? ≠ some '-' := by
        obtain ⟨c, digits, hdigits, hc⟩ := exists_toDigits_eq_cons n
        rw [hdigits]
        rintro ⟨⟩
        exact absurd hc (by decide)
      rw [Int.ofNat_eq_natCast, toList_toString_natCast]
      exact takes_anyNumber (takes_numberParts n (takes_accept_of_head?_ne hhead) hrest)
        (integer?_natCast hunsigned)
  | negSucc n =>
      rw [toList_toString_negSucc]
      exact takes_anyNumber (takes_numberParts (n + 1) (takes_accept '-' _) hrest)
        (integer?_neg (Nat.succ_pos n) hn)

end Sequitur.Json
