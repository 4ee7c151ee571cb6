import Sequitur.Proofs.Json.Numbers
import Sequitur.Session.Limit

/-!
# Limits that numbers give

What a number gives as a limit depends on its value alone, however it is written. An integer in
the range of limits gives itself. The bound of the range is not one of the numbers of the format:
the next of them stands for it, and so does every word that is rounded to that number. These are
the 1025 integers that follow the range, and all of them give the greatest limit. Nothing else
gives a limit, so limits are exact but for these integers.
-/

namespace Sequitur

open Number

/-! ### Numbers of the format -/

/-- A binary64 number gives a limit when it is an integer that is not beyond the next number of the
format after the greatest limit. -/
theorem limitOfDouble_eq_some_iff (x : Binary64) (limit : Int) :
    limitOfDouble x = some limit ↔
      ∃ n : Int, x.value = n ∧ minLimit ≤ n ∧ n ≤ maxLimit + 1 ∧ limit = min n maxLimit := by
  rw [limitOfDouble]
  split
  · next hnone =>
    constructor
    · intro h
      cases h
    · rintro ⟨n, hvalue, -⟩
      rw [(x.toInt?_eq_some_iff n).mpr hvalue] at hnone
      cases hnone
  · next n hn =>
    have hvalue : x.value = n := (x.toInt?_eq_some_iff n).mp hn
    constructor
    · intro h
      rw [Option.ite_none_right_eq_some] at h
      obtain ⟨hrange, hlimit⟩ := h
      exact ⟨n, hvalue, hrange.1, hrange.2, (Option.some.inj hlimit).symm⟩
    · rintro ⟨m, hm, hlower, hupper, rfl⟩
      obtain rfl : n = m := Int.cast_injective (hvalue.symm.trans hm)
      rw [if_pos ⟨hlower, hupper⟩]

/-! ### Words that are greater than every limit -/

section

variable {n : Nat} (hlower : 2 ^ 63 ≤ n) (hupper : n < 2 ^ 64)

include hlower hupper

theorem log2_of_word : n.log2 = 63 := by
  have hne : n ≠ 0 := by omega
  exact (Nat.log2_eq_iff hne).mpr ⟨hlower, hupper⟩

theorem le_log2_of_word : 52 ≤ n.log2 := by
  rw [log2_of_word hlower hupper]
  decide

theorem spacing_of_word : Binary64.spacing n = 2048 := by
  rw [Binary64.spacing_eq, log2_of_word hlower hupper]
  rfl

/-- Such a word is rounded to a multiple of 2048. -/
theorem doubleOfInt_of_word :
    ∃ x : Binary64, doubleOfInt n = some x ∧ x.value = ((roundDiv n 2048 * 2048 : Nat) : Int) := by
  have hunits := Binary64.ofNat_eq (le_log2_of_word hlower hupper) hupper
  rw [spacing_of_word hlower hupper] at hunits
  refine ⟨⟨false, roundDiv n 2048 * 2048 * Binary64.unitsPerOne⟩, ?_, ?_⟩
  · rw [doubleOfInt, Int.natAbs_natCast, hunits, Option.map_some]
    simp
  · rw [Binary64.value_eq_intCast_iff, Binary64.signedUnits, if_neg Bool.false_ne_true,
      Nat.cast_mul]

/-- Such words give the greatest limit when they are rounded to the next number of the format after
it, and none otherwise. -/
theorem limitOfDouble_doubleOfInt (limit : Int) :
    (doubleOfInt n).bind limitOfDouble = some limit ↔
      n ≤ 2 ^ 63 + 1024 ∧ limit = maxLimit := by
  obtain ⟨x, hdouble, hvalue⟩ := doubleOfInt_of_word hlower hupper
  rw [hdouble, Option.bind_some, limitOfDouble_eq_some_iff]
  have hrounded : 2 ^ 52 ≤ roundDiv n 2048 := by
    have hquotient := le_roundDiv n 2048
    omega
  have hfirst : roundDiv n 2048 ≤ 2 ^ 52 ↔ n ≤ 2 ^ 63 + 1024 := by
    rcases roundDiv_cases n 2048 with ⟨hround, hrest⟩ | ⟨hround, hrest⟩
    · rw [hround]
      omega
    · rw [hround]
      omega
  constructor
  · rintro ⟨m, hm, -, hrange, rfl⟩
    obtain rfl : ((roundDiv n 2048 * 2048 : Nat) : Int) = m :=
      Int.cast_injective (hvalue.symm.trans hm)
    rw [maxLimit] at hrange ⊢
    omega
  · rintro ⟨hsmall, rfl⟩
    refine ⟨_, hvalue, ?_⟩
    rw [minLimit, maxLimit]
    omega

end

/-! ### Values and limits -/

/-- An integer follows the range of limits: it is beyond it, and not nearer to the second number of
the format there than to the first. -/
def FollowsRange (n : Int) : Prop := maxLimit < n ∧ n ≤ maxLimit + 1 + 1024

instance (n : Int) : Decidable (FollowsRange n) := inferInstanceAs (Decidable (_ ∧ _))

/-- An integer gives a limit: itself in the range of limits, and the greatest limit when it follows
the range. -/
def GivesLimit (n limit : Int) : Prop :=
  (minLimit ≤ n ∧ n ≤ maxLimit ∧ limit = n) ∨ (FollowsRange n ∧ limit = maxLimit)

/-- Of the integers that follow the range, only the first is a number of the format. -/
theorem eq_of_value_of_isFinite {x : Binary64} (h : x.IsFinite) {n : Int} (hvalue : x.value = n)
    (hfollows : FollowsRange n) : n = maxLimit + 1 := by
  rw [FollowsRange, maxLimit] at hfollows
  rw [maxLimit]
  obtain ⟨magnitude, rfl⟩ := Int.eq_ofNat_of_zero_le (show 0 ≤ n by omega)
  have hword : 2 ^ 63 ≤ magnitude ∧ magnitude < 2 ^ 64 := by omega
  have hmultiple := h.spacing_dvd_of_value hvalue (le_log2_of_word hword.1 hword.2)
  rw [spacing_of_word hword.1 hword.2] at hmultiple
  omega

theorem limitOfDouble_eq_some_iff_givesLimit {x : Binary64} (h : x.IsFinite) (limit : Int) :
    limitOfDouble x = some limit ↔ ∃ n : Int, x.value = n ∧ GivesLimit n limit := by
  rw [limitOfDouble_eq_some_iff]
  constructor
  · rintro ⟨n, hvalue, hlower, hupper, rfl⟩
    refine ⟨n, hvalue, ?_⟩
    by_cases hrange : n ≤ maxLimit
    · exact .inl ⟨hlower, hrange, min_eq_left hrange⟩
    · exact .inr ⟨⟨by omega, by omega⟩, min_eq_right (by omega)⟩
  · rintro ⟨n, hvalue, ⟨hlower, hupper, rfl⟩ | ⟨hfollows, rfl⟩⟩
    · exact ⟨limit, hvalue, hlower, by omega, (min_eq_left hupper).symm⟩
    · obtain rfl := eq_of_value_of_isFinite h hvalue hfollows
      exact ⟨maxLimit + 1, hvalue, by decide, le_rfl, by decide⟩

/-- The limits that can be asked for are the integers that a word with sign holds. -/
theorem isSigned64_iff (n : Int) : isSigned64 n = true ↔ minLimit ≤ n ∧ n ≤ maxLimit := by
  rw [isSigned64, Bool.and_eq_true, decide_eq_true_iff, decide_eq_true_iff, minLimit, maxLimit]
  omega

theorem limitOfNumber_integer_eq_some_iff {n : Int} (h : (JsonNumber.integer n).Fits)
    (limit : Int) : limitOfNumber (.integer n) = some limit ↔ GivesLimit n limit := by
  rw [limitOfNumber]
  split
  · next hrange =>
    rw [Option.some_inj, GivesLimit, FollowsRange]
    omega
  · next hrange =>
    rcases h with hsigned | ⟨magnitude, rfl, hunsigned⟩
    · exact absurd ((isSigned64_iff n).mp hsigned) hrange
    · have hword : 2 ^ 63 ≤ magnitude ∧ magnitude < 2 ^ 64 := by
        rw [minLimit, maxLimit] at hrange
        rw [isUnsigned64, decide_eq_true_iff] at hunsigned
        omega
      rw [limitOfDouble_doubleOfInt hword.1 hword.2, GivesLimit, FollowsRange, minLimit, maxLimit]
      omega

/-- The limit that a number gives depends on its value alone. -/
theorem limitOfNumber_eq_some_iff {number : JsonNumber} (h : number.Fits) (limit : Int) :
    limitOfNumber number = some limit ↔ ∃ n : Int, number.value = n ∧ GivesLimit n limit := by
  cases number with
  | integer n =>
      rw [limitOfNumber_integer_eq_some_iff h]
      constructor
      · intro hlimit
        exact ⟨n, rfl, hlimit⟩
      · rintro ⟨m, hvalue, hlimit⟩
        obtain rfl : n = m := Int.cast_injective hvalue
        exact hlimit
  | double x => exact limitOfDouble_eq_some_iff_givesLimit h limit

/-! ### JSON values -/

/-- What a value of which the numbers fit gives as a limit. -/
theorem Json.Fits.limitOfJson_eq_ok_iff {value : Json} (h : value.Fits) (limit : Int) :
    limitOfJson value = .ok limit ↔
      ∃ number, value = .number number ∧ ∃ n : Int, number.value = n ∧ GivesLimit n limit := by
  cases h with
  | @number number hnumber =>
      have hgives := limitOfNumber_eq_some_iff hnumber limit
      simp only [Json.number.injEq, exists_eq_left', ← hgives, limitOfJson]
      cases limitOfNumber number with
      | none => simp
      | some found => simp
  | _ => simp [limitOfJson]

theorem limitOfJson_eq_ok_or_refused (value : Json) :
    (∃ limit, limitOfJson value = .ok limit) ∨
      limitOfJson value = .error (.argument (.limitNotInteger value)) := by
  unfold limitOfJson
  split
  · split
    · next limit hlimit => exact .inl ⟨limit, rfl⟩
    · exact .inr rfl
  · exact .inr rfl

/-- The limit of a value is exact: it is the integer in the range of limits that the value is, and
the value is refused when it is none. -/
def LimitIsExact (value : Json) : Prop :=
  (∀ limit, limitOfJson value = .ok limit ↔
    ∃ number, value = .number number ∧ number.value = (limit : Int) ∧
      minLimit ≤ limit ∧ limit ≤ maxLimit) ∧
  ((∃ limit, limitOfJson value = .ok limit) ∨
    limitOfJson value = .error (.argument (.limitNotInteger value)))

theorem Json.Fits.limitIsExact_iff {value : Json} (h : value.Fits) :
    LimitIsExact value ↔
      ¬∃ number, value = .number number ∧ ∃ n : Int, number.value = n ∧ FollowsRange n := by
  constructor
  · rintro ⟨hexact, -⟩ ⟨number, rfl, n, hn, hfollows⟩
    have hlimit : limitOfJson (.number number) = .ok maxLimit :=
      (h.limitOfJson_eq_ok_iff maxLimit).mpr ⟨number, rfl, n, hn, .inr ⟨hfollows, rfl⟩⟩
    obtain ⟨same, hnumber, hmax, -⟩ := (hexact maxLimit).mp hlimit
    obtain rfl := Json.number.inj hnumber
    have hsame : n = maxLimit := Int.cast_injective (hn.symm.trans hmax)
    exact absurd hfollows.1 (by omega)
  · intro hnone
    refine ⟨?_, limitOfJson_eq_ok_or_refused value⟩
    intro limit
    rw [h.limitOfJson_eq_ok_iff]
    constructor
    · rintro ⟨number, hnumber, n, hn, ⟨hlower, hupper, rfl⟩ | ⟨hfollows, -⟩⟩
      · exact ⟨number, hnumber, hn, hlower, hupper⟩
      · exact absurd ⟨number, hnumber, n, hn, hfollows⟩ hnone
    · rintro ⟨number, hnumber, hn, hlower, hupper⟩
      exact ⟨number, hnumber, limit, hn, .inl ⟨hlower, hupper, rfl⟩⟩

/-- A value that is read, or that is a member of what is read, gives a limit exactly when it is a
number whose value is an integer that gives this limit, and it is refused when it gives none. So
its limit is exact unless it is a number whose value follows the range of limits. -/
theorem limitOfJson_eq_ok_iff_and_limitIsExact_iff {text : String} {found value : Json}
    (hread : Json.ofText? text = some found)
    (hvalue : value = found ∨ ∃ key, found.get? key = some value) :
    (∀ limit, limitOfJson value = .ok limit ↔
      ∃ number, value = .number number ∧ ∃ n : Int, number.value = n ∧ GivesLimit n limit) ∧
    ((∃ limit, limitOfJson value = .ok limit) ∨
      limitOfJson value = .error (.argument (.limitNotInteger value))) ∧
    (LimitIsExact value ↔
      ¬∃ number, value = .number number ∧ ∃ n : Int, number.value = n ∧ FollowsRange n) := by
  have hfits : value.Fits := by
    have hfound : found.Fits := Json.fits_of_ofText? hread
    rcases hvalue with rfl | ⟨key, hmember⟩
    · exact hfound
    · exact hfound.get? hmember
  exact ⟨hfits.limitOfJson_eq_ok_iff, limitOfJson_eq_ok_or_refused value, hfits.limitIsExact_iff⟩

/-- The last integer that follows the range gives the greatest limit, and that of the integer
after it is exact. -/
theorem limitOfJson_of_words_after_range :
    limitOfJson (.int (maxLimit + 1 + 1024)) = .ok maxLimit ∧
      LimitIsExact (.int (maxLimit + 1 + 1025)) := by
  constructor
  · have hread : Json.ofText? "9223372036854776832" = some (.int 9223372036854776832) := by rfl
    have hgives := (limitOfJson_eq_ok_iff_and_limitIsExact_iff hread (.inl rfl)).1 maxLimit
    exact hgives.mpr ⟨_, rfl, _, rfl, .inr ⟨by decide, rfl⟩⟩
  · have hread : Json.ofText? "9223372036854776833" = some (.int 9223372036854776833) := by rfl
    apply (limitOfJson_eq_ok_iff_and_limitIsExact_iff hread (.inl rfl)).2.2.mpr
    rintro ⟨number, hnumber, n, hn, hfollows⟩
    obtain rfl := Json.number.inj hnumber
    obtain rfl : (9223372036854776833 : Int) = n := Int.cast_injective hn
    exact absurd hfollows (by decide)

/-- Not every value that is read has an exact limit: the first integer that follows the range gives
another integer. -/
theorem not_forall_limitIsExact :
    ¬∀ text value, Json.ofText? text = some value → LimitIsExact value := by
  intro h
  have hread : Json.ofText? "9223372036854775808" = some (.int 9223372036854775808) := by rfl
  have hfits : (Json.int 9223372036854775808).Fits :=
    .number (.inr ⟨9223372036854775808, rfl, by decide⟩)
  have hlimit : limitOfJson (.int 9223372036854775808) = .ok maxLimit :=
    (hfits.limitOfJson_eq_ok_iff maxLimit).mpr ⟨_, rfl, _, rfl, .inr ⟨by decide, rfl⟩⟩
  obtain ⟨number, hnumber, hvalue, -⟩ := ((h _ _ hread).1 maxLimit).mp hlimit
  obtain rfl := Json.number.inj hnumber
  have hsame : (9223372036854775808 : Int) = maxLimit := Int.cast_injective hvalue
  exact absurd hsame (by decide)

end Sequitur
