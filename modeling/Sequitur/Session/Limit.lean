import Sequitur.Failure

/-!
# Limits of sessions

A client gives the limit of a session as a JSON number. A number that is written with a
point or an exponent counts as an integer when its value is one. A limit has to be
positive.
-/

namespace Sequitur

def minLimit : Int := -0x8000000000000000

def maxLimit : Int := 0x7fffffffffffffff

/-- The integer of a binary64 number, when it is not beyond the limits that can be asked
for. The next number of the format after the greatest limit stands for that limit. -/
def limitOfDouble (x : Number.Binary64) : Option Int :=
  match x.toInt? with
  | none => none
  | some n => if minLimit ≤ n ∧ n ≤ maxLimit + 1 then some (min n maxLimit) else none

def doubleOfInt (n : Int) : Option Number.Binary64 :=
  (Number.Binary64.ofNat n.natAbs).map fun units => ⟨n < 0, units⟩

/-- The limit that a number gives. An integer beyond the limits is compared with them as a
binary64 number. -/
def limitOfNumber : JsonNumber → Option Int
  | .integer n =>
      if minLimit ≤ n ∧ n ≤ maxLimit then some n else (doubleOfInt n).bind limitOfDouble
  | .double x => limitOfDouble x

def limitOfJson (value : Json) : Answer Int :=
  match value with
  | .number n =>
      match limitOfNumber n with
      | some limit => .ok limit
      | none => .error (.argument (.limitNotInteger value))
  | _ => .error (.argument (.limitNotInteger value))

/-- A limit has to be positive. -/
def checkedLimit (limit : Int) : Answer Nat :=
  if limit ≤ 0 then .error (.argument (.limitNotPositive limit)) else .ok limit.toNat

end Sequitur
