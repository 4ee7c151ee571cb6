import Mathlib.Tactic.SplitIfs
import Sequitur.Json.Printer
import Sequitur.Json.Reader

/-!
# Strings between quotes

What is written of a string is read back: each character is escaped so that it is read from its
escape, and so that no character in the text ends the string.
-/

namespace Sequitur.Json

open Sequitur.Text

theorem hexUnit?_control (n : Fin 32) :
    hexUnit? '0' '0' (Nat.digitChar (n / 16)) (Nat.digitChar (n % 16)) = some n.val := by
  revert n
  decide

/-- A character that stands for itself is read as itself. -/
theorem stringBody_cons_of_plain {c : Char} (hquote : c ≠ '"') (hbackslash : c ≠ '\\')
    (hcontrol : ¬c.toNat < 0x20) (text : List Char) :
    stringBody (c :: text) = (stringBody text).map fun (cs, after) => (c :: cs, after) := by
  rw [stringBody]
  · simp [hbackslash, hcontrol]
  all_goals simp_all

/-- A letter behind a backslash is read as what it stands for. -/
theorem stringBody_letter {letter c : Char} (hletter : unescaped letter = some c)
    (text : List Char) : stringBody ('\\' :: letter :: text) =
      (stringBody text).map fun (cs, after) => (c :: cs, after) := by
  have hunit : letter ≠ 'u' := by
    rintro rfl
    simp [unescaped] at hletter
  rw [stringBody]
  · simp [hletter]
  · intro a b c d rest h
    exact absurd h hunit

/-- A control character is read from its number. -/
theorem stringBody_control {c : Char} (hcontrol : c.toNat < 0x20) (text : List Char) :
    stringBody ('\\' :: 'u' :: '0' :: '0' :: Nat.digitChar (c.toNat / 16) ::
        Nat.digitChar (c.toNat % 16) :: text) =
      (stringBody text).map fun (cs, after) => (c :: cs, after) := by
  have hunit := hexUnit?_control ⟨c.toNat, hcontrol⟩
  have hlow : isLowSurrogate c.toNat = false := by
    simp only [isLowSurrogate, Bool.and_eq_false_iff, decide_eq_false_iff_not]
    omega
  have hhigh : isHighSurrogate c.toNat = false := by
    simp only [isHighSurrogate, Bool.and_eq_false_iff, decide_eq_false_iff_not]
    omega
  rw [stringBody]
  simp only at hunit
  simp [hunit, hlow, hhigh]

/-- Every character is read from its escaped form. -/
theorem stringBody_escaped_append (c : Char) (text : List Char) :
    stringBody (escaped c ++ text) =
      (stringBody text).map fun (cs, after) => (c :: cs, after) := by
  have hletter {letter : Char} (hread : unescaped letter = some c) :
      stringBody (['\\', letter] ++ text) =
        (stringBody text).map fun (cs, after) => (c :: cs, after) :=
    stringBody_letter hread text
  unfold escaped
  split_ifs with hquote hbackslash hlineFeed hreturn htab hbackspace hformFeed hcontrol
  · exact hletter (by simp [unescaped, hquote])
  · exact hletter (by simp [unescaped, hbackslash])
  · exact hletter (by simp [unescaped, hlineFeed])
  · exact hletter (by simp [unescaped, hreturn])
  · exact hletter (by simp [unescaped, htab])
  · have hc : Char.ofNat 0x8 = c := by rw [← hbackspace, Char.ofNat_toNat]
    exact hletter (by simpa [unescaped] using hc)
  · have hc : Char.ofNat 0xC = c := by rw [← hformFeed, Char.ofNat_toNat]
    exact hletter (by simpa [unescaped] using hc)
  · exact stringBody_control hcontrol text
  · exact stringBody_cons_of_plain hquote hbackslash hcontrol text

theorem stringBody_flatMap_escaped (cs rest : List Char) :
    stringBody (cs.flatMap escaped ++ '"' :: rest) = some (cs, rest) := by
  induction cs with
  | nil => rw [List.flatMap_nil, List.nil_append, stringBody]
  | cons c cs ih =>
      rw [List.flatMap_cons, List.append_assoc, stringBody_escaped_append, ih, Option.map_some]

end Sequitur.Json
