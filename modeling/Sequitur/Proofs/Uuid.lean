import Sequitur.Uuid

/-!
# Identifiers as they are written

An identifier is read back from its text: the hyphens stand where they are looked for, and the
digits between them are those of the identifier.
-/

namespace Sequitur.Uuid

theorem length_hyphenate (lengths : List Nat) (cs : List Char) :
    (hyphenate lengths cs).length = cs.length + lengths.length := by
  induction lengths generalizing cs with
  | nil => rfl
  | cons n lengths ih =>
      simp only [hyphenate, List.length_append, List.length_cons, ih, List.length_take,
        List.length_drop]
      omega

/-- The groups of a row of characters are found again between the hyphens. -/
theorem unhyphenate?_hyphenate {lengths : List Nat} {cs : List Char}
    (h : lengths.foldr (· + ·) 0 ≤ cs.length) :
    unhyphenate? lengths (hyphenate lengths cs) = some cs := by
  induction lengths generalizing cs with
  | nil => rfl
  | cons n lengths ih =>
      rw [List.foldr_cons] at h
      have hgroup : (cs.take n).length = n := List.length_take_of_le (by omega)
      have hothers : unhyphenate? lengths (hyphenate lengths (cs.drop n)) = some (cs.drop n) :=
        ih (by rw [List.length_drop]; omega)
      rw [hyphenate, unhyphenate?, List.drop_left' hgroup, List.take_left' hgroup]
      simp [hothers]

theorem mapM_digit?_map_digitChar (digits : List (Fin 16)) :
    (digits.map digitChar).mapM digit? = some digits := by
  induction digits with
  | nil => rfl
  | cons digit digits ih => simp [digit?_digitChar, ih]

theorem ofPlain?_map_digitChar (id : Uuid) : ofPlain? (id.digits.map digitChar) = some id := by
  rw [ofPlain?, mapM_digit?_map_digitChar, Option.bind_some, ofDigits?, dif_pos id.length_digits]

/-- An identifier is read back from its text. -/
theorem ofString?_toString (id : Uuid) : ofString? id.toString = some id := by
  have hlength : id.text.length = 36 := by
    simp [text, length_hyphenate, id.length_digits, groupLengths]
  have hgroups : groupLengths.foldr (· + ·) 0 ≤ (id.digits.map digitChar).length := by
    simp [id.length_digits, groupLengths]
  rw [ofString?, toString, String.toList_ofList, ofText?, if_neg (by omega), if_pos hlength,
    ofHyphenated?, if_pos hlength, text, unhyphenate?_hyphenate hgroups, Option.bind_some,
    ofPlain?_map_digitChar]

end Sequitur.Uuid
