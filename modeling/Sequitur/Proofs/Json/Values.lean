import Sequitur.Proofs.Json.Integers
import Sequitur.Proofs.Json.Strings
import Sequitur.Proofs.Text.Lines

/-!
# Values as they are laid out

What is written in the pretty form is read back by the readers for values of a given shape: a
string by the reader of strings, an array by the reader of arrays of what reads its items, and an
object by what reads its members one after the other. A value is laid out at some depth, and it is
read behind blanks and before whatever ends a value, so that the parts of a text are read where
they stand.
-/

namespace Sequitur.Json

open Sequitur.Text Sequitur.Text.Scanner

variable {depth : Nat} {front rest : List Char}

/-! ### Blanks -/

theorem takes_blanks (hfront : ∀ c ∈ front, isBlank c = true)
    (hrest : ∀ c ∈ rest.head?, isBlank c = false) : Takes blanks (front ++ rest) () rest :=
  takes_skipWhile hfront hrest

theorem takes_blanks_cons {c : Char} (hfront : ∀ c ∈ front, isBlank c = true)
    (hc : isBlank c = false) : Takes blanks (front ++ c :: rest) () (c :: rest) := by
  refine takes_blanks hfront ?_
  rintro _ ⟨⟩
  exact hc

theorem takes_blanks_none {c : Char} (hc : isBlank c = false) :
    Takes blanks (c :: rest) () (c :: rest) :=
  takes_blanks_cons (List.forall_mem_nil _) hc

theorem isBlank_iff {c : Char} :
    isBlank c = true ↔ c = ' ' ∨ c = '\n' ∨ c = '\t' ∨ c = '\r' := by
  simp [isBlank, or_assoc]

theorem isBlank_newLine (depth : Nat) : ∀ c ∈ newLine depth, isBlank c = true := by
  intro c hc
  obtain rfl | hspace := List.mem_cons.mp hc
  · decide
  · rw [List.eq_of_mem_replicate hspace]
    decide

/-! ### Where a value begins and ends -/

/-- The text begins as values do: with no blank, and not as the end of an array. -/
def BeginsValue (text : List Char) : Prop :=
  ∃ c tail, text = c :: tail ∧ isBlank c = false ∧ c ≠ ']'

/-- What may stand behind a value: nothing, a blank, a comma, or the end of an array or object. -/
def EndsValue (rest : List Char) : Prop :=
  ∀ c ∈ rest.head?, isBlank c = true ∨ c = ',' ∨ c = ']' ∨ c = '\x7d'

theorem BeginsValue.not_isBlank {text : List Char} (h : BeginsValue text) :
    ∀ c ∈ (text ++ rest).head?, isBlank c = false := by
  obtain ⟨c, tail, rfl, hc, -⟩ := h
  rintro _ ⟨⟩
  exact hc

theorem BeginsValue.head?_ne {text : List Char} (h : BeginsValue text) :
    (text ++ rest).head? ≠ some ']' := by
  obtain ⟨c, tail, rfl, -, hc⟩ := h
  rintro ⟨⟩
  exact hc rfl

theorem exists_joinWith_eq_cons (separator : List Char) (c : Char) (text : List Char)
    (texts : List (List Char)) : ∃ tail, joinWith separator ((c :: text) :: texts) = c :: tail := by
  cases texts with
  | nil => exact ⟨text, rfl⟩
  | cons next texts => exact ⟨_, rfl⟩

theorem BeginsValue.joinWith {text : List Char} (h : BeginsValue text) (separator : List Char)
    (texts : List (List Char)) : BeginsValue (joinWith separator (text :: texts)) := by
  obtain ⟨c, text, rfl, hc⟩ := h
  obtain ⟨tail, htail⟩ := exists_joinWith_eq_cons separator c text texts
  exact ⟨c, tail, htail, hc⟩

theorem endsValue_nil : EndsValue [] := by
  rintro _ ⟨⟩

theorem endsValue_cons {c : Char} (hc : isBlank c = true ∨ c = ',' ∨ c = ']' ∨ c = '\x7d') :
    EndsValue (c :: rest) := by
  rintro _ ⟨⟩
  exact hc

theorem endsValue_newLine : EndsValue (newLine depth ++ rest) :=
  endsValue_cons (.inl rfl)

theorem EndsValue.endsDigits (h : EndsValue rest) : EndsDigits rest := by
  intro c hc
  obtain hblank | rfl | rfl | rfl := h c hc
  · obtain rfl | rfl | rfl | rfl := isBlank_iff.mp hblank <;> decide
  all_goals decide

/-! ### Reading back -/

/-- The text of the value is read as the result wherever it stands. -/
structure ReadsAs (reader : Reader α) (value : Json) (result : α) : Prop where
  begins : ∀ depth, BeginsValue (prettyText depth value)
  takes : ∀ depth front rest, (∀ c ∈ front, isBlank c = true) → EndsValue rest →
    Takes reader (front ++ (prettyText depth value ++ rest)) result rest

theorem takes_stringRest (s : String) (rest : List Char) :
    Takes stringRest (s.toList.flatMap escaped ++ '"' :: rest) s rest := by
  rw [Takes, stringRest, stringBody_flatMap_escaped]
  simp

theorem readsAs_string (s : String) : ReadsAs stringValue (.string s) s where
  begins _ := ⟨'"', _, rfl, by decide, by decide⟩
  takes depth front rest hfront hrest := by
    have htext : prettyText depth (.string s) ++ rest =
        '"' :: (s.toList.flatMap escaped ++ '"' :: rest) := by
      simp [prettyText, compactText, stringText]
    rw [htext]
    refine .bind (takes_blanks_cons hfront (by decide)) (.bind (takes_accept '"' _) ?_)
    exact .ite_pos rfl (takes_stringRest s rest)

theorem readsAs_int {n : Int} (hn : Number.isSigned64 n = true) :
    ReadsAs int64Value (.int n) n := by
  obtain ⟨c, tail, htext, hc⟩ := exists_toString_eq_cons n
  have hpretty : ∀ depth, prettyText depth (.int n) = (toString n).toList := fun _ => rfl
  have hbegins : BeginsValue (toString n).toList := by
    refine ⟨c, tail, htext, ?_, ?_⟩
    · rw [← Bool.not_eq_true, isBlank_iff]
      rintro (rfl | rfl | rfl | rfl) <;> exact absurd hc (by decide)
    · rintro rfl
      exact absurd hc (by decide)
  refine ⟨fun depth => hbegins, ?_⟩
  intro depth front rest hfront hrest
  rw [hpretty]
  refine .bind (takes_blanks hfront hbegins.not_isBlank) (.bind (takes_peek _) ?_)
  have hnumber := takes_anyNumber_toString hn hrest.endsDigits
  rw [htext] at hnumber ⊢
  refine .ite_pos hc (.bind hnumber ?_)
  exact .ite_pos hn (takes_pure n rest)

/-! ### Arrays -/

theorem prettyItems_eq (depth : Nat) (items : List Json) :
    prettyItems depth items = items.map (prettyText (depth + 1)) := by
  induction items with
  | nil => rfl
  | cons item items ih => rw [prettyItems, ih, List.map_cons]

theorem prettyText_array_cons (depth : Nat) (item : Json) (items : List Json) :
    prettyText depth (.array (item :: items)) = '[' :: (newLine (depth + 1) ++
      (joinWith (',' :: newLine (depth + 1)) ((item :: items).map (prettyText (depth + 1))) ++
        (newLine depth ++ [']']))) := by
  simp [prettyText, enclosed, prettyItems_eq]

section Arrays

variable {item : Reader α} {toJson : α → Json} {x : α} {xs : List α}

/-- The last item of an array ends the round over the items. -/
theorem takes_arrayStep_done (hx : ReadsAs item (toJson x) x) (items : List α) :
    Takes (arrayStep item items)
      (prettyText (depth + 1) (toJson x) ++ (newLine depth ++ ']' :: rest))
      (.done (items ++ [x])) rest := by
  refine .bind (hx.takes _ [] _ (List.forall_mem_nil _) endsValue_newLine) ?_
  refine .bind (takes_blanks_cons (isBlank_newLine depth) (by decide)) ?_
  refine .bind (takes_accept_of_head?_ne (by simp)) (.ite_neg (by simp) ?_)
  exact .bind (takes_expect _ _ _) (takes_pure _ _)

/-- An item before others is followed by a comma and the line of the next item. -/
theorem takes_arrayStep_again (hx : ReadsAs item (toJson x) x) {next : List Char}
    (hnext : BeginsValue next) (items : List α) :
    Takes (arrayStep item items)
      (prettyText depth (toJson x) ++ (',' :: newLine depth ++ (next ++ rest)))
      (.again (items ++ [x])) (next ++ rest) := by
  refine .bind (hx.takes _ [] _ (List.forall_mem_nil _) (endsValue_cons (.inr (.inl rfl)))) ?_
  refine .bind (takes_blanks_none (by decide)) ?_
  refine .bind (takes_accept ',' _) (.ite_pos rfl ?_)
  refine .bind (takes_blanks (isBlank_newLine depth) hnext.not_isBlank) ?_
  exact .bind (takes_peek _) (.ite_neg hnext.head?_ne (takes_pure _ _))

theorem takes_loop_arrayStep (h : ∀ x ∈ xs, ReadsAs item (toJson x) x) (hne : xs ≠ [])
    (items : List α) :
    Takes (loop .malformed (arrayStep item) items)
      (joinWith (',' :: newLine (depth + 1)) ((xs.map toJson).map (prettyText (depth + 1))) ++
        (newLine depth ++ ']' :: rest)) (items ++ xs) rest := by
  induction xs generalizing items with
  | nil => exact absurd rfl hne
  | cons x xs ih =>
      have hx : ReadsAs item (toJson x) x := h x List.mem_cons_self
      cases xs with
      | nil => exact takes_loop_of_done (takes_arrayStep_done hx items)
      | cons y ys =>
          -- The step takes the blanks behind the comma too, so the next round begins at the item.
          have hnext := ((h y (by simp)).begins (depth + 1)).joinWith (',' :: newLine (depth + 1))
            ((ys.map toJson).map (prettyText (depth + 1)))
          rw [List.map_cons, List.map_cons, joinWith_cons _ _ (by simp), List.append_assoc,
            List.append_assoc]
          have hrest := ih (fun z hz => h z (List.mem_cons_of_mem x hz)) (by simp) (items ++ [x])
          rw [List.append_assoc] at hrest
          exact takes_loop_of_again (takes_arrayStep_again hx hnext items) (by simp; omega) hrest

theorem exists_prettyText_array (depth : Nat) (items : List Json) :
    ∃ tail, prettyText depth (.array items) = '[' :: tail := by
  cases items with
  | nil => exact ⟨[']'], rfl⟩
  | cons item items => exact ⟨_, prettyText_array_cons depth item items⟩

theorem takes_arrayRest (h : ∀ x ∈ xs, ReadsAs item (toJson x) x) {tail : List Char}
    (htext : prettyText depth (.array (xs.map toJson)) = '[' :: tail) :
    Takes (arrayRest item) (tail ++ rest) xs rest := by
  cases xs with
  | nil =>
      obtain rfl : [']'] = tail := List.tail_eq_of_cons_eq htext
      refine .bind (takes_blanks_none (by decide)) ?_
      exact .bind (takes_accept ']' _) (.ite_pos rfl (takes_pure _ _))
  | cons x xs =>
      obtain rfl := List.tail_eq_of_cons_eq ((prettyText_array_cons _ _ _).symm.trans htext)
      have hbegins := ((h x List.mem_cons_self).begins (depth + 1)).joinWith
        (',' :: newLine (depth + 1)) ((xs.map toJson).map (prettyText (depth + 1)))
      simp only [List.append_assoc]
      refine .bind (takes_blanks (isBlank_newLine _) hbegins.not_isBlank) ?_
      refine .bind (takes_accept_of_head?_ne hbegins.head?_ne) (.ite_neg (by simp) ?_)
      exact takes_loop_arrayStep h (by simp) []

/-- An array is read from its items, whatever reads those. -/
theorem readsAs_array (h : ∀ x ∈ xs, ReadsAs item (toJson x) x) :
    ReadsAs (arrayValue item) (.array (xs.map toJson)) xs where
  begins depth := by
    obtain ⟨tail, htail⟩ := exists_prettyText_array depth (xs.map toJson)
    exact ⟨'[', tail, htail, by decide, by decide⟩
  takes depth front rest hfront hrest := by
    obtain ⟨tail, htail⟩ := exists_prettyText_array depth (xs.map toJson)
    rw [htail]
    refine .bind (takes_blanks_cons hfront (by decide)) (.bind (takes_accept '[' _) ?_)
    exact .ite_pos rfl (takes_arrayRest h htail)

end Arrays

/-! ### Objects -/

/-- The text of a member of an object, laid out at the depth of its value. -/
def memberText (depth : Nat) (member : String × Json) : List Char :=
  '"' :: (member.1.toList.flatMap escaped ++ '"' :: ':' :: ' ' :: prettyText depth member.2)

theorem memberText_append (depth : Nat) (name : String) (value : Json) (rest : List Char) :
    memberText depth (name, value) ++ rest = '"' :: (name.toList.flatMap escaped ++
      '"' :: ':' :: ' ' :: (prettyText depth value ++ rest)) := by
  simp [memberText]

theorem prettyMembers_eq (depth : Nat) (members : List (String × Json)) :
    prettyMembers depth members = members.map (memberText (depth + 1)) := by
  induction members with
  | nil => rfl
  | cons member members ih =>
      rw [prettyMembers, ih, List.map_cons]
      simp [memberText, stringText]

theorem prettyText_object_cons (depth : Nat) (member : String × Json)
    (members : List (String × Json)) :
    prettyText depth (.object (member :: members)) = '\x7b' :: (newLine (depth + 1) ++
      (joinWith (',' :: newLine (depth + 1)) ((member :: members).map (memberText (depth + 1))) ++
        (newLine depth ++ ['\x7d']))) := by
  simp [prettyText, enclosed, prettyMembers_eq]

/-- Reading members one after the other leads from one state to another. -/
inductive LeadsTo (member : σ → String → Reader σ) : σ → List (String × Json) → σ → Prop where
  | nil (state : σ) : LeadsTo member state [] state
  | cons (next : σ) {state final : σ} {name : String} {value : Json}
      {members : List (String × Json)}
      (first : ∀ {depth : Nat} {rest : List Char}, EndsValue rest →
        Takes (member state name) (':' :: ' ' :: (prettyText depth value ++ rest)) next rest)
      (others : LeadsTo member next members final) :
      LeadsTo member state ((name, value) :: members) final

section Objects

variable {member : σ → String → Reader σ} {state final : σ} {members : List (String × Json)}

/-- The last member of an object ends the round over the members. -/
theorem takes_objectStep_done {next : σ} {name : String} {value : Json}
    (hmember : ∀ {rest}, EndsValue rest →
      Takes (member state name) (':' :: ' ' :: (prettyText (depth + 1) value ++ rest)) next rest)
    (hfront : ∀ c ∈ front, isBlank c = true) :
    Takes (objectStep stringRest member state)
      (front ++ (memberText (depth + 1) (name, value) ++ (newLine depth ++ '\x7d' :: rest)))
      (.done next) rest := by
  rw [memberText_append]
  refine .bind (takes_blanks_cons hfront (by decide)) (.bind (takes_expect _ _ _) ?_)
  refine .bind (takes_stringRest name _) (.bind (hmember endsValue_newLine) ?_)
  refine .bind (takes_blanks_cons (isBlank_newLine depth) (by decide)) ?_
  refine .bind (takes_accept_of_head?_ne (by simp)) (.ite_neg (by simp) ?_)
  exact .bind (takes_expect _ _ _) (takes_pure _ _)

/-- A member before others is followed by a comma. -/
theorem takes_objectStep_again {next : σ} {name : String} {value : Json}
    (hmember : ∀ {rest}, EndsValue rest →
      Takes (member state name) (':' :: ' ' :: (prettyText depth value ++ rest)) next rest)
    (hfront : ∀ c ∈ front, isBlank c = true) :
    Takes (objectStep stringRest member state)
      (front ++ (memberText depth (name, value) ++ ',' :: rest)) (.again next) rest := by
  rw [memberText_append]
  refine .bind (takes_blanks_cons hfront (by decide)) (.bind (takes_expect _ _ _) ?_)
  refine .bind (takes_stringRest name _) (.bind (hmember (endsValue_cons (.inr (.inl rfl)))) ?_)
  refine .bind (takes_blanks_none (by decide)) ?_
  exact .bind (takes_accept ',' _) (.ite_pos rfl (takes_pure _ _))

theorem takes_loop_objectStep (h : LeadsTo member state members final) (hne : members ≠ [])
    (hfront : ∀ c ∈ front, isBlank c = true) :
    Takes (loop .malformed (objectStep stringRest member) state)
      (front ++ (joinWith (',' :: newLine (depth + 1)) (members.map (memberText (depth + 1))) ++
        (newLine depth ++ '\x7d' :: rest))) final rest := by
  induction h generalizing front with
  | nil => exact absurd rfl hne
  | @cons next state final name value members first others ih =>
      cases members with
      | nil =>
          cases others
          exact takes_loop_of_done (takes_objectStep_done first hfront)
      | cons second members =>
          -- The blanks behind the comma are left to the next round, which begins with them.
          rw [List.map_cons, joinWith_cons _ _ (by simp), List.append_assoc, List.append_assoc]
          exact takes_loop_of_again (takes_objectStep_again first hfront) (by simp; omega)
            (ih (by simp) (isBlank_newLine (depth + 1)))

theorem exists_prettyText_object (depth : Nat) (members : List (String × Json)) :
    ∃ tail, prettyText depth (.object members) = '\x7b' :: tail := by
  cases members with
  | nil => exact ⟨['\x7d'], rfl⟩
  | cons first members => exact ⟨_, prettyText_object_cons depth first members⟩

theorem takes_objectRest (h : LeadsTo member state members final) {tail : List Char}
    (htext : prettyText depth (.object members) = '\x7b' :: tail) :
    Takes (objectRest stringRest member state) (tail ++ rest) final rest := by
  cases members with
  | nil =>
      cases h
      obtain rfl : ['\x7d'] = tail := List.tail_eq_of_cons_eq htext
      refine .bind (takes_blanks_none (by decide)) ?_
      exact .bind (takes_accept '\x7d' _) (.ite_pos rfl (takes_pure _ _))
  | cons first members =>
      obtain rfl := List.tail_eq_of_cons_eq ((prettyText_object_cons _ _ _).symm.trans htext)
      have hloop : Takes (loop .malformed (objectStep stringRest member) state)
          ([] ++ (joinWith (',' :: newLine (depth + 1))
            ((first :: members).map (memberText (depth + 1))) ++ (newLine depth ++ '\x7d' :: rest)))
          final rest := takes_loop_objectStep h (by simp) (List.forall_mem_nil _)
      obtain ⟨tail, htail⟩ := exists_joinWith_eq_cons (',' :: newLine (depth + 1)) '"' _
        (members.map (memberText (depth + 1)))
      rw [List.map_cons, memberText, htail] at hloop ⊢
      simp only [List.append_assoc]
      refine .bind (takes_blanks_cons (isBlank_newLine _) (by decide)) ?_
      exact .bind (takes_accept_of_head?_ne (by simp)) (.ite_neg (by simp) hloop)

/-- A record is read from an object whose members lead to what the record is put together from. -/
theorem readsAs_record {initial : σ} {finish : σ → Reader α} {ofItems : Reader α} {result : α}
    (h : LeadsTo member initial members final)
    (hfinish : ∀ rest, Takes (finish final) rest result rest) :
    ReadsAs (recordValue (objectRest stringRest member initial >>= finish) ofItems)
      (.object members) result where
  begins depth := by
    obtain ⟨tail, htail⟩ := exists_prettyText_object depth members
    exact ⟨'\x7b', tail, htail, by decide, by decide⟩
  takes depth front rest hfront hrest := by
    obtain ⟨tail, htail⟩ := exists_prettyText_object depth members
    rw [htail]
    refine .bind (takes_blanks_cons hfront (by decide)) (.bind (takes_accept '\x7b' _) ?_)
    exact .ite_pos rfl (.bind (takes_objectRest h htail) (hfinish rest))

/-- A field that has not been found before is read from its member. -/
theorem takes_memberField {field : Reader α} {value : Json} {result : α}
    (h : ReadsAs field value result) (hrest : EndsValue rest) :
    Takes (memberField none field) (':' :: ' ' :: (prettyText depth value ++ rest)) (some result)
      rest := by
  have hcolon : Takes colon (':' :: ' ' :: (prettyText depth value ++ rest)) ()
      (' ' :: (prettyText depth value ++ rest)) :=
    .bind (takes_blanks_none (by decide)) (takes_expect _ _ _)
  have hfield : Takes field (' ' :: (prettyText depth value ++ rest)) result rest :=
    h.takes depth [' '] rest (List.forall_mem_singleton.mpr rfl) hrest
  rw [memberField, Option.isSome_none]
  exact .bind hcolon (.bind hfield (takes_pure _ _))

end Objects

/-! ### Whole texts -/

/-- A text that holds nothing but a value is read as a whole. -/
theorem whole_pretty {reader : Reader α} {value : Json} {result : α}
    (h : ReadsAs reader value result) : whole reader value.pretty.toList = .ok result := by
  have htakes := h.takes 0 [] [] (List.forall_mem_nil _) endsValue_nil
  rw [List.nil_append, List.append_nil, Takes] at htakes
  rw [pretty, String.toList_ofList, whole, htakes]
  rfl

end Sequitur.Json
