import Sequitur.Json.Reader
import Sequitur.Proofs.Number.Binary64
import Sequitur.Proofs.Text.Scanning

/-!
# Numbers that are read

Wherever a number stands in a JSON text, what is read of it is an integer that a word of 64 bits
holds, with sign or without, or a finite number of the binary64 format. Both have an exact value.
-/

namespace Sequitur

open Number

/-! ### The numbers of JSON values -/

/-- The rational number that a JSON number is. -/
def JsonNumber.value : JsonNumber → ℚ
  | .integer n => n
  | .double x => x.value

/-- An integer that a word of 64 bits holds, with sign or without, or a finite binary64 number. -/
def JsonNumber.Fits : JsonNumber → Prop
  | .integer n =>
      isSigned64 n = true ∨ ∃ magnitude : Nat, n = magnitude ∧ isUnsigned64 magnitude = true
  | .double x => x.IsFinite

namespace Json

/-- Every number in the value fits. -/
inductive Fits : Json → Prop where
  | null : Fits .null
  | bool (value : Bool) : Fits (.bool value)
  | number {number : JsonNumber} (h : number.Fits) : Fits (.number number)
  | string (value : String) : Fits (.string value)
  | array {items : List Json} (h : ∀ item ∈ items, Fits item) : Fits (.array items)
  | object {members : List (String × Json)} (h : ∀ member ∈ members, Fits member.2) :
      Fits (.object members)

theorem Fits.get? {json value : Json} {key : String} (h : json.Fits)
    (hvalue : json.get? key = some value) : value.Fits := by
  cases h with
  | @object members h =>
      obtain ⟨before, after, rfl, -⟩ := List.lookup_eq_some_iff.mp hvalue
      exact h (key, value) (by simp)
  | _ => cases hvalue

/-! ### The value of the text of a number -/

variable {units result power : Nat} {exponent : Int} {parts : NumberParts}

theorem isMagnitude_of_scaleDown (h : scaleDown units power = some result) :
    Binary64.IsMagnitude result := by
  fun_induction scaleDown units power with
  | case1 power hpower =>
      obtain rfl := Option.some.inj h
      exact Binary64.isMagnitude_zero
  | case2 units power hpower hunits ih =>
      simp only [Option.bind_eq_bind, Option.bind_eq_some_iff] at h
      obtain ⟨divisor, -, quotient, -, hscale⟩ := h
      exact ih quotient hscale
  | case3 units power hpower =>
      simp only [Option.bind_eq_bind, Option.bind_eq_some_iff] at h
      obtain ⟨divisor, -, hdiv⟩ := h
      exact Binary64.isMagnitude_of_round hdiv

theorem isMagnitude_of_scaleUp (h : scaleUp units power = some result) :
    Binary64.IsMagnitude result := by
  unfold scaleUp at h
  split at h
  · obtain rfl := Option.some.inj h
    exact Binary64.isMagnitude_zero
  · split at h
    · cases h
    · simp only [Option.bind_eq_bind, Option.bind_eq_some_iff] at h
      obtain ⟨factor, -, hmul⟩ := h
      exact Binary64.isMagnitude_of_round hmul

theorem isMagnitude_of_scaled {significand : Nat} (h : scaled significand exponent = some result) :
    Binary64.IsMagnitude result := by
  simp only [scaled, Option.bind_eq_bind, Option.bind_eq_some_iff] at h
  obtain ⟨units, -, hscale⟩ := h
  split at hscale
  · exact isMagnitude_of_scaleUp hscale
  · exact isMagnitude_of_scaleDown hscale

theorem isMagnitude_of_magnitude (h : parts.magnitude = some result) :
    Binary64.IsMagnitude result := by
  unfold NumberParts.magnitude at h
  dsimp only at h
  split at h
  · exact isMagnitude_of_scaled h
  · split at h
    · split at h
      · obtain rfl := Option.some.inj h
        exact Binary64.isMagnitude_zero
      · cases h
    · exact isMagnitude_of_scaled h

theorem fits_of_integer? {n : Int} (h : parts.integer? = some n) :
    (JsonNumber.integer n).Fits := by
  simp only [NumberParts.integer?, Option.ite_none_right_eq_some] at h
  obtain ⟨-, h⟩ := h
  split at h
  · split at h
    · cases h
    · rw [signed64?, Option.ite_none_right_eq_some] at h
      obtain ⟨hsigned, hn⟩ := h
      obtain rfl := Option.some.inj hn
      exact .inl hsigned
  · split at h
    · next hunsigned =>
      obtain rfl := Option.some.inj h
      exact .inr ⟨_, rfl, hunsigned⟩
    · cases h

theorem fits_of_value {number : JsonNumber} (h : parts.value = some number) : number.Fits := by
  unfold NumberParts.value at h
  split at h
  · next n hinteger =>
    obtain rfl := Option.some.inj h
    exact fits_of_integer? hinteger
  · obtain ⟨units, hmagnitude, rfl⟩ := Option.map_eq_some_iff.mp h
    exact isMagnitude_of_magnitude hmagnitude

/-! ### Reading -/

open Text.Scanner

theorem yields_anyNumber : Yields anyNumber JsonNumber.Fits := by
  refine yields_bind fun parts => ?_
  cases hvalue : parts.value with
  | none => exact yields_throw _
  | some number => exact yields_pure (fits_of_value hvalue)

theorem yields_scalar (c : Char) : Yields (scalar c) Fits := by
  refine .ite (yields_bind fun _ => yields_pure .null) ?_
  refine .ite (yields_bind fun _ => yields_pure (.bool true)) ?_
  refine .ite (yields_bind fun _ => yields_pure (.bool false)) ?_
  refine .ite (yields_bind fun _ => yields_bind fun text => yields_pure (.string text)) ?_
  exact .ite (yields_anyNumber.bind fun number h => yields_pure (.number h)) (yields_throw _)

/-- The items that are read are of the kind that the reader of items yields. -/
theorem yields_arrayRest {item : Reader α} {kind : α → Prop} (h : Yields item kind) :
    Yields (arrayRest item) fun items => ∀ x ∈ items, kind x := by
  refine yields_bind fun _ => yields_bind fun closed => ?_
  refine .ite (yields_pure (List.forall_mem_nil _)) ?_
  refine yields_loop (fun items => ∀ x ∈ items, kind x) ?_ (List.forall_mem_nil _)
  intro items hitems
  refine h.bind fun x hx => ?_
  have hmore : ∀ y ∈ items ++ [x], kind y := by
    rw [List.forall_mem_append, List.forall_mem_singleton]
    exact ⟨hitems, hx⟩
  refine yields_bind fun _ => yields_bind fun comma => .ite ?_ ?_
  · refine yields_bind fun _ => yields_bind fun next => ?_
    exact .ite (yields_bind fun _ => yields_pure hmore) (yields_pure hmore)
  · exact yields_bind fun _ => yields_pure hmore

/-- What every member keeps up holds of what the members of an object amount to. -/
theorem yields_objectRest {key : Reader κ} {member : σ → κ → Reader σ} {initial : σ}
    {kind : σ → Prop} (hinitial : kind initial)
    (h : ∀ state name, kind state → Yields (member state name) kind) :
    Yields (objectRest key member initial) kind := by
  refine yields_bind fun _ => yields_bind fun closed => .ite (yields_pure hinitial) ?_
  refine yields_loop kind ?_ hinitial
  intro state hstate
  refine yields_bind fun _ => yields_bind fun _ => yields_bind fun name => ?_
  refine (h state name hstate).bind fun next hnext => ?_
  refine yields_bind fun _ => yields_bind fun comma => .ite (yields_pure hnext) ?_
  exact yields_bind fun _ => yields_pure hnext

theorem mem_insertMember {key : String} {value : α} {members : List (String × α)}
    {member : String × α} (h : member ∈ insertMember key value members) :
    member = (key, value) ∨ member ∈ members := by
  fun_induction insertMember key value members with
  | case1 => exact .inl (List.mem_singleton.mp h)
  | case2 k v members hlt => exact List.mem_cons.mp h
  | case3 v members hlt =>
      rcases List.mem_cons.mp h with h | h
      · exact .inl h
      · exact .inr (List.mem_cons_of_mem _ h)
  | case4 k v members hlt hne ih =>
      rcases List.mem_cons.mp h with rfl | h
      · exact .inr List.mem_cons_self
      · exact (ih h).imp id (List.mem_cons_of_mem _)

theorem yields_valueOfDepth (depth : Nat) : Yields (valueOfDepth depth) Fits := by
  induction depth with
  | zero =>
      refine yields_bind fun _ => yields_bind fun next => ?_
      cases next with
      | none => exact yields_throw _
      | some c => exact yields_scalar c
  | succ depth ih =>
      refine yields_bind fun _ => yields_bind fun next => ?_
      cases next with
      | none => exact yields_throw _
      | some c =>
          refine .ite (yields_bind fun _ => ?_) (.ite (yields_bind fun _ => ?_) (yields_scalar c))
          · exact (yields_arrayRest ih).bind fun items h => yields_pure (.array h)
          · have hmembers : Yields (objectRest stringRest (fun members key => do
                colon
                let value ← valueOfDepth depth
                return insertMember key value members) [])
                fun members => ∀ member ∈ members, member.2.Fits := by
              refine yields_objectRest (List.forall_mem_nil _) ?_
              intro members name hmembers
              refine yields_bind fun _ => ih.bind fun value hvalue => yields_pure ?_
              intro member hmember
              rcases mem_insertMember hmember with rfl | hmember
              · exact hvalue
              · exact hmembers member hmember
            exact hmembers.bind fun members h => yields_pure (.object h)

/-- The numbers of a value that is read from a text fit. -/
theorem fits_of_ofText? {text : String} {value : Json} (h : ofText? text = some value) :
    value.Fits := by
  rw [ofText?, whole] at h
  cases hread : anyValue text.toList with
  | error fault =>
      rw [hread] at h
      cases h
  | ok taken =>
      obtain ⟨found, rest⟩ := taken
      rw [hread] at h
      have hfound : found = value := by
        change Except.toOption (if _ then _ else _) = _ at h
        split at h
        · exact Option.some.inj h
        · cases h
      exact hfound ▸ yields_valueOfDepth maxDepth text.toList found rest hread

end Json

end Sequitur
