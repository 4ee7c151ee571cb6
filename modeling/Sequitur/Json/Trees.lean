import Sequitur.Json.Value
import Sequitur.Rule

/-!
# Terms and rules as JSON

A term is an object with one member, whose key names the kind of the node and whose value
holds its parts; a rule is an object with its premises and its conclusion. Parts that a
node does not know are ignored, and parts that it needs may not be missing.
-/

namespace Sequitur

namespace Json

theorem sizeOf_lookup_lt {key : String} {members : List (String × Json)} {value : Json}
    (h : members.lookup key = some value) : sizeOf value < sizeOf members := by
  induction members with
  | nil => simp at h
  | cons member members ih =>
      obtain ⟨k, v⟩ := member
      rw [List.lookup_cons] at h
      split at h
      · injection h with h
        subst h
        simp only [List.cons.sizeOf_spec, Prod.mk.sizeOf_spec]
        omega
      · have := ih h
        simp only [List.cons.sizeOf_spec]
        omega

theorem sizeOf_get?_lt {key : String} {json value : Json} (h : json.get? key = some value) :
    sizeOf value < sizeOf json := by
  cases json with
  | object members =>
      have := sizeOf_lookup_lt h
      simp only [Json.object.sizeOf_spec]
      omega
  | _ => simp [get?] at h

def string? (key : String) (json : Json) : Option String :=
  match json.get? key with
  | some (.string value) => some value
  | _ => none

def record (members : List (String × Json)) : Json := ofMembers members

end Json

mutual

def Term.toJson : Term → Json
  | .symbol name => .record [("Symbol", .string name)]
  | .parenthesized inner => .record [("Parenthesized", inner.toJson)]
  | .subscript base indices =>
      .record [("Subscript",
        .record [("base", base.toJson), ("indices", .array (Term.toJsonAll indices))])]
  | .application function arguments =>
      .record [("Application",
        .record [("func", function.toJson), ("args", .array (Term.toJsonAll arguments))])]
  | .unary operator operand =>
      .record [("Unary", .record [("op", .string operator), ("operand", operand.toJson)])]
  | .binary operator left right =>
      .record [("Binary",
        .record [("op", .string operator), ("left", left.toJson), ("right", right.toJson)])]

def Term.toJsonAll : List Term → List Json
  | [] => []
  | term :: terms => term.toJson :: Term.toJsonAll terms

end

mutual

def Term.ofJson? (json : Json) : Option Term :=
  match json with
  | .object [(kind, body)] =>
      if kind = "Symbol" then
        match body with
        | .string name => some (.symbol name)
        | _ => none
      else if kind = "Parenthesized" then (Term.ofJson? body).map .parenthesized
      else if kind = "Subscript" then do
        let base ← Term.field? body "base"
        let indices ← Term.fields? body "indices"
        return .subscript base indices
      else if kind = "Application" then do
        let function ← Term.field? body "func"
        let arguments ← Term.fields? body "args"
        return .application function arguments
      else if kind = "Unary" then do
        let operator ← body.string? "op"
        let operand ← Term.field? body "operand"
        return .unary operator operand
      else if kind = "Binary" then do
        let operator ← body.string? "op"
        let left ← Term.field? body "left"
        let right ← Term.field? body "right"
        return .binary operator left right
      else none
  | _ => none
termination_by (sizeOf json, 0)

def Term.field? (json : Json) (key : String) : Option Term :=
  match h : json.get? key with
  | some value =>
      have := Json.sizeOf_get?_lt h
      Term.ofJson? value
  | none => none
termination_by (sizeOf json, 1)

/-- The terms that the items of an array in an object stand for. -/
def Term.fields? (json : Json) (key : String) : Option (List Term) :=
  match h : json.get? key with
  | some (.array items) =>
      have := Json.sizeOf_get?_lt h
      Term.ofJsonAll? items
  | _ => none
termination_by (sizeOf json, 1)
decreasing_by
  simp only [Json.array.sizeOf_spec] at this
  omega

def Term.ofJsonAll? (items : List Json) : Option (List Term) :=
  match items with
  | [] => some []
  | item :: items => do
      let term ← Term.ofJson? item
      let terms ← Term.ofJsonAll? items
      return term :: terms
termination_by (sizeOf items, 0)

end

def Rule.toJson (rule : Rule) : Json :=
  .record [("premises", .array (Term.toJsonAll rule.premises)),
    ("conclusion", rule.conclusion.toJson)]

/-- The rule that a JSON value stands for: an object with its parts, or an array of the
parts in their order. -/
def Rule.ofJson? : Json → Option Rule
  | .array [.array premises, conclusion] => do
      return ⟨← Term.ofJsonAll? premises, ← Term.ofJson? conclusion⟩
  | json => do
      return ⟨← Term.fields? json "premises", ← Term.field? json "conclusion"⟩

end Sequitur
