import Sequitur.Proofs.Notation.Lexing
import Sequitur.Rule

/-!
# Terms that can be written

Any tree is a term, but not every term has a text: the names of its symbols have to be
names, its operators have to be operators, and no subscript or application may be without
indices or arguments. This is asked of every node of a term, and taking the grouping nodes
out changes nothing about it.
-/

namespace Sequitur

open Notation

namespace Term

/-- What a node by itself has to satisfy to be written. -/
def IsWritableNode : Term → Prop
  | .symbol name => IsSymbolName name
  | .parenthesized _ => True
  | .subscript _ indices => indices ≠ []
  | .application _ arguments => arguments ≠ []
  | .unary operator _ => IsOperatorText operator
  | .binary operator _ _ => IsOperatorText operator

/-- A term is writable when each of its nodes is. -/
def Writable (term : Term) : Prop := ∀ node ∈ term.walk, node.IsWritableNode

@[simp] theorem writable_symbol (name : String) :
    (symbol name).Writable ↔ IsSymbolName name := by
  simp [Writable, walk, IsWritableNode]

@[simp] theorem writable_parenthesized (inner : Term) :
    (parenthesized inner).Writable ↔ inner.Writable := by
  simp [Writable, walk, IsWritableNode]

theorem forall_mem_walkAll {p : Term → Prop} {terms : List Term} :
    (∀ node ∈ walkAll terms, p node) ↔ ∀ term ∈ terms, ∀ node ∈ term.walk, p node := by
  rw [walkAll_eq_flatMap]
  simp only [List.mem_flatMap]
  constructor
  · intro h term hterm node hnode
    exact h node ⟨term, hterm, hnode⟩
  · rintro h node ⟨term, hterm, hnode⟩
    exact h term hterm node hnode

@[simp] theorem writable_subscript (base : Term) (indices : List Term) :
    (subscript base indices).Writable ↔
      indices ≠ [] ∧ base.Writable ∧ ∀ term ∈ indices, term.Writable := by
  simp only [Writable, walk, List.forall_mem_cons, List.forall_mem_append, forall_mem_walkAll,
    IsWritableNode]

@[simp] theorem writable_application (function : Term) (arguments : List Term) :
    (application function arguments).Writable ↔
      arguments ≠ [] ∧ function.Writable ∧ ∀ term ∈ arguments, term.Writable := by
  simp only [Writable, walk, List.forall_mem_cons, List.forall_mem_append, forall_mem_walkAll,
    IsWritableNode]

@[simp] theorem writable_unary (operator : String) (operand : Term) :
    (unary operator operand).Writable ↔ IsOperatorText operator ∧ operand.Writable := by
  simp only [Writable, walk, List.forall_mem_cons, IsWritableNode]

@[simp] theorem writable_binary (operator : String) (left right : Term) :
    (binary operator left right).Writable ↔
      IsOperatorText operator ∧ left.Writable ∧ right.Writable := by
  simp only [Writable, walk, List.forall_mem_cons, List.forall_mem_append, IsWritableNode]

mutual

theorem writable_normalized : (term : Term) → (term.normalized.Writable ↔ term.Writable)
  | .symbol _ => Iff.rfl
  | .parenthesized inner => by
      rw [normalized, writable_parenthesized, writable_normalized inner]
  | .subscript base indices => by
      rw [normalized, writable_subscript, writable_subscript, writable_normalized base,
        forall_writable_normalizedAll indices, normalizedAll_eq_map, Ne, List.map_eq_nil_iff]
  | .application function arguments => by
      rw [normalized, writable_application, writable_application, writable_normalized function,
        forall_writable_normalizedAll arguments, normalizedAll_eq_map, Ne, List.map_eq_nil_iff]
  | .unary _ operand => by
      rw [normalized, writable_unary, writable_unary, writable_normalized operand]
  | .binary _ left right => by
      rw [normalized, writable_binary, writable_binary, writable_normalized left,
        writable_normalized right]

theorem forall_writable_normalizedAll : (terms : List Term) →
    ((∀ term ∈ normalizedAll terms, term.Writable) ↔ ∀ term ∈ terms, term.Writable)
  | [] => by simp [normalizedAll]
  | term :: terms => by
      rw [normalizedAll, List.forall_mem_cons, List.forall_mem_cons, writable_normalized term,
        forall_writable_normalizedAll terms]

end

end Term

namespace Rule

/-- A rule is writable when its terms are. -/
def Writable (rule : Rule) : Prop := ∀ term ∈ rule.terms, term.Writable

theorem writable_iff (rule : Rule) :
    rule.Writable ↔ (∀ premise ∈ rule.premises, premise.Writable) ∧ rule.conclusion.Writable := by
  simp only [Writable, terms, List.forall_mem_append, List.forall_mem_singleton]

theorem writable_normalized (rule : Rule) : rule.normalized.Writable ↔ rule.Writable := by
  rw [writable_iff, writable_iff, normalized, List.forall_mem_map, Term.writable_normalized]
  simp only [Term.writable_normalized]

end Rule

end Sequitur
