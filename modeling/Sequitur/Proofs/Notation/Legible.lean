import Sequitur.Proofs.Notation.Phrases
import Sequitur.Proofs.Notation.Writable

/-!
# The terms that readers make

A term that has been read is *legible*: it is writable and holds no grouping node. Legible
terms are closed under every kind of node but grouping, and the tokens of a text give legible
leaves, so whatever is put together from them by either grammar is legible.
-/

namespace Sequitur

open Notation

namespace Term

/-- Writable and without grouping nodes. -/
structure Legible (term : Term) : Prop where
  writable : term.Writable
  normalized_eq : term.normalized = term

theorem Legible.symbol {name : String} (hname : IsSymbolName name) : (symbol name).Legible :=
  ⟨(writable_symbol name).mpr hname, rfl⟩

theorem Legible.unary {operator : String} {operand : Term} (hoperator : IsOperatorText operator)
    (h : operand.Legible) : (unary operator operand).Legible :=
  ⟨(writable_unary operator operand).mpr ⟨hoperator, h.writable⟩, by
    rw [normalized, h.normalized_eq]⟩

theorem Legible.binary {operator : String} {left right : Term}
    (hoperator : IsOperatorText operator) (hleft : left.Legible) (hright : right.Legible) :
    (binary operator left right).Legible :=
  ⟨(writable_binary operator left right).mpr ⟨hoperator, hleft.writable, hright.writable⟩, by
    rw [normalized, hleft.normalized_eq, hright.normalized_eq]⟩

theorem map_normalized_of_legible {terms : List Term} (h : ∀ term ∈ terms, term.Legible) :
    terms.map normalized = terms := by
  rw [List.map_congr_left fun term hterm => (h term hterm).normalized_eq, List.map_id']

theorem Legible.subscript {base : Term} {indices : List Term} (hne : indices ≠ [])
    (hbase : base.Legible) (h : ∀ term ∈ indices, term.Legible) :
    (subscript base indices).Legible := by
  refine ⟨(writable_subscript base indices).mpr ⟨hne, hbase.writable, ?_⟩, ?_⟩
  · intro term hterm
    exact (h term hterm).writable
  · rw [normalized, normalizedAll_eq_map, hbase.normalized_eq, map_normalized_of_legible h]

theorem Legible.application {function : Term} {arguments : List Term} (hne : arguments ≠ [])
    (hfunction : function.Legible) (h : ∀ term ∈ arguments, term.Legible) :
    (application function arguments).Legible := by
  refine ⟨(writable_application function arguments).mpr ⟨hne, hfunction.writable, ?_⟩, ?_⟩
  · intro term hterm
    exact (h term hterm).writable
  · rw [normalized, normalizedAll_eq_map, hfunction.normalized_eq, map_normalized_of_legible h]

end Term

namespace Rule

/-- A rule is legible when its terms are. -/
def Legible (rule : Rule) : Prop := ∀ term ∈ rule.terms, term.Legible

theorem legible_iff (rule : Rule) :
    rule.Legible ↔ (∀ premise ∈ rule.premises, premise.Legible) ∧ rule.conclusion.Legible := by
  simp only [Legible, terms, List.forall_mem_append, List.forall_mem_singleton]

theorem Legible.writable {rule : Rule} (h : rule.Legible) : rule.Writable := fun term hterm =>
  (h term hterm).writable

theorem Legible.normalized_eq {rule : Rule} (h : rule.Legible) : rule.normalized = rule := by
  obtain ⟨hpremises, hconclusion⟩ := (legible_iff rule).mp h
  rw [normalized, Term.map_normalized_of_legible hpremises, hconclusion.normalized_eq]

/-- Where printed rules are read back without their grouping nodes, legible rules are told apart
by what they are printed as. -/
theorem Legible.eq_of_print_eq {print : Rule → String} {read : String → Except ε Rule}
    (hread : ∀ rule, rule.Writable → read (print rule) = .ok rule.normalized) {rule other : Rule}
    (hrule : rule.Legible) (hother : other.Legible) (h : print rule = print other) :
    rule = other := by
  have hsame := hread rule hrule.writable
  rw [h, hread other hother.writable, hrule.normalized_eq, hother.normalized_eq] at hsame
  exact (Except.ok.inj hsame).symm

theorem map_normalized_of_legible {pool : List Rule} (h : ∀ rule ∈ pool, rule.Legible) :
    pool.map normalized = pool := by
  rw [List.map_congr_left fun rule hrule => (h rule hrule).normalized_eq, List.map_id']

end Rule

namespace Notation

/-- Read from tokens that a text can have, the term is legible. -/
def LegibleIfCut (read : List Token) (term : Term) : Prop :=
  (∀ token ∈ read, token.IsCut) → term.Legible

theorem Listing.legible {read : List Token} {terms : List Term}
    (h : Listing LegibleIfCut read terms) (hcut : ∀ token ∈ read, token.IsCut) :
    ∀ term ∈ terms, term.Legible := by
  induction h with
  | one hterm =>
      intro term hmem
      rw [List.mem_singleton.mp hmem]
      exact hterm hcut
  | more hterm _ ih =>
      rw [List.forall_mem_append, List.forall_mem_cons] at hcut
      rw [List.forall_mem_cons]
      exact ⟨hterm hcut.1, ih hcut.2.2⟩

theorem Suffixed.legible {read : List Token} {term : Term}
    (h : Suffixed LegibleIfCut LegibleIfCut read term) : LegibleIfCut read term := by
  intro hcut
  induction h with
  | @symbol name =>
      have hname : (Token.symbol name).IsCut := hcut _ (by simp)
      exact .symbol hname
  | group hterm =>
      exact hterm fun token htoken => hcut token (by simp [htoken])
  | subscript _ hterms ih =>
      refine .subscript hterms.ne_nil (ih ?_) (hterms.legible ?_)
      · exact fun token htoken => hcut token (by simp [htoken])
      · exact fun token htoken => hcut token (by simp [htoken])
  | application _ hterms ih =>
      refine .application hterms.ne_nil (ih ?_) (hterms.legible ?_)
      · exact fun token htoken => hcut token (by simp [htoken])
      · exact fun token htoken => hcut token (by simp [htoken])

theorem LegibleIfCut.unary {operator : String} {read : List Token} {operand : Term}
    (h : LegibleIfCut read operand) :
    LegibleIfCut (.operator operator :: read) (.unary operator operand) := by
  intro hcut
  rw [List.forall_mem_cons] at hcut
  exact .unary hcut.1 (h hcut.2)

theorem LegibleIfCut.binary {operator : String} {front back : List Token} {left right : Term}
    (hleft : LegibleIfCut front left) (hright : LegibleIfCut back right) :
    LegibleIfCut (front ++ .operator operator :: back) (.binary operator left right) := by
  intro hcut
  rw [List.forall_mem_append, List.forall_mem_cons] at hcut
  exact .binary hcut.2.1 (hleft hcut.1) (hright hcut.2.2)

/-- A rule that is read from a line is legible, if the terms that are read are. -/
theorem IsRule.legible {item : List Token → Term → Prop} {line : List Char} {rule : Rule}
    (hitem : ∀ read term, item read term → LegibleIfCut read term)
    (h : IsRule item (tokens line) rule) : rule.Legible := by
  have hcut : ∀ token ∈ tokens line, token.IsCut := fun token => isCut_of_mem_tokens
  rw [Rule.legible_iff]
  generalize tokens line = read at h hcut
  cases h with
  | axiom_ hconclusion => exact ⟨by simp, hitem _ _ hconclusion hcut⟩
  | inference hpremises hconclusion =>
      rw [List.forall_mem_append, List.forall_mem_cons] at hcut
      exact ⟨(hpremises.imp hitem).legible hcut.1, hitem _ _ hconclusion hcut.2.2⟩

end Notation

end Sequitur
