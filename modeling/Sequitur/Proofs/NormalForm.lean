import Mathlib.Data.List.Basic
import Sequitur.Proofs.Nodes

/-!
# Normal form

Whether a term is in normal form can be told in two ways: a walk over the term visits no grouping
node, or taking the grouping nodes out changes nothing. Both say the same of every term, and so
what is left when the grouping nodes are out is in normal form and stays as it is.

A walk, the size and the terms of a rule go along with this: they are those of the normal form,
as far as nodes are concerned that are no grouping nodes.
-/

namespace Sequitur

namespace Term

theorem isNormalized_iff_forall_mem_walk (term : Term) :
    term.isNormalized = true ↔ ∀ node ∈ term.walk, node.isParenthesized = false := by
  simp only [isNormalized, List.all_eq_true, Bool.not_eq_true']

/-- No grouping node is left when they are taken out. -/
theorem isNormalized_normalized (term : Term) : term.normalized.isNormalized = true := by
  rw [isNormalized_iff_forall_mem_walk]
  intro node hnode
  exact isParenthesized_eq_false_of_mem_walk_normalized hnode

mutual

/-- A term without grouping nodes has nothing to lose. -/
theorem normalized_eq_self_of_walk : (term : Term) →
    (∀ node ∈ term.walk, node.isParenthesized = false) → term.normalized = term
  | .symbol _, _ => rfl
  | .parenthesized inner, h => by
      have hnode : (parenthesized inner).isParenthesized = false := h _ List.mem_cons_self
      exact absurd hnode (by simp [isParenthesized])
  | .subscript base indices, h => by
      rw [walk, List.forall_mem_cons, List.forall_mem_append] at h
      obtain ⟨-, hbase, hindices⟩ := h
      rw [normalized, normalized_eq_self_of_walk base hbase,
        normalizedAll_eq_self_of_walkAll indices hindices]
  | .application function arguments, h => by
      rw [walk, List.forall_mem_cons, List.forall_mem_append] at h
      obtain ⟨-, hfunction, harguments⟩ := h
      rw [normalized, normalized_eq_self_of_walk function hfunction,
        normalizedAll_eq_self_of_walkAll arguments harguments]
  | .unary _ operand, h => by
      rw [walk, List.forall_mem_cons] at h
      rw [normalized, normalized_eq_self_of_walk operand h.2]
  | .binary _ left right, h => by
      rw [walk, List.forall_mem_cons, List.forall_mem_append] at h
      obtain ⟨-, hleft, hright⟩ := h
      rw [normalized, normalized_eq_self_of_walk left hleft,
        normalized_eq_self_of_walk right hright]

theorem normalizedAll_eq_self_of_walkAll : (terms : List Term) →
    (∀ node ∈ walkAll terms, node.isParenthesized = false) → normalizedAll terms = terms
  | [], _ => rfl
  | term :: terms, h => by
      rw [walkAll, List.forall_mem_append] at h
      rw [normalizedAll, normalized_eq_self_of_walk term h.1,
        normalizedAll_eq_self_of_walkAll terms h.2]

end

theorem isNormalized_iff (term : Term) : term.isNormalized = true ↔ term.normalized = term := by
  constructor
  · intro h
    exact normalized_eq_self_of_walk term ((isNormalized_iff_forall_mem_walk term).mp h)
  · intro h
    rw [← h]
    exact isNormalized_normalized term

@[simp] theorem normalized_normalized (term : Term) :
    term.normalized.normalized = term.normalized :=
  (isNormalized_iff term.normalized).mp (isNormalized_normalized term)

/-- The nodes of a term are those that its size counts and its grouping nodes. -/
theorem size_add_countP_isParenthesized (term : Term) :
    term.size + term.walk.countP isParenthesized = term.walk.length := by
  rw [size, List.countP_eq_length_filter, Nat.add_comm]
  exact (List.length_eq_length_filter_add isParenthesized).symm

end Term

namespace Rule

theorem ofTerms_eq_none_iff {terms : List Term} : ofTerms terms = none ↔ terms = [] := by
  rw [ofTerms, Option.map_eq_none_iff, List.getLast?_eq_none_iff]

/-- The terms that make a rule are the terms of the rule, and no others. -/
theorem ofTerms_eq_some_iff {terms : List Term} {rule : Rule} :
    ofTerms terms = some rule ↔ terms = rule.terms := by
  constructor
  · intro h
    obtain ⟨conclusion, hlast, rfl⟩ := Option.map_eq_some_iff.mp h
    exact (List.dropLast_append_getLast? conclusion hlast).symm
  · rintro rfl
    exact rule.ofTerms_terms

theorem ofTerms_map_normalized (terms : List Term) :
    ofTerms (terms.map Term.normalized) = (ofTerms terms).map normalized := by
  simp [ofTerms, normalized, Function.comp_def, List.map_dropLast]

/-- A rule is in normal form when its terms are. -/
def IsNormalized (rule : Rule) : Prop := ∀ term ∈ rule.terms, term.isNormalized = true

theorem isNormalized_normalized (rule : Rule) : rule.normalized.IsNormalized := by
  intro term hterm
  rw [terms_normalized, List.mem_map] at hterm
  obtain ⟨source, -, rfl⟩ := hterm
  exact source.isNormalized_normalized

/-- A rule in normal form stays in it when it loses premises. -/
theorem IsNormalized.of_sublist {rule parent : Rule} (h : parent.IsNormalized)
    (hpremises : rule.premises.Sublist parent.premises)
    (hconclusion : rule.conclusion = parent.conclusion) : rule.IsNormalized := by
  have hterms : rule.terms.Sublist parent.terms := by
    rw [terms, terms, hconclusion]
    exact hpremises.append_right _
  intro term hterm
  exact h term (hterms.subset hterm)

end Rule

/-- A term is in normal form exactly when taking its grouping nodes out leaves it as it is, and
taking them out twice is taking them out once. A walk visits a term before its parts, and over the
normal form it visits the nodes that are no grouping nodes, each in its normal form. The size
counts all nodes but the grouping nodes, so it is that of the normal form and never zero. The
terms of a rule make that rule and no other, and they and the size of a rule go along with its
normal form. -/
theorem isNormalized_iff_and_walk_and_size_and_ofTerms_terms :
    (∀ term : Term,
      (term.isNormalized = true ↔ term.normalized = term) ∧
      term.normalized.normalized = term.normalized ∧
      term.walk = term :: term.children.flatMap Term.walk ∧
      term.normalized.walk =
        (term.walk.filter (!·.isParenthesized)).map Term.normalized ∧
      1 ≤ term.size ∧ term.size = term.normalized.size ∧
      term.size + term.walk.countP Term.isParenthesized = term.walk.length) ∧
    (∀ rule : Rule,
      rule.size = rule.normalized.size ∧
      rule.normalized.terms = rule.terms.map Term.normalized ∧
      Rule.ofTerms rule.terms = some rule) ∧
    ∀ terms : List Term,
      (Rule.ofTerms terms = none ↔ terms = []) ∧
      Rule.ofTerms (terms.map Term.normalized) = (Rule.ofTerms terms).map Rule.normalized ∧
      ∀ rule, Rule.ofTerms terms = some rule ↔ terms = rule.terms := by
  refine ⟨?_, ?_, ?_⟩
  · intro term
    exact ⟨term.isNormalized_iff, term.normalized_normalized, term.walk_eq, term.walk_normalized,
      term.size_pos, term.size_normalized.symm, term.size_add_countP_isParenthesized⟩
  · intro rule
    exact ⟨rule.size_normalized.symm, rule.terms_normalized, rule.ofTerms_terms⟩
  · intro terms
    refine ⟨Rule.ofTerms_eq_none_iff, Rule.ofTerms_map_normalized terms, ?_⟩
    intro rule
    exact Rule.ofTerms_eq_some_iff

end Sequitur
