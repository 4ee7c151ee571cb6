import Sequitur.Rule

/-!
# Nodes that are left without grouping

Taking the grouping nodes out of a term leaves its other nodes in their order, each without
the grouping nodes inside it. So the size of a term, which counts no grouping nodes, stays.
-/

namespace Sequitur

namespace Term

theorem isParenthesized_normalized (term : Term) : term.normalized.isParenthesized = false := by
  match term with
  | .parenthesized inner => exact isParenthesized_normalized inner
  | .symbol .. | .subscript .. | .application .. | .unary .. | .binary .. => rfl

mutual

/-- The nodes of a normalized term are those of the term that are no grouping nodes. -/
theorem walk_normalized : (term : Term) →
    term.normalized.walk = (term.walk.filter (!·.isParenthesized)).map normalized
  | .symbol _ => rfl
  | .parenthesized inner => by
      rw [normalized, walk, walk_normalized inner]
      rfl
  | .subscript base indices => by
      rw [normalized, walk, walk, walk_normalized base, walkAll_normalizedAll indices]
      simp [isParenthesized, normalized]
  | .application function arguments => by
      rw [normalized, walk, walk, walk_normalized function, walkAll_normalizedAll arguments]
      simp [isParenthesized, normalized]
  | .unary _ operand => by
      rw [normalized, walk, walk, walk_normalized operand]
      rfl
  | .binary _ left right => by
      rw [normalized, walk, walk, walk_normalized left, walk_normalized right]
      simp [isParenthesized, normalized]

theorem walkAll_normalizedAll : (terms : List Term) →
    walkAll (normalizedAll terms) = ((walkAll terms).filter (!·.isParenthesized)).map normalized
  | [] => rfl
  | term :: terms => by
      rw [normalizedAll, walkAll, walkAll, walk_normalized term, walkAll_normalizedAll terms,
        List.filter_append, List.map_append]

end

/-- No node of a normalized term is a grouping node. -/
theorem isParenthesized_eq_false_of_mem_walk_normalized {term node : Term}
    (h : node ∈ term.normalized.walk) : node.isParenthesized = false := by
  rw [walk_normalized] at h
  obtain ⟨source, -, rfl⟩ := List.mem_map.mp h
  exact isParenthesized_normalized source

@[simp] theorem size_normalized (term : Term) : term.normalized.size = term.size := by
  have hall : ∀ node ∈ term.normalized.walk, (!node.isParenthesized) = true := by
    intro node hnode
    rw [isParenthesized_eq_false_of_mem_walk_normalized hnode, Bool.not_false]
  rw [size, List.filter_eq_self.mpr hall, walk_normalized, List.length_map, size]

/-- A term has a node that is no grouping node. -/
theorem size_pos (term : Term) : 0 < term.size := by
  rw [← size_normalized, size, walk_eq, List.filter_cons_of_pos]
  · exact Nat.succ_pos _
  · rw [isParenthesized_normalized, Bool.not_false]

theorem sizeAll_append (terms others : List Term) :
    sizeAll (terms ++ others) = sizeAll terms + sizeAll others := by
  induction terms with
  | nil => rw [List.nil_append, sizeAll, Nat.zero_add]
  | cons term terms ih => rw [List.cons_append, sizeAll, sizeAll, ih, Nat.add_assoc]

theorem sizeAll_map_normalized (terms : List Term) :
    sizeAll (terms.map normalized) = sizeAll terms := by
  induction terms with
  | nil => rfl
  | cons term terms ih => rw [List.map_cons, sizeAll, sizeAll, ih, size_normalized]

/-- Every term that is taken out of a list counts for at least one node. -/
theorem sizeAll_add_length_le {terms others : List Term} (h : terms.Sublist others) :
    sizeAll terms + others.length ≤ sizeAll others + terms.length := by
  induction h with
  | slnil => exact Nat.le_refl _
  | cons term _ ih =>
      have hterm := term.size_pos
      rw [sizeAll, List.length_cons]
      omega
  | cons_cons term _ ih =>
      rw [sizeAll, sizeAll, List.length_cons, List.length_cons]
      omega

end Term

namespace Rule

theorem terms_normalized (rule : Rule) :
    rule.normalized.terms = rule.terms.map Term.normalized := by
  simp [terms, normalized]

@[simp] theorem size_normalized (rule : Rule) : rule.normalized.size = rule.size := by
  rw [size, terms_normalized, Term.sizeAll_map_normalized, size]

/-- A rule that has lost premises is smaller. -/
theorem size_lt_of_sublist {rule parent : Rule} (hpremises : rule.premises.Sublist parent.premises)
    (hconclusion : rule.conclusion = parent.conclusion)
    (hlength : rule.premises.length < parent.premises.length) : rule.size < parent.size := by
  have hsizes := Term.sizeAll_add_length_le hpremises
  rw [size, size, terms, terms, Term.sizeAll_append, Term.sizeAll_append, hconclusion]
  omega

end Rule

end Sequitur
