import Sequitur.Term

/-!
# Rules

A rule has premises and one conclusion; a rule without premises is an axiom. A pool of
rules is a list of rules in the order of their text.
-/

namespace Sequitur

/-- Premises and a conclusion that follows from them. -/
structure Rule where
  premises : List Term
  conclusion : Term
  deriving DecidableEq, Repr, Inhabited

namespace Rule

/-- The rule whose last term is the conclusion; no rule has no term. -/
def ofTerms (terms : List Term) : Option Rule :=
  terms.getLast?.map (Rule.mk terms.dropLast)

/-- The terms of a rule: the premises, then the conclusion. -/
def terms (rule : Rule) : List Term := rule.premises ++ [rule.conclusion]

def isAxiom (rule : Rule) : Bool := rule.premises.isEmpty

/-- The size of a rule is the sum of the sizes of its terms. -/
def size (rule : Rule) : Nat := Term.sizeAll rule.terms

/-- The rule without the grouping nodes of its terms. -/
def normalized (rule : Rule) : Rule :=
  ⟨rule.premises.map Term.normalized, rule.conclusion.normalized⟩

theorem ofTerms_terms (rule : Rule) : ofTerms rule.terms = some rule := by
  simp [ofTerms, terms]

end Rule

end Sequitur
