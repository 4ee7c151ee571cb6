import Sequitur.Notation.Lexeme
import Sequitur.Rule
import Sequitur.Text.Join

/-!
# Writing the canonical notation

Every application of an operator stands in parentheses, with single spaces between its
parts. A rule is one line: the premises, the arrow and the conclusion.
-/

namespace Sequitur.Notation.Canonical

open Sequitur.Text

mutual

def termText : Term → List Char
  | .symbol name => name.toList
  | .parenthesized inner => '(' :: termText inner ++ [')']
  | .subscript base indices => termText base ++ '[' :: listed (termTexts indices) ++ [']']
  | .application function arguments =>
      termText function ++ '(' :: listed (termTexts arguments) ++ [')']
  | .unary operator operand => '(' :: operator.toList ++ ' ' :: termText operand ++ [')']
  | .binary operator left right =>
      '(' :: termText left ++ ' ' :: operator.toList ++ ' ' :: termText right ++ [')']

def termTexts : List Term → List (List Char)
  | [] => []
  | term :: terms => termText term :: termTexts terms

end

theorem termTexts_eq_map (terms : List Term) : termTexts terms = terms.map termText := by
  induction terms with
  | nil => rfl
  | cons term terms ih => rw [termTexts, ih, List.map_cons]

theorem termTexts_ne_nil {terms : List Term} (h : terms ≠ []) : termTexts terms ≠ [] := by
  rw [termTexts_eq_map, Ne, List.map_eq_nil_iff]
  exact h

/-- The text of a rule; an axiom is its conclusion alone. -/
def ruleText (rule : Rule) : List Char :=
  if rule.isAxiom then termText rule.conclusion
  else
    listed (rule.premises.map termText) ++ ' ' :: arrowText ++ ' ' :: termText rule.conclusion

def printTerm (term : Term) : String := String.ofList (termText term)

def printRule (rule : Rule) : String := String.ofList (ruleText rule)

/-- Writes a pool of rules, one on each line. -/
def printPool (pool : List Rule) : String :=
  String.ofList (joinWith ['\n'] (pool.map ruleText))

end Sequitur.Notation.Canonical
