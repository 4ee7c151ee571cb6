import Sequitur.Rule
import Sequitur.Text.Join

/-!
# Writing the display notation

An infix operator has a space on either side, and an operand with an infix operator of its
own stands in parentheses. A prefix operator stands before its operand, parted from it by
a space when the operand begins with a prefix operator. What carries a suffix stands in
parentheses when an operator would otherwise come between.
-/

namespace Sequitur.Notation.Display

open Sequitur.Text

def grouped (text : List Char) : List Char := '(' :: text ++ [')']

/-- The text of what a suffix applies to: operators are grouped. -/
def asHead (term : Term) (text : List Char) : List Char :=
  match term with
  | .unary .. | .binary .. => grouped text
  | _ => text

/-- The text of an operand of an infix operator: infix operators are grouped. -/
def asInfixOperand (term : Term) (text : List Char) : List Char :=
  match term with
  | .binary .. => grouped text
  | _ => text

/-- The text of the operand of a prefix operator: infix operators are grouped, and prefix
operators kept apart. -/
def asPrefixOperand (term : Term) (text : List Char) : List Char :=
  match term with
  | .binary .. => grouped text
  | .unary .. => ' ' :: text
  | _ => text

mutual

def termText : Term → List Char
  | .symbol name => name.toList
  | .parenthesized inner => grouped (termText inner)
  | .subscript base indices =>
      asHead base (termText base) ++ '[' :: listed (termTexts indices) ++ [']']
  | .application function arguments =>
      asHead function (termText function) ++ '(' :: listed (termTexts arguments) ++ [')']
  | .unary operator operand => operator.toList ++ asPrefixOperand operand (termText operand)
  | .binary operator left right =>
      asInfixOperand left (termText left) ++ ' ' :: operator.toList ++
        ' ' :: asInfixOperand right (termText right)

def termTexts : List Term → List (List Char)
  | [] => []
  | term :: terms => termText term :: termTexts terms

end

theorem termTexts_eq_map (terms : List Term) : termTexts terms = terms.map termText := by
  induction terms with
  | nil => rfl
  | cons term terms ih => rw [termTexts, ih, List.map_cons]

theorem termTexts_ne_nil {terms : List Term} (h : terms ≠ []) : termTexts terms ≠ [] := by
  rw [termTexts_eq_map, Ne, List.map_eq_nil_iff]
  exact h

def minSeparatorWidth : Nat := 4

/-- The separator below lines: as wide as the widest of them. -/
def separatorBelow (lines : List (List Char)) : List Char :=
  List.replicate ((lines.map List.length).foldl max minSeparatorWidth) '-'

/-- The lines of a rule; an axiom is its conclusion alone. -/
def ruleLines (rule : Rule) : List (List Char) :=
  if rule.isAxiom then [termText rule.conclusion]
  else
    let premises := rule.premises.map termText
    premises ++ [separatorBelow premises, termText rule.conclusion]

def ruleText (rule : Rule) : List Char := joinWith ['\n'] (ruleLines rule)

def printTerm (term : Term) : String := String.ofList (termText term)

def printRule (rule : Rule) : String := String.ofList (ruleText rule)

/-- Writes a pool of rules with an empty line between two rules. -/
def printPool (pool : List Rule) : String :=
  String.ofList (joinWith ['\n', '\n'] (pool.map ruleText))

end Sequitur.Notation.Display
