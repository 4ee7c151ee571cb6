import Sequitur.Notation.Phrases

/-!
# Lines of the display notation

A term has at most one infix operator, whose operands may carry prefix operators. Suffixes
bind tighter than prefix operators and those tighter than the infix operator:

* term: operand, then optionally an operator and another operand;
* operand: an operator and an operand, or an atom and its suffixes;
* atom: a symbol, or a term in parentheses;
* suffix: terms in brackets, or terms in parentheses, with commas between them.

A line holds a term, or is the one-line form of a rule: terms with commas between them,
the arrow and a term.
-/

namespace Sequitur.Notation.Display

open Reader

variable (stop : Nat)

def infixTerm (operand : Reader Term n) : Reader Term n :=
  phrase stop .displayTerm <| operand.withTail fun left =>
    (operator stop).andThen fun text => operand.map (Term.binary text left)

def operandStep (n : Nat) (operand : Reader Term n) : Reader Term (n + 1) :=
  let term := infixTerm stop operand
  phrase stop .prefixTerm <|
    (phrase stop .unaryTerm <|
      (operator stop).andThen fun text => operand.map (Term.unary text)).orElse
    (phrase stop .postfixTerm <|
      (atom stop .displayGroup term).withTails (suffix stop .displayIndex .displayArguments term))

def operand : Reader Term n := recursive (operandStep stop)

def term : Reader Term n := infixTerm stop (operand stop)

def termOfLine (line : List Char) : Except Expectation Term :=
  wholeLine .displayLine (fun _ stop => term stop) line

def ruleOfLine (line : List Char) : Except Expectation Rule :=
  wholeLine .displayInline (fun _ stop => rule stop .displayList (term stop)) line

end Sequitur.Notation.Display
