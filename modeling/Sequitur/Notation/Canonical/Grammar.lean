import Sequitur.Notation.Phrases

/-!
# Lines of the canonical notation

Every application of an operator stands in parentheses:

* term: an atom and its suffixes;
* atom: a symbol, or in parentheses an operator and a term, a term alone, or two terms with
  an operator between them;
* suffix: terms in brackets, or terms in parentheses, with commas between them.

A line holds a rule: a term, or terms with commas between them, the arrow and a term.
-/

namespace Sequitur.Notation.Canonical

open Reader

variable (stop : Nat)

def groupBody (term : Reader Term n) : Reader Term n :=
  (phrase stop .canonicalUnary <|
    (operator stop).andThen fun text => term.map (Term.unary text)).orElse
  (phrase stop .canonicalInner <| term.withTail fun left =>
    (operator stop).andThen fun text => term.map (Term.binary text left))

def termStep (n : Nat) (term : Reader Term n) : Reader Term (n + 1) :=
  phrase stop .canonicalTerm <|
    (atom stop .canonicalGroup (groupBody stop term)).withTails
      (suffix stop .canonicalIndex .canonicalArguments term)

def term : Reader Term n := recursive (termStep stop)

def ruleOfLine (line : List Char) : Except Expectation Rule :=
  wholeLine .canonicalRule (fun _ stop => rule stop .canonicalList (term stop)) line

end Sequitur.Notation.Canonical
