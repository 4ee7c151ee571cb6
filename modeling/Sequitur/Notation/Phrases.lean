import Sequitur.Notation.Reader
import Sequitur.Rule

/-!
# Phrases of both notations

The notations differ in where operators may stand. What is around the operators is the same
in both, but for the names under which a report tells about it:

* atom: a symbol, or a body in parentheses;
* suffix: terms in brackets, or terms in parentheses, with commas between them;
* rule: a term, or terms with commas between them, the arrow and a term.
-/

namespace Sequitur.Notation.Reader

variable (stop : Nat)

def atom (group : Phrase) (body : Reader Term n) : Reader Term (n + 1) :=
  (symbol stop).map Term.symbol |>.orElse <|
    phrase stop group (between .openParen .closeParen body)

/-- Reads the indices or the arguments that apply to a term. -/
def suffix (indices arguments : Phrase) (term : Reader Term n) (base : Term) :
    Reader Term (n + 1) :=
  (phrase stop indices (between .openBracket .closeBracket (series term))).map
      (Term.subscript base) |>.orElse <|
    (phrase stop arguments (between .openParen .closeParen (series term))).map
      (Term.application base)

def premisesWithArrow (list : Phrase) (term : Reader Term n) : Reader (List Term) n :=
  (phrase stop list (series term)).andThen fun premises =>
    (arrow stop).map (n := n) fun _ => premises

/-- Reads a rule on one line; without premises there is no arrow either. -/
def rule (list : Phrase) (term : Reader Term n) : Reader Rule n :=
  (premisesWithArrow stop list term).afterOptional fun premises =>
    term.map (Rule.mk (premises.getD []))

end Sequitur.Notation.Reader
