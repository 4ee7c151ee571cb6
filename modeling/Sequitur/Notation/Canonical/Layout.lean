import Sequitur.Notation.Canonical.Grammar
import Sequitur.Notation.ParseError
import Sequitur.Text.Lines

/-!
# Reading the canonical notation

Every line that is not empty holds one rule.
-/

namespace Sequitur.Notation.Canonical

open Sequitur.Text

def readRuleLine (line : List Char) : Except ParseError Rule :=
  (ruleOfLine line).mapError fun expectation => .of line (.unexpected expectation)

def readPool (text : String) : Except ParseError (List Rule) :=
  (filledLines text.toList).mapM readRuleLine

def readRule (text : String) : Except ParseError Rule :=
  match filledLines text.toList with
  | [] => .error ⟨text, .noRule⟩
  | [line] => readRuleLine line
  | _ => .error ⟨text, .severalLines⟩

end Sequitur.Notation.Canonical
