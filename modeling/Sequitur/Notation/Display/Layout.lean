import Sequitur.Notation.Display.Grammar
import Sequitur.Notation.ParseError
import Sequitur.Text.Join
import Sequitur.Text.Lines

/-!
# Reading the display notation

The display notation lays a rule out as a block of lines: one line for each premise, a
separator made of dashes, and the conclusion. Blocks are parted by empty lines. A block of
one line is an axiom or the one-line form of a rule, and a block that begins with the
separator is an axiom.
-/

namespace Sequitur.Notation.Display

open Sequitur.Text

/-- A separator is made of dashes, at least one. -/
def isSeparator (line : List Char) : Bool := !line.isEmpty && line.all (· == '-')

def readTermLine (line : List Char) : Except ParseError Term :=
  (termOfLine line).mapError fun expectation => .of line (.unexpected expectation)

def readRuleLine (line : List Char) : Except ParseError Rule :=
  (ruleOfLine line).mapError fun expectation => .of line (.unexpected expectation)

/-- Reads a block whose separator stands between `premises` and `below`. The line below is
read before the premises, so that its error comes first. -/
def readSeparated (block premises below : List (List Char)) : Except ParseError Rule :=
  match below with
  | [] => .error (.of (joinWith ['\n'] block) .noConclusion)
  | [line] => do
      let conclusion ← readTermLine line
      let premises ← premises.mapM readTermLine
      return ⟨premises, conclusion⟩
  | _ => .error (.of (joinWith ['\n'] block) .severalConclusions)

def readBlock (block : List (List Char)) : Except ParseError Rule :=
  match splitWhere isSeparator block with
  | [[line]] => readRuleLine line
  | [_] => .error (.of (joinWith ['\n'] block) .noSeparator)
  | [premises, below] => readSeparated block premises below
  | _ => .error (.of (joinWith ['\n'] block) .severalSeparators)

def readPool (text : String) : Except ParseError (List Rule) :=
  (blocks text.toList).mapM readBlock

def readRule (text : String) : Except ParseError Rule :=
  match blocks text.toList with
  | [] => .error ⟨text, .noRule⟩
  | [block] => readBlock block
  | several => .error ⟨text, .severalRules several.length⟩

/-- Reads a text that holds a term and, around it, nothing but blanks. -/
def readTerm (text : String) : Except ParseError Term := readTermLine (trim text.toList)

end Sequitur.Notation.Display
