import Sequitur.Notation.Expectation

/-!
# Unreadable text

Why a text is no rule, no pool of rules or no term. The fragment is the piece of the text
that is to blame: a line that is no phrase, a block that is laid out wrongly, or the whole
text when it does not hold exactly one rule.
-/

namespace Sequitur.Notation

/-- Why a text cannot be read. -/
inductive Fault where
  | unexpected (expectation : Expectation)
  | noRule
  | severalRules (count : Nat)
  | severalLines
  | noSeparator
  | severalSeparators
  | noConclusion
  | severalConclusions
  deriving DecidableEq, Repr

def Fault.message : Fault → String
  | unexpected expectation => expectation.message
  | noRule => "no rule found"
  | severalRules count => "expected a single rule, found " ++ toString count
  | severalLines => "canonical rules occupy a single line"
  | noSeparator => "premises without a separator line"
  | severalSeparators => "more than one separator line"
  | noConclusion => "missing conclusion"
  | severalConclusions => "more than one conclusion line"

/-- A fault and the piece of text that has it. -/
structure ParseError where
  fragment : String
  fault : Fault
  deriving DecidableEq, Repr

def ParseError.of (fragment : List Char) (fault : Fault) : ParseError :=
  ⟨String.ofList fragment, fault⟩

def ParseError.message (error : ParseError) : String := error.fault.message

def ParseError.describe (error : ParseError) : String :=
  error.message ++ " in `" ++ error.fragment ++ "`"

end Sequitur.Notation
