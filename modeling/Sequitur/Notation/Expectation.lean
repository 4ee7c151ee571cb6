/-!
# What a reader expected

Reading a line may fail in several places, because one phrase is tried after another. The
report tells about the furthest place at which a phrase was tried in vain, and which
phrases were tried there.

A phrase stands for the phrases that failed inside it at the same place, unless exactly
one did: that one then says more than the phrase itself.
-/

namespace Sequitur.Notation

/-- The phrases of both notations, in the order in which a report names them. -/
inductive Phrase where
  | endOfLine
  | symbol
  | arrow
  | operator
  | displayTerm
  | prefixTerm
  | unaryTerm
  | postfixTerm
  | displayGroup
  | displayIndex
  | displayArguments
  | displayList
  | displayLine
  | displayInline
  | canonicalTerm
  | canonicalGroup
  | canonicalUnary
  | canonicalInner
  | canonicalIndex
  | canonicalArguments
  | canonicalList
  | canonicalRule
  deriving DecidableEq, Repr

namespace Phrase

def all : List Phrase :=
  [.endOfLine, .symbol, .arrow, .operator, .displayTerm, .prefixTerm, .unaryTerm, .postfixTerm,
   .displayGroup, .displayIndex, .displayArguments, .displayList, .displayLine, .displayInline,
   .canonicalTerm, .canonicalGroup, .canonicalUnary, .canonicalInner, .canonicalIndex,
   .canonicalArguments, .canonicalList, .canonicalRule]

theorem mem_all (phrase : Phrase) : phrase ∈ all := by cases phrase <;> decide

def name : Phrase → String
  | endOfLine => "EOI"
  | symbol => "symbol"
  | arrow => "arrow"
  | operator => "operator"
  | displayTerm => "display_term"
  | prefixTerm => "prefix_term"
  | unaryTerm => "unary_term"
  | postfixTerm => "postfix_term"
  | displayGroup => "display_group"
  | displayIndex => "display_index"
  | displayArguments => "display_args"
  | displayList => "display_list"
  | displayLine => "display_line"
  | displayInline => "display_inline"
  | canonicalTerm => "canonical_term"
  | canonicalGroup => "canonical_group"
  | canonicalUnary => "canonical_unary"
  | canonicalInner => "canonical_inner"
  | canonicalIndex => "canonical_index"
  | canonicalArguments => "canonical_args"
  | canonicalList => "canonical_list"
  | canonicalRule => "canonical_rule"

end Phrase

/-- The furthest position at which a phrase failed, and the phrases that failed there in
the order of their failure. -/
structure Expectation where
  position : Nat
  phrases : List Phrase
  deriving DecidableEq, Repr

namespace Expectation

def none : Expectation := ⟨0, []⟩

/-- How many phrases failed at a position, as far as they are remembered. -/
def countAt (expectation : Expectation) (position : Nat) : Nat :=
  if position = expectation.position then expectation.phrases.length else 0

/-- The expectation after a phrase has failed that was tried at `position`: `before` is the
expectation when the phrase was entered and `after` the one its parts have left. The phrase
replaces what its parts have added at the position, except when they added one phrase; a
failure behind the furthest position is forgotten. -/
def record (before after : Expectation) (position : Nat) (phrase : Phrase) : Expectation :=
  let held := before.countAt position
  if after.countAt position = held + 1 then after
  else if position < after.position then after
  else if position = after.position then ⟨position, after.phrases.take held ++ [phrase]⟩
  else ⟨position, [phrase]⟩

/-- The expected phrases, each once and in the order of reports. -/
def distinct (expectation : Expectation) : List Phrase :=
  Phrase.all.filter (· ∈ expectation.phrases)

/-- Names in a row: `x`, `x or y`, `x, y, or z`. -/
def enumeration : List String → String
  | [] => ""
  | [x] => x
  | [x, y] => x ++ " or " ++ y
  | xs => String.intercalate ", " xs.dropLast ++ ", or " ++ xs.getLastD ""

/-- A report names the expected phrases and the column, which counts from one. -/
def message (expectation : Expectation) : String :=
  "expected " ++ enumeration (expectation.distinct.map Phrase.name) ++ " at column " ++
    toString (expectation.position + 1)

end Expectation

end Sequitur.Notation
