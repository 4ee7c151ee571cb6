import Sequitur.Text.Blank
import Sequitur.Text.Letter
import Sequitur.Text.Number

/-!
# Lexemes of a line

A line is cut by longest match into symbols, operators, the arrow and the marks
`( ) [ ] ,`. Spaces and tabs part lexemes and are otherwise skipped; any other blank
character is a stray lexeme, which no phrase of either notation admits.

A longest run of operator characters is the arrow when it is exactly `->` and an operator
otherwise, so `-->` and `->>` are operators.
-/

namespace Sequitur.Notation

open Sequitur.Text

/-- Symbols are written with letters, numbers, low lines and apostrophes. -/
def isSymbolChar (c : Char) : Bool :=
  isLetter c || isNumber c || c == '_' || c == '\''

/-- The marks that group terms and part the members of a list. -/
def isMark (c : Char) : Bool :=
  c == '(' || c == ')' || c == '[' || c == ']' || c == ','

/-- Operators are written with every character that is neither blank, nor of a symbol, nor
a mark. -/
def isOperatorChar (c : Char) : Bool := !(isBlank c || isSymbolChar c || isMark c)

/-- The run of operator characters that parts premises from the conclusion. -/
def arrowText : List Char := ['-', '>']

/-- What a piece of a line is. -/
inductive Token where
  | symbol (name : String)
  | operator (text : String)
  | arrow
  | openParen
  | closeParen
  | openBracket
  | closeBracket
  | comma
  | stray (c : Char)
  deriving DecidableEq, Repr

def Token.ofOperatorRun (run : List Char) : Token :=
  if run = arrowText then .arrow else .operator (String.ofList run)

def Token.ofSingle (c : Char) : Token :=
  if c = '(' then .openParen
  else if c = ')' then .closeParen
  else if c = '[' then .openBracket
  else if c = ']' then .closeBracket
  else if c = ',' then .comma
  else .stray c

/-- A token and the number of characters before it in its line. -/
structure Lexeme where
  start : Nat
  token : Token
  deriving DecidableEq, Repr

/-- The lexemes of a text whose first character has the given position. -/
def lexemesFrom (start : Nat) : List Char → List Lexeme
  | [] => []
  | c :: cs =>
      if c = ' ' ∨ c = '\t' then lexemesFrom (start + 1) cs
      else if isSymbolChar c then
        let run := c :: cs.takeWhile isSymbolChar
        ⟨start, .symbol (String.ofList run)⟩ ::
          lexemesFrom (start + run.length) (cs.dropWhile isSymbolChar)
      else if isOperatorChar c then
        let run := c :: cs.takeWhile isOperatorChar
        ⟨start, Token.ofOperatorRun run⟩ ::
          lexemesFrom (start + run.length) (cs.dropWhile isOperatorChar)
      else ⟨start, Token.ofSingle c⟩ :: lexemesFrom (start + 1) cs
termination_by cs => cs.length
decreasing_by
  · simp
  · simpa using Nat.lt_succ_of_le (List.dropWhile_sublist isSymbolChar).length_le
  · simpa using Nat.lt_succ_of_le (List.dropWhile_sublist isOperatorChar).length_le
  · simp

def lexemes (line : List Char) : List Lexeme := lexemesFrom 0 line

/-- The tokens of a line. -/
def tokens (line : List Char) : List Token := (lexemes line).map Lexeme.token

end Sequitur.Notation
