import Sequitur.Notation.Expectation
import Sequitur.Notation.Lexeme

/-!
# Readers of phrases

A reader takes a value off the front of a list of lexemes. It reads at least one lexeme
when it succeeds, and its type says so: what is left is shorter than what was given. A
failing reader gives back nothing but the expectation, which grows with every phrase that
was tried in vain, also where another phrase then succeeded.

Readers are put together by sequence, ordered choice, optional and repeated tails, and
`recursive` ties the knot of a grammar: a phrase may hold phrases of its own kind, read
from fewer lexemes.
-/

namespace Sequitur.Notation

/-- A value read off the front of a list, and the lexemes left, which are fewer than
`bound`. -/
structure Parsed (α : Type) (bound : Nat) where
  value : α
  rest : List Lexeme
  shorter : rest.length < bound

namespace Parsed

def map (f : α → β) (parsed : Parsed α bound) : Parsed β bound :=
  ⟨f parsed.value, parsed.rest, parsed.shorter⟩

/-- What is below a bound is below every greater one. -/
def weaken (parsed : Parsed α bound) (h : bound ≤ bound') : Parsed α bound' :=
  ⟨parsed.value, parsed.rest, Nat.lt_of_lt_of_le parsed.shorter h⟩

end Parsed

abbrev Outcome (α : Type) (bound : Nat) := Expectation × Option (Parsed α bound)

/-- A reader for the lists of fewer than `n` lexemes. -/
abbrev Reader (α : Type) (n : Nat) :=
  (input : List Lexeme) → input.length < n → Expectation → Outcome α input.length

/-- The position of the first lexeme, or of the end of the line when no lexeme is left. -/
def position (stop : Nat) : List Lexeme → Nat
  | [] => stop
  | lexeme :: _ => lexeme.start

namespace Reader

/-! ### Lexemes -/

/-- Reads one lexeme whose token has a value under `select`. -/
def single (select : Token → Option α) : Reader α n
  | [], _, expectation => (expectation, none)
  | lexeme :: rest, _, expectation =>
      (expectation, (select lexeme.token).map fun value => ⟨value, rest, Nat.lt_succ_self _⟩)

def exactly (token : Token) : Reader Unit n :=
  single fun found => if found = token then some () else none

/-! ### Composition -/

def map (f : α → β) (reader : Reader α n) : Reader β n := fun input h expectation =>
  match reader input h expectation with
  | (expectation, none) => (expectation, none)
  | (expectation, some parsed) => (expectation, some (parsed.map f))

/-- Reads one phrase after the other. The second is read from fewer lexemes. -/
def andThen (first : Reader α n) (second : α → Reader β m)
    (hm : n ≤ m + 1 := by first | exact Nat.le_succ _ | exact Nat.lt_succ_self _) : Reader β n :=
  fun input h expectation =>
    match first input h expectation with
    | (expectation, none) => (expectation, none)
    | (expectation, some parsed) =>
        have hrest : parsed.rest.length < m :=
          Nat.lt_of_lt_of_le parsed.shorter (Nat.le_of_lt_succ (Nat.lt_of_lt_of_le h hm))
        match second parsed.value parsed.rest hrest expectation with
        | (expectation, none) => (expectation, none)
        | (expectation, some result) =>
            (expectation, some (result.weaken (Nat.le_of_lt parsed.shorter)))

def orElse (first second : Reader α n) : Reader α n := fun input h expectation =>
  match first input h expectation with
  | (expectation, none) => second input h expectation
  | (expectation, some parsed) => (expectation, some parsed)

/-- Reads an optional phrase and then another one, which is not tried again without the
optional phrase. -/
def afterOptional (optional : Reader α n) (next : Option α → Reader β n) : Reader β n :=
  fun input h expectation =>
    match optional input h expectation with
    | (expectation, none) => next none input h expectation
    | (expectation, some parsed) =>
        match next (some parsed.value) parsed.rest (Nat.lt_trans parsed.shorter h)
            expectation with
        | (expectation, none) => (expectation, none)
        | (expectation, some result) =>
            (expectation, some (result.weaken (Nat.le_of_lt parsed.shorter)))

def withTail (head : Reader α n) (tail : α → Reader α n) : Reader α n :=
  fun input h expectation =>
    match head input h expectation with
    | (expectation, none) => (expectation, none)
    | (expectation, some parsed) =>
        match tail parsed.value parsed.rest (Nat.lt_trans parsed.shorter h) expectation with
        | (expectation, none) => (expectation, some parsed)
        | (expectation, some result) =>
            (expectation, some (result.weaken (Nat.le_of_lt parsed.shorter)))

/-- Extends a value that has been read by tails for as long as one can be read. -/
def tailsFrom (tail : α → Reader α n) (value : α) (input : List Lexeme) (h : input.length < n)
    (expectation : Expectation) : Expectation × Parsed α (input.length + 1) :=
  match tail value input h expectation with
  | (expectation, none) => (expectation, ⟨value, input, Nat.lt_succ_self _⟩)
  | (expectation, some parsed) =>
      have := parsed.shorter
      let (expectation, result) :=
        tailsFrom tail parsed.value parsed.rest (Nat.lt_trans parsed.shorter h) expectation
      (expectation, result.weaken (Nat.succ_le_succ (Nat.le_of_lt parsed.shorter)))
termination_by input.length

/-- Extends a value by as many tails as can be read. -/
def withTails (head : Reader α n) (tail : α → Reader α n) : Reader α n :=
  fun input h expectation =>
    match head input h expectation with
    | (expectation, none) => (expectation, none)
    | (expectation, some parsed) =>
        let (expectation, result) :=
          tailsFrom tail parsed.value parsed.rest (Nat.lt_trans parsed.shorter h) expectation
        (expectation, some (result.weaken parsed.shorter))

/-- Reads items with commas between them, at least one. A comma that no item follows is
left unread. -/
def series (item : Reader α n) : Reader (List α) n :=
  withTails (item.map fun value => [value]) fun values =>
    (exactly .comma).andThen fun _ => item.map fun value => values ++ [value]

def between (opening closing : Token) (inner : Reader α n) : Reader α (n + 1) :=
  (exactly opening).andThen (m := n) fun _ =>
    inner.andThen fun value => (exactly closing).map (n := n) fun _ => value

/-! ### Phrases -/

/-- Reads a phrase and, where it fails, records that it was tried. -/
def phrase (stop : Nat) (name : Phrase) (reader : Reader α n) : Reader α n :=
  fun input h before =>
    match reader input h before with
    | (after, none) => (before.record after (position stop input) name, none)
    | (after, some parsed) => (after, some parsed)

def symbol (stop : Nat) : Reader String n :=
  phrase stop .symbol <| single fun token =>
    match token with
    | .symbol name => some name
    | _ => none

def operator (stop : Nat) : Reader String n :=
  phrase stop .operator <| single fun token =>
    match token with
    | .operator text => some text
    | _ => none

def arrow (stop : Nat) : Reader Unit n := phrase stop .arrow (exactly .arrow)

/-- The reader of a phrase that may hold phrases of its own kind: `step` reads a phrase,
given a reader for those inside it, which have fewer lexemes. -/
def recursiveFrom (step : (n : Nat) → Reader α n → Reader α (n + 1)) (input : List Lexeme)
    (expectation : Expectation) : Outcome α input.length :=
  step input.length (fun inner _ expectation => recursiveFrom step inner expectation) input
    (Nat.lt_succ_self _) expectation
termination_by input.length

/-- The reader of a phrase that may hold phrases of its own kind, for lists of any length. -/
def recursive (step : (n : Nat) → Reader α n → Reader α (n + 1)) : Reader α n :=
  fun input _ expectation => recursiveFrom step input expectation

/-- Reads a phrase that takes up the whole line; otherwise gives the expectation. -/
def wholeLine (name : Phrase) (reader : (n : Nat) → (stop : Nat) → Reader α n)
    (line : List Char) : Except Expectation α :=
  let stop := line.length
  let input := lexemes line
  match reader (input.length + 1) stop input (Nat.lt_succ_self _) .none with
  | (after, none) => .error (Expectation.none.record after (position stop input) name)
  | (after, some parsed) =>
      match parsed.rest with
      | [] => .ok parsed.value
      | rest =>
          let after := after.record after (position stop rest) .endOfLine
          .error (Expectation.none.record after (position stop input) name)

end Reader

end Sequitur.Notation
