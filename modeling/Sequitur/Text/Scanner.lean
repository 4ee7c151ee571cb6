/-!
# Scanners

A scanner takes a value off the front of a text or fails with a fault. Scanners are
composed in `do` blocks; `loop` repeats one for as long as it takes characters.
-/

namespace Sequitur.Text

/-- Takes a value off the front of a text, or fails with a fault. -/
abbrev Scanner (ε α : Type) := StateT (List Char) (Except ε) α

/-- Whether a loop goes on with a state or ends with a result. -/
inductive Turn (σ β : Type) where
  | again (state : σ)
  | done (result : β)

namespace Scanner

def peek : Scanner ε (Option Char) := fun text => .ok (text.head?, text)

def advance : Scanner ε Unit := fun text => .ok ((), text.drop 1)

def takeWhile (p : Char → Bool) : Scanner ε (List Char) := fun text =>
  .ok (text.takeWhile p, text.dropWhile p)

def skipWhile (p : Char → Bool) : Scanner ε Unit := fun text => .ok ((), text.dropWhile p)

/-- Takes the given character if it is next, and tells whether it was. -/
def accept (c : Char) : Scanner ε Bool := fun text =>
  match text with
  | [] => .ok (false, [])
  | d :: rest => if d = c then .ok (true, rest) else .ok (false, d :: rest)

/-- Takes the given text if it is next, and tells whether it was. -/
def acceptText (expected : List Char) : Scanner ε Bool := fun text =>
  if expected.isPrefixOf text then .ok (true, text.drop expected.length)
  else .ok (false, text)

def expect (fault : ε) (c : Char) : Scanner ε Unit := do
  unless ← accept c do throw fault

/-- Repeats a step for as long as it asks for it and takes characters. A step that asks to
be repeated without having taken a character ends in the fault. -/
def loop (fault : ε) (step : σ → Scanner ε (Turn σ β)) (state : σ) (text : List Char) :
    Except ε (β × List Char) :=
  match step state text with
  | .error fault => .error fault
  | .ok (.done result, rest) => .ok (result, rest)
  | .ok (.again state, rest) =>
      if rest.length < text.length then loop fault step state rest else .error fault
termination_by text.length

end Scanner

end Sequitur.Text
