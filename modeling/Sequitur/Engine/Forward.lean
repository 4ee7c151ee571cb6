import Sequitur.Engine.Basic
import Sequitur.Notation.Canonical.Printer

/-!
# The forward engine

A pass looks for premises that are literally conclusions of axioms, and derives the rules
that are left without such a premise. There is no unification. A derived rule is smaller
than the rule it comes from, so that repeated passes come to an end.

Rules are kept in the order in which they came in, without repetition and without grouping
nodes. The axioms of a pass are those that were there before it.
-/

namespace Sequitur

/-- Each element of a list, with the list that is left without it. -/
def selections : List α → List (α × List α)
  | [] => []
  | x :: xs => (x, xs) :: (selections xs).map fun (y, ys) => (y, x :: ys)

/-- An engine that discharges premises: its limits on the size of a rule and on the number
of rules derived in one pass, and its rules. -/
structure Forward where
  sizeLimit : Nat
  bufferLimit : Nat
  rules : List Rule
  deriving DecidableEq, Repr

namespace Forward

def create (sizeLimit bufferLimit : Nat) : Forward := ⟨sizeLimit, bufferLimit, []⟩

def size (engine : Forward) : Nat := engine.rules.length

def isEmpty (engine : Forward) : Bool := engine.rules.isEmpty

/-- The conclusions of the axioms. -/
def facts (engine : Forward) : List Term :=
  (engine.rules.filter Rule.isAxiom).map Rule.conclusion

def withinLimit (engine : Forward) (rule : Rule) : Bool := rule.size ≤ engine.sizeLimit

/-- Offers a rule. It is accepted when it is within the limit and, without its grouping
nodes, not there yet; it is then kept without them. -/
def add (engine : Forward) (rule : Rule) : Bool × Forward :=
  if engine.withinLimit rule && !(engine.rules.contains rule.normalized) then
    (true, { engine with rules := engine.rules ++ [rule.normalized] })
  else (false, engine)

/-- The premises of rules, one at a time, each with the rule that is left without it. -/
def discharges (rules : List Rule) : List (Term × Rule) :=
  (rules.filter (!·.isAxiom)).flatMap fun rule =>
    (selections rule.premises).map fun (premise, others) => (premise, ⟨others, rule.conclusion⟩)

/-- Looks at one premise: what is left without it goes to the buffer when the premise is a
fact, the buffer is not full, and the rule is within the limit and neither kept nor in the
buffer. -/
def consider (engine : Forward) (facts : List Term) (buffer : List Rule)
    (discharge : Term × Rule) : List Rule :=
  let (premise, candidate) := discharge
  if engine.bufferLimit ≤ buffer.length then buffer
  else if facts.contains premise && engine.withinLimit candidate &&
      !(engine.rules.contains candidate) && !(buffer.contains candidate) then
    buffer ++ [candidate]
  else buffer

/-- The rules that one pass derives, in order. -/
def derivable (engine : Forward) : List Rule :=
  (discharges engine.rules).foldl (engine.consider engine.facts) []

/-- Runs one pass: the derived rules are reported and kept. -/
def execute (engine : Forward) : List Rule × Forward :=
  let derived := engine.derivable
  (derived, { engine with rules := engine.rules ++ derived })

def reset (engine : Forward) : Forward := { engine with rules := [] }

/-- Changes the limit on the size of rules; the rules that are kept stay. -/
def setSizeLimit (engine : Forward) (limit : Nat) : Forward := { engine with sizeLimit := limit }

def setBufferLimit (engine : Forward) (limit : Nat) : Forward :=
  { engine with bufferLimit := limit }

/-- The forward engine as a kind of engine. It never fails. -/
def kind : EngineKind Forward where
  create := create
  add engine rule :=
    let (accepted, engine) := engine.add rule
    (.ok accepted, engine)
  execute engine :=
    let (derived, engine) := engine.execute
    (⟨derived.map Notation.Canonical.printRule, .ok derived.length⟩, engine)

end Forward

end Sequitur
