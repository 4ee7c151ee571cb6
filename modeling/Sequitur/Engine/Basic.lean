import Sequitur.Rule

/-!
# Engines

An engine keeps rules and derives new ones. A session hands it parsed rules, asks for one
pass at a time, and is told the rules that the pass derived as canonical text. Nothing
else about an engine is known to a session: an engine may refuse rules, report texts that
are no rules, and fail.
-/

namespace Sequitur

/-- Why an engine fails. -/
inductive EngineError where
  | rejected (reason : String)
  | internal (reason : String)
  deriving DecidableEq, Repr

def EngineError.message : EngineError → String
  | rejected reason => "Engine rejected input: " ++ reason
  | internal reason => "Engine failure: " ++ reason

/-- What one pass of an engine reports: the candidates in order, and their number unless the
pass fails. -/
structure Report where
  candidates : List String
  outcome : Except EngineError Nat

/-- A kind of engine whose engines have states of type `σ`. -/
structure EngineKind (σ : Type) where
  /-- A fresh engine with the given limits on the size of rules and of one pass. -/
  create : (sizeLimit bufferLimit : Nat) → σ
  /-- Offers a rule; the answer tells whether it was newly accepted. -/
  add : σ → Rule → Except EngineError Bool × σ
  /-- Runs one pass. -/
  execute : σ → Report × σ

end Sequitur
