import Sequitur.Engine.Basic

/-!
# Scripted engines

An engine whose every answer is fixed beforehand. It stands in for an engine in trials of
what a session makes of the answers.
-/

namespace Sequitur

/-- The answer to every rule, and the candidates or the failure of every pass. -/
structure Script where
  onAdd : Except EngineError Bool
  onExecute : Except EngineError (List String)

/-- The engine that answers by a script and keeps nothing. -/
def Script.kind (script : Script) : EngineKind Unit where
  create _ _ := ()
  add _ _ := (script.onAdd, ())
  execute _ :=
    match script.onExecute with
    | .ok candidates => (⟨candidates, .ok candidates.length⟩, ())
    | .error error => (⟨[], .error error⟩, ())

end Sequitur
