import Sequitur.Proofs.Engine.Pass

/-!
# Calls of the forward engine

An engine is used by calls in any order. Offering a rule appends it or changes nothing, and a
pass appends what it derives; these two are the only calls that bring rules in.
-/

namespace Sequitur.Forward

/-- What can be asked of an engine. -/
inductive Call where
  | add (rule : Rule)
  | execute
  | reset
  | setSizeLimit (limit : Nat)
  | setBufferLimit (limit : Nat)

/-- The engine after a call. -/
def after (engine : Forward) : Call → Forward
  | .add rule => (engine.add rule).2
  | .execute => engine.execute.2
  | .reset => engine.reset
  | .setSizeLimit limit => engine.setSizeLimit limit
  | .setBufferLimit limit => engine.setBufferLimit limit

/-- The engine after calls one after the other. -/
def run (engine : Forward) (calls : List Call) : Forward := calls.foldl after engine

@[simp] theorem run_nil (engine : Forward) : engine.run [] = engine := rfl

@[simp] theorem run_append (engine : Forward) (calls others : List Call) :
    engine.run (calls ++ others) = (engine.run calls).run others :=
  List.foldl_append

@[simp] theorem run_singleton (engine : Forward) (call : Call) :
    engine.run [call] = engine.after call := rfl

/-- The rules that calls offer, in order. -/
def offered (calls : List Call) : List Rule :=
  calls.filterMap fun
    | .add rule => some rule
    | _ => none

/-- The engine with more rules at the end. -/
def keep (engine : Forward) (rules : List Rule) : Forward :=
  { engine with rules := engine.rules ++ rules }

@[simp] theorem keep_sizeLimit (engine : Forward) (rules : List Rule) :
    (engine.keep rules).sizeLimit = engine.sizeLimit := rfl

@[simp] theorem keep_bufferLimit (engine : Forward) (rules : List Rule) :
    (engine.keep rules).bufferLimit = engine.bufferLimit := rfl

@[simp] theorem keep_rules (engine : Forward) (rules : List Rule) :
    (engine.keep rules).rules = engine.rules ++ rules := rfl

/-- An engine takes a rule in when it is within the limit and, without its grouping nodes, not
kept. -/
def Accepts (engine : Forward) (rule : Rule) : Prop :=
  rule.size ≤ engine.sizeLimit ∧ rule.normalized ∉ engine.rules

theorem add_of_accepts {engine : Forward} {rule : Rule} (h : engine.Accepts rule) :
    engine.add rule = (true, engine.keep [rule.normalized]) := by
  rw [add, if_pos]
  · rfl
  · simpa [withinLimit, Accepts] using h

theorem add_of_not_accepts {engine : Forward} {rule : Rule} (h : ¬engine.Accepts rule) :
    engine.add rule = (false, engine) := by
  rw [add, if_neg]
  simpa [withinLimit, Accepts] using h

theorem execute_eq (engine : Forward) :
    engine.execute = (engine.derivable, engine.keep engine.derivable) := rfl

/-- Rules that are kept once each stay so when a pass appends what it derives. -/
theorem nodup_append_derivable {engine : Forward} (h : engine.rules.Nodup) :
    (engine.rules ++ engine.derivable).Nodup := by
  rw [List.nodup_append]
  refine ⟨h, engine.nodup_derivable, ?_⟩
  rintro rule hkept _ hderived rfl
  exact (of_mem_derivable hderived).2.2 hkept

theorem nodup_append_normalized {engine : Forward} {rule : Rule} (h : engine.rules.Nodup)
    (haccepts : engine.Accepts rule) : (engine.rules ++ [rule.normalized]).Nodup := by
  rw [List.nodup_append]
  refine ⟨h, by simp, ?_⟩
  rintro kept hkept _ hmem rfl
  rw [List.mem_singleton] at hmem
  exact haccepts.2 (hmem ▸ hkept)

end Sequitur.Forward
