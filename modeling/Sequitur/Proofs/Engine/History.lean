import Sequitur.Proofs.Engine.Calls

/-!
# What came in since the last reset

The rules of an engine came in one by one, either offered and accepted or derived by a pass,
and a reset makes the engine forget them all. The history of an engine keeps beside it how
each rule came in. The kept rules are those of the history, in the same order.
-/

namespace Sequitur.Forward

/-- How a rule came in: it was offered and accepted, or a pass derived it. -/
inductive Admission where
  | accepted (rule : Rule)
  | derived (rule : Rule)
  deriving DecidableEq, Repr

namespace Admission

/-- The rule as it is kept. An accepted rule loses its grouping nodes. -/
def kept : Admission → Rule
  | accepted rule => rule.normalized
  | derived rule => rule

/-- The rule as it was offered, if it was. -/
def offered? : Admission → Option Rule
  | accepted rule => some rule
  | derived _ => none

end Admission

/-- An engine and what it has admitted since the last reset, in order. -/
structure History where
  engine : Forward
  admissions : List Admission
  deriving DecidableEq, Repr

namespace History

/-- The history of an engine that nothing has been asked of. -/
def start (engine : Forward) : History := ⟨engine, []⟩

/-- The history after a call. -/
def after (history : History) : Call → History
  | .add rule =>
      let (accepted, engine) := history.engine.add rule
      ⟨engine, if accepted then history.admissions ++ [.accepted rule] else history.admissions⟩
  | .execute =>
      let (derived, engine) := history.engine.execute
      ⟨engine, history.admissions ++ derived.map .derived⟩
  | .reset => ⟨history.engine.reset, []⟩
  | .setSizeLimit limit => { history with engine := history.engine.setSizeLimit limit }
  | .setBufferLimit limit => { history with engine := history.engine.setBufferLimit limit }

/-- The history after calls one after the other. -/
def run (history : History) (calls : List Call) : History := calls.foldl after history

/-- The rules that were offered and accepted since the last reset, as they were offered. -/
def accepted (history : History) : List Rule := history.admissions.filterMap Admission.offered?

variable {history : History}

theorem after_add_of_accepts {rule : Rule} (h : history.engine.Accepts rule) :
    history.after (.add rule) =
      ⟨history.engine.keep [rule.normalized], history.admissions ++ [.accepted rule]⟩ := by
  simp only [after, add_of_accepts h, if_true]

theorem after_add_of_not_accepts {rule : Rule} (h : ¬history.engine.Accepts rule) :
    history.after (.add rule) = history := by
  simp only [after, add_of_not_accepts h, Bool.false_eq_true, if_false]

theorem after_execute (history : History) : history.after .execute =
    ⟨history.engine.keep history.engine.derivable,
      history.admissions ++ history.engine.derivable.map .derived⟩ := rfl

theorem accepted_after_add_of_accepts {rule : Rule} (h : history.engine.Accepts rule) :
    (history.after (.add rule)).accepted = history.accepted ++ [rule] := by
  rw [after_add_of_accepts h]
  exact List.filterMap_append

/-- What a pass derives counts as not offered. -/
theorem accepted_after_execute (history : History) :
    (history.after .execute).accepted = history.accepted := by
  have hderived : history.engine.derivable.filterMap
      (Admission.offered? ∘ Admission.derived) = [] :=
    List.filterMap_eq_nil_iff.mpr fun _ _ => rfl
  rw [after_execute, accepted, List.filterMap_append, List.filterMap_map, hderived,
    List.append_nil, accepted]

/-- What every call keeps up holds after every run. -/
theorem run_induction {p : History → Prop} (h : p history) (calls : List Call)
    (hafter : ∀ call ∈ calls, ∀ history, p history → p (history.after call)) :
    p (history.run calls) := by
  induction calls generalizing history with
  | nil => exact h
  | cons call calls ih =>
      rw [List.forall_mem_cons] at hafter
      exact ih (hafter.1 history h) hafter.2

/-- The engine of a history is the engine after the same calls. -/
theorem engine_run (history : History) (calls : List Call) :
    (history.run calls).engine = history.engine.run calls := by
  have hafter (history : History) (call : Call) :
      (history.after call).engine = history.engine.after call := by
    cases call <;> rfl
  induction calls generalizing history with
  | nil => rfl
  | cons call calls ih => exact (ih _).trans (by rw [hafter]; rfl)

/-- The kept rules are those that came in, in the same order. -/
def IsComplete (history : History) : Prop :=
  history.engine.rules = history.admissions.map Admission.kept

theorem isComplete_start (sizeLimit bufferLimit : Nat) :
    IsComplete (start (create sizeLimit bufferLimit)) := rfl

theorem IsComplete.after (h : history.IsComplete) (call : Call) :
    (history.after call).IsComplete := by
  rw [IsComplete] at h
  cases call with
  | add rule =>
      by_cases haccepts : history.engine.Accepts rule
      · rw [after_add_of_accepts haccepts, IsComplete, keep_rules, h, List.map_append]
        rfl
      · rw [after_add_of_not_accepts haccepts]
        exact h
  | execute =>
      have hderived : history.engine.derivable.map (Admission.kept ∘ Admission.derived) =
          history.engine.derivable := List.map_id _
      rw [after_execute, IsComplete, keep_rules, List.map_append, List.map_map, hderived, h]
  | reset => rfl
  | setSizeLimit limit => exact h
  | setBufferLimit limit => exact h

theorem IsComplete.run (h : history.IsComplete) (calls : List Call) :
    (history.run calls).IsComplete :=
  run_induction h calls fun call _ _ h => h.after call

/-- Every rule that was accepted is kept. -/
theorem IsComplete.normalized_mem_rules (h : history.IsComplete) {rule : Rule}
    (hrule : rule ∈ history.accepted) : rule.normalized ∈ history.engine.rules := by
  obtain ⟨admission, hadmission, hoffered⟩ := List.mem_filterMap.mp hrule
  rw [IsComplete] at h
  rw [h, List.mem_map]
  cases admission with
  | accepted other =>
      have hsame : other = rule := Option.some.inj hoffered
      exact ⟨.accepted other, hadmission, by rw [Admission.kept, hsame]⟩
  | derived other => simp [Admission.offered?] at hoffered

end History

end Sequitur.Forward
