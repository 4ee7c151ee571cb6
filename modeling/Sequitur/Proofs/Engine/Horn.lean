import Mathlib.Order.Bounds.Basic
import Sequitur.Proofs.Engine.History

/-!
# Rules as Horn clauses

A rule says of a set of terms, the terms that are true, that its conclusion is among them if
its premises are. Passes are *sound*: whatever makes the accepted rules true makes every kept
rule true, with any limits. Passes are *complete*: when a pass derives nothing although the
limits stand in the way of no kept rule, the conclusions of the axioms are the least set of
terms that makes the accepted rules true.
-/

namespace Sequitur

/-- A rule holds in a set of true terms when its conclusion is true if all its premises are. -/
def Rule.HoldsIn (truths : Set Term) (rule : Rule) : Prop :=
  (∀ premise ∈ rule.premises, premise ∈ truths) → rule.conclusion ∈ truths

/-- Taking out a premise that is true keeps a rule true. -/
theorem Discharged.holdsIn {known : Set Rule} {truths : Set Term}
    (h : ∀ rule ∈ known, rule.HoldsIn truths) {rule : Rule} (hrule : Discharged known rule) :
    rule.HoldsIn truths := by
  cases hrule with
  | @intro front premise back conclusion hparent hfact =>
      have htrue : premise ∈ truths := h _ hfact (by simp)
      intro hothers
      apply h _ hparent
      intro other hother
      rw [List.mem_append, List.mem_cons] at hother
      rcases hother with hfront | rfl | hback
      · exact hothers other (List.mem_append_left _ hfront)
      · exact htrue
      · exact hothers other (List.mem_append_right _ hback)

namespace Forward

/-! ### Soundness -/

theorem holdsIn_of_mem_derivable {engine : Forward} {truths : Set Term}
    (h : ∀ rule ∈ engine.rules, rule.HoldsIn truths) :
    ∀ rule ∈ engine.derivable, rule.HoldsIn truths := by
  intro rule hrule
  exact (of_mem_derivable hrule).1.holdsIn h

/-- Whatever makes the accepted rules true makes the kept rules true. -/
def History.IsSound (history : History) : Prop :=
  ∀ truths : Set Term, (∀ rule ∈ history.accepted, rule.normalized.HoldsIn truths) →
    ∀ rule ∈ history.engine.rules, rule.HoldsIn truths

variable {history : History}

theorem History.isSound_start (sizeLimit bufferLimit : Nat) :
    IsSound (start (create sizeLimit bufferLimit)) := by
  intro truths _ rule hrule
  exact absurd hrule List.not_mem_nil

theorem History.IsSound.after (h : history.IsSound) (call : Call) :
    (history.after call).IsSound := by
  cases call with
  | add rule =>
      by_cases haccepts : history.engine.Accepts rule
      · intro truths hholds
        rw [accepted_after_add_of_accepts haccepts, List.forall_mem_append,
          List.forall_mem_singleton] at hholds
        rw [after_add_of_accepts haccepts, keep_rules, List.forall_mem_append,
          List.forall_mem_singleton]
        exact ⟨h truths hholds.1, hholds.2⟩
      · rw [after_add_of_not_accepts haccepts]
        exact h
  | execute =>
      intro truths hholds
      rw [accepted_after_execute] at hholds
      rw [after_execute, keep_rules, List.forall_mem_append]
      exact ⟨h truths hholds, holdsIn_of_mem_derivable (h truths hholds)⟩
  | reset =>
      intro truths _ rule hrule
      exact absurd hrule List.not_mem_nil
  | setSizeLimit limit => exact h
  | setBufferLimit limit => exact h

theorem History.IsSound.run (h : history.IsSound) (calls : List Call) :
    (history.run calls).IsSound :=
  run_induction h calls fun call _ _ h => h.after call

/-! ### Completeness -/

/-- A call that leaves the limit on sizes as it is, and room in the buffer. -/
def Call.KeepsLimits : Call → Prop
  | .add _ | .execute | .reset => True
  | .setBufferLimit limit => 1 ≤ limit
  | .setSizeLimit _ => False

/-- The limits stand in the way of no kept rule, and of no pass. -/
structure IsRoomy (engine : Forward) : Prop where
  bufferLimit_pos : 1 ≤ engine.bufferLimit
  size_le : ∀ rule ∈ engine.rules, rule.size ≤ engine.sizeLimit

variable {engine : Forward}

theorem isRoomy_create (sizeLimit : Nat) {bufferLimit : Nat} (hbuffer : 1 ≤ bufferLimit) :
    IsRoomy (create sizeLimit bufferLimit) :=
  ⟨hbuffer, by simp [create]⟩

theorem IsRoomy.after (h : engine.IsRoomy) {call : Call} (hkeeps : call.KeepsLimits) :
    (engine.after call).IsRoomy := by
  cases call with
  | add rule =>
      by_cases haccepts : engine.Accepts rule
      · rw [Forward.after, add_of_accepts haccepts]
        refine ⟨h.bufferLimit_pos, ?_⟩
        rw [keep_rules, List.forall_mem_append, List.forall_mem_singleton, Rule.size_normalized]
        exact ⟨h.size_le, haccepts.1⟩
      · rw [Forward.after, add_of_not_accepts haccepts]
        exact h
  | execute =>
      rw [Forward.after, execute_eq]
      refine ⟨h.bufferLimit_pos, ?_⟩
      rw [keep_rules, List.forall_mem_append]
      exact ⟨h.size_le, fun rule hrule => (of_mem_derivable hrule).2.1⟩
  | reset => exact ⟨h.bufferLimit_pos, by simp [Forward.after, reset]⟩
  | setBufferLimit limit => exact ⟨hkeeps, h.size_le⟩
  | setSizeLimit limit => exact hkeeps.elim

theorem IsRoomy.run (h : engine.IsRoomy) {calls : List Call}
    (hkeeps : ∀ call ∈ calls, call.KeepsLimits) : (engine.run calls).IsRoomy := by
  induction calls generalizing engine with
  | nil => exact h
  | cons call calls ih =>
      rw [List.forall_mem_cons] at hkeeps
      exact ih (h.after hkeeps.1) hkeeps.2

/-- In a closed set of rules the conclusion of a rule is a fact when all its premises are. -/
theorem mem_facts_of_dischargeClosed (hclosed : DischargeClosed {rule | rule ∈ engine.rules})
    {premises : List Term} {conclusion : Term} (hrule : ⟨premises, conclusion⟩ ∈ engine.rules)
    (hpremises : ∀ premise ∈ premises, premise ∈ engine.facts) : conclusion ∈ engine.facts := by
  -- The premises are taken out one after the other, each from what the last one left.
  induction premises with
  | nil => exact (mem_facts_iff engine conclusion).mpr hrule
  | cons premise premises ih =>
      rw [List.forall_mem_cons] at hpremises
      have hfact := (mem_facts_iff engine premise).mp hpremises.1
      have hdischarged : Discharged {rule | rule ∈ engine.rules} ⟨[] ++ premises, conclusion⟩ :=
        .intro hrule hfact
      exact ih (hclosed _ hdischarged) hpremises.2

/-- Where the kept rules are closed, the facts are the least set of terms in which the accepted
rules hold. -/
theorem History.isLeast_facts (hsound : history.IsSound) (hcomplete : history.IsComplete)
    (hclosed : DischargeClosed {rule | rule ∈ history.engine.rules}) :
    IsLeast {truths | ∀ rule ∈ history.accepted, rule.normalized.HoldsIn truths}
      {fact | fact ∈ history.engine.facts} := by
  constructor
  · intro rule hrule hpremises
    exact mem_facts_of_dischargeClosed hclosed (hcomplete.normalized_mem_rules hrule) hpremises
  · intro truths hholds fact hfact
    exact hsound truths hholds _ ((mem_facts_iff _ _).mp hfact) (by simp)

/-- After any calls, with any limits, whatever makes the rules true that were accepted since
the last reset makes every kept rule and every rule that a pass reports true. If the limit on
sizes was never changed and the buffer never without room, then, once a pass reports nothing,
the facts are the least set of terms that makes the accepted rules true. -/
theorem holdsIn_and_isLeast_facts (sizeLimit bufferLimit : Nat) (calls : List Call) :
    let history := (History.start (create sizeLimit bufferLimit)).run calls
    (∀ truths : Set Term, (∀ rule ∈ history.accepted, rule.normalized.HoldsIn truths) →
      (∀ rule ∈ history.engine.rules, rule.HoldsIn truths) ∧
      ∀ rule ∈ history.engine.execute.1, rule.HoldsIn truths) ∧
    (1 ≤ bufferLimit → (∀ call ∈ calls, call.KeepsLimits) → history.engine.execute.1 = [] →
      IsLeast {truths | ∀ rule ∈ history.accepted, rule.normalized.HoldsIn truths}
        {fact | fact ∈ history.engine.facts}) := by
  intro history
  have hsound : history.IsSound := (History.isSound_start sizeLimit bufferLimit).run calls
  have hcomplete : history.IsComplete := (History.isComplete_start sizeLimit bufferLimit).run calls
  constructor
  · intro truths hholds
    have hkept := hsound truths hholds
    exact ⟨hkept, holdsIn_of_mem_derivable hkept⟩
  · intro hbuffer hkeeps hpass
    have hroomy : history.engine.IsRoomy := by
      rw [History.engine_run]
      exact (isRoomy_create sizeLimit hbuffer).run hkeeps
    exact History.isLeast_facts hsound hcomplete
      (dischargeClosed_of_derivable_eq_nil hroomy.bufferLimit_pos hroomy.size_le hpass)

/-- A repeated premise in a grouping node, and what was accepted before a reset. -/
theorem isLeast_facts_of_conjunction :
    let a := Term.symbol "a"
    let b := Term.symbol "b"
    let both := Term.binary "∧" a b
    let calls : List Call :=
      [.add ⟨[], b⟩, .reset, .add ⟨[.parenthesized a, b, a], both⟩, .add ⟨[], a⟩, .execute,
        .setBufferLimit 4, .add ⟨[], b⟩, .execute, .execute, .execute, .execute]
    let history := (History.start (create 6 1)).run calls
    (∀ rule ∈ history.engine.rules, rule.HoldsIn {a, b, both}) ∧
    IsLeast {truths | ∀ rule ∈ history.accepted, rule.normalized.HoldsIn truths}
      {fact | fact ∈ history.engine.facts} := by
  intro a b both calls history
  have haccepted : history.accepted =
      [⟨[.parenthesized a, b, a], both⟩, ⟨[], a⟩, ⟨[], b⟩] := by decide +kernel
  have htruths : ∀ rule ∈ history.accepted, rule.normalized.HoldsIn {a, b, both} := by
    rw [haccepted]
    simp [Rule.HoldsIn, Rule.normalized, Term.normalized, a, b, both]
  have hkeeps : ∀ call ∈ calls, call.KeepsLimits := by simp [calls, Call.KeepsLimits]
  have hpass : history.engine.execute.1 = [] := by decide +kernel
  constructor
  · exact ((holdsIn_and_isLeast_facts 6 1 calls).1 {a, b, both} htruths).1
  · exact (holdsIn_and_isLeast_facts 6 1 calls).2 (by decide) hkeeps hpass

end Forward

end Sequitur
