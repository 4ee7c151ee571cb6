import Mathlib.Data.List.Infix
import Sequitur.Proofs.Engine.History
import Sequitur.Proofs.NormalForm

/-!
# Rules are admitted once

Whatever is asked of an engine, with limits that change at any time, each rule that it keeps came
in once since the last reset: the kept rules are, in order, what was offered and accepted, without
grouping nodes, and what passes derived. When a rule came in it was within the limit on sizes that
was in force, which may since have been set lower.

The limits in force are told from the calls alone: a limit is the one that was set last.
-/

namespace Sequitur

/-- Taking premises out of rules in normal form leaves rules in normal form. -/
theorem Discharged.isNormalized {known : Set Rule} (h : ∀ rule ∈ known, rule.IsNormalized)
    {rule : Rule} (hrule : Discharged known rule) : rule.IsNormalized := by
  cases hrule with
  | @intro front premise back conclusion hparent _ =>
      have hpremises : (front ++ back).Sublist (front ++ premise :: back) :=
        (List.Sublist.refl front).append (List.sublist_cons_self premise back)
      exact (h _ hparent).of_sublist hpremises rfl

namespace Forward

/-! ### The limits in force -/

/-- The limit on sizes that a call sets, if it sets one. -/
def Call.sizeLimit? : Call → Option Nat
  | .setSizeLimit limit => some limit
  | _ => none

/-- The limit on rules of one pass that a call sets, if it sets one. -/
def Call.bufferLimit? : Call → Option Nat
  | .setBufferLimit limit => some limit
  | _ => none

/-- What the calls set last, or what was there if they set nothing. -/
def lastSet (set? : Call → Option Nat) (limit : Nat) (calls : List Call) : Nat :=
  (calls.filterMap set?).getLast?.getD limit

theorem lastSet_concat (set? : Call → Option Nat) (limit : Nat) (calls : List Call) (call : Call) :
    lastSet set? limit (calls ++ [call]) = (set? call).getD (lastSet set? limit calls) := by
  rw [lastSet, lastSet, List.filterMap_append]
  cases hset : set? call with
  | none => simp [hset]
  | some next => simp [hset]

/-- A limit that each call sets or leaves alone is, after any calls, the one that was set last. -/
theorem limit_run {limit : Forward → Nat} {set? : Call → Option Nat}
    (hafter : ∀ engine call, limit (after engine call) = (set? call).getD (limit engine))
    (engine : Forward) (calls : List Call) :
    limit (engine.run calls) = lastSet set? (limit engine) calls := by
  induction calls using List.reverseRecOn with
  | nil => rfl
  | append_singleton calls call ih =>
      rw [run_append, run_singleton, hafter, ih, lastSet_concat]

/-- Offering a rule changes nothing but the kept rules. -/
theorem exists_add_eq (engine : Forward) (rule : Rule) :
    ∃ rules, (engine.add rule).2 = { engine with rules := rules } := by
  by_cases haccepts : engine.Accepts rule
  · rw [add_of_accepts haccepts]
    exact ⟨engine.rules ++ [rule.normalized], rfl⟩
  · rw [add_of_not_accepts haccepts]
    exact ⟨engine.rules, rfl⟩

theorem sizeLimit_after (engine : Forward) (call : Call) :
    (engine.after call).sizeLimit = call.sizeLimit?.getD engine.sizeLimit := by
  cases call with
  | add rule =>
      obtain ⟨rules, hadd⟩ := engine.exists_add_eq rule
      rw [after, hadd]
      rfl
  | execute | reset | setSizeLimit limit | setBufferLimit limit => rfl

theorem bufferLimit_after (engine : Forward) (call : Call) :
    (engine.after call).bufferLimit = call.bufferLimit?.getD engine.bufferLimit := by
  cases call with
  | add rule =>
      obtain ⟨rules, hadd⟩ := engine.exists_add_eq rule
      rw [after, hadd]
      rfl
  | execute | reset | setSizeLimit limit | setBufferLimit limit => rfl

/-! ### Rules that come in -/

/-- A rule comes in with a call that makes the engine keep it. -/
def ComesIn (engine : Forward) (call : Call) (rule : Rule) : Prop :=
  rule ∉ engine.rules ∧ rule ∈ (engine.after call).rules

variable {engine : Forward} {rule : Rule}

/-- A rule comes in only within the limit on sizes. -/
theorem ComesIn.size_le {call : Call} (h : engine.ComesIn call rule) :
    rule.size ≤ engine.sizeLimit := by
  obtain ⟨hnew, hkept⟩ := h
  cases call with
  | add offered =>
      by_cases haccepts : engine.Accepts offered
      · rw [after, add_of_accepts haccepts, keep_rules, List.mem_append,
          List.mem_singleton] at hkept
        rcases hkept with hkept | rfl
        · exact absurd hkept hnew
        · rw [Rule.size_normalized]
          exact haccepts.1
      · rw [after, add_of_not_accepts haccepts] at hkept
        exact absurd hkept hnew
  | execute =>
      rw [after, execute_eq, keep_rules, List.mem_append] at hkept
      rcases hkept with hkept | hderived
      · exact absurd hkept hnew
      · exact (of_mem_derivable hderived).2.1
  | reset => exact absurd hkept List.not_mem_nil
  | setSizeLimit limit => exact absurd hkept hnew
  | setBufferLimit limit => exact absurd hkept hnew

/-- A kept rule came in with one of the calls, and has been kept ever since. -/
theorem exists_comesIn {calls : List Call} (hnew : rule ∉ engine.rules)
    (hkept : rule ∈ (engine.run calls).rules) :
    ∃ before call later, calls = before ++ call :: later ∧
      (engine.run before).ComesIn call rule ∧
      ∀ next, next <+: later → rule ∈ (engine.run (before ++ call :: next)).rules := by
  induction calls using List.reverseRecOn with
  | nil => exact absurd hkept hnew
  | append_singleton calls last ih =>
      by_cases hbefore : rule ∈ (engine.run calls).rules
      · obtain ⟨before, call, later, rfl, hcomes, hstays⟩ := ih hbefore
        rw [List.append_assoc, List.cons_append] at hkept ⊢
        refine ⟨before, call, later ++ [last], rfl, hcomes, ?_⟩
        intro next hnext
        rcases List.prefix_concat_iff.mp hnext with rfl | hearlier
        · exact hkept
        · exact hstays next hearlier
      · refine ⟨calls, last, [], rfl, ⟨hbefore, ?_⟩, ?_⟩
        · rw [run_append, run_singleton] at hkept
          exact hkept
        · intro next hnext
          rw [List.prefix_nil.mp hnext]
          exact hkept

/-! ### What is kept -/

/-- An engine keeps its rules tidy: each of them once, and in normal form. -/
structure IsTidy (engine : Forward) : Prop where
  nodup : engine.rules.Nodup
  isNormalized : ∀ rule ∈ engine.rules, rule.IsNormalized

theorem isTidy_create (sizeLimit bufferLimit : Nat) : (create sizeLimit bufferLimit).IsTidy :=
  ⟨List.nodup_nil, List.forall_mem_nil _⟩

theorem IsTidy.after (h : engine.IsTidy) (call : Call) : (engine.after call).IsTidy := by
  cases call with
  | add rule =>
      rw [Forward.after]
      by_cases haccepts : engine.Accepts rule
      · rw [add_of_accepts haccepts]
        refine ⟨nodup_append_normalized h.nodup haccepts, ?_⟩
        rw [keep_rules, List.forall_mem_append, List.forall_mem_singleton]
        exact ⟨h.isNormalized, rule.isNormalized_normalized⟩
      · rw [add_of_not_accepts haccepts]
        exact h
  | execute =>
      refine ⟨nodup_append_derivable h.nodup, ?_⟩
      rw [Forward.after, execute_eq, keep_rules, List.forall_mem_append]
      refine ⟨h.isNormalized, ?_⟩
      intro rule hrule
      exact (of_mem_derivable hrule).1.isNormalized h.isNormalized
  | reset => exact isTidy_create engine.sizeLimit engine.bufferLimit
  | setSizeLimit limit => exact ⟨h.nodup, h.isNormalized⟩
  | setBufferLimit limit => exact ⟨h.nodup, h.isNormalized⟩

theorem IsTidy.run (h : engine.IsTidy) (calls : List Call) : (engine.run calls).IsTidy := by
  induction calls generalizing engine with
  | nil => exact h
  | cons call calls ih => exact ih (h.after call)

/-! ### Answers -/

theorem add_eq_true_iff (engine : Forward) (rule : Rule) :
    (engine.add rule).1 = true ↔ engine.Accepts rule := by
  by_cases haccepts : engine.Accepts rule
  · rw [add_of_accepts haccepts]
    exact iff_of_true rfl haccepts
  · rw [add_of_not_accepts haccepts]
    exact iff_of_false Bool.false_ne_true haccepts

theorem length_derivable_le (engine : Forward) :
    engine.derivable.length ≤ engine.bufferLimit := by
  rw [derivable_eq]
  exact List.length_take_le _ _

/-- After any calls, the kept rules are those that came in since the last reset, in the order of
time and each once: what was offered and accepted, without grouping nodes, and what passes
derived. Each is in normal form, and came in with a call when its size was within the limit in
force. Offering a rule is answered with yes exactly when it is within the limit in force and,
without grouping nodes, not kept; and a pass reports what it adds to the kept rules, which is no
more than the limit in force. -/
theorem admissions_and_rules_run (sizeLimit bufferLimit : Nat) (calls : List Call) :
    let fresh := create sizeLimit bufferLimit
    let engine := fresh.run calls
    let history := (History.start fresh).run calls
    let came := history.admissions.map Admission.kept
    history.engine = engine ∧
    came.Nodup ∧ engine.rules = came ∧ engine.size = came.length ∧
    (∀ rule ∈ engine.rules, rule.IsNormalized ∧
      ∃ before call later, calls = before ++ call :: later ∧
        (fresh.run before).ComesIn call rule ∧
        (∀ next, next <+: later → rule ∈ (fresh.run (before ++ call :: next)).rules) ∧
        rule.size ≤ lastSet Call.sizeLimit? sizeLimit before) ∧
    (∀ rule, ∃ answer, (kind.add engine rule).1 = .ok answer ∧
      (answer = true ↔ rule.size ≤ lastSet Call.sizeLimit? sizeLimit calls ∧
        rule.normalized ∉ engine.rules)) ∧
    ∃ derived, (kind.execute engine).2.rules = engine.rules ++ derived ∧
      (kind.execute engine).1 =
        ⟨derived.map Notation.Canonical.printRule, .ok derived.length⟩ ∧
      derived.length ≤ lastSet Call.bufferLimit? bufferLimit calls := by
  intro fresh engine history came
  have hengine : history.engine = engine := History.engine_run (History.start fresh) calls
  have hcame : engine.rules = came := by
    rw [← hengine]
    exact (History.isComplete_start sizeLimit bufferLimit).run calls
  have htidy : engine.IsTidy := (isTidy_create sizeLimit bufferLimit).run calls
  have hsizeLimit (calls : List Call) :
      (fresh.run calls).sizeLimit = lastSet Call.sizeLimit? sizeLimit calls :=
    limit_run sizeLimit_after fresh calls
  refine ⟨hengine, hcame ▸ htidy.nodup, hcame, congrArg List.length hcame, ?_, ?_, ?_⟩
  · intro rule hrule
    refine ⟨htidy.isNormalized rule hrule, ?_⟩
    have hfresh : rule ∉ fresh.rules := List.not_mem_nil
    obtain ⟨before, call, later, hcalls, hcomes, hstays⟩ := exists_comesIn hfresh hrule
    refine ⟨before, call, later, hcalls, hcomes, hstays, ?_⟩
    rw [← hsizeLimit before]
    exact hcomes.size_le
  · intro rule
    refine ⟨(engine.add rule).1, rfl, ?_⟩
    rw [add_eq_true_iff, Accepts, hsizeLimit calls]
  · have hbufferLimit : engine.bufferLimit = lastSet Call.bufferLimit? bufferLimit calls :=
      limit_run bufferLimit_after fresh calls
    refine ⟨engine.derivable, rfl, rfl, ?_⟩
    rw [← hbufferLimit]
    exact engine.length_derivable_le

/-- What was offered before a reset is gone. Behind it a rule loses its grouping nodes when it is
accepted, and a pass derives another from it, which is kept although the limit in force is lower
than its size by now: it came in within the limit of that time. -/
theorem exists_comesIn_of_lowered_limit :
    let a := Term.symbol "a"
    let b := Term.symbol "b"
    let c := Term.symbol "c"
    let grouped : Rule := ⟨[a, .parenthesized b], c⟩
    let derived : Rule := ⟨[b], c⟩
    let calls : List Call :=
      [.add ⟨[], b⟩, .reset, .add grouped, .add ⟨[], a⟩, .execute, .setSizeLimit 1]
    let fresh := create 3 1
    ((History.start fresh).run calls).admissions =
      [.accepted grouped, .accepted ⟨[], a⟩, .derived derived] ∧
    (fresh.run calls).rules = [⟨[a, b], c⟩, ⟨[], a⟩, derived] ∧
    lastSet Call.sizeLimit? 3 calls < derived.size ∧
    ∃ before call later, calls = before ++ call :: later ∧
      (fresh.run before).ComesIn call derived ∧
      derived.size ≤ lastSet Call.sizeLimit? 3 before := by
  intro a b c grouped derived calls fresh
  have hadmissions : ((History.start fresh).run calls).admissions =
      [.accepted grouped, .accepted ⟨[], a⟩, .derived derived] := by
    decide +kernel
  have hlimit : lastSet Call.sizeLimit? 3 calls < derived.size := by decide +kernel
  obtain ⟨-, -, hrules, -, hkept, -⟩ := admissions_and_rules_run 3 1 calls
  rw [hadmissions] at hrules
  refine ⟨hadmissions, hrules, hlimit, ?_⟩
  have hderived : derived ∈ (fresh.run calls).rules := by
    rw [hrules]
    exact List.mem_cons_of_mem _ (List.mem_cons_of_mem _ List.mem_cons_self)
  obtain ⟨-, before, call, later, hcalls, hcomes, -, hsize⟩ := hkept derived hderived
  exact ⟨before, call, later, hcalls, hcomes, hsize⟩

end Forward

end Sequitur
