import Mathlib.Order.Bounds.Basic
import Sequitur.Proofs.Engine.Termination

/-!
# Where passes end

With a fixed limit on sizes, what an engine keeps lies at all times within every closed set of
rules that contains what was offered. When a pass derives nothing, what is kept is closed
itself, so it is the least such set, in whatever order the rules were offered and the passes
were run. And a pass that derives nothing comes after finitely many: every rule that passes
can derive takes premises out of a rule that was there before them.
-/

namespace Sequitur.Forward

/-- A call that leaves the kept rules and the limit on sizes as they are, and room in the
buffer. -/
def Call.IsSteady : Call → Prop
  | .add _ | .execute => True
  | .setBufferLimit limit => 1 ≤ limit
  | .reset | .setSizeLimit _ => False

/-- The closed sets of rules that contain the given rules, as far as these are within the
limit. -/
def closedOver (limit : Nat) (rules : List Rule) : Set (Set Rule) :=
  {known | (∀ rule ∈ rules, rule.size ≤ limit → rule.normalized ∈ known) ∧ DischargeClosed known}

/-- What holds of an engine with a limit on sizes to which these rules were offered. -/
structure Fed (limit : Nat) (rules : List Rule) (engine : Forward) : Prop where
  sizeLimit_eq : engine.sizeLimit = limit
  bufferLimit_pos : 1 ≤ engine.bufferLimit
  nodup : engine.rules.Nodup
  size_le : ∀ rule ∈ engine.rules, rule.size ≤ limit
  kept : ∀ rule ∈ rules, rule.size ≤ limit → rule.normalized ∈ engine.rules
  within : ∀ known ∈ closedOver limit rules, ∀ rule ∈ engine.rules, rule ∈ known

theorem Fed.create {limit buffer : Nat} (hbuffer : 1 ≤ buffer) :
    Fed limit [] (create limit buffer) where
  sizeLimit_eq := rfl
  bufferLimit_pos := hbuffer
  nodup := List.nodup_nil
  size_le := by simp [Forward.create]
  kept := by simp
  within := by simp [Forward.create]

variable {limit : Nat} {rules : List Rule} {engine : Forward}

theorem Fed.add (h : Fed limit rules engine) (rule : Rule) :
    Fed limit (rules ++ [rule]) (engine.add rule).2 := by
  have hnarrow : ∀ known ∈ closedOver limit (rules ++ [rule]), known ∈ closedOver limit rules ∧
      (rule.size ≤ limit → rule.normalized ∈ known) := by
    rintro known ⟨hcontains, hclosed⟩
    rw [List.forall_mem_append, List.forall_mem_singleton] at hcontains
    exact ⟨⟨hcontains.1, hclosed⟩, hcontains.2⟩
  by_cases haccepts : engine.Accepts rule
  · rw [add_of_accepts haccepts]
    have hsize := haccepts.1
    rw [h.sizeLimit_eq] at hsize
    refine ⟨h.sizeLimit_eq, h.bufferLimit_pos, nodup_append_normalized h.nodup haccepts,
      ?_, ?_, ?_⟩
    · rw [keep_rules, List.forall_mem_append, List.forall_mem_singleton, Rule.size_normalized]
      exact ⟨h.size_le, hsize⟩
    · rw [keep_rules, List.forall_mem_append, List.forall_mem_singleton]
      refine ⟨?_, fun _ => List.mem_append_right _ (List.mem_singleton.mpr rfl)⟩
      intro other hother hle
      exact List.mem_append_left _ (h.kept other hother hle)
    · intro known hknown
      rw [keep_rules, List.forall_mem_append, List.forall_mem_singleton]
      exact ⟨h.within known (hnarrow known hknown).1, (hnarrow known hknown).2 hsize⟩
  · rw [add_of_not_accepts haccepts]
    refine ⟨h.sizeLimit_eq, h.bufferLimit_pos, h.nodup, h.size_le, ?_, ?_⟩
    · rw [List.forall_mem_append, List.forall_mem_singleton]
      refine ⟨h.kept, ?_⟩
      intro hle
      by_contra hnew
      exact haccepts ⟨h.sizeLimit_eq ▸ hle, hnew⟩
    · intro known hknown
      exact h.within known (hnarrow known hknown).1

theorem Fed.execute (h : Fed limit rules engine) : Fed limit rules engine.execute.2 := by
  have hdischarged : ∀ rule ∈ engine.derivable, Discharged {known | known ∈ engine.rules} rule :=
    fun rule hrule => (of_mem_derivable hrule).1
  rw [execute_eq]
  refine ⟨h.sizeLimit_eq, h.bufferLimit_pos, nodup_append_derivable h.nodup, ?_, ?_, ?_⟩
  · rw [keep_rules, List.forall_mem_append]
    exact ⟨h.size_le, fun rule hrule => (hdischarged rule hrule).size_le h.size_le⟩
  · intro rule hrule hle
    exact List.mem_append_left _ (h.kept rule hrule hle)
  · intro known hknown
    rw [keep_rules, List.forall_mem_append]
    refine ⟨h.within known hknown, ?_⟩
    intro rule hrule
    exact hknown.2 rule ((hdischarged rule hrule).mono (h.within known hknown))

theorem Fed.setBufferLimit (h : Fed limit rules engine) {buffer : Nat} (hbuffer : 1 ≤ buffer) :
    Fed limit rules (engine.setBufferLimit buffer) :=
  ⟨h.sizeLimit_eq, hbuffer, h.nodup, h.size_le, h.kept, h.within⟩

theorem Fed.after (h : Fed limit rules engine) {call : Call} (hsteady : call.IsSteady) :
    Fed limit (rules ++ offered [call]) (engine.after call) := by
  cases call with
  | add rule => exact h.add rule
  | execute =>
      rw [show offered [.execute] = [] from rfl, List.append_nil]
      exact h.execute
  | setBufferLimit buffer =>
      rw [show offered [.setBufferLimit buffer] = [] from rfl, List.append_nil]
      exact h.setBufferLimit hsteady
  | reset => exact hsteady.elim
  | setSizeLimit limit => exact hsteady.elim

theorem Fed.run (h : Fed limit rules engine) {calls : List Call}
    (hsteady : ∀ call ∈ calls, call.IsSteady) :
    Fed limit (rules ++ offered calls) (engine.run calls) := by
  induction calls using List.reverseRecOn with
  | nil =>
      rw [show offered [] = [] from rfl, List.append_nil]
      exact h
  | append_singleton calls call ih =>
      rw [List.forall_mem_append, List.forall_mem_singleton] at hsteady
      have hafter := (ih hsteady.1).after hsteady.2
      rw [List.append_assoc, offered, offered, ← List.filterMap_append] at hafter
      rw [run_append, run_singleton]
      exact hafter

/-- What is kept is closed when a pass derives nothing. -/
theorem Fed.dischargeClosed (h : Fed limit rules engine) (hpass : engine.execute.1 = []) :
    DischargeClosed {rule | rule ∈ engine.rules} :=
  dischargeClosed_of_derivable_eq_nil h.bufferLimit_pos (h.sizeLimit_eq ▸ h.size_le) hpass

theorem Fed.isLeast (h : Fed limit rules engine) (hpass : engine.execute.1 = []) :
    IsLeast (closedOver limit rules) {rule | rule ∈ engine.rules} :=
  ⟨⟨h.kept, h.dischargeClosed hpass⟩, h.within⟩

/-- Rules offered in any order, with passes and changes of the buffer in between: the passes
come to an end, and whenever a pass derives nothing, what is kept is the least closed set that
contains the offered rules within the limit. -/
theorem passes_end_and_isLeast_closedOver (limit buffer : Nat) (hbuffer : 1 ≤ buffer)
    (rules : List Rule) (calls : List Call) (hsteady : ∀ call ∈ calls, call.IsSteady)
    (hoffered : ∀ rule, rule ∈ offered calls ↔ rule ∈ rules) :
    (∃ n, ((create limit buffer).run (calls ++ List.replicate n .execute)).execute.1 = []) ∧
    (((create limit buffer).run calls).execute.1 = [] →
      IsLeast (closedOver limit rules)
        {rule | rule ∈ ((create limit buffer).run calls).rules}) := by
  have hfresh : Fed limit [] (create limit buffer) := .create hbuffer
  have hfed := hfresh.run hsteady
  rw [List.nil_append] at hfed
  constructor
  · obtain ⟨n, hpass⟩ := exists_passes_of_nodup hfed.nodup
    exact ⟨n, by rw [run_append, hpass]⟩
  · intro hpass
    have hsame : closedOver limit rules = closedOver limit (offered calls) := by
      simp only [closedOver, hoffered]
    rw [hsame]
    exact hfed.isLeast hpass

/-- A pass with room for one rule at a time, in between and after the rules are offered. -/
theorem isLeast_closedOver_of_conjunction :
    let a := Term.symbol "a"
    let b := Term.symbol "b"
    let both := Term.binary "∧" a b
    IsLeast (closedOver 5 [⟨[], b⟩, ⟨[a, b], both⟩, ⟨[], a⟩])
      {rule | rule ∈ ((create 5 1).run [.add ⟨[], b⟩, .add ⟨[a, b], both⟩, .execute,
        .add ⟨[], a⟩, .execute, .setBufferLimit 2, .execute]).rules} := by
  intro a b both
  refine (passes_end_and_isLeast_closedOver 5 1 (by decide) _ _ ?_ ?_).2 (by decide +kernel)
  · simp [Call.IsSteady]
  · exact fun rule => Iff.rfl

end Sequitur.Forward
