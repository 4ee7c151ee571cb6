import Mathlib.Algebra.Ring.Nat
import Mathlib.Data.Nat.Find
import Sequitur.Proofs.Engine.Passes
import Sequitur.Proofs.Engine.Termination

/-!
# How much passes can derive

A derived rule is a kept rule that has lost premises, and the rules that are derived later have lost
more. So all of them are found among the rules that were kept before the first pass, each without
some of its premises and at least one. A rule with `n` premises leaves `2 ^ n - 1` of these. No rule
is derived twice, so the sum of these numbers bounds the rules that passes derive, and with them the
passes that derive something, whatever the limits are and however many rules come in between.
-/

namespace Sequitur.Forward

/-- The rules that are left when at least one premise is taken out of a rule. -/
def properRemnants (rules : List Rule) : List Rule :=
  rules.flatMap fun rule => (remnants [rule]).erase rule

/-- The number of ways to take at least one premise out of one of the rules. -/
def remnantCount (rules : List Rule) : Nat :=
  (rules.map fun rule => 2 ^ rule.premises.length - 1).sum

theorem length_properRemnants (rules : List Rule) :
    (properRemnants rules).length = remnantCount rules := by
  rw [properRemnants, List.length_flatMap, remnantCount]
  congr 1
  apply List.map_congr_left
  intro rule _
  rw [List.length_erase_of_mem (mem_remnants_of_mem (List.mem_singleton_self rule)), remnants,
    List.flatMap_singleton, List.length_map, List.length_sublists]

theorem mem_properRemnants {rules : List Rule} {rule parent : Rule} (hparent : parent ∈ rules)
    (hpremises : rule.premises.Sublist parent.premises)
    (hconclusion : rule.conclusion = parent.conclusion)
    (hlength : rule.premises.length < parent.premises.length) : rule ∈ properRemnants rules := by
  have hne : rule ≠ parent := by
    rintro rfl
    exact Nat.lt_irrefl _ hlength
  have hremnant : rule ∈ remnants [parent] :=
    mem_remnants_iff.mpr ⟨parent, List.mem_singleton_self parent, hpremises, hconclusion⟩
  exact List.mem_flatMap.mpr ⟨parent, hparent, (List.mem_erase_of_ne hne).mpr hremnant⟩

/-- What a pass derives has lost a premise and is left of one of the given rules, if all that is
kept is left of them. -/
theorem exists_parent_of_mem_derivable {engine : Forward} {rules : List Rule}
    (h : ∀ rule ∈ engine.rules, rule ∈ remnants rules) {rule : Rule}
    (hrule : rule ∈ engine.derivable) : ∃ parent ∈ rules,
      rule.premises.Sublist parent.premises ∧ rule.conclusion = parent.conclusion ∧
      rule.premises.length < parent.premises.length := by
  have hdischarged := (of_mem_derivable hrule).1
  cases hdischarged with
  | @intro front premise back conclusion hkept hfact =>
      obtain ⟨parent, hparent, hsublist, hconclusion⟩ := mem_remnants_iff.mp (h _ hkept)
      have hshorter : (front ++ back).Sublist (front ++ premise :: back) :=
        (List.Sublist.refl front).append (List.sublist_cons_self premise back)
      have hlength := hsublist.length_le
      rw [List.length_append, List.length_cons] at hlength
      refine ⟨parent, hparent, hshorter.trans hsublist, hconclusion, ?_⟩
      rw [List.length_append]
      omega

/-! ### Passes without end -/

/-- The engine after passes, whether or not they derived anything. -/
def afterPasses (engine : Forward) (count : Nat) : Forward :=
  engine.run (List.replicate count .execute)

/-- What is reported by the pass behind so many others. -/
def reported (engine : Forward) (count : Nat) : List Rule := (engine.afterPasses count).execute.1

/-- What so many passes report, one behind the other. -/
def derived (engine : Forward) (count : Nat) : List Rule :=
  (List.range count).flatMap engine.reported

variable {engine : Forward}

@[simp] theorem afterPasses_zero (engine : Forward) : engine.afterPasses 0 = engine := rfl

theorem afterPasses_succ (engine : Forward) (count : Nat) :
    engine.afterPasses (count + 1) = (engine.afterPasses count).keep (engine.reported count) := by
  rw [afterPasses, List.replicate_succ', run_append, run_singleton]
  rfl

@[simp] theorem derived_zero (engine : Forward) : engine.derived 0 = [] := rfl

theorem derived_succ (engine : Forward) (count : Nat) :
    engine.derived (count + 1) = engine.derived count ++ engine.reported count := by
  rw [derived, List.range_succ, List.flatMap_append, List.flatMap_singleton, derived]

/-- Passes append what they report. -/
theorem afterPasses_eq (engine : Forward) (count : Nat) :
    engine.afterPasses count = engine.keep (engine.derived count) := by
  induction count with
  | zero => simp
  | succ count ih => rw [afterPasses_succ, ih, keep_keep, derived_succ]

theorem mem_remnants_of_mem_afterPasses (engine : Forward) (count : Nat) :
    ∀ rule ∈ (engine.afterPasses count).rules, rule ∈ remnants engine.rules := by
  induction count with
  | zero => exact fun rule => mem_remnants_of_mem
  | succ count ih =>
      rw [afterPasses_succ, keep_rules, List.forall_mem_append]
      exact ⟨ih, mem_remnants_of_mem_derivable ih⟩

/-- Every rule that is ever reported is left of a rule that was kept before the passes. -/
theorem exists_parent_of_mem_reported {count : Nat} {rule : Rule}
    (h : rule ∈ engine.reported count) : ∃ parent ∈ engine.rules,
      rule.premises.Sublist parent.premises ∧ rule.conclusion = parent.conclusion ∧
      rule.premises.length < parent.premises.length :=
  exists_parent_of_mem_derivable (engine.mem_remnants_of_mem_afterPasses count) h

/-- Every rule that is ever reported is smaller than a rule that was kept before the passes. -/
theorem exists_size_lt_of_mem_reported {count : Nat} {rule : Rule}
    (h : rule ∈ engine.reported count) : ∃ kept ∈ engine.rules, rule.size < kept.size := by
  obtain ⟨parent, hparent, hpremises, hconclusion, hlength⟩ := exists_parent_of_mem_reported h
  exact ⟨parent, hparent, Rule.size_lt_of_sublist hpremises hconclusion hlength⟩

/-- No rule is reported twice, by whatever passes. -/
theorem nodup_derived (engine : Forward) (count : Nat) : (engine.derived count).Nodup := by
  induction count with
  | zero => exact List.nodup_nil
  | succ count ih =>
      rw [derived_succ, List.nodup_append]
      refine ⟨ih, nodup_derivable _, ?_⟩
      rintro rule hbefore _ hreported rfl
      apply (of_mem_derivable hreported).2.2
      rw [afterPasses_eq, keep_rules]
      exact List.mem_append_right _ hbefore

theorem length_derived_le (engine : Forward) (count : Nat) :
    (engine.derived count).length ≤ remnantCount engine.rules := by
  have hproper : ∀ rule ∈ engine.derived count, rule ∈ properRemnants engine.rules := by
    intro rule hrule
    obtain ⟨pass, -, hreported⟩ := List.mem_flatMap.mp hrule
    obtain ⟨parent, hparent, hpremises, hconclusion, hlength⟩ :=
      exists_parent_of_mem_reported hreported
    exact mem_properRemnants hparent hpremises hconclusion hlength
  rw [← length_properRemnants]
  exact ((engine.nodup_derived count).subperm hproper).length_le

/-- Passes that all report something report at least one rule each. -/
theorem le_length_derived {count : Nat} (h : ∀ pass < count, engine.reported pass ≠ []) :
    count ≤ (engine.derived count).length := by
  induction count with
  | zero => exact Nat.zero_le _
  | succ count ih =>
      have hbefore := ih fun pass hpass => h pass (Nat.lt_succ_of_lt hpass)
      have hlast := List.length_pos_iff.mpr (h count (Nat.lt_succ_self count))
      rw [derived_succ, List.length_append]
      omega

/-- The first pass that reports nothing comes after at most so many passes as there are ways to take
premises out. -/
theorem exists_reported_eq_nil (engine : Forward) : ∃ count ≤ remnantCount engine.rules,
    (∀ pass < count, engine.reported pass ≠ []) ∧ engine.reported count = [] := by
  have hends : ∃ count, engine.reported count = [] := by
    by_contra hnever
    have hall : ∀ pass < remnantCount engine.rules + 1, engine.reported pass ≠ [] :=
      fun pass _ hnil => hnever ⟨pass, hnil⟩
    have hmany := le_length_derived hall
    have hbound := engine.length_derived_le (remnantCount engine.rules + 1)
    omega
  have hbefore : ∀ pass < Nat.find hends, engine.reported pass ≠ [] :=
    fun pass hpass => Nat.find_min hends hpass
  refine ⟨Nat.find hends, ?_, hbefore, Nat.find_spec hends⟩
  exact (le_length_derived hbefore).trans (engine.length_derived_le _)

/-- Behind a pass that reports nothing the engine stays as it is. -/
theorem afterPasses_of_reported_eq_nil {count : Nat} (h : engine.reported count = []) {later : Nat}
    (hlater : count ≤ later) : engine.afterPasses later = engine.afterPasses count := by
  induction later, hlater using Nat.le_induction with
  | base => rfl
  | succ later _ ih =>
      have hnothing : engine.reported later = [] := by rw [reported, ih, ← reported, h]
      rw [afterPasses_succ, hnothing, keep_nil, ih]

/-- The passes behind the first one are those of the engine that it leaves. -/
theorem derived_succ_eq_append (engine : Forward) (count : Nat) :
    engine.derived (count + 1) =
      engine.derivable ++ (engine.keep engine.derivable).derived count := by
  rw [derived, List.range_succ_eq_map, List.flatMap_cons, List.flatMap_map]
  rfl

end Sequitur.Forward
