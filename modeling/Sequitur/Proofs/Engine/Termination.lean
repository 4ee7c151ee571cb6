import Mathlib.Data.List.Sublists
import Sequitur.Proofs.Engine.Calls

/-!
# Passes come to an end

A pass takes premises out of rules, so whatever passes derive is a remnant of a rule that was
kept before them. There are finitely many remnants, each is kept once, and a pass that does
not end the search keeps one more.
-/

namespace Sequitur.Forward

/-- The rules that are left when any premises are taken out of rules. -/
def remnants (rules : List Rule) : List Rule :=
  rules.flatMap fun rule => rule.premises.sublists.map (⟨·, rule.conclusion⟩)

theorem mem_remnants_iff {rules : List Rule} {rule : Rule} : rule ∈ remnants rules ↔
    ∃ parent ∈ rules, rule.premises.Sublist parent.premises ∧
      rule.conclusion = parent.conclusion := by
  simp only [remnants, List.mem_flatMap, List.mem_map, List.mem_sublists]
  constructor
  · rintro ⟨parent, hparent, premises, hsublist, rfl⟩
    exact ⟨parent, hparent, hsublist, rfl⟩
  · rintro ⟨parent, hparent, hsublist, hconclusion⟩
    exact ⟨parent, hparent, rule.premises, hsublist, by rw [← hconclusion]⟩

theorem mem_remnants_of_mem {rules : List Rule} {rule : Rule} (h : rule ∈ rules) :
    rule ∈ remnants rules :=
  mem_remnants_iff.mpr ⟨rule, h, List.Sublist.refl _, rfl⟩

theorem mem_remnants_of_discharged {rules : List Rule} {known : Set Rule}
    (h : ∀ rule ∈ known, rule ∈ remnants rules) {rule : Rule} (hrule : Discharged known rule) :
    rule ∈ remnants rules := by
  cases hrule with
  | @intro front premise back conclusion hparent hfact =>
      obtain ⟨parent, hmem, hsublist, hconclusion⟩ := mem_remnants_iff.mp (h _ hparent)
      have hshorter : (front ++ back).Sublist (front ++ premise :: back) :=
        (List.Sublist.refl front).append (List.sublist_cons_self premise back)
      exact mem_remnants_iff.mpr ⟨parent, hmem, hshorter.trans hsublist, hconclusion⟩

theorem mem_remnants_of_mem_derivable {engine : Forward} {rules : List Rule}
    (h : ∀ rule ∈ engine.rules, rule ∈ remnants rules) :
    ∀ rule ∈ engine.derivable, rule ∈ remnants rules := by
  intro rule hrule
  exact mem_remnants_of_discharged h (of_mem_derivable hrule).1

/-- An engine that keeps remnants of the given rules, and each once, derives nothing after at
most as many passes as there are remnants more. -/
theorem exists_run_execute_eq_nil (rules : List Rule) (passes : Nat) (engine : Forward)
    (hnodup : engine.rules.Nodup) (hkept : ∀ rule ∈ engine.rules, rule ∈ remnants rules)
    (hpasses : (remnants rules).length ≤ engine.rules.length + passes) :
    ∃ n ≤ passes, (engine.run (List.replicate n .execute)).execute.1 = [] := by
  induction passes generalizing engine with
  | zero =>
      refine ⟨0, Nat.le_refl 0, ?_⟩
      -- All remnants are kept, and a further one would be kept twice.
      have hnext := nodup_append_derivable hnodup
      have hall : ∀ rule ∈ engine.rules ++ engine.derivable, rule ∈ remnants rules :=
        List.forall_mem_append.mpr ⟨hkept, mem_remnants_of_mem_derivable hkept⟩
      have hlength := (hnext.subperm hall).length_le
      rw [List.length_append] at hlength
      have hnone : engine.derivable.length = 0 := by omega
      exact List.length_eq_zero_iff.mp hnone
  | succ passes ih =>
      by_cases hnone : engine.derivable = []
      · exact ⟨0, Nat.zero_le _, hnone⟩
      · have hgrown := List.length_pos_iff.mpr hnone
        obtain ⟨n, hn, hpass⟩ := ih (engine.after .execute) (nodup_append_derivable hnodup)
          (List.forall_mem_append.mpr ⟨hkept, mem_remnants_of_mem_derivable hkept⟩) (by
            rw [after, execute_eq, keep_rules, List.length_append]
            omega)
        exact ⟨n + 1, Nat.succ_le_succ hn, hpass⟩

/-- The passes that an engine can run before one derives nothing are bounded by the number of
ways to take premises out of its rules. -/
theorem exists_passes_of_nodup {engine : Forward} (h : engine.rules.Nodup) :
    ∃ n, (engine.run (List.replicate n .execute)).execute.1 = [] := by
  obtain ⟨n, -, hpass⟩ := exists_run_execute_eq_nil engine.rules (remnants engine.rules).length
    engine h (fun rule => mem_remnants_of_mem) (Nat.le_add_left _ _)
  exact ⟨n, hpass⟩

end Sequitur.Forward
