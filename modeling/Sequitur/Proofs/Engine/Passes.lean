import Sequitur.Proofs.Engine.Calls

/-!
# Passes one after the other

A search runs passes until one derives nothing, or as many as it may. Each pass appends what it
derives, so the engine is left with all that was reported, in order, and a search that ends with a
pass that derives nothing leaves nothing to derive: no later search changes the engine.
-/

namespace Sequitur.Forward

/-- Runs passes until one derives nothing, but at most the given number. The answer holds what each
pass derived. -/
def passes (engine : Forward) : (maxPasses : Nat) → List (List Rule) × Forward
  | 0 => ([], engine)
  | maxPasses + 1 =>
      match engine.execute with
      | ([], engine) => ([[]], engine)
      | (derived, engine) =>
          let (more, engine) := engine.passes maxPasses
          (derived :: more, engine)

variable {engine : Forward}

@[simp] theorem keep_nil (engine : Forward) : engine.keep [] = engine := by
  simp [keep]

@[simp] theorem keep_keep (engine : Forward) (rules others : List Rule) :
    (engine.keep rules).keep others = engine.keep (rules ++ others) := by
  simp [keep]

theorem passes_succ_of_eq_nil (h : engine.derivable = []) (maxPasses : Nat) :
    engine.passes (maxPasses + 1) = ([[]], engine) := by
  rw [passes, execute_eq, h, keep_nil]

theorem passes_succ_of_ne_nil (h : engine.derivable ≠ []) (maxPasses : Nat) :
    engine.passes (maxPasses + 1) =
      (engine.derivable :: ((engine.keep engine.derivable).passes maxPasses).1,
        ((engine.keep engine.derivable).passes maxPasses).2) := by
  obtain ⟨rule, others, hderivable⟩ := List.exists_cons_of_ne_nil h
  rw [passes, execute_eq]
  simp only [hderivable]

/-- Passes append what they report. -/
theorem snd_passes (engine : Forward) (maxPasses : Nat) :
    (engine.passes maxPasses).2 = engine.keep (engine.passes maxPasses).1.flatten := by
  induction maxPasses generalizing engine with
  | zero => simp [passes]
  | succ maxPasses ih =>
      by_cases hderivable : engine.derivable = []
      · simp [passes_succ_of_eq_nil hderivable]
      · rw [passes_succ_of_ne_nil hderivable, ih, keep_keep, List.flatten_cons]

/-- As many passes are run as are reported. -/
theorem run_replicate_length_passes (engine : Forward) (maxPasses : Nat) :
    (engine.passes maxPasses).1.length ≤ maxPasses ∧
    engine.run (List.replicate (engine.passes maxPasses).1.length .execute) =
      (engine.passes maxPasses).2 := by
  induction maxPasses generalizing engine with
  | zero => exact ⟨Nat.le_refl 0, rfl⟩
  | succ maxPasses ih =>
      by_cases hderivable : engine.derivable = []
      · rw [passes_succ_of_eq_nil hderivable]
        refine ⟨Nat.succ_le_succ (Nat.zero_le _), ?_⟩
        change engine.after .execute = engine
        rw [after, execute_eq, hderivable, keep_nil]
      · obtain ⟨hlength, hrun⟩ := ih (engine.keep engine.derivable)
        rw [passes_succ_of_ne_nil hderivable]
        exact ⟨Nat.succ_le_succ hlength, hrun⟩

/-- Nothing is left to derive when the last pass derived nothing. -/
theorem derivable_snd_passes {maxPasses : Nat}
    (h : (engine.passes maxPasses).1.getLast? = some []) :
    (engine.passes maxPasses).2.derivable = [] := by
  induction maxPasses generalizing engine with
  | zero => simp [passes] at h
  | succ maxPasses ih =>
      by_cases hderivable : engine.derivable = []
      · rw [passes_succ_of_eq_nil hderivable]
        exact hderivable
      · rw [passes_succ_of_ne_nil hderivable] at h ⊢
        apply ih
        cases hmore : ((engine.keep engine.derivable).passes maxPasses).1 with
        | nil =>
            rw [hmore, List.getLast?_singleton] at h
            exact absurd (Option.some.inj h) hderivable
        | cons derived more =>
            rw [hmore, List.getLast?_cons_cons] at h
            exact h

theorem snd_passes_of_derivable_eq_nil (h : engine.derivable = []) (maxPasses : Nat) :
    (engine.passes maxPasses).2 = engine := by
  cases maxPasses with
  | zero => rfl
  | succ maxPasses => rw [passes_succ_of_eq_nil h]

theorem flatten_passes_of_derivable_eq_nil (h : engine.derivable = []) (maxPasses : Nat) :
    (engine.passes maxPasses).1.flatten = [] := by
  cases maxPasses with
  | zero => rfl
  | succ maxPasses =>
      rw [passes_succ_of_eq_nil h]
      rfl

/-- Passes behind passes report what so many passes report together. -/
theorem flatten_passes_add (engine : Forward) (first second : Nat) :
    (engine.passes (first + second)).1.flatten =
      (engine.passes first).1.flatten ++ ((engine.passes first).2.passes second).1.flatten := by
  induction first generalizing engine with
  | zero => simp [passes]
  | succ first ih =>
      rw [Nat.add_right_comm]
      by_cases hderivable : engine.derivable = []
      · rw [passes_succ_of_eq_nil hderivable, passes_succ_of_eq_nil hderivable,
          flatten_passes_of_derivable_eq_nil hderivable]
        rfl
      · rw [passes_succ_of_ne_nil hderivable, passes_succ_of_ne_nil hderivable, List.flatten_cons,
          List.flatten_cons, ih, List.append_assoc]

/-! ### Rules that are offered one after the other -/

/-- The rules within the limit that are offered and not kept yet, without their grouping nodes. -/
def admissible (engine : Forward) (rules : List Rule) : List Rule :=
  ((rules.filter engine.withinLimit).map Rule.normalized).filter (!engine.rules.contains ·)

theorem admissible_concat_of_accepts {rule : Rule} (h : engine.Accepts rule) (rules : List Rule) :
    engine.admissible (rules ++ [rule]) = engine.admissible rules ++ [rule.normalized] := by
  obtain ⟨hsize, hnew⟩ := h
  simp [admissible, withinLimit, hsize, hnew]

theorem admissible_concat_of_not_accepts {rule : Rule} (h : ¬engine.Accepts rule)
    (rules : List Rule) : engine.admissible (rules ++ [rule]) = engine.admissible rules := by
  by_cases hsize : rule.size ≤ engine.sizeLimit
  · have hkept : rule.normalized ∈ engine.rules := by_contra fun hnew => h ⟨hsize, hnew⟩
    simp [admissible, withinLimit, hkept, List.filter_cons]
  · simp [admissible, withinLimit, hsize]

/-- The rules that are taken in when rules are offered, each for the first time that it is
offered. -/
def takenIn (engine : Forward) (rules : List Rule) : List Rule :=
  (engine.admissible rules).eraseDups

/-- Offering rules makes the engine keep those that are taken in. -/
theorem run_map_add (engine : Forward) (rules : List Rule) :
    engine.run (rules.map .add) = engine.keep (engine.takenIn rules) := by
  -- The rule that is offered last meets the engine that has taken in the others.
  induction rules using List.reverseRecOn with
  | nil => simp [takenIn, admissible]
  | append_singleton rules rule ih =>
      rw [List.map_append, run_append, ih, List.map_singleton, run_singleton, after, takenIn,
        takenIn]
      by_cases haccepts : engine.Accepts rule
      · rw [admissible_concat_of_accepts haccepts, eraseDups_concat]
        by_cases hbefore : rule.normalized ∈ engine.admissible rules
        · rw [if_pos hbefore, add_of_not_accepts]
          exact fun h => h.2 (List.mem_append_right _ (List.mem_eraseDups.mpr hbefore))
        · rw [if_neg hbefore, add_of_accepts, keep_keep]
          refine ⟨haccepts.1, ?_⟩
          rw [keep_rules, List.mem_append, List.mem_eraseDups, not_or]
          exact ⟨haccepts.2, hbefore⟩
      · rw [admissible_concat_of_not_accepts haccepts, add_of_not_accepts]
        exact fun h => haccepts ⟨h.1, fun hkept => h.2 (List.mem_append_left _ hkept)⟩

/-- Distinct rules without grouping nodes that are within the limit are all taken in. -/
theorem run_map_add_of_nodup {rules : List Rule} (hnodup : (engine.rules ++ rules).Nodup)
    (hnormalized : ∀ rule ∈ rules, rule.normalized = rule)
    (hsize : ∀ rule ∈ rules, rule.size ≤ engine.sizeLimit) :
    engine.run (rules.map .add) = engine.keep rules := by
  obtain ⟨-, hdistinct, hnew⟩ := List.nodup_append.mp hnodup
  have hwithin : rules.filter engine.withinLimit = rules :=
    List.filter_eq_self.mpr fun rule hrule => by simpa [withinLimit] using hsize rule hrule
  have hsame : rules.map Rule.normalized = rules :=
    (List.map_congr_left hnormalized).trans (List.map_id rules)
  have hfresh : rules.filter (!engine.rules.contains ·) = rules := by
    rw [List.filter_eq_self]
    intro rule hrule
    simpa using fun hkept => hnew rule hkept rule hrule rfl
  rw [run_map_add, takenIn, admissible, hwithin, hsame, hfresh, eraseDups_of_nodup hdistinct]

end Sequitur.Forward
