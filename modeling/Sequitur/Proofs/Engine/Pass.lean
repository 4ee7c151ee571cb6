import Mathlib.Data.Set.Defs
import Mathlib.Data.List.Induction
import Sequitur.Engine.Forward
import Sequitur.Proofs.Nodes

/-!
# One pass of the forward engine

A rule is discharged from a set of rules when it is one of them without one premise, and the
premise is the conclusion of an axiom among them. One pass derives the discharged rules that
are within the limit and not kept, each at its first place, as many as the buffer holds.
-/

namespace Sequitur

/-! ### First places -/

theorem eraseDups_concat [DecidableEq α] (xs : List α) (x : α) :
    (xs ++ [x]).eraseDups = if x ∈ xs then xs.eraseDups else xs.eraseDups ++ [x] := by
  rw [List.eraseDups_append]
  by_cases hx : x ∈ xs <;> simp [List.removeAll, List.eraseDups_cons, hx]

theorem nodup_eraseDups [DecidableEq α] (xs : List α) : xs.eraseDups.Nodup := by
  induction xs using List.reverseRecOn with
  | nil => simp
  | append_singleton xs x ih =>
      rw [eraseDups_concat]
      by_cases hx : x ∈ xs
      · rw [if_pos hx]
        exact ih
      · rw [if_neg hx, List.nodup_append]
        refine ⟨ih, by simp, ?_⟩
        rintro y hy _ hx' rfl
        rw [List.mem_singleton.mp hx', List.mem_eraseDups] at hy
        exact hx hy

theorem eraseDups_of_nodup [DecidableEq α] {xs : List α} (h : xs.Nodup) : xs.eraseDups = xs := by
  induction xs using List.reverseRecOn with
  | nil => simp
  | append_singleton xs x ih =>
      obtain ⟨hxs, -, hdistinct⟩ := List.nodup_append.mp h
      have hx : x ∉ xs := fun hmem => hdistinct x hmem x List.mem_cons_self rfl
      rw [eraseDups_concat, if_neg hx, ih hxs]

/-! ### Taking a premise out -/

theorem mem_selections_iff {xs : List α} {y : α} {ys : List α} :
    (y, ys) ∈ selections xs ↔ ∃ front back, xs = front ++ y :: back ∧ ys = front ++ back := by
  induction xs generalizing ys with
  | nil => simp [selections]
  | cons x xs ih =>
      rw [selections, List.mem_cons, List.mem_map]
      constructor
      · rintro (h | ⟨⟨z, zs⟩, hmem, heq⟩)
        · obtain ⟨rfl, rfl⟩ := Prod.mk.inj h
          exact ⟨[], ys, rfl, rfl⟩
        · obtain ⟨rfl, rfl⟩ := Prod.mk.inj heq
          obtain ⟨front, back, rfl, rfl⟩ := ih.mp hmem
          exact ⟨x :: front, back, rfl, rfl⟩
      · rintro ⟨front, back, hxs, rfl⟩
        cases front with
        | nil =>
            obtain ⟨rfl, rfl⟩ := List.cons.inj hxs
            exact .inl rfl
        | cons first front =>
            obtain ⟨rfl, rfl⟩ := List.cons.inj hxs
            exact .inr ⟨(y, front ++ back), ih.mpr ⟨front, back, rfl, rfl⟩, rfl⟩

/-- The rules that are left of known rules when one premise is taken out that is the
conclusion of a known axiom. -/
inductive Discharged (known : Set Rule) : Rule → Prop where
  | intro {front premise back conclusion} : ⟨front ++ premise :: back, conclusion⟩ ∈ known →
      ⟨[], premise⟩ ∈ known → Discharged known ⟨front ++ back, conclusion⟩

theorem Discharged.mono {known others : Set Rule} (h : ∀ rule ∈ known, rule ∈ others)
    {rule : Rule} (hrule : Discharged known rule) : Discharged others rule := by
  cases hrule with
  | intro hparent hfact => exact .intro (h _ hparent) (h _ hfact)

/-- A set of rules is closed when nothing is discharged from it that is not in it. -/
def DischargeClosed (known : Set Rule) : Prop := ∀ rule, Discharged known rule → rule ∈ known

theorem Rule.size_append_cons (front back : List Term) (premise conclusion : Term) :
    Rule.size ⟨front ++ premise :: back, conclusion⟩ =
      Rule.size ⟨front ++ back, conclusion⟩ + premise.size := by
  simp only [Rule.size, Rule.terms, Term.sizeAll_append, Term.sizeAll]
  omega

theorem Discharged.size_le {known : Set Rule} {limit : Nat}
    (h : ∀ rule ∈ known, rule.size ≤ limit) {rule : Rule} (hrule : Discharged known rule) :
    rule.size ≤ limit := by
  cases hrule with
  | @intro front premise back conclusion hparent hfact =>
      have hsize := h _ hparent
      rw [Rule.size_append_cons] at hsize
      omega

namespace Forward

theorem mem_facts_iff (engine : Forward) (term : Term) :
    term ∈ engine.facts ↔ ⟨[], term⟩ ∈ engine.rules := by
  simp only [facts, List.mem_map, List.mem_filter]
  constructor
  · rintro ⟨⟨premises, conclusion⟩, ⟨hmem, hfact⟩, rfl⟩
    rw [Rule.isAxiom, List.isEmpty_iff] at hfact
    rw [← hfact]
    exact hmem
  · intro hmem
    exact ⟨⟨[], term⟩, ⟨hmem, rfl⟩, rfl⟩

theorem mem_discharges_iff {rules : List Rule} {premise : Term} {rule : Rule} :
    (premise, rule) ∈ discharges rules ↔ ∃ front back, rule.premises = front ++ back ∧
      ⟨front ++ premise :: back, rule.conclusion⟩ ∈ rules := by
  simp only [discharges, List.mem_flatMap, List.mem_map, List.mem_filter]
  constructor
  · rintro ⟨⟨premises, conclusion⟩, ⟨hmem, -⟩, ⟨term, others⟩, hselection, heq⟩
    obtain ⟨rfl, rfl⟩ := Prod.mk.inj heq
    obtain ⟨front, back, rfl, rfl⟩ := mem_selections_iff.mp hselection
    exact ⟨front, back, rfl, hmem⟩
  · rintro ⟨front, back, hpremises, hmem⟩
    refine ⟨_, ⟨hmem, by simp [Rule.isAxiom]⟩, (premise, front ++ back),
      mem_selections_iff.mpr ⟨front, back, rfl, rfl⟩, ?_⟩
    rw [← hpremises]

/-! ### What a pass derives -/

/-- A discharge is taken up when its premise is a fact and what is left is within the limit
and not kept. -/
def takesUp (engine : Forward) (discharge : Term × Rule) : Bool :=
  engine.facts.contains discharge.1 && engine.withinLimit discharge.2 &&
    !(engine.rules.contains discharge.2)

/-- The rules that a pass meets and could derive, in order and with repetitions. -/
def eligible (engine : Forward) : List Rule :=
  ((discharges engine.rules).filter engine.takesUp).map Prod.snd

theorem mem_eligible_iff (engine : Forward) (rule : Rule) :
    rule ∈ engine.eligible ↔ Discharged {known | known ∈ engine.rules} rule ∧
      rule.size ≤ engine.sizeLimit ∧ rule ∉ engine.rules := by
  have htakes (premise : Term) : engine.takesUp (premise, rule) = true ↔
      ⟨[], premise⟩ ∈ engine.rules ∧ rule.size ≤ engine.sizeLimit ∧ rule ∉ engine.rules := by
    simp [takesUp, withinLimit, mem_facts_iff, and_assoc]
  simp only [eligible, List.mem_map, List.mem_filter]
  constructor
  · rintro ⟨⟨premise, rule⟩, ⟨hmem, htake⟩, rfl⟩
    obtain ⟨front, back, hpremises, hparent⟩ := mem_discharges_iff.mp hmem
    obtain ⟨hfact, hnew⟩ := (htakes premise).mp htake
    have hdischarged : Discharged {known | known ∈ engine.rules} ⟨front ++ back, rule.conclusion⟩ :=
      .intro hparent hfact
    rw [← hpremises] at hdischarged
    exact ⟨hdischarged, hnew⟩
  · rintro ⟨hdischarged, hnew⟩
    cases hdischarged with
    | @intro front premise back conclusion hparent hfact =>
        have hmem : (premise, ⟨front ++ back, conclusion⟩) ∈ discharges engine.rules :=
          mem_discharges_iff.mpr ⟨front, back, rfl, hparent⟩
        exact ⟨(premise, _), ⟨hmem, (htakes premise).mpr ⟨hfact, hnew⟩⟩, rfl⟩

theorem consider_eq (engine : Forward) (buffer : List Rule) (discharge : Term × Rule) :
    engine.consider engine.facts buffer discharge =
      if buffer.length < engine.bufferLimit ∧ engine.takesUp discharge ∧ discharge.2 ∉ buffer then
        buffer ++ [discharge.2]
      else buffer := by
  by_cases hroom : buffer.length < engine.bufferLimit
  · simp [consider, takesUp, hroom, Nat.not_le.mpr hroom, and_assoc]
  · simp [consider, hroom, Nat.le_of_not_lt hroom]

/-- The buffer after some discharges holds the first of those taken up, as many as fit. -/
theorem foldl_consider (engine : Forward) (discharges : List (Term × Rule)) :
    discharges.foldl (engine.consider engine.facts) [] =
      ((discharges.filter engine.takesUp).map Prod.snd).eraseDups.take engine.bufferLimit := by
  -- The buffer grows at its end, so the last discharge is taken off.
  induction discharges using List.reverseRecOn with
  | nil => simp
  | append_singleton discharges discharge ih =>
      rw [List.foldl_append, ih, List.foldl_cons, List.foldl_nil, consider_eq,
        List.filter_append, List.map_append]
      generalize (discharges.filter engine.takesUp).map Prod.snd = met
      by_cases htakes : engine.takesUp discharge = true
      · rw [List.filter_cons_of_pos htakes, List.filter_nil, List.map_singleton, eraseDups_concat]
        by_cases hroom : met.eraseDups.length < engine.bufferLimit
        · rw [List.take_of_length_le (Nat.le_of_lt hroom)]
          have hmem : discharge.2 ∈ met.eraseDups ↔ discharge.2 ∈ met := List.mem_eraseDups
          by_cases hmet : discharge.2 ∈ met
          · rw [if_neg (by simp [hmem, hmet]), if_pos hmet,
              List.take_of_length_le (Nat.le_of_lt hroom)]
          · rw [if_pos ⟨hroom, htakes, mt hmem.mp hmet⟩, if_neg hmet, List.take_of_length_le]
            rw [List.length_append, List.length_singleton]
            exact hroom
        · have hfull := Nat.le_of_not_lt hroom
          rw [if_neg (by simp [hfull])]
          split
          · rfl
          · rw [List.take_append_of_le_length hfull]
      · rw [if_neg (by simp [htakes]), List.filter_cons_of_neg htakes]
        simp

/-- A pass derives the eligible rules at their first places, as many as the buffer holds. -/
theorem derivable_eq (engine : Forward) :
    engine.derivable = engine.eligible.eraseDups.take engine.bufferLimit :=
  engine.foldl_consider (discharges engine.rules)

theorem of_mem_derivable {engine : Forward} {rule : Rule} (h : rule ∈ engine.derivable) :
    Discharged {known | known ∈ engine.rules} rule ∧ rule.size ≤ engine.sizeLimit ∧
      rule ∉ engine.rules := by
  rw [derivable_eq] at h
  exact (mem_eligible_iff engine rule).mp (List.mem_eraseDups.mp (List.mem_of_mem_take h))

theorem nodup_derivable (engine : Forward) : engine.derivable.Nodup := by
  rw [derivable_eq]
  exact (nodup_eraseDups _).sublist (List.take_sublist _ _)

/-- A pass with room for a rule derives nothing only when no rule is eligible. -/
theorem eligible_eq_nil_of_derivable_eq_nil {engine : Forward} (hbuffer : 0 < engine.bufferLimit)
    (h : engine.derivable = []) : engine.eligible = [] := by
  rw [derivable_eq, List.take_eq_nil_iff] at h
  rcases h with hzero | hnone
  · omega
  · rw [List.eq_nil_iff_forall_not_mem] at hnone ⊢
    intro rule hrule
    exact hnone rule (List.mem_eraseDups.mpr hrule)

/-- What is kept is closed when a pass with room for a rule derives nothing, if no kept rule is
beyond the limit. -/
theorem dischargeClosed_of_derivable_eq_nil {engine : Forward} (hbuffer : 0 < engine.bufferLimit)
    (hsize : ∀ rule ∈ engine.rules, rule.size ≤ engine.sizeLimit) (h : engine.derivable = []) :
    DischargeClosed {rule | rule ∈ engine.rules} := by
  have hnone := eligible_eq_nil_of_derivable_eq_nil hbuffer h
  intro rule hdischarged
  by_contra hnew
  have heligible := (mem_eligible_iff engine rule).mpr
    ⟨hdischarged, hdischarged.size_le hsize, hnew⟩
  rw [hnone] at heligible
  exact List.not_mem_nil heligible

end Forward

end Sequitur
