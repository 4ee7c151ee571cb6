import Sequitur.Proofs.Engine.Calls

/-!
# The candidates of a pass

What a pass reports can be told without a buffer that fills up. The candidates of a pass are listed
once, from the rules that are kept before it: rule by rule and premise by premise, each at its first
place only. The buffer then cuts this list short, and does nothing else: it takes up no other
candidate and none at another place, whatever number of them it holds.
-/

namespace Sequitur

/-- The selections from a list go through its places. -/
theorem selections_eq_map_zipIdx (xs : List α) :
    selections xs = xs.zipIdx.map fun occurrence => (occurrence.1, xs.eraseIdx occurrence.2) := by
  induction xs with
  | nil => rfl
  | cons x xs ih =>
      rw [selections, ih, List.zipIdx_cons, List.map_cons, List.zipIdx_succ, List.map_map,
        List.map_map]
      rfl

namespace Forward

/-- What is left of a rule without one of its premises, for every place of a premise that is the
conclusion of a kept axiom. -/
def withoutFact (engine : Forward) (rule : Rule) : List Rule :=
  (rule.premises.zipIdx.filter fun occurrence => engine.rules.contains ⟨[], occurrence.1⟩).map
    fun occurrence => ⟨rule.premises.eraseIdx occurrence.2, rule.conclusion⟩

/-- What a pass could derive: rule by rule what is left without a fact, if it is within the limit
and not kept, and each of these once. -/
def candidates (engine : Forward) : List Rule :=
  (((engine.rules.filter (!·.isAxiom)).flatMap engine.withoutFact).filter fun candidate =>
    candidate.size ≤ engine.sizeLimit && !engine.rules.contains candidate).eraseDups

variable (engine : Forward)

theorem contains_facts (term : Term) :
    engine.facts.contains term = engine.rules.contains ⟨[], term⟩ := by
  rw [Bool.eq_iff_iff, List.contains_iff_mem, List.contains_iff_mem, mem_facts_iff]

/-- The discharges of one rule that are taken up are what is left of it without a fact, as far as
that is within the limit and not kept. -/
theorem map_filter_takesUp (rule : Rule) :
    (((selections rule.premises).map fun selection =>
        (selection.1, (⟨selection.2, rule.conclusion⟩ : Rule))).filter engine.takesUp).map
          Prod.snd =
      (engine.withoutFact rule).filter fun candidate =>
        candidate.size ≤ engine.sizeLimit && !engine.rules.contains candidate := by
  rw [selections_eq_map_zipIdx, withoutFact]
  simp only [List.filter_map, List.map_map, List.filter_filter]
  congr 1
  apply List.filter_congr
  intro occurrence _
  simp only [Function.comp_apply, takesUp, withinLimit, contains_facts]
  ac_rfl

/-- The eligible rules at their first places are the candidates. -/
theorem eraseDups_eligible : engine.eligible.eraseDups = engine.candidates := by
  rw [eligible, discharges, candidates, List.filter_flatMap, List.map_flatMap, List.filter_flatMap]
  congr 2
  funext rule
  exact engine.map_filter_takesUp rule

/-- A pass reports the first candidates, as many as the buffer holds, with their number and in their
order, keeps them behind the rules that are there, and changes nothing else. -/
theorem execute_eq_take_candidates :
    let found := engine.candidates.take (min engine.bufferLimit engine.candidates.length)
    let later : Forward :=
      { sizeLimit := engine.sizeLimit
        bufferLimit := engine.bufferLimit
        rules := engine.rules ++ found }
    engine.execute = (found, later) ∧
    found.length = min engine.bufferLimit engine.candidates.length ∧
    kind.execute engine =
      ({ candidates := found.map Notation.Canonical.printRule, outcome := .ok found.length },
        later) := by
  intro found later
  have hderivable : engine.derivable = found := by
    rw [derivable_eq, eraseDups_eligible, List.take_eq_take_min]
  have hexecute : engine.execute = (found, later) := by
    rw [execute_eq, hderivable]
    rfl
  refine ⟨hexecute, ?_, ?_⟩
  · rw [List.length_take, Nat.min_assoc, Nat.min_self]
  · simp only [kind, hexecute]

/-- Two premises of one rule leave the same rule, and the buffer has room for one candidate more. -/
example :
    let a := Term.symbol "a"
    let b := Term.symbol "b"
    let engine : Forward := ⟨4, 2, [⟨[a, b, a], b⟩, ⟨[], a⟩, ⟨[a], b⟩, ⟨[a, a], a⟩]⟩
    engine.candidates = [⟨[b, a], b⟩, ⟨[a, b], b⟩, ⟨[], b⟩, ⟨[a], a⟩] ∧
    engine.execute.1 = [⟨[b, a], b⟩, ⟨[a, b], b⟩] := by
  decide +kernel

end Forward

end Sequitur
