import Sequitur.Proofs.Session.Answers

/-!
# Lines that are offered and rules that are added

A session is offered lines, which it reads and whose rules it shows in a text of its own. To its
engine it does no more than add the rules that the lines hold, in their order. So a session with the
forward engine is known from an engine to which these rules were added directly.
-/

namespace Sequitur

open Notation

/-- The rules that lines hold, in order. Lines that are no rules hold none. -/
def rulesOfLines (lines : List String) : List Rule :=
  lines.filterMap fun line => (Display.readRule line).toOption

theorem mem_rulesOfLines_iff {lines : List String} {rule : Rule} :
    rule ∈ rulesOfLines lines ↔ ∃ line ∈ lines, Display.readRule line = .ok rule := by
  rw [rulesOfLines, List.mem_filterMap]
  refine exists_congr fun line => and_congr_right fun _ => ?_
  cases Display.readRule line <;> simp [Except.toOption]

theorem legible_of_mem_rulesOfLines {lines : List String} {rule : Rule}
    (h : rule ∈ rulesOfLines lines) : rule.Legible := by
  obtain ⟨line, -, hread⟩ := mem_rulesOfLines_iff.mp h
  exact Display.legible_of_readRule hread

theorem rulesOfLines_append (lines others : List String) :
    rulesOfLines (lines ++ others) = rulesOfLines lines ++ rulesOfLines others :=
  List.filterMap_append

theorem rulesOfLines_cons (line : String) (lines : List String) :
    rulesOfLines (line :: lines) = rulesOfLines [line] ++ rulesOfLines lines :=
  rulesOfLines_append [line] lines

theorem rulesOfLines_of_error {line : String} {error : ParseError}
    (h : Display.readRule line = .error error) : rulesOfLines [line] = [] := by
  simp [rulesOfLines, h, Except.toOption]

theorem rulesOfLines_of_ok {line : String} {rule : Rule} (h : Display.readRule line = .ok rule) :
    rulesOfLines [line] = [rule] := by
  simp [rulesOfLines, h, Except.toOption]

theorem rulesOfLines_map_printRule {rules : List Rule} (h : ∀ rule ∈ rules, rule.Legible) :
    rulesOfLines (rules.map Display.printRule) = rules := by
  induction rules with
  | nil => rfl
  | cons rule rules ih =>
      rw [List.forall_mem_cons] at h
      have hread := Display.readRule_printRule h.1.writable
      rw [h.1.normalized_eq] at hread
      rw [List.map_cons, rulesOfLines_cons, rulesOfLines_of_ok hread, ih h.2, List.singleton_append]

namespace Session

variable {session : Session Forward}

theorem InStep.engine_offer (h : session.InStep) (line : String) :
    (session.offer Forward.kind line).2.engine =
      session.engine.run ((rulesOfLines [line]).map .add) := by
  cases hread : Display.readRule line with
  | error error =>
      rw [offer_of_error Forward.kind hread, rulesOfLines_of_error hread]
      rfl
  | ok rule =>
      rw [rulesOfLines_of_ok hread, List.map_singleton, Forward.run_singleton, Forward.after]
      by_cases haccepts : session.engine.Accepts rule
      · rw [h.offer_of_accepts hread haccepts, Forward.add_of_accepts haccepts,
          (Display.legible_of_readRule hread).normalized_eq]
        rfl
      · rw [offer_of_not_accepts hread haccepts, Forward.add_of_not_accepts haccepts]

/-- Offering lines adds the rules that they hold to the engine. -/
theorem InStep.engine_addLines (h : session.InStep) (lines : List String) :
    (session.addLines Forward.kind lines).2.engine =
      session.engine.run ((rulesOfLines lines).map .add) := by
  induction lines generalizing session with
  | nil => rfl
  | cons line lines ih =>
      have hengine := h.engine_offer line
      have hoffered := h.offer line
      obtain ⟨rule?, hoffer⟩ := h.exists_offer_eq line
      rw [hoffer] at hengine hoffered
      obtain ⟨rules, hrest⟩ := hoffered.learns_addLines lines
      have hlines : (session.addLines Forward.kind (line :: lines)).2 =
          ((session.learn rule?.toList).addLines Forward.kind lines).2 := by
        rw [addLines, hoffer]
        simp only [hrest]
      rw [hlines, ih hoffered, hengine, rulesOfLines_cons line lines, List.map_append,
        Forward.run_append]

end Session

end Sequitur
