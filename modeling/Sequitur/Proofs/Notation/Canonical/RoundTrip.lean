import Sequitur.Notation.Canonical.Layout
import Sequitur.Notation.Canonical.Printer
import Sequitur.Proofs.Notation.Canonical.Grammar
import Sequitur.Proofs.Notation.Spelling

/-!
# Reading what the canonical notation prints

In the canonical notation the text of a term is the same at all places, for an operator
application brings its own parentheses. A writable rule is one line, so a printed pool has a
line for each rule.
-/

namespace Sequitur.Notation.Canonical

open Sequitur.Text

/-! ### Printed terms spell themselves -/

mutual

theorem spells_termText : (term : Term) → term.Writable →
    Spells (termText term) (Suffixed IsBody IsTerm · term.normalized)
  | .symbol name, h => by
      rw [Term.writable_symbol] at h
      exact .symbol h
  | .parenthesized inner, h => by
      rw [Term.writable_parenthesized] at h
      have hinner := spells_termText inner h
      exact (hinner.mono fun _ hread => IsBody.term (.suffixed hread)).group
  | .subscript base indices, h => by
      rw [Term.writable_subscript] at h
      rw [termText, Term.normalized, termTexts_eq_map, Term.normalizedAll_eq_map]
      exact .subscript (spells_termText base h.2.1) (.listed h.1 (spells_termTexts indices h.2.2))
  | .application function arguments, h => by
      rw [Term.writable_application] at h
      rw [termText, Term.normalized, termTexts_eq_map, Term.normalizedAll_eq_map]
      exact .application (spells_termText function h.2.1)
        (.listed h.1 (spells_termTexts arguments h.2.2))
  | .unary operator operand, h => by
      rw [Term.writable_unary] at h
      have hoperand := (spells_termText operand h.2).space
      have hbody : Spells (operator.toList ++ ' ' :: termText operand)
          (IsBody · (Term.unary operator operand).normalized) := by
        refine (hoperand.prefixed h.1 ⟨' ', rfl, isOperatorChar_space⟩).mono ?_
        rintro _ ⟨inner, rfl, hinner⟩
        exact .unary (.suffixed hinner)
      exact hbody.group
  | .binary operator left right, h => by
      rw [Term.writable_binary] at h
      have hleft := spells_termText left h.2.1
      have hright := spells_termText right h.2.2
      have hbody : Spells (termText left ++ ' ' :: operator.toList ++ ' ' :: termText right)
          (IsBody · (Term.binary operator left right).normalized) := by
        apply (hleft.infixed h.1 hright).mono
        rintro _ ⟨front, back, rfl, hfront, hback⟩
        exact .binary (.suffixed hfront) (.suffixed hback)
      exact hbody.group

theorem spells_termTexts : (terms : List Term) → (∀ term ∈ terms, term.Writable) →
    ∀ term ∈ terms, Spells (termText term) (IsTerm · term.normalized)
  | [], _ => by simp
  | term :: terms, h => by
      rw [List.forall_mem_cons] at h ⊢
      have hterm := spells_termText term h.1
      exact ⟨hterm.mono fun _ hread => .suffixed hread, spells_termTexts terms h.2⟩

end

theorem spells_ruleText {rule : Rule} (h : rule.Writable) :
    Spells (ruleText rule) (IsRule IsTerm · rule.normalized) := by
  rw [Rule.writable_iff] at h
  have hconclusion : Spells (termText rule.conclusion) (IsTerm · rule.conclusion.normalized) :=
    spells_termTexts [rule.conclusion] (by simpa using h.2) _ (by simp)
  unfold ruleText
  split
  · rename_i hempty
    have hpremises : rule.premises = [] := List.isEmpty_iff.mp hempty
    rw [Rule.normalized, hpremises]
    exact hconclusion.mono fun _ hread => .axiom_ hread
  · rename_i hempty
    have hpremises : rule.premises ≠ [] := fun hnil => hempty (List.isEmpty_iff.mpr hnil)
    exact .inference (.listed hpremises (spells_termTexts rule.premises h.1)) hconclusion

/-! ### Printed lines -/

mutual

theorem solid_termText : (term : Term) → term.Writable → Solid (termText term)
  | .symbol name, h => by
      rw [Term.writable_symbol] at h
      exact h.solid
  | .parenthesized inner, h => by
      rw [Term.writable_parenthesized] at h
      exact (solid_termText inner h).enclosed (by decide) (by decide)
  | .subscript base indices, h => by
      rw [Term.writable_subscript] at h
      have hindices := Solid.listed (termTexts_ne_nil h.1) (solid_termTexts indices h.2.2)
      rw [termText, List.append_assoc]
      exact (solid_termText base h.2.1).append (hindices.enclosed (by decide) (by decide))
  | .application function arguments, h => by
      rw [Term.writable_application] at h
      have harguments := Solid.listed (termTexts_ne_nil h.1) (solid_termTexts arguments h.2.2)
      rw [termText, List.append_assoc]
      exact (solid_termText function h.2.1).append (harguments.enclosed (by decide) (by decide))
  | .unary operator operand, h => by
      rw [Term.writable_unary] at h
      have hinner := h.1.solid.append_space (solid_termText operand h.2)
      exact hinner.enclosed (by decide) (by decide)
  | .binary operator left right, h => by
      rw [Term.writable_binary] at h
      have hleft := solid_termText left h.2.1
      have hinner := (hleft.append_space h.1.solid).append_space (solid_termText right h.2.2)
      exact hinner.enclosed (by decide) (by decide)

theorem solid_termTexts : (terms : List Term) → (∀ term ∈ terms, term.Writable) →
    ∀ text ∈ termTexts terms, Solid text
  | [], _ => by simp [termTexts]
  | term :: terms, h => by
      rw [List.forall_mem_cons] at h
      rw [termTexts, List.forall_mem_cons]
      exact ⟨solid_termText term h.1, solid_termTexts terms h.2⟩

end

theorem solid_ruleText {rule : Rule} (h : rule.Writable) : Solid (ruleText rule) := by
  rw [Rule.writable_iff] at h
  have hconclusion := solid_termText rule.conclusion h.2
  unfold ruleText
  split
  · exact hconclusion
  · rename_i hempty
    have hpremises : rule.premises ≠ [] := fun hnil => hempty (List.isEmpty_iff.mpr hnil)
    have hlist := Solid.listed (termTexts_ne_nil hpremises) (solid_termTexts rule.premises h.1)
    have harrow : Solid arrowText := .of_forall (List.cons_ne_nil _ _) fun c hc =>
      isBlank_eq_false_of_isOperatorChar (isOperatorChar_of_mem_arrowText c hc)
    rw [termTexts_eq_map] at hlist
    exact (hlist.append_space harrow).append_space hconclusion

/-! ### Rules and pools -/

theorem readRuleLine_eq_ok_iff {line : List Char} {rule : Rule} :
    readRuleLine line = .ok rule ↔ ruleOfLine line = .ok rule := by
  unfold readRuleLine
  cases ruleOfLine line <;> simp [Except.mapError]

theorem readRuleLine_ruleText {rule : Rule} (h : rule.Writable) :
    readRuleLine (ruleText rule) = .ok rule.normalized :=
  readRuleLine_eq_ok_iff.mpr ((ruleOfLine_eq_ok_iff _ _).mpr (spells_ruleText h).tokens)

/-- The filled lines of a printed pool are the lines of its rules. -/
theorem filledLines_joinWith_ruleText {pool : List Rule} (h : ∀ rule ∈ pool, rule.Writable) :
    filledLines (joinWith ['\n'] (pool.map ruleText)) = pool.map ruleText := by
  apply filledLines_joinWith
  rw [List.forall_mem_map]
  intro rule hrule
  exact (solid_ruleText (h rule hrule)).isLine

/-- Reading the line of a writable rule takes the grouping nodes out of the rule. -/
theorem readRule_printRule {rule : Rule} (h : rule.Writable) :
    readRule (printRule rule) = .ok rule.normalized := by
  have hpool : ∀ other ∈ [rule], other.Writable := List.forall_mem_singleton.mpr h
  have hlines := filledLines_joinWith_ruleText hpool
  rw [List.map_singleton, joinWith] at hlines
  rw [readRule, printRule, String.toList_ofList, hlines]
  exact readRuleLine_ruleText h

theorem legible_of_readRule {text : String} {rule : Rule} (h : readRule text = .ok rule) :
    rule.Legible := by
  unfold readRule at h
  split at h
  · simp at h
  · exact legible_of_ruleOfLine (readRuleLine_eq_ok_iff.mp h)
  · simp at h

theorem printRule_injOn {rule other : Rule} (hrule : rule.Legible) (hother : other.Legible)
    (h : printRule rule = printRule other) : rule = other :=
  hrule.eq_of_print_eq (fun _ => readRule_printRule) hother h

theorem legible_of_readPool {text : String} {pool : List Rule} (h : readPool text = .ok pool) :
    ∀ rule ∈ pool, rule.Legible := by
  intro rule hrule
  obtain ⟨line, -, hline⟩ := exists_of_mem_mapM h hrule
  exact legible_of_ruleOfLine (readRuleLine_eq_ok_iff.mp hline)

/-- A printed pool of legible rules is read as it is, also with a line feed at its end. -/
theorem readPool_printPool_append_lineFeed {pool : List Rule} (h : ∀ rule ∈ pool, rule.Legible) :
    readPool (printPool pool ++ "\n") = .ok pool := by
  have hread : (pool.map ruleText).mapM readRuleLine = .ok (pool.map Rule.normalized) :=
    mapM_map_eq_ok fun rule hrule => readRuleLine_ruleText (h rule hrule).writable
  have hlines := filledLines_joinWith_ruleText fun rule hrule => (h rule hrule).writable
  have hend : filledLines [] = [] := rfl
  rw [readPool, String.toList_append, printPool, String.toList_ofList]
  rw [show "\n".toList = ['\n'] from rfl, filledLines_append_lineFeed, hlines, hend,
    List.append_nil, hread, Rule.map_normalized_of_legible h]

/-- A printed pool is read back, without its grouping nodes, exactly when it is writable, and
so is a rule by itself. -/
theorem readPool_printPool_iff_and_readRule_printRule_iff (pool : List Rule) :
    (readPool (printPool pool) = .ok (pool.map Rule.normalized) ↔
      ∀ rule ∈ pool, rule.Writable) ∧
    ∀ rule, readRule (printRule rule) = .ok rule.normalized ↔ rule.Writable := by
  refine ⟨⟨?_, ?_⟩, fun rule => ⟨?_, readRule_printRule⟩⟩
  · intro h rule hrule
    have hlegible := legible_of_readPool h rule.normalized (List.mem_map_of_mem hrule)
    exact (Rule.writable_normalized rule).mp hlegible.writable
  · intro h
    rw [readPool, printPool, String.toList_ofList, filledLines_joinWith_ruleText h]
    exact mapM_map_eq_ok fun rule hrule => readRuleLine_ruleText (h rule hrule)
  · intro h
    exact (Rule.writable_normalized rule).mp (legible_of_readRule h).writable

end Sequitur.Notation.Canonical
