import Sequitur.Proofs.Notation.Conversion
import Sequitur.Proofs.Notation.Display.Lines

/-!
# The canonical notation within the display notation

The display notation lets operators stand in more places than the canonical one, and parentheses
wherever that one asks for them. So a phrase of the canonical grammar is a phrase of the display
grammar with the same tree: a term stands where an operand may, and the body of a group where a term
may. The layout in blocks does not come in between. A text with one canonical rule has one line that
is not blank, which is a block of its own, and as the line holds a symbol it is no separator.
-/

namespace Sequitur.Notation

open Sequitur.Text

/-! ### Phrases -/

/-- A canonical term is an operand of the display notation. -/
theorem Canonical.IsTerm.isOperand {read : List Token} {term : Term}
    (h : Canonical.IsTerm read term) : Display.IsOperand read term := by
  -- Along with it the body of a canonical group is a term.
  refine Canonical.IsTerm.induction (p := Display.IsOperand) (b := Display.IsTerm)
    ?suffixed ?unary ?term ?binary h
  case suffixed =>
    intro read term hsuffixed
    refine .suffixed (hsuffixed.imp ?_ ?_)
    · exact fun _ _ hbody => hbody
    · exact fun _ _ hitem => .operand hitem
  case unary =>
    intro operator read operand hoperand
    exact .operand (.unary hoperand)
  case term =>
    intro read term hterm
    exact .operand hterm
  case binary =>
    intro front left operator back right hleft hright
    exact .binary hleft hright

/-- A canonical rule is a one-line rule of the display notation. -/
theorem isRule_display_of_canonical {read : List Token} {rule : Rule}
    (h : IsRule Canonical.IsTerm read rule) : IsRule Display.IsTerm read rule :=
  h.imp fun _ _ hterm => .operand hterm.isOperand

/-! ### Texts -/

/-- What is read as a rule in the canonical notation is read as this rule in the display
notation. -/
theorem Display.readRule_of_canonical {text : String} {rule : Rule}
    (h : Canonical.readRule text = .ok rule) : Display.readRule text = .ok rule := by
  unfold Canonical.readRule at h
  split at h
  · simp at h
  · rename_i line hline
    rw [Canonical.readRuleLine_eq_ok_iff, Canonical.ruleOfLine_eq_ok_iff] at h
    rw [Display.readRule, blocks_of_filledLines_eq_singleton hline]
    exact (Display.readBlock_singleton_eq_ok_iff line rule).mpr (isRule_display_of_canonical h)
  · simp at h

/-- The canonical text of a legible rule is the canonical text of itself. -/
theorem canonicalOfDisplay_printRule {rule : Rule} (h : rule.Legible) :
    canonicalOfDisplay (Canonical.printRule rule) = .ok (Canonical.printRule rule) := by
  have hread := Canonical.readRule_printRule h.writable
  rw [h.normalized_eq] at hread
  rw [canonicalOfDisplay, Display.readRule_of_canonical hread]
  rfl

/-- A text that is read as a rule in the canonical notation is read as the same rule in the display
notation. So what a text was turned into can itself be turned into the canonical notation, and stays
as it is. -/
theorem readRule_of_canonical_and_canonicalOfDisplay_idem (text : String) :
    (∀ rule, Canonical.readRule text = .ok rule → Display.readRule text = .ok rule) ∧
    ∀ canonical, canonicalOfDisplay text = .ok canonical →
      canonicalOfDisplay canonical = .ok canonical := by
  constructor
  · intro rule hread
    exact Display.readRule_of_canonical hread
  · intro canonical hturned
    unfold canonicalOfDisplay at hturned
    cases hread : Display.readRule text with
    | error error => simp [hread, Except.map] at hturned
    | ok rule =>
        simp only [hread, Except.map, Except.ok.injEq] at hturned
        rw [← hturned]
        exact canonicalOfDisplay_printRule (Display.legible_of_readRule hread)

/-- A canonical rule between blank lines, with groups that mean nothing and an operator that begins
like the arrow, and a display rule that needs parentheses in the canonical notation. -/
theorem canonicalOfDisplay_idem_of_inference :
    let text := "\n \t(¬(a ->> b)) ,f( ((c ∘ d)) )[i]->( ((-- a))∧(b) )\r\n\n"
    let premises : List Term :=
      [.unary "¬" (.binary "->>" (.symbol "a") (.symbol "b")),
        .subscript (.application (.symbol "f") [.binary "∘" (.symbol "c") (.symbol "d")])
          [.symbol "i"]]
    let conclusion : Term := .binary "∧" (.unary "--" (.symbol "a")) (.symbol "b")
    let free := "¬a ->> b\n---\n-- a ∧ b"
    let canonical := "((¬ a) ->> b) -> ((-- a) ∧ b)"
    (Canonical.readRule text = .ok ⟨premises, conclusion⟩ ∧
      Display.readRule text = .ok ⟨premises, conclusion⟩) ∧
    canonicalOfDisplay free = .ok canonical ∧ canonicalOfDisplay canonical = .ok canonical := by
  intro text premises conclusion free canonical
  have hread : Canonical.readRule text = .ok ⟨premises, conclusion⟩ := by decide +kernel
  have hturned : canonicalOfDisplay free = .ok canonical := by decide +kernel
  refine ⟨⟨hread, ?_⟩, hturned, ?_⟩
  · exact (readRule_of_canonical_and_canonicalOfDisplay_idem text).1 _ hread
  · exact (readRule_of_canonical_and_canonicalOfDisplay_idem free).2 canonical hturned

end Sequitur.Notation
