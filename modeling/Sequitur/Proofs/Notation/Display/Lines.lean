import Sequitur.Proofs.Notation.Cutting
import Sequitur.Proofs.Notation.Display.RoundTrip

/-!
# Single lines of the display notation

A text without a line feed is a term or a rule exactly when what it is cut into is one in the
grammar, whatever order the readers try the phrases in. Nothing but the tokens counts: neither
the blanks between them nor, for rules, the layout in blocks, since a line that is a rule
holds a symbol and so is no separator.
-/

namespace Sequitur.Notation.Display

open Sequitur.Text

theorem IsTerm.noStray {read : List Token} {term : Term} (h : IsTerm read term) : NoStray read :=
  IsTerm.induction (p := fun read _ => NoStray read) (o := fun read _ => NoStray read)
    id (fun hleft hright => by simpa using ⟨hleft, hright⟩) (fun h => by simpa using h)
    Suffixed.noStray h

theorem readTerm_eq_ok_iff (text : String) (term : Term) :
    readTerm text = .ok term ↔ IsTerm (tokens (trim text.toList)) term := by
  rw [readTerm, readTermLine_eq_ok_iff, termOfLine_eq_ok_iff]

/-- A block of one line is read as the line. -/
theorem readBlock_singleton_eq_ok_iff (line : List Char) (rule : Rule) :
    readBlock [line] = .ok rule ↔ IsRule IsTerm (tokens line) rule := by
  by_cases hseparator : isSeparator line = true
  · have hsplit : splitWhere isSeparator [line] = [[], []] := by
      simp [splitWhere, hseparator]
    rw [readBlock_eq_readSeparated hsplit, readSeparated]
    constructor
    · intro h
      simp at h
    · intro h
      have hnone := isSeparator_eq_false_of_hasSymbol (h.hasSymbol fun _ _ => IsTerm.hasSymbol)
      rw [hnone] at hseparator
      exact Bool.noConfusion hseparator
  · have hsplit : splitWhere isSeparator [line] = [[line]] :=
      splitWhere_of_forall _ _ (by simpa using hseparator)
    rw [readBlock, hsplit]
    exact readRuleLine_eq_ok_iff.trans (ruleOfLine_eq_ok_iff line rule)

theorem readRule_eq_ok_iff_of_not_mem {text : String} (h : '\n' ∉ text.toList) (rule : Rule) :
    readRule text = .ok rule ↔ IsRule IsTerm (tokens (trim text.toList)) rule := by
  rw [readRule, blocks_of_not_mem h]
  split_ifs with hblank
  · rw [hblank, tokens_nil]
    constructor
    · intro hread
      simp at hread
    · intro hrule
      obtain ⟨name, hname⟩ := hrule.hasSymbol fun _ _ => IsTerm.hasSymbol
      simp at hname
  · exact readBlock_singleton_eq_ok_iff _ rule

/-- A text of one line is cut into tokens in one way at most, and it is read as a term, or as a
rule, exactly when these tokens are that term, or that rule, in the grammar. -/
theorem readTerm_and_readRule_eq_ok_iff_exists_cutInto (text : String)
    (hline : '\n' ∉ text.toList) :
    (∀ read other, CutInto (trim text.toList) read → CutInto (trim text.toList) other →
      read = other) ∧
    (∀ term, readTerm text = .ok term ↔
      ∃ read, CutInto (trim text.toList) read ∧ IsTerm read term) ∧
    (∀ rule, readRule text = .ok rule ↔
      ∃ read, CutInto (trim text.toList) read ∧ IsRule IsTerm read rule) := by
  refine ⟨fun read other hread hother => hread.unique hother, ?_, ?_⟩
  · intro term
    rw [readTerm_eq_ok_iff]
    exact tokens_iff_exists_cutInto (p := (IsTerm · term)) (fun _ => IsTerm.noStray) _
  · intro rule
    rw [readRule_eq_ok_iff_of_not_mem hline]
    exact tokens_iff_exists_cutInto (p := (IsRule IsTerm · rule))
      (fun _ h => h.noStray fun _ _ => IsTerm.noStray) _

/-- An operator that begins like the arrow, suffixes in a row, groups without effect and a
prefix operator made of dashes, on one line with the arrow. -/
theorem exists_cutInto_isRule_of_inference :
    let text := "¬f(x)[i],((a)) ->> b ->  --(c ∧ d)"
    let premises : List Term :=
      [.unary "¬" (.subscript (.application (.symbol "f") [.symbol "x"]) [.symbol "i"]),
        .binary "->>" (.symbol "a") (.symbol "b")]
    let conclusion : Term := .unary "--" (.binary "∧" (.symbol "c") (.symbol "d"))
    '\n' ∉ text.toList ∧ ∃ read, CutInto (trim text.toList) read ∧
      IsRule IsTerm read ⟨premises, conclusion⟩ := by
  intro text premises conclusion
  have hline : '\n' ∉ text.toList := by decide +kernel
  have hread : readRule text = .ok ⟨premises, conclusion⟩ := by decide +kernel
  exact ⟨hline, ((readTerm_and_readRule_eq_ok_iff_exists_cutInto text hline).2.2 _).mp hread⟩

end Sequitur.Notation.Display
