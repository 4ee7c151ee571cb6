import Sequitur.Proofs.Notation.Display.Lines

/-!
# Layouts of a rule

A rule may be laid out as a block, with a line of dashes between the premises and the
conclusion, or on one line, with commas and the arrow; an axiom may also be its conclusion
alone. All layouts are read as the same rule: the lines of a block are read one by one, and
on one line the tokens of the premises and of the conclusion stay what they are, because
neither a comma nor a space continues a token.
-/

namespace Sequitur.Notation.Display

open Sequitur.Text

/-! ### Lines with spaces and tabs around them -/

/-- The text is the line with spaces and tabs around it. -/
def IsPadded (line text : List Char) : Prop :=
  ∃ before after, text = before ++ line ++ after ∧ (∀ c ∈ before, c = ' ' ∨ c = '\t') ∧
    ∀ c ∈ after, c = ' ' ∨ c = '\t'

section Padded

variable {line text : List Char}

theorem IsPadded.refl (line : List Char) : IsPadded line line :=
  ⟨[], [], by simp, by simp, by simp⟩

theorem IsPadded.trim_eq (h : IsPadded line text) : trim text = trim line := by
  obtain ⟨before, after, rfl, hbefore, hafter⟩ := h
  exact trim_append_append (fun c hc => isBlank_of_gap (hbefore c hc))
    (fun c hc => isBlank_of_gap (hafter c hc)) line

theorem IsPadded.tokens_eq (h : IsPadded line text) : tokens text = tokens line := by
  obtain ⟨before, after, rfl, hbefore, hafter⟩ := h
  exact tokens_append_append hbefore hafter line

theorem IsPadded.lineFeed_not_mem (h : IsPadded line text) (hline : '\n' ∉ line) :
    '\n' ∉ text := by
  obtain ⟨before, after, rfl, hbefore, hafter⟩ := h
  rw [List.mem_append, List.mem_append]
  rintro ((hmem | hmem) | hmem)
  · exact absurd (hbefore _ hmem) (by decide)
  · exact hline hmem
  · exact absurd (hafter _ hmem) (by decide)

end Padded

/-- The text is a trimmed line that is read as the term, with spaces and tabs around it. -/
def HoldsTerm (text : List Char) (term : Term) : Prop :=
  ∃ line, trim line = line ∧ readTerm (String.ofList line) = .ok term ∧ IsPadded line text

section HoldsTerm

variable {text : List Char} {term : Term}

theorem HoldsTerm.isTerm (h : HoldsTerm text term) : IsTerm (tokens text) term := by
  obtain ⟨line, htrim, hread, hpadded⟩ := h
  rw [readTerm_eq_ok_iff, String.toList_ofList, htrim] at hread
  rw [hpadded.tokens_eq]
  exact hread

theorem HoldsTerm.tokens_trim_eq (h : HoldsTerm text term) :
    tokens (trim text) = tokens text :=
  tokens_trim h.isTerm.noStray

theorem HoldsTerm.termOfLine_trim (h : HoldsTerm text term) :
    termOfLine (trim text) = .ok term := by
  rw [termOfLine_eq_ok_iff, h.tokens_trim_eq]
  exact h.isTerm

theorem HoldsTerm.lineFeed_not_mem (h : HoldsTerm text term) : '\n' ∉ text :=
  lineFeed_not_mem_of_noStray h.isTerm.noStray

theorem HoldsTerm.trim_ne_nil (h : HoldsTerm text term) : trim text ≠ [] := by
  intro hblank
  obtain ⟨name, hname⟩ := h.isTerm.hasSymbol
  rw [← h.tokens_trim_eq, hblank, tokens_nil] at hname
  simp at hname

end HoldsTerm

/-! ### The layouts -/

section Layouts

variable {above : List (List Char)} {below : List Char} {premises : List Term}
  {conclusion : Term}

/-- The block of the premises, a line of dashes and the conclusion is read as the rule. -/
theorem readRule_block (habove : List.Forall₂ HoldsTerm above premises)
    (hbelow : HoldsTerm below conclusion) {width : Nat} (hwidth : 0 < width)
    {separator : List Char} (hseparator : IsPadded (List.replicate width '-') separator) :
    readRule (String.ofList (joinWith ['\n'] (above ++ [separator, below]))) =
      .ok ⟨premises, conclusion⟩ := by
  have hdash : ∀ c ∈ List.replicate width '-', c = '-' := fun c hc => (List.mem_replicate.mp hc).2
  have htrim : trim separator = List.replicate width '-' := by
    have hsolid : Solid (List.replicate width '-') := by
      refine Solid.of_forall (by simpa using Nat.ne_of_gt hwidth) fun c hc => ?_
      rw [hdash c hc]
      decide
    rw [hseparator.trim_eq, hsolid.isLine.trim_eq]
  have hlineFeed : '\n' ∉ separator :=
    hseparator.lineFeed_not_mem fun hmem => absurd (hdash _ hmem) (by decide)
  have hline : ∀ text ∈ above ++ [separator, below], '\n' ∉ text ∧ trim text ≠ [] := by
    intro text htext
    simp only [List.mem_append, List.mem_cons, List.not_mem_nil, or_false] at htext
    rcases htext with htext | rfl | rfl
    · obtain ⟨term, hterm⟩ := exists_of_mem_forall₂ habove htext
      exact ⟨hterm.lineFeed_not_mem, hterm.trim_ne_nil⟩
    · refine ⟨hlineFeed, ?_⟩
      rw [htrim]
      simpa using Nat.ne_of_gt hwidth
    · exact ⟨hbelow.lineFeed_not_mem, hbelow.trim_ne_nil⟩
  rw [readRule, String.toList_ofList, blocks_joinWith_eq_singleton (by simp) hline,
    List.map_append, List.map_cons, List.map_singleton, htrim]
  apply readBlock_append_separator _ (isSeparator_replicate hwidth) hbelow.termOfLine_trim
  rw [List.forall₂_map_left_iff]
  exact habove.imp fun _ _ => HoldsTerm.termOfLine_trim

theorem listing_tokens_listed (habove : List.Forall₂ HoldsTerm above premises)
    (hne : above ≠ []) : Listing IsTerm (tokens (listed above)) premises := by
  induction habove with
  | nil => exact absurd rfl hne
  | @cons text term texts terms htext htexts ih =>
      cases texts with
      | nil =>
          rw [List.forall₂_nil_left_iff.mp htexts]
          exact .one htext.isTerm
      | cons other texts =>
          -- A comma continues neither a symbol nor an operator.
          have hsymbol : NoneAhead isSymbolChar (',' :: ' ' :: listed (other :: texts)) := by
            simp
          have hoperator : NoneAhead isOperatorChar (',' :: ' ' :: listed (other :: texts)) := by
            rw [noneAhead_cons]
            exact isOperatorChar_eq_false_of_isMark (by decide)
          have hcut := tokens_append hsymbol hoperator text
          rw [listed, joinWith_cons _ _ (by simp), List.append_assoc]
          simp only [List.cons_append, List.nil_append]
          rw [← listed, hcut, tokens_comma, tokens_space]
          exact .more htext.isTerm (ih (by simp))

theorem isRule_inference (habove : List.Forall₂ HoldsTerm above premises) (hne : above ≠ [])
    (hbelow : HoldsTerm below conclusion) :
    IsRule IsTerm (tokens (listed above ++ ' ' :: arrowText ++ ' ' :: below))
      ⟨premises, conclusion⟩ := by
  have hgap : NoneAhead isOperatorChar (' ' :: below) := by simp
  rw [List.append_assoc, List.cons_append, tokens_append (by simp) (by simp), tokens_space,
    tokens_arrow hgap, tokens_space]
  exact .inference (listing_tokens_listed habove hne) hbelow.isTerm

/-- A text with the tokens of a rule is read as the rule. -/
theorem readRule_of_isRule {text : List Char} {rule : Rule} (h : IsRule IsTerm (tokens text) rule) :
    readRule (String.ofList text) = .ok rule := by
  have hstray := h.noStray fun _ _ => IsTerm.noStray
  rw [readRule_eq_ok_iff_of_not_mem (by simpa using lineFeed_not_mem_of_noStray hstray),
    String.toList_ofList, tokens_trim hstray]
  exact h

end Layouts

/-- All layouts of a rule are read as the rule: the block of its lines with any number of
dashes, the one-line form if there are premises, and the conclusion alone if there are none.
Conversely a text of one line is read as an axiom exactly when it is read as the conclusion. -/
theorem readRule_of_forall₂_holdsTerm_and_readRule_iff_readTerm :
    (∀ above below premises conclusion, List.Forall₂ HoldsTerm above premises →
      HoldsTerm below conclusion →
      (∀ width separator, 0 < width → IsPadded (List.replicate width '-') separator →
        readRule (String.ofList (joinWith ['\n'] (above ++ [separator, below]))) =
          .ok ⟨premises, conclusion⟩) ∧
      (above ≠ [] →
        readRule (String.ofList (listed above ++ ' ' :: arrowText ++ ' ' :: below)) =
          .ok ⟨premises, conclusion⟩) ∧
      (above = [] → readRule (String.ofList below) = .ok ⟨premises, conclusion⟩)) ∧
    ∀ text conclusion, '\n' ∉ text.toList →
      (readRule text = .ok ⟨[], conclusion⟩ ↔ readTerm text = .ok conclusion) := by
  refine ⟨?_, ?_⟩
  · intro above below premises conclusion habove hbelow
    refine ⟨?_, ?_, ?_⟩
    · intro width separator hwidth hseparator
      exact readRule_block habove hbelow hwidth hseparator
    · intro hne
      exact readRule_of_isRule (isRule_inference habove hne hbelow)
    · rintro rfl
      rw [List.forall₂_nil_left_iff.mp habove]
      exact readRule_of_isRule (.axiom_ hbelow.isTerm)
  · intro text conclusion hline
    rw [readRule_eq_ok_iff_of_not_mem hline, readTerm_eq_ok_iff, isRule_nil_iff]

/-- Two premises, one of which has an operator that begins like the arrow, and a conclusion that
begins with dashes: laid out over a separator of one dash, on one line, and the conclusion
alone. -/
theorem readRule_layouts_of_inference :
    let premises : List Term :=
      [.binary "->>" (.unary "¬" (.symbol "a")) (.symbol "b"),
        .application (.symbol "f") [.symbol "x", .symbol "y"]]
    let conclusion : Term := .unary "--" (.symbol "c")
    let above := [" ¬a->> b\t".toList, "f(x , y)".toList]
    let below := "\t--c".toList
    List.Forall₂ HoldsTerm above premises ∧ HoldsTerm below conclusion ∧
      IsPadded ['-'] "- ".toList ∧
      readRule " ¬a->> b\t\nf(x , y)\n- \n\t--c" = .ok ⟨premises, conclusion⟩ ∧
      readRule " ¬a->> b\t, f(x , y) -> \t--c" = .ok ⟨premises, conclusion⟩ ∧
      readRule "\t--c" = .ok ⟨[], conclusion⟩ ∧ readTerm "\t--c" = .ok conclusion := by
  intro premises conclusion above below
  have hfirst : HoldsTerm " ¬a->> b\t".toList
      (.binary "->>" (.unary "¬" (.symbol "a")) (.symbol "b")) :=
    ⟨"¬a->> b".toList, by decide +kernel, by decide +kernel, [' '], ['\t'], by decide +kernel,
      by simp, by simp⟩
  have hsecond : HoldsTerm "f(x , y)".toList
      (.application (.symbol "f") [.symbol "x", .symbol "y"]) :=
    ⟨"f(x , y)".toList, by decide +kernel, by decide +kernel, .refl _⟩
  have habove : List.Forall₂ HoldsTerm above premises := .cons hfirst (.cons hsecond .nil)
  have hbelow : HoldsTerm below conclusion :=
    ⟨"--c".toList, by decide +kernel, by decide +kernel, ['\t'], [], by decide +kernel, by simp,
      by simp⟩
  have hseparator : IsPadded ['-'] "- ".toList := ⟨[], [' '], by decide +kernel, by simp, by simp⟩
  obtain ⟨hblock, hinline, -⟩ :=
    readRule_of_forall₂_holdsTerm_and_readRule_iff_readTerm.1 _ _ _ _ habove hbelow
  obtain ⟨-, -, halone⟩ :=
    readRule_of_forall₂_holdsTerm_and_readRule_iff_readTerm.1 [] _ [] _ .nil hbelow
  have hblockText : String.ofList (joinWith ['\n'] (above ++ ["- ".toList, below])) =
      " ¬a->> b\t\nf(x , y)\n- \n\t--c" := by decide +kernel
  have hinlineText : String.ofList (listed above ++ ' ' :: arrowText ++ ' ' :: below) =
      " ¬a->> b\t, f(x , y) -> \t--c" := by decide +kernel
  have hconclusion := halone rfl
  rw [String.ofList_toList] at hconclusion
  have hline : '\n' ∉ "\t--c".toList := by decide +kernel
  refine ⟨habove, hbelow, hseparator, ?_, ?_, hconclusion, ?_⟩
  · rw [← hblockText]
    exact hblock 1 _ (by decide) hseparator
  · rw [← hinlineText]
    exact hinline (List.cons_ne_nil _ _)
  · exact (readRule_of_forall₂_holdsTerm_and_readRule_iff_readTerm.2 _ _ hline).mp hconclusion

end Sequitur.Notation.Display
