import Sequitur.Notation.Display.Layout
import Sequitur.Notation.Display.Printer
import Sequitur.Proofs.Notation.Display.Grammar
import Sequitur.Proofs.Notation.Spelling

/-!
# Reading what the display notation prints

The text of a writable term spells the term, at each of the three places where a term may
stand: by itself, as an operand, and before a suffix. Its lines are solid and are no
separators, so that a printed pool is cut into the lines and blocks that it was put together
from. Reading it gives the pool without its grouping nodes, and does so for writable pools
only, since everything that is read is writable.
-/

namespace Sequitur.Notation.Display

open Sequitur.Text

/-! ### Printed terms spell themselves -/

/-- What the texts of a term spell at the places where the term may stand. -/
structure Spelled (term : Term) : Prop where
  alone : Spells (termText term) (IsTerm · term.normalized)
  underInfix : Spells (asInfixOperand term (termText term)) (IsOperand · term.normalized)
  underSuffix : Spells (asHead term (termText term)) (Suffixed IsTerm IsTerm · term.normalized)

/-- A term that is neither unary nor binary has one text at all places. -/
theorem Spelled.of_suffixed {term : Term}
    (hoperand : asInfixOperand term (termText term) = termText term)
    (hhead : asHead term (termText term) = termText term)
    (h : Spells (termText term) (Suffixed IsTerm IsTerm · term.normalized)) : Spelled term where
  alone := h.mono fun _ hread => .operand (.suffixed hread)
  underInfix := by
    rw [hoperand]
    exact h.mono fun _ hread => .suffixed hread
  underSuffix := by
    rw [hhead]
    exact h

theorem Spelled.underPrefix {term : Term} (h : Spelled term) :
    Spells (asPrefixOperand term (termText term)) (IsOperand · term.normalized) := by
  have hoperand := h.underInfix
  cases term with
  | unary operator operand => exact hoperand.space
  | _ => exact hoperand

theorem exists_head_asHead : (term : Term) → term.Writable →
    ∃ c ∈ (asHead term (termText term)).head?, isOperatorChar c = false
  | .symbol name, h => by
      rw [Term.writable_symbol] at h
      have hfirst := h.2 _ (List.head_mem h.1)
      refine ⟨name.toList.head h.1, List.head?_eq_some_head h.1, ?_⟩
      by_contra hoperator
      rw [Bool.not_eq_false] at hoperator
      rw [isSymbolChar_eq_false_of_isOperatorChar hoperator] at hfirst
      exact Bool.noConfusion hfirst
  | .parenthesized _, _ => ⟨'(', rfl, isOperatorChar_openParen⟩
  | .unary .., _ => ⟨'(', rfl, isOperatorChar_openParen⟩
  | .binary .., _ => ⟨'(', rfl, isOperatorChar_openParen⟩
  | .subscript base indices, h => by
      rw [Term.writable_subscript] at h
      obtain ⟨c, hc, hnone⟩ := exists_head_asHead base h.2.1
      refine ⟨c, ?_, hnone⟩
      change (asHead base (termText base) ++ '[' :: listed (termTexts indices) ++ [']']).head? =
        some c
      rw [List.append_assoc, List.head?_append, hc, Option.some_or]
  | .application function arguments, h => by
      rw [Term.writable_application] at h
      obtain ⟨c, hc, hnone⟩ := exists_head_asHead function h.2.1
      refine ⟨c, ?_, hnone⟩
      change (asHead function (termText function) ++ '(' :: listed (termTexts arguments) ++
        [')']).head? = some c
      rw [List.append_assoc, List.head?_append, hc, Option.some_or]

theorem exists_head_asPrefixOperand {term : Term} (h : term.Writable) :
    ∃ c ∈ (asPrefixOperand term (termText term)).head?, isOperatorChar c = false := by
  have hhead := exists_head_asHead term h
  cases term with
  | unary operator operand => exact ⟨' ', rfl, isOperatorChar_space⟩
  | _ => exact hhead

mutual

/-- Writable terms are spelled at every place. -/
theorem spelled : (term : Term) → term.Writable → Spelled term
  | .symbol name, h => by
      rw [Term.writable_symbol] at h
      exact .of_suffixed rfl rfl (.symbol h)
  | .parenthesized inner, h => by
      rw [Term.writable_parenthesized] at h
      exact .of_suffixed rfl rfl (.group (spelled inner h).alone)
  | .subscript base indices, h => by
      rw [Term.writable_subscript] at h
      apply Spelled.of_suffixed rfl rfl
      rw [termText, Term.normalized, termTexts_eq_map, Term.normalizedAll_eq_map]
      exact .subscript (spelled base h.2.1).underSuffix
        (.listed h.1 fun term hterm => (spelledAll indices h.2.2 term hterm).alone)
  | .application function arguments, h => by
      rw [Term.writable_application] at h
      apply Spelled.of_suffixed rfl rfl
      rw [termText, Term.normalized, termTexts_eq_map, Term.normalizedAll_eq_map]
      exact .application (spelled function h.2.1).underSuffix
        (.listed h.1 fun term hterm => (spelledAll arguments h.2.2 term hterm).alone)
  | .unary operator operand, h => by
      rw [Term.writable_unary] at h
      have hoperand := (spelled operand h.2).underPrefix
      have hspells : Spells (termText (.unary operator operand))
          (IsOperand · (Term.unary operator operand).normalized) := by
        apply (hoperand.prefixed h.1 (exists_head_asPrefixOperand h.2)).mono
        rintro _ ⟨inner, rfl, hinner⟩
        exact .unary hinner
      have hterm := hspells.mono fun _ hread => IsTerm.operand hread
      exact ⟨hterm, hspells, hterm.group⟩
  | .binary operator left right, h => by
      rw [Term.writable_binary] at h
      -- As an operand and before a suffix the term stands in parentheses.
      have hterm : Spells (termText (.binary operator left right))
          (IsTerm · (Term.binary operator left right).normalized) := by
        apply ((spelled left h.2.1).underInfix.infixed h.1 (spelled right h.2.2).underInfix).mono
        rintro _ ⟨front, back, rfl, hfront, hback⟩
        exact .binary hfront hback
      exact ⟨hterm, hterm.group.mono fun _ hread => .suffixed hread, hterm.group⟩

theorem spelledAll : (terms : List Term) → (∀ term ∈ terms, term.Writable) →
    ∀ term ∈ terms, Spelled term
  | [], _ => by simp
  | term :: terms, h => by
      rw [List.forall_mem_cons] at h ⊢
      exact ⟨spelled term h.1, spelledAll terms h.2⟩

end

theorem termOfLine_termText {term : Term} (h : term.Writable) :
    termOfLine (termText term) = .ok term.normalized :=
  (termOfLine_eq_ok_iff _ _).mpr (spelled term h).alone.tokens

/-! ### Printed lines -/

theorem solid_grouped {text : List Char} (h : Solid text) : Solid (grouped text) :=
  h.enclosed (by decide) (by decide)

theorem solid_asHead (term : Term) {text : List Char} (h : Solid text) :
    Solid (asHead term text) := by
  unfold asHead
  split
  · exact solid_grouped h
  · exact solid_grouped h
  · exact h

theorem solid_asInfixOperand (term : Term) {text : List Char} (h : Solid text) :
    Solid (asInfixOperand term text) := by
  unfold asInfixOperand
  split
  · exact solid_grouped h
  · exact h

theorem solid_append_asPrefixOperand (term : Term) {front text : List Char} (hfront : Solid front)
    (h : Solid text) : Solid (front ++ asPrefixOperand term text) := by
  unfold asPrefixOperand
  split
  · exact hfront.append (solid_grouped h)
  · exact hfront.append_space h
  · exact hfront.append h

mutual

/-- The text of a writable term begins and ends with characters that are not blank. -/
theorem solid_termText : (term : Term) → term.Writable → Solid (termText term)
  | .symbol name, h => by
      rw [Term.writable_symbol] at h
      exact h.solid
  | .parenthesized inner, h => by
      rw [Term.writable_parenthesized] at h
      exact solid_grouped (solid_termText inner h)
  | .subscript base indices, h => by
      rw [Term.writable_subscript] at h
      have hbase := solid_asHead base (solid_termText base h.2.1)
      have hindices := Solid.listed (termTexts_ne_nil h.1) (solid_termTexts indices h.2.2)
      rw [termText, List.append_assoc]
      exact hbase.append (hindices.enclosed (by decide) (by decide))
  | .application function arguments, h => by
      rw [Term.writable_application] at h
      have hfunction := solid_asHead function (solid_termText function h.2.1)
      have harguments := Solid.listed (termTexts_ne_nil h.1) (solid_termTexts arguments h.2.2)
      rw [termText, List.append_assoc]
      exact hfunction.append (harguments.enclosed (by decide) (by decide))
  | .unary operator operand, h => by
      rw [Term.writable_unary] at h
      exact solid_append_asPrefixOperand operand h.1.solid (solid_termText operand h.2)
  | .binary operator left right, h => by
      rw [Term.writable_binary] at h
      have hleft := solid_asInfixOperand left (solid_termText left h.2.1)
      have hright := solid_asInfixOperand right (solid_termText right h.2.2)
      exact (hleft.append_space h.1.solid).append_space hright

theorem solid_termTexts : (terms : List Term) → (∀ term ∈ terms, term.Writable) →
    ∀ text ∈ termTexts terms, Solid text
  | [], _ => by simp [termTexts]
  | term :: terms, h => by
      rw [List.forall_mem_cons] at h
      rw [termTexts, List.forall_mem_cons]
      exact ⟨solid_termText term h.1, solid_termTexts terms h.2⟩

end

/-- A line that holds a symbol is no separator. -/
theorem isSeparator_eq_false_of_hasSymbol {line : List Char} (h : HasSymbol (tokens line)) :
    isSeparator line = false := by
  by_contra hseparator
  simp only [Bool.not_eq_false, isSeparator, Bool.and_eq_true, Bool.not_eq_true',
    List.isEmpty_eq_false_iff, List.all_eq_true, beq_iff_eq] at hseparator
  obtain ⟨hne, hdashes⟩ := hseparator
  have hrun : ∀ c ∈ line, isOperatorChar c = true := by
    intro c hc
    rw [hdashes c hc]
    decide +kernel
  have htokens := tokens_operatorRun hne hrun (noneAhead_nil _)
  rw [List.append_nil, tokens_nil] at htokens
  obtain ⟨name, hname⟩ := h
  rw [htokens, List.mem_singleton, Token.ofOperatorRun] at hname
  split at hname <;> simp at hname

theorem isSeparator_eq_false_of_termOfLine {line : List Char} {term : Term}
    (h : termOfLine line = .ok term) : isSeparator line = false :=
  isSeparator_eq_false_of_hasSymbol ((termOfLine_eq_ok_iff line term).mp h).hasSymbol

theorem le_foldl_max (least : Nat) (widths : List Nat) : least ≤ widths.foldl max least := by
  induction widths generalizing least with
  | nil => exact Nat.le_refl least
  | cons width widths ih => exact Nat.le_trans (Nat.le_max_left least width) (ih _)

theorem separatorBelow_ne_nil (lines : List (List Char)) : separatorBelow lines ≠ [] := by
  have hwidth := le_foldl_max minSeparatorWidth (lines.map List.length)
  have hmin : 0 < minSeparatorWidth := by decide
  rw [separatorBelow, Ne, List.replicate_eq_nil_iff]
  omega

theorem eq_dash_of_mem_separatorBelow {lines : List (List Char)} {c : Char}
    (h : c ∈ separatorBelow lines) : c = '-' :=
  (List.mem_replicate.mp h).2

theorem isSeparator_replicate {width : Nat} (h : 0 < width) :
    isSeparator (List.replicate width '-') = true := by
  simp only [isSeparator, Bool.and_eq_true, Bool.not_eq_true', List.isEmpty_eq_false_iff,
    List.all_eq_true, beq_iff_eq]
  refine ⟨?_, fun c hc => (List.mem_replicate.mp hc).2⟩
  rw [Ne, List.replicate_eq_nil_iff]
  omega

theorem isSeparator_separatorBelow (lines : List (List Char)) :
    isSeparator (separatorBelow lines) = true :=
  isSeparator_replicate (Nat.lt_of_lt_of_le (by decide) (le_foldl_max _ _))

theorem solid_separatorBelow (lines : List (List Char)) : Solid (separatorBelow lines) := by
  apply Solid.of_forall (separatorBelow_ne_nil lines)
  intro c hc
  rw [eq_dash_of_mem_separatorBelow hc]
  decide

theorem isLine_of_mem_ruleLines {rule : Rule} (h : rule.Writable) :
    ∀ line ∈ ruleLines rule, IsLine line := by
  rw [Rule.writable_iff] at h
  intro line hline
  unfold ruleLines at hline
  split at hline
  · rw [List.mem_singleton.mp hline]
    exact (solid_termText rule.conclusion h.2).isLine
  · simp only [List.mem_append, List.mem_map, List.mem_cons, List.not_mem_nil, or_false] at hline
    rcases hline with ⟨premise, hpremise, rfl⟩ | rfl | rfl
    · exact (solid_termText premise (h.1 premise hpremise)).isLine
    · exact (solid_separatorBelow _).isLine
    · exact (solid_termText rule.conclusion h.2).isLine

theorem ruleLines_ne_nil (rule : Rule) : ruleLines rule ≠ [] := by
  unfold ruleLines
  split <;> simp

/-! ### Rules and pools -/

theorem readTermLine_eq_ok_iff {line : List Char} {term : Term} :
    readTermLine line = .ok term ↔ termOfLine line = .ok term := by
  unfold readTermLine
  cases termOfLine line <;> simp [Except.mapError]

theorem readRuleLine_eq_ok_iff {line : List Char} {rule : Rule} :
    readRuleLine line = .ok rule ↔ ruleOfLine line = .ok rule := by
  unfold readRuleLine
  cases ruleOfLine line <;> simp [Except.mapError]

/-- A block with a separator holds a rule when one line below it and all lines above it are
terms. -/
theorem readSeparated_eq_ok_iff {block above below : List (List Char)} {rule : Rule} :
    readSeparated block above below = .ok rule ↔ ∃ line, below = [line] ∧
      readTermLine line = .ok rule.conclusion ∧ above.mapM readTermLine = .ok rule.premises := by
  constructor
  · intro h
    unfold readSeparated at h
    split at h
    · simp at h
    · rename_i line
      cases hline : readTermLine line with
      | error fault => simp [hline, bind, Except.bind] at h
      | ok conclusion =>
          cases habove : above.mapM readTermLine with
          | error fault => simp [hline, habove, bind, Except.bind] at h
          | ok premises =>
              simp only [hline, habove, bind, Except.bind, pure, Except.pure,
                Except.ok.injEq] at h
              exact ⟨line, rfl, by rw [hline, ← h], by rw [← h]⟩
    · simp at h
  · rintro ⟨line, rfl, hline, habove⟩
    simp only [readSeparated, hline, habove, bind, Except.bind, pure, Except.pure]

theorem readBlock_eq_readSeparated {block above below : List (List Char)}
    (h : splitWhere isSeparator block = [above, below]) :
    readBlock block = readSeparated block above below := by
  unfold readBlock
  split <;> simp_all

/-- Lines that are terms, a separator and a line that is a term are read as the rule with
these premises and this conclusion. -/
theorem readBlock_append_separator {above : List (List Char)} {separator line : List Char}
    {premises : List Term} {conclusion : Term}
    (habove : List.Forall₂ (fun line term => termOfLine line = .ok term) above premises)
    (hseparator : isSeparator separator = true) (hline : termOfLine line = .ok conclusion) :
    readBlock (above ++ [separator, line]) = .ok ⟨premises, conclusion⟩ := by
  -- The only separator of the block is the one below the premises.
  have hfirst : splitWhere isSeparator above = [above] := by
    apply splitWhere_of_forall
    intro premise hpremise
    obtain ⟨term, hterm⟩ := exists_of_mem_forall₂ habove hpremise
    exact isSeparator_eq_false_of_termOfLine hterm
  have hlast : splitWhere isSeparator [line] = [[line]] :=
    splitWhere_of_forall _ _ (by simpa using isSeparator_eq_false_of_termOfLine hline)
  have hsplit : splitWhere isSeparator (above ++ [separator, line]) = [above, [line]] := by
    rw [splitWhere_append_cut _ _ _ _ hseparator, hfirst, hlast]
    rfl
  rw [readBlock_eq_readSeparated hsplit]
  refine readSeparated_eq_ok_iff.mpr ⟨line, rfl, readTermLine_eq_ok_iff.mpr hline, ?_⟩
  exact mapM_eq_ok_iff.mpr (habove.imp fun _ _ => readTermLine_eq_ok_iff.mpr)

/-- The lines of a writable rule are read as the rule without its grouping nodes. -/
theorem readBlock_ruleLines {rule : Rule} (h : rule.Writable) :
    readBlock (ruleLines rule) = .ok rule.normalized := by
  rw [Rule.writable_iff] at h
  have hconclusion := termOfLine_termText h.2
  unfold ruleLines
  split
  · rename_i hempty
    have hline : splitWhere isSeparator [termText rule.conclusion] = [[termText rule.conclusion]] :=
      splitWhere_of_forall _ _ (by simpa using isSeparator_eq_false_of_termOfLine hconclusion)
    rw [readBlock, hline]
    refine readRuleLine_eq_ok_iff.mpr ((ruleOfLine_eq_ok_iff _ _).mpr ?_)
    have hpremises : rule.premises = [] := List.isEmpty_iff.mp hempty
    rw [Rule.normalized, hpremises]
    exact .axiom_ ((termOfLine_eq_ok_iff _ _).mp hconclusion)
  · refine readBlock_append_separator ?_ (isSeparator_separatorBelow _) hconclusion
    rw [List.forall₂_map_left_iff, List.forall₂_map_right_iff, List.forall₂_same]
    intro premise hpremise
    exact termOfLine_termText (h.1 premise hpremise)

/-- What is read from a block is legible. -/
theorem legible_of_readBlock {block : List (List Char)} {rule : Rule}
    (h : readBlock block = .ok rule) : rule.Legible := by
  unfold readBlock at h
  split at h
  · exact legible_of_ruleOfLine (readRuleLine_eq_ok_iff.mp h)
  · simp at h
  · obtain ⟨line, -, hline, habove⟩ := readSeparated_eq_ok_iff.mp h
    rw [Rule.legible_iff]
    refine ⟨?_, legible_of_termOfLine (readTermLine_eq_ok_iff.mp hline)⟩
    intro premise hpremise
    obtain ⟨found, -, hfound⟩ := exists_of_mem_mapM habove hpremise
    exact legible_of_termOfLine (readTermLine_eq_ok_iff.mp hfound)
  · simp at h

theorem blocks_printPool {pool : List Rule} (h : ∀ rule ∈ pool, rule.Writable) :
    blocks (printPool pool).toList = pool.map ruleLines := by
  have hlines : pool.map ruleText = (pool.map ruleLines).map (joinWith ['\n']) := by
    rw [List.map_map]
    rfl
  rw [printPool, String.toList_ofList, hlines]
  apply blocks_joinWith
  · rw [List.forall_mem_map]
    intro rule _
    exact ruleLines_ne_nil rule
  · rw [List.forall_mem_map]
    intro rule hrule
    exact isLine_of_mem_ruleLines (h rule hrule)

theorem legible_of_readPool {text : String} {pool : List Rule} (h : readPool text = .ok pool) :
    ∀ rule ∈ pool, rule.Legible := by
  intro rule hrule
  obtain ⟨block, -, hblock⟩ := exists_of_mem_mapM h hrule
  exact legible_of_readBlock hblock

/-- Reading the text of a writable rule takes the grouping nodes out of the rule. -/
theorem readRule_printRule {rule : Rule} (h : rule.Writable) :
    readRule (printRule rule) = .ok rule.normalized := by
  have hpool : ∀ other ∈ [rule], other.Writable := List.forall_mem_singleton.mpr h
  have hblocks := blocks_printPool hpool
  rw [printPool, String.toList_ofList, List.map_singleton, joinWith, List.map_singleton] at hblocks
  rw [readRule, printRule, String.toList_ofList, hblocks]
  exact readBlock_ruleLines h

theorem legible_of_readRule {text : String} {rule : Rule} (h : readRule text = .ok rule) :
    rule.Legible := by
  unfold readRule at h
  split at h
  · simp at h
  · exact legible_of_readBlock h
  · simp at h

theorem printRule_injOn {rule other : Rule} (hrule : rule.Legible) (hother : other.Legible)
    (h : printRule rule = printRule other) : rule = other :=
  hrule.eq_of_print_eq (fun _ => readRule_printRule) hother h

/-- A printed pool of legible rules is read as it is, also with a line feed at its end. -/
theorem readPool_printPool_append_lineFeed {pool : List Rule} (h : ∀ rule ∈ pool, rule.Legible) :
    readPool (printPool pool ++ "\n") = .ok pool := by
  have hread : (pool.map ruleLines).mapM readBlock = .ok (pool.map Rule.normalized) :=
    mapM_map_eq_ok fun rule hrule => readBlock_ruleLines (h rule hrule).writable
  rw [readPool, String.toList_append, show "\n".toList = ['\n'] from rfl,
    blocks_append_lineFeed, blocks_printPool fun rule hrule => (h rule hrule).writable, hread,
    Rule.map_normalized_of_legible h]

/-- A printed pool is read back, without its grouping nodes, exactly when it is writable, and
as it is exactly when it is legible. -/
theorem readPool_printPool_eq_ok_iff (pool : List Rule) :
    (readPool (printPool pool) = .ok (pool.map Rule.normalized) ↔
      ∀ rule ∈ pool, rule.Writable) ∧
    (readPool (printPool pool) = .ok pool ↔ ∀ rule ∈ pool, rule.Legible) := by
  have hread : (∀ rule ∈ pool, rule.Writable) →
      readPool (printPool pool) = .ok (pool.map Rule.normalized) := by
    intro h
    rw [readPool, blocks_printPool h]
    exact mapM_map_eq_ok fun rule hrule => readBlock_ruleLines (h rule hrule)
  refine ⟨⟨?_, hread⟩, legible_of_readPool, ?_⟩
  · intro h rule hrule
    have hlegible := legible_of_readPool h rule.normalized (List.mem_map_of_mem hrule)
    exact (Rule.writable_normalized rule).mp hlegible.writable
  · intro h
    rw [hread fun rule hrule => (h rule hrule).writable]
    rw [List.map_congr_left fun rule hrule => (h rule hrule).normalized_eq, List.map_id']

end Sequitur.Notation.Display
