import Sequitur.Proofs.Notation.Canonical.Lines
import Sequitur.Proofs.Notation.Display.Lines

/-!
# Reports of lines that cannot be read

A report names phrases and a column. In front of the column stands a text that can be continued
to a line of the grammar: the expectation points behind lexemes with which a phrase begins, the
text before the next lexeme has exactly their tokens, and tokens that make the phrase whole can
be written behind it with a space before each of them.
-/

namespace Sequitur.Notation

open Sequitur.Text

/-! ### Text in front of a lexeme -/

theorem NoneAhead.of_append {isMember : Char → Bool} {front back : List Char}
    (h : NoneAhead isMember (front ++ back)) : NoneAhead isMember front := by
  cases front with
  | nil => exact noneAhead_nil isMember
  | cons c front => exact (noneAhead_cons isMember c _).mpr ((noneAhead_cons isMember c _).mp h)

/-- The text can be parted so that the tokens of the lexemes in front stand before the place of
the next lexeme behind them. -/
def PartsAt (stop start : Nat) (text : List Char) (front back : List Lexeme) : Prop :=
  ∃ before after, text = before ++ after ∧ start + before.length = position stop back ∧
    tokens before = front.map Lexeme.token

/-- A lexeme in front of a text that parts wherever its lexemes do. -/
theorem partsAt_of_cons {stop start : Nat} {token : Token} {others front back : List Lexeme}
    {run rest : List Char} (h : ⟨start, token⟩ :: others = front ++ back)
    (hrun : ∀ before after, rest = before ++ after →
      tokens (run ++ before) = token :: tokens before)
    (ih : ∀ front, others = front ++ back → PartsAt stop (start + run.length) rest front back) :
    PartsAt stop start (run ++ rest) front back := by
  cases front with
  | nil =>
      rw [List.nil_append] at h
      exact ⟨[], run ++ rest, rfl, by simp [← h, position], tokens_nil⟩
  | cons lexeme front =>
      obtain ⟨rfl, hothers⟩ := List.cons.inj h
      obtain ⟨before, after, hrest, hposition, htokens⟩ := ih front hothers
      refine ⟨run ++ before, after, by rw [hrest, List.append_assoc], ?_, ?_⟩
      · rw [List.length_append, ← Nat.add_assoc, hposition]
      · rw [hrun before after hrest, htokens, List.map_cons]

/-- A text parts wherever its lexemes do. -/
theorem partsAt_of_lexemesFrom {stop start : Nat} {text : List Char} {back : List Lexeme}
    (hstop : start + text.length = stop) (front : List Lexeme)
    (h : lexemesFrom start text = front ++ back) : PartsAt stop start text front back := by
  revert front
  fun_induction lexemesFrom start text with
  | case1 start =>
      intro front h
      obtain ⟨rfl, rfl⟩ := List.append_eq_nil_iff.mp h.symm
      exact ⟨[], [], rfl, hstop, tokens_nil⟩
  | case2 start c cs hgap ih =>
      intro front h
      rw [List.length_cons] at hstop
      obtain ⟨before, after, hrest, hposition, htokens⟩ := ih (by omega) front h
      refine ⟨c :: before, after, by rw [hrest, List.cons_append], ?_, ?_⟩
      · rw [List.length_cons, ← hposition]
        omega
      · rw [tokens_gap before hgap, htokens]
  | case3 start c cs hgap hsymbol run ih =>
      intro front h
      have hrest := noneAhead_dropWhile isSymbolChar cs
      have htext : c :: cs = run ++ cs.dropWhile isSymbolChar := by
        rw [List.cons_append, List.takeWhile_append_dropWhile]
      rw [htext, List.length_append, ← Nat.add_assoc] at hstop
      rw [htext]
      refine partsAt_of_cons h (fun before after hbefore => ?_) (ih hstop)
      have hname : IsSymbolName (String.ofList run) := by
        rw [IsSymbolName, String.toList_ofList]
        exact ⟨List.cons_ne_nil c _, forall_mem_cons_takeWhile hsymbol cs⟩
      have htokens := tokens_name hname (hbefore ▸ hrest).of_append
      rwa [String.toList_ofList] at htokens
  | case4 start c cs hgap hsymbol hoperator run ih =>
      intro front h
      have hrest := noneAhead_dropWhile isOperatorChar cs
      have htext : c :: cs = run ++ cs.dropWhile isOperatorChar := by
        rw [List.cons_append, List.takeWhile_append_dropWhile]
      rw [htext, List.length_append, ← Nat.add_assoc] at hstop
      rw [htext]
      refine partsAt_of_cons h (fun before after hbefore => ?_) (ih hstop)
      exact tokens_operatorRun (List.cons_ne_nil c _) (forall_mem_cons_takeWhile hoperator cs)
        (hbefore ▸ hrest).of_append
  | case5 start c cs hgap hsymbol hoperator ih =>
      intro front h
      have htext : c :: cs = [c] ++ cs := rfl
      rw [htext, List.length_append, ← Nat.add_assoc] at hstop
      rw [htext]
      refine partsAt_of_cons h (fun before after hbefore => ?_) (ih hstop)
      exact tokens_single before hgap (by simpa using hsymbol) (by simpa using hoperator)

/-! ### Writing tokens -/

/-- The characters of a token. -/
def Token.text : Token → List Char
  | .symbol name => name.toList
  | .operator text => text.toList
  | .arrow => arrowText
  | .openParen => ['(']
  | .closeParen => [')']
  | .openBracket => ['[']
  | .closeBracket => [']']
  | .comma => [',']
  | .stray c => [c]

/-- Tokens with a space before each of them. -/
def written (read : List Token) : List Char := read.flatMap fun token => ' ' :: token.text

theorem noneAhead_written {isMember : Char → Bool} (hspace : isMember ' ' = false)
    (read : List Token) : NoneAhead isMember (written read) := by
  cases read with
  | nil => exact noneAhead_nil isMember
  | cons token read => exact (noneAhead_cons isMember ' ' _).mpr hspace

theorem tokens_written {read : List Token} (h : Expressible read) :
    tokens (written read) = read := by
  induction read with
  | nil => exact tokens_nil
  | cons token read ih =>
      obtain ⟨⟨hcut, hstray⟩, hread⟩ := (expressible_cons token read).mp h
      have hsymbol := noneAhead_written isSymbolChar_space read
      have hoperator := noneAhead_written isOperatorChar_space read
      have hwritten : written (token :: read) = ' ' :: (token.text ++ written read) := rfl
      rw [hwritten, tokens_space]
      cases token with
      | symbol name => rw [Token.text, tokens_name hcut hsymbol, ih hread]
      | operator text => rw [Token.text, tokens_operator hcut hoperator, ih hread]
      | arrow => rw [Token.text, tokens_arrow hoperator, ih hread]
      | stray c => exact absurd rfl (hstray c)
      | _ => simp [Token.text, ih hread]

/-- Behind any text tokens can be written so that they follow the tokens of the text. -/
theorem tokens_append_written (text : List Char) {read : List Token} (h : Expressible read) :
    tokens (text ++ written read) = tokens text ++ read := by
  rw [tokens_append (noneAhead_written isSymbolChar_space read)
    (noneAhead_written isOperatorChar_space read), tokens_written h]

/-! ### Reports -/

/-- The place of the expectation lies in the line or at its end, and in front of it stands a text
that goes on to a phrase of the kind. -/
theorem Reader.PointsBehind.exists_continuation {kind : List Token → α → Prop} {line : List Char}
    {expectation : Expectation}
    (h : Reader.PointsBehind line.length kind (lexemes line) expectation) :
    expectation.position ≤ line.length ∧
      ∃ continuation value,
        kind (tokens (line.take expectation.position ++ continuation)) value := by
  obtain ⟨-, front, back, hlexemes, hposition, read, value, hread, hvalue⟩ := h
  obtain ⟨before, after, hline, hlength, htokens⟩ :=
    partsAt_of_lexemesFrom (Nat.zero_add line.length) front hlexemes
  rw [Nat.zero_add, ← hposition] at hlength
  refine ⟨?_, written read, value, ?_⟩
  · rw [← hlength, hline, List.length_append]
    exact Nat.le_add_right _ _
  · rw [hline, List.take_left' hlength, tokens_append_written before hread, htokens]
    exact hvalue

theorem Expectation.distinct_ne_nil {expectation : Expectation} (h : expectation.phrases ≠ []) :
    expectation.distinct ≠ [] := by
  obtain ⟨phrase, hphrase⟩ := List.exists_mem_of_ne_nil _ h
  apply List.ne_nil_of_mem (a := phrase)
  exact List.mem_filter.mpr ⟨phrase.mem_all, by simpa using hphrase⟩

/-- The error is about the line. Its message names a phrase at least and a column, which is one
of the line or the one behind its end, and the text in front of the column can be continued to
a line that is read. -/
def ReportsViablePrefix (read : List Char → Except Expectation α) (line : List Char)
    (error : ParseError) : Prop :=
  error.fragment = String.ofList line ∧
  ∃ (phrases : List Phrase) (column : Nat), phrases ≠ [] ∧ 1 ≤ column ∧
    column ≤ line.length + 1 ∧
    error.message = "expected " ++ Expectation.enumeration (phrases.map Phrase.name) ++
      " at column " ++ toString column ∧
    ∃ continuation value, read (line.take (column - 1) ++ continuation) = .ok value

/-- A reader of lines that reads the lines with a kind of phrase, and whose expectations point
behind beginnings of such phrases, leads to such reports. -/
theorem reportsViablePrefix_of_mapError {read : List Char → Except Expectation α}
    {kind : List Token → α → Prop} {line : List Char} {error : ParseError}
    (hread : ∀ line value, read line = .ok value ↔ kind (tokens line) value)
    (hpoints : ∀ expectation, read line = .error expectation →
      Reader.PointsBehind line.length kind (lexemes line) expectation)
    (h : ((read line).mapError fun expectation =>
      ParseError.of line (.unexpected expectation)) = .error error) :
    ReportsViablePrefix read line error := by
  cases hresult : read line with
  | ok value =>
      rw [hresult] at h
      simp [Except.mapError] at h
  | error expectation =>
      rw [hresult] at h
      obtain rfl := Except.error.inj h
      have hbehind := hpoints expectation hresult
      obtain ⟨hposition, continuation, value, hvalue⟩ := hbehind.exists_continuation
      refine ⟨rfl, expectation.distinct, expectation.position + 1,
        Expectation.distinct_ne_nil hbehind.phrases_ne_nil, Nat.le_add_left 1 _,
        Nat.succ_le_succ hposition, rfl, continuation, value, ?_⟩
      rw [Nat.add_sub_cancel]
      exact (hread _ value).mpr hvalue

theorem Display.reportsViablePrefix_of_readTermLine {line : List Char} {error : ParseError}
    (h : Display.readTermLine line = .error error) :
    ReportsViablePrefix Display.termOfLine line error :=
  reportsViablePrefix_of_mapError Display.termOfLine_eq_ok_iff
    (fun _ => Reader.pointsBehind_of_wholeLine fun _ stop => Display.tracks_term stop) h

theorem Display.reportsViablePrefix_of_readRuleLine {line : List Char} {error : ParseError}
    (h : Display.readRuleLine line = .error error) :
    ReportsViablePrefix Display.ruleOfLine line error :=
  reportsViablePrefix_of_mapError Display.ruleOfLine_eq_ok_iff
    (fun _ => Reader.pointsBehind_of_wholeLine fun _ stop =>
      Reader.tracks_rule stop _ (Display.tracks_term stop)) h

theorem Canonical.reportsViablePrefix_of_readRuleLine {line : List Char} {error : ParseError}
    (h : Canonical.readRuleLine line = .error error) :
    ReportsViablePrefix Canonical.ruleOfLine line error :=
  reportsViablePrefix_of_mapError Canonical.ruleOfLine_eq_ok_iff
    (fun _ => Reader.pointsBehind_of_wholeLine fun _ stop =>
      Reader.tracks_rule stop _ (Canonical.tracks_term stop)) h

/-- Whatever line is refused as a term, as the one-line form of a rule or as a line of the
canonical notation, the report names a phrase that was expected and a column of the line, and
what stands in front of the column can be continued to a line that the same grammar admits. -/
theorem reportsViablePrefix_of_readTerm_and_readRule :
    (∀ text error, Display.readTerm text = .error error →
      ReportsViablePrefix Display.termOfLine (trim text.toList) error) ∧
    (∀ text line error, blocks text.toList = [[line]] → Display.isSeparator line = false →
      Display.readRule text = .error error →
      ReportsViablePrefix Display.ruleOfLine line error) ∧
    ∀ text line error, filledLines text.toList = [line] → Canonical.readRule text = .error error →
      ReportsViablePrefix Canonical.ruleOfLine line error := by
  refine ⟨fun text error h => Display.reportsViablePrefix_of_readTermLine h, ?_, ?_⟩
  · intro text line error hblocks hseparator h
    have hsplit : splitWhere Display.isSeparator [line] = [[line]] :=
      splitWhere_of_forall _ _ (by simpa using hseparator)
    simp only [Display.readRule, hblocks, Display.readBlock, hsplit] at h
    exact Display.reportsViablePrefix_of_readRuleLine h
  · intro text line error hlines h
    simp only [Canonical.readRule, hlines] at h
    exact Canonical.reportsViablePrefix_of_readRuleLine h

/-- A prefix operator without its operand inside the arguments of a term, groups that are never
closed in the one-line form of a rule, and an operator that stands free in a canonical line. -/
theorem reportsViablePrefix_of_unfinished_lines :
    let term := " f(x, ¬)∧ y "
    let rule := "a ∧ b, ((c -> d"
    let free := "(a ∧ b) -> c ∧ d"
    let missing : ParseError := ⟨"f(x, ¬)∧ y", .unexpected ⟨6, [.prefixTerm]⟩⟩
    let unclosed : ParseError :=
      ⟨rule, .unexpected ⟨11, [.displayIndex, .displayArguments, .operator]⟩⟩
    let unparted : ParseError :=
      ⟨free, .unexpected ⟨13, [.canonicalIndex, .canonicalArguments, .endOfLine]⟩⟩
    (Display.readTerm term = .error missing ∧
      ReportsViablePrefix Display.termOfLine (trim term.toList) missing) ∧
    (blocks rule.toList = [[rule.toList]] ∧ Display.isSeparator rule.toList = false ∧
      Display.readRule rule = .error unclosed ∧
      ReportsViablePrefix Display.ruleOfLine rule.toList unclosed) ∧
    filledLines free.toList = [free.toList] ∧ Canonical.readRule free = .error unparted ∧
      ReportsViablePrefix Canonical.ruleOfLine free.toList unparted := by
  intro term rule free missing unclosed unparted
  obtain ⟨hterms, hrules, hcanonical⟩ := reportsViablePrefix_of_readTerm_and_readRule
  have hmissing : Display.readTerm term = .error missing := by decide +kernel
  have hblocks : blocks rule.toList = [[rule.toList]] := by decide +kernel
  have hseparator : Display.isSeparator rule.toList = false := by decide +kernel
  have hunclosed : Display.readRule rule = .error unclosed := by decide +kernel
  have hlines : filledLines free.toList = [free.toList] := by decide +kernel
  have hunparted : Canonical.readRule free = .error unparted := by decide +kernel
  exact ⟨⟨hmissing, hterms term missing hmissing⟩,
    ⟨hblocks, hseparator, hunclosed, hrules rule _ unclosed hblocks hseparator hunclosed⟩,
    hlines, hunparted, hcanonical free _ unparted hlines hunparted⟩

end Sequitur.Notation
