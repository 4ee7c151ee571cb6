import Mathlib.Tactic.ByContra
import Sequitur.Notation.Lexeme
import Sequitur.Proofs.Text.Runs

/-!
# Tokens of a text

The classes of characters exclude one another, so that a text is cut into tokens piece by
piece: a name that no symbol character follows is one symbol, an operator that no operator
character follows is one operator, and a mark stands for itself. The tokens do not depend on
where the text begins in its line.

Conversely a symbol among the tokens of a text has the form of a name, and an operator the
form of an operator.
-/

namespace Sequitur.Notation

open Sequitur.Text

/-! ### Classes of characters -/

/-- Two sorted lists of ranges that overlap nowhere hold no common code point. -/
theorem inRanges_eq_false_of_disjoint {ranges others : List CodeRange} {code : Nat}
    (hdisjoint : ∀ range ∈ ranges, ∀ other ∈ others, range.2 < other.1 ∨ other.2 < range.1)
    (h : inRanges ranges code = true) : inRanges others code = false := by
  by_contra hothers
  obtain ⟨range, hrange, hlow, hhigh⟩ := exists_range_of_inRanges h
  obtain ⟨other, hother, hlow', hhigh'⟩ := exists_range_of_inRanges (by simpa using hothers)
  rcases hdisjoint range hrange other hother with hbefore | hafter
  · omega
  · omega

theorem isBlank_eq_false_of_isLetter {c : Char} (h : isLetter c = true) : isBlank c = false :=
  inRanges_eq_false_of_disjoint (by decide +kernel) h

theorem isBlank_eq_false_of_isNumber {c : Char} (h : isNumber c = true) : isBlank c = false :=
  inRanges_eq_false_of_disjoint (by decide +kernel) h

theorem isBlank_eq_false_of_isSymbolChar {c : Char} (h : isSymbolChar c = true) :
    isBlank c = false := by
  simp only [isSymbolChar, Bool.or_eq_true, beq_iff_eq] at h
  rcases h with ((hletter | hnumber) | rfl) | rfl
  · exact isBlank_eq_false_of_isLetter hletter
  · exact isBlank_eq_false_of_isNumber hnumber
  · decide
  · decide

theorem isBlank_eq_false_of_isOperatorChar {c : Char} (h : isOperatorChar c = true) :
    isBlank c = false := by
  simp [isOperatorChar] at h
  exact h.1.1

theorem isSymbolChar_eq_false_of_isOperatorChar {c : Char} (h : isOperatorChar c = true) :
    isSymbolChar c = false := by
  simp [isOperatorChar] at h
  exact h.1.2

theorem isSymbolChar_eq_false_of_isBlank {c : Char} (h : isBlank c = true) :
    isSymbolChar c = false := by
  by_contra hsymbol
  have hblank := isBlank_eq_false_of_isSymbolChar (by simpa using hsymbol)
  simp [h] at hblank

theorem isOperatorChar_eq_false_of_isBlank {c : Char} (h : isBlank c = true) :
    isOperatorChar c = false := by
  simp [isOperatorChar, h]

theorem isSymbolChar_eq_false_of_isMark {c : Char} (h : isMark c = true) :
    isSymbolChar c = false := by
  simp only [isMark, Bool.or_eq_true, beq_iff_eq] at h
  rcases h with (((rfl | rfl) | rfl) | rfl) | rfl
  all_goals decide +kernel

theorem isOperatorChar_eq_false_of_isMark {c : Char} (h : isMark c = true) :
    isOperatorChar c = false := by
  simp [isOperatorChar, h]

theorem ne_gap_of_isBlank_eq_false {c : Char} (h : isBlank c = false) : ¬(c = ' ' ∨ c = '\t') := by
  rintro (rfl | rfl)
  · exact absurd h (by decide)
  · exact absurd h (by decide)

/-! ### Names and operators -/

/-- A symbol is named by a text of symbol characters that is not empty. -/
def IsSymbolName (name : String) : Prop :=
  name.toList ≠ [] ∧ ∀ c ∈ name.toList, isSymbolChar c = true

/-- An operator is a text of operator characters that is not empty and not the arrow. -/
def IsOperatorText (text : String) : Prop :=
  text.toList ≠ [] ∧ text.toList ≠ arrowText ∧ ∀ c ∈ text.toList, isOperatorChar c = true

instance : DecidablePred IsSymbolName := fun name =>
  decidable_of_iff (name.toList ≠ [] ∧ name.toList.all isSymbolChar = true) (by
    rw [IsSymbolName, List.all_eq_true])

instance : DecidablePred IsOperatorText := fun text =>
  decidable_of_iff (text.toList ≠ [] ∧ text.toList ≠ arrowText ∧
    text.toList.all isOperatorChar = true) (by rw [IsOperatorText, List.all_eq_true])

theorem isOperatorChar_of_mem_arrowText : ∀ c ∈ arrowText, isOperatorChar c = true :=
  List.all_eq_true.mp (by decide +kernel)

/-- Whether a text goes on without a character of a class. -/
def NoneAhead (isMember : Char → Bool) (rest : List Char) : Prop :=
  ∀ c ∈ rest.head?, isMember c = false

@[simp] theorem noneAhead_nil (isMember : Char → Bool) : NoneAhead isMember [] := by
  simp [NoneAhead]

@[simp] theorem noneAhead_cons (isMember : Char → Bool) (c : Char) (rest : List Char) :
    NoneAhead isMember (c :: rest) ↔ isMember c = false := by
  simp [NoneAhead]

/-! ### Cutting a text piece by piece -/

/-- The tokens of a text are the same wherever it begins. -/
theorem map_token_lexemesFrom (start : Nat) (text : List Char) :
    (lexemesFrom start text).map Lexeme.token = tokens text := by
  suffices h : ∀ other, (lexemesFrom start text).map Lexeme.token =
      (lexemesFrom other text).map Lexeme.token from h 0
  fun_induction lexemesFrom start text with
  | case1 => intro other; simp [lexemesFrom]
  | case2 start c cs hgap ih =>
      intro other
      rw [lexemesFrom, if_pos hgap, ih (other + 1)]
  | case3 start c cs hgap hsymbol run ih =>
      intro other
      rw [lexemesFrom, if_neg hgap, if_pos hsymbol, List.map_cons, List.map_cons, ih]
  | case4 start c cs hgap hsymbol hoperator run ih =>
      intro other
      rw [lexemesFrom, if_neg hgap, if_neg hsymbol, if_pos hoperator, List.map_cons,
        List.map_cons, ih]
  | case5 start c cs hgap hsymbol hoperator ih =>
      intro other
      rw [lexemesFrom, if_neg hgap, if_neg hsymbol, if_neg hoperator, List.map_cons,
        List.map_cons, ih (other + 1)]

@[simp] theorem tokens_nil : tokens [] = [] := by
  simp [tokens, lexemes, lexemesFrom]

theorem tokens_gap {c : Char} (rest : List Char) (h : c = ' ' ∨ c = '\t') :
    tokens (c :: rest) = tokens rest := by
  rw [tokens, lexemes, lexemesFrom, if_pos h, map_token_lexemesFrom]

@[simp] theorem tokens_space (rest : List Char) : tokens (' ' :: rest) = tokens rest :=
  tokens_gap rest (.inl rfl)

theorem tokens_cons_of_isSymbolChar {c : Char} (h : isSymbolChar c = true) (cs : List Char) :
    tokens (c :: cs) = .symbol (String.ofList (c :: cs.takeWhile isSymbolChar)) ::
      tokens (cs.dropWhile isSymbolChar) := by
  have hgap : ¬(c = ' ' ∨ c = '\t') :=
    ne_gap_of_isBlank_eq_false (isBlank_eq_false_of_isSymbolChar h)
  rw [tokens, lexemes, lexemesFrom, if_neg hgap, if_pos h]
  simp only [List.map_cons, map_token_lexemesFrom]

theorem tokens_cons_of_isOperatorChar {c : Char} (h : isOperatorChar c = true) (cs : List Char) :
    tokens (c :: cs) = Token.ofOperatorRun (c :: cs.takeWhile isOperatorChar) ::
      tokens (cs.dropWhile isOperatorChar) := by
  have hgap : ¬(c = ' ' ∨ c = '\t') :=
    ne_gap_of_isBlank_eq_false (isBlank_eq_false_of_isOperatorChar h)
  have hsymbol : ¬isSymbolChar c = true := by
    simp [isSymbolChar_eq_false_of_isOperatorChar h]
  rw [tokens, lexemes, lexemesFrom, if_neg hgap, if_neg hsymbol, if_pos h]
  simp only [List.map_cons, map_token_lexemesFrom]

/-- A name that no symbol character follows is one symbol. -/
theorem tokens_name {name : String} (hname : IsSymbolName name) {rest : List Char}
    (hrest : NoneAhead isSymbolChar rest) :
    tokens (name.toList ++ rest) = .symbol name :: tokens rest := by
  obtain ⟨c, cs, hcs⟩ := List.exists_cons_of_ne_nil hname.1
  have hrun : ∀ d ∈ c :: cs, isSymbolChar d = true := hcs ▸ hname.2
  rw [List.forall_mem_cons] at hrun
  rw [hcs, List.cons_append, tokens_cons_of_isSymbolChar hrun.1, takeWhile_run hrun.2 hrest,
    dropWhile_run hrun.2 hrest, ← hcs, String.ofList_toList]

/-- A run of operator characters that no other follows is the arrow or an operator. -/
theorem tokens_operatorRun {run rest : List Char} (hne : run ≠ [])
    (hrun : ∀ c ∈ run, isOperatorChar c = true) (hrest : NoneAhead isOperatorChar rest) :
    tokens (run ++ rest) = Token.ofOperatorRun run :: tokens rest := by
  obtain ⟨c, cs, rfl⟩ := List.exists_cons_of_ne_nil hne
  rw [List.forall_mem_cons] at hrun
  rw [List.cons_append, tokens_cons_of_isOperatorChar hrun.1, takeWhile_run hrun.2 hrest,
    dropWhile_run hrun.2 hrest]

/-- An operator that no operator character follows is one operator. -/
theorem tokens_operator {text : String} (htext : IsOperatorText text) {rest : List Char}
    (hrest : NoneAhead isOperatorChar rest) :
    tokens (text.toList ++ rest) = .operator text :: tokens rest := by
  rw [tokens_operatorRun htext.1 htext.2.2 hrest, Token.ofOperatorRun, if_neg htext.2.1,
    String.ofList_toList]

theorem tokens_arrow {rest : List Char} (hrest : NoneAhead isOperatorChar rest) :
    tokens (arrowText ++ rest) = .arrow :: tokens rest := by
  have hne : arrowText ≠ [] := List.cons_ne_nil _ _
  rw [tokens_operatorRun hne isOperatorChar_of_mem_arrowText hrest, Token.ofOperatorRun, if_pos rfl]

theorem tokens_single {c : Char} (rest : List Char) (hgap : ¬(c = ' ' ∨ c = '\t'))
    (hsymbol : isSymbolChar c = false) (hoperator : isOperatorChar c = false) :
    tokens (c :: rest) = Token.ofSingle c :: tokens rest := by
  rw [tokens, lexemes, lexemesFrom, if_neg hgap, if_neg (by simp [hsymbol]),
    if_neg (by simp [hoperator]), List.map_cons, map_token_lexemesFrom]

theorem tokens_mark {c : Char} (rest : List Char) (hgap : ¬(c = ' ' ∨ c = '\t'))
    (hmark : isMark c = true) : tokens (c :: rest) = Token.ofSingle c :: tokens rest :=
  tokens_single rest hgap (isSymbolChar_eq_false_of_isMark hmark)
    (isOperatorChar_eq_false_of_isMark hmark)

@[simp] theorem tokens_openParen (rest : List Char) :
    tokens ('(' :: rest) = .openParen :: tokens rest :=
  tokens_mark rest (by decide) (by decide)

@[simp] theorem tokens_closeParen (rest : List Char) :
    tokens (')' :: rest) = .closeParen :: tokens rest :=
  tokens_mark rest (by decide) (by decide)

@[simp] theorem tokens_openBracket (rest : List Char) :
    tokens ('[' :: rest) = .openBracket :: tokens rest :=
  tokens_mark rest (by decide) (by decide)

@[simp] theorem tokens_closeBracket (rest : List Char) :
    tokens (']' :: rest) = .closeBracket :: tokens rest :=
  tokens_mark rest (by decide) (by decide)

@[simp] theorem tokens_comma (rest : List Char) :
    tokens (',' :: rest) = .comma :: tokens rest :=
  tokens_mark rest (by decide) (by decide)

/-- A text and what follows it are cut apart, if what follows does not continue the last symbol
or the last operator of the text. -/
theorem tokens_append {rest : List Char} (hsymbol : NoneAhead isSymbolChar rest)
    (hoperator : NoneAhead isOperatorChar rest) (text : List Char) :
    tokens (text ++ rest) = tokens text ++ tokens rest := by
  suffices h : ∀ start, tokens (text ++ rest) =
      (lexemesFrom start text).map Lexeme.token ++ tokens rest from h 0
  intro start
  fun_induction lexemesFrom start text with
  | case1 => rfl
  | case2 start c cs hgap ih => rw [List.cons_append, tokens_gap _ hgap, ih]
  | case3 start c cs hgap hc run ih =>
      rw [List.cons_append, tokens_cons_of_isSymbolChar hc, takeWhile_append_of_head? hsymbol,
        dropWhile_append_of_head? hsymbol, ih, List.map_cons, List.cons_append]
  | case4 start c cs hgap hnot hc run ih =>
      rw [List.cons_append, tokens_cons_of_isOperatorChar hc, takeWhile_append_of_head? hoperator,
        dropWhile_append_of_head? hoperator, ih, List.map_cons, List.cons_append]
  | case5 start c cs hgap hnot hnot' ih =>
      rw [List.cons_append, tokens_single _ hgap (by simpa using hnot) (by simpa using hnot'), ih,
        List.map_cons, List.cons_append]

theorem isBlank_of_gap {c : Char} (h : c = ' ' ∨ c = '\t') : isBlank c = true := by
  rcases h with rfl | rfl
  · decide
  · decide

theorem tokens_gaps_append {before : List Char} (h : ∀ c ∈ before, c = ' ' ∨ c = '\t')
    (text : List Char) : tokens (before ++ text) = tokens text := by
  induction before with
  | nil => rfl
  | cons c before ih =>
      rw [List.forall_mem_cons] at h
      rw [List.cons_append, tokens_gap _ h.1, ih h.2]

/-- Spaces and tabs around a text do not change its tokens. -/
theorem tokens_append_append {before after : List Char}
    (hbefore : ∀ c ∈ before, c = ' ' ∨ c = '\t') (hafter : ∀ c ∈ after, c = ' ' ∨ c = '\t')
    (text : List Char) : tokens (before ++ text ++ after) = tokens text := by
  have hnone : tokens after = [] := by
    have h := tokens_gaps_append hafter []
    rwa [List.append_nil, tokens_nil] at h
  have hhead : ∀ c ∈ after.head?, c = ' ' ∨ c = '\t' := fun c hc =>
    hafter c (List.mem_of_mem_head? hc)
  rw [List.append_assoc, tokens_gaps_append hbefore,
    tokens_append (fun c hc => isSymbolChar_eq_false_of_isBlank (isBlank_of_gap (hhead c hc)))
      (fun c hc => isOperatorChar_eq_false_of_isBlank (isBlank_of_gap (hhead c hc))), hnone,
    List.append_nil]

/-! ### The tokens that a text can have -/

/-- A token as it can come out of a text. -/
def Token.IsCut : Token → Prop
  | .symbol name => IsSymbolName name
  | .operator text => IsOperatorText text
  | _ => True

/-- A token that stands alone is neither a symbol nor an operator. -/
theorem Token.isCut_ofSingle (c : Char) : (Token.ofSingle c).IsCut := by
  unfold Token.ofSingle
  repeat' split
  all_goals trivial

theorem Token.isCut_ofOperatorRun {run : List Char} (hne : run ≠ [])
    (hrun : ∀ c ∈ run, isOperatorChar c = true) : (Token.ofOperatorRun run).IsCut := by
  unfold Token.ofOperatorRun
  split
  · trivial
  · rename_i harrow
    exact ⟨by simpa using hne, by simpa using harrow, by simpa using hrun⟩

/-- Every token of a text has the form of its kind. -/
theorem isCut_of_mem_tokens {text : List Char} {token : Token} (h : token ∈ tokens text) :
    token.IsCut := by
  suffices hall : ∀ start, ∀ lexeme ∈ lexemesFrom start text, lexeme.token.IsCut by
    obtain ⟨lexeme, hlexeme, rfl⟩ := List.mem_map.mp h
    exact hall 0 lexeme hlexeme
  clear h
  intro start
  fun_induction lexemesFrom start text with
  | case1 => simp
  | case2 start c cs hgap ih => exact ih
  | case3 start c cs hgap hsymbol run ih =>
      rw [List.forall_mem_cons]
      refine ⟨⟨by simp [run], ?_⟩, ih⟩
      intro d hd
      rw [String.toList_ofList, List.mem_cons] at hd
      rcases hd with rfl | hd
      · exact hsymbol
      · exact List.all_eq_true.mp List.all_takeWhile d hd
  | case4 start c cs hgap hsymbol hoperator run ih =>
      rw [List.forall_mem_cons]
      refine ⟨Token.isCut_ofOperatorRun (by simp [run]) ?_, ih⟩
      intro d hd
      rcases List.mem_cons.mp hd with rfl | hd
      · exact hoperator
      · exact List.all_eq_true.mp List.all_takeWhile d hd
  | case5 start c cs hgap hsymbol hoperator ih =>
      rw [List.forall_mem_cons]
      exact ⟨Token.isCut_ofSingle c, ih⟩

end Sequitur.Notation
