import Mathlib.Tactic.SplitIfs
import Sequitur.Proofs.Notation.Lexing
import Sequitur.Proofs.Notation.Phrases
import Sequitur.Proofs.Text.Lines

/-!
# Cutting by longest match

`CutInto` says of a text and its tokens what cutting by longest match is, without a way to
compute it: a symbol or an operator takes in all characters of its class that stand in a row,
a run of operator characters that is exactly the arrow is the arrow, and between tokens there
are spaces and tabs only. A text with any other blank character is not cut at all.

The tokens of a text are what it is cut into, unless one of them is stray; and no phrase of
either notation holds a stray token.
-/

namespace Sequitur.Notation

open Sequitur.Text

/-- A text is cut into tokens by longest match. -/
inductive CutInto : List Char → List Token → Prop where
  | nil : CutInto [] []
  | gap {c rest read} : c = ' ' ∨ c = '\t' → CutInto rest read → CutInto (c :: rest) read
  | symbol {name rest read} : IsSymbolName name → NoneAhead isSymbolChar rest →
      CutInto rest read → CutInto (name.toList ++ rest) (.symbol name :: read)
  | operator {text rest read} : IsOperatorText text → NoneAhead isOperatorChar rest →
      CutInto rest read → CutInto (text.toList ++ rest) (.operator text :: read)
  | arrow {rest read} : NoneAhead isOperatorChar rest → CutInto rest read →
      CutInto (arrowText ++ rest) (.arrow :: read)
  | openParen {rest read} : CutInto rest read → CutInto ('(' :: rest) (.openParen :: read)
  | closeParen {rest read} : CutInto rest read → CutInto (')' :: rest) (.closeParen :: read)
  | openBracket {rest read} : CutInto rest read → CutInto ('[' :: rest) (.openBracket :: read)
  | closeBracket {rest read} : CutInto rest read → CutInto (']' :: rest) (.closeBracket :: read)
  | comma {rest read} : CutInto rest read → CutInto (',' :: rest) (.comma :: read)

/-- Whether no token is stray. -/
def NoStray (read : List Token) : Prop := ∀ c, .stray c ∉ read

@[simp] theorem noStray_nil : NoStray [] := by
  simp [NoStray]

@[simp] theorem noStray_cons (token : Token) (read : List Token) :
    NoStray (token :: read) ↔ (∀ c, token ≠ .stray c) ∧ NoStray read := by
  simp only [NoStray, List.mem_cons, not_or, forall_and, ne_comm]

@[simp] theorem noStray_append (front back : List Token) :
    NoStray (front ++ back) ↔ NoStray front ∧ NoStray back := by
  simp only [NoStray, List.mem_append, not_or, forall_and]

/-! ### The tokens of a text -/

theorem CutInto.tokens_eq {text : List Char} {read : List Token} (h : CutInto text read) :
    tokens text = read := by
  induction h with
  | nil => exact tokens_nil
  | gap hgap _ ih => rw [tokens_gap _ hgap, ih]
  | symbol hname hrest _ ih => rw [tokens_name hname hrest, ih]
  | operator htext hrest _ ih => rw [tokens_operator htext hrest, ih]
  | arrow hrest _ ih => rw [tokens_arrow hrest, ih]
  | openParen _ ih => rw [tokens_openParen, ih]
  | closeParen _ ih => rw [tokens_closeParen, ih]
  | openBracket _ ih => rw [tokens_openBracket, ih]
  | closeBracket _ ih => rw [tokens_closeBracket, ih]
  | comma _ ih => rw [tokens_comma, ih]

theorem CutInto.noStray {text : List Char} {read : List Token} (h : CutInto text read) :
    NoStray read := by
  induction h with
  | nil => exact noStray_nil
  | gap _ _ ih => exact ih
  | symbol _ _ _ ih | operator _ _ _ ih | arrow _ _ ih => simpa using ih
  | openParen _ ih | closeParen _ ih | openBracket _ ih | closeBracket _ ih | comma _ ih =>
      simpa using ih

/-- A text is cut into one list of tokens only. -/
theorem CutInto.unique {text : List Char} {read other : List Token} (h : CutInto text read)
    (hother : CutInto text other) : read = other := by
  rw [← h.tokens_eq, hother.tokens_eq]

/-- In a text that is cut only spaces and tabs are blank. -/
theorem CutInto.gap_of_isBlank {text : List Char} {read : List Token} (h : CutInto text read)
    {c : Char} (hc : c ∈ text) (hblank : isBlank c = true) : c = ' ' ∨ c = '\t' := by
  induction h with
  | nil => simp at hc
  | gap hgap _ ih =>
      rcases List.mem_cons.mp hc with rfl | hc
      · exact hgap
      · exact ih hc
  | symbol hname _ _ ih =>
      rcases List.mem_append.mp hc with hc | hc
      · simp [isBlank_eq_false_of_isSymbolChar (hname.2 c hc)] at hblank
      · exact ih hc
  | operator htext _ _ ih =>
      rcases List.mem_append.mp hc with hc | hc
      · simp [isBlank_eq_false_of_isOperatorChar (htext.2.2 c hc)] at hblank
      · exact ih hc
  | arrow _ _ ih =>
      rcases List.mem_append.mp hc with hc | hc
      · have hoperator := isOperatorChar_of_mem_arrowText c hc
        simp [isBlank_eq_false_of_isOperatorChar hoperator] at hblank
      · exact ih hc
  | openParen _ ih | closeParen _ ih | openBracket _ ih | closeBracket _ ih | comma _ ih =>
      rcases List.mem_cons.mp hc with rfl | hc
      · exact absurd hblank (by decide)
      · exact ih hc

theorem noneAhead_dropWhile (isMember : Char → Bool) (text : List Char) :
    NoneAhead isMember (text.dropWhile isMember) := by
  intro c hc
  have hnone := List.head?_dropWhile_not isMember text
  rw [Option.mem_def] at hc
  simpa [hc] using hnone

theorem forall_mem_cons_takeWhile {isMember : Char → Bool} {c : Char} (hc : isMember c = true)
    (text : List Char) : ∀ d ∈ c :: text.takeWhile isMember, isMember d = true :=
  List.forall_mem_cons.mpr ⟨hc, List.all_eq_true.mp List.all_takeWhile⟩

/-- A run of one class with what is left behind it is the text. -/
theorem cons_takeWhile_append_dropWhile (isMember : Char → Bool) (c : Char) (text : List Char) :
    c :: text = (String.ofList (c :: text.takeWhile isMember)).toList ++
      text.dropWhile isMember := by
  rw [String.toList_ofList, List.cons_append, List.takeWhile_append_dropWhile]

theorem CutInto.ofOperatorRun {run rest : List Char} {read : List Token} (hne : run ≠ [])
    (hrun : ∀ c ∈ run, isOperatorChar c = true) (hrest : NoneAhead isOperatorChar rest)
    (h : CutInto rest read) : CutInto (run ++ rest) (Token.ofOperatorRun run :: read) := by
  unfold Token.ofOperatorRun
  split
  · rename_i harrow
    rw [harrow]
    exact .arrow hrest h
  · rename_i harrow
    have htext : IsOperatorText (String.ofList run) :=
      ⟨by simpa using hne, by simpa using harrow, by simpa using hrun⟩
    have hcut := CutInto.operator htext hrest h
    rwa [String.toList_ofList] at hcut

theorem CutInto.ofSingle {c : Char} {rest : List Char} {read : List Token}
    (hstray : ∀ d, Token.ofSingle c ≠ .stray d) (h : CutInto rest read) :
    CutInto (c :: rest) (Token.ofSingle c :: read) := by
  unfold Token.ofSingle at hstray ⊢
  split_ifs at hstray ⊢ with h₁ h₂ h₃ h₄ h₅
  · exact h₁ ▸ .openParen h
  · exact h₂ ▸ .closeParen h
  · exact h₃ ▸ .openBracket h
  · exact h₄ ▸ .closeBracket h
  · exact h₅ ▸ .comma h
  · exact absurd rfl (hstray c)

/-- A text without stray tokens is cut into its tokens. -/
theorem cutInto_tokens {text : List Char} (h : NoStray (tokens text)) :
    CutInto text (tokens text) := by
  suffices hall : ∀ start, NoStray ((lexemesFrom start text).map Lexeme.token) →
      CutInto text ((lexemesFrom start text).map Lexeme.token) from hall 0 h
  clear h
  intro start
  fun_induction lexemesFrom start text with
  | case1 => exact fun _ => .nil
  | case2 start c cs hgap ih => exact fun h => .gap hgap (ih h)
  | case3 start c cs hgap hsymbol run ih =>
      intro h
      rw [List.map_cons, noStray_cons] at h
      have hname : IsSymbolName (String.ofList run) := by
        rw [IsSymbolName, String.toList_ofList]
        exact ⟨List.cons_ne_nil c _, forall_mem_cons_takeWhile hsymbol cs⟩
      rw [cons_takeWhile_append_dropWhile isSymbolChar c cs]
      exact .symbol hname (noneAhead_dropWhile _ _) (ih h.2)
  | case4 start c cs hgap hsymbol hoperator run ih =>
      intro h
      rw [List.map_cons, noStray_cons] at h
      have hcut := CutInto.ofOperatorRun (List.cons_ne_nil c _)
        (forall_mem_cons_takeWhile hoperator cs) (noneAhead_dropWhile _ _) (ih h.2)
      rwa [List.cons_append, List.takeWhile_append_dropWhile] at hcut
  | case5 start c cs hgap hsymbol hoperator ih =>
      intro h
      rw [List.map_cons, noStray_cons] at h
      exact .ofSingle h.1 (ih h.2)

/-- A text is cut into what its tokens are, if none of them is stray. -/
theorem cutInto_iff {text : List Char} {read : List Token} :
    CutInto text read ↔ tokens text = read ∧ NoStray read := by
  constructor
  · intro h
    exact ⟨h.tokens_eq, h.noStray⟩
  · rintro ⟨rfl, h⟩
    exact cutInto_tokens h

theorem lineFeed_not_mem_of_noStray {text : List Char} (h : NoStray (tokens text)) :
    '\n' ∉ text := by
  intro hmem
  exact absurd ((cutInto_tokens h).gap_of_isBlank hmem (by decide)) (by decide)

/-- Trimming does not change the tokens of a text, if none of them is stray. -/
theorem tokens_trim {text : List Char} (h : NoStray (tokens text)) :
    tokens (trim text) = tokens text := by
  obtain ⟨before, after, htext, hbefore, hafter⟩ := exists_eq_append_trim text
  have hgap : ∀ c ∈ text, isBlank c = true → c = ' ' ∨ c = '\t' := fun c hc hblank =>
    (cutInto_tokens h).gap_of_isBlank hc hblank
  have hbeforeGap : ∀ c ∈ before, c = ' ' ∨ c = '\t' := fun c hc =>
    hgap c (by rw [htext]; simp [hc]) (hbefore c hc)
  have hafterGap : ∀ c ∈ after, c = ' ' ∨ c = '\t' := fun c hc =>
    hgap c (by rw [htext]; simp [hc]) (hafter c hc)
  have hsame := tokens_append_append hbeforeGap hafterGap (trim text)
  rw [← htext] at hsame
  exact hsame.symm

/-! ### Phrases hold no stray tokens -/

theorem Listing.noStray {item : List Token → α → Prop} {read : List Token} {values : List α}
    (h : Listing item read values) (hitem : ∀ read value, item read value → NoStray read) :
    NoStray read := by
  induction h with
  | one hvalue => exact hitem _ _ hvalue
  | more hvalue _ ih => simpa using ⟨hitem _ _ hvalue, ih⟩

theorem Suffixed.noStray {read : List Token} {term : Term}
    (h : Suffixed (fun read _ => NoStray read) (fun read _ => NoStray read) read term) :
    NoStray read := by
  induction h with
  | symbol => simp
  | group hbody => simpa using hbody
  | subscript _ hterms ih | application _ hterms ih =>
      simpa using ⟨ih, hterms.noStray fun _ _ hterm => hterm⟩

theorem IsRule.noStray {item : List Token → Term → Prop} {read : List Token} {rule : Rule}
    (h : IsRule item read rule) (hitem : ∀ read term, item read term → NoStray read) :
    NoStray read := by
  cases h with
  | axiom_ hconclusion => exact hitem _ _ hconclusion
  | inference hpremises hconclusion =>
      simpa using ⟨hpremises.noStray hitem, hitem _ _ hconclusion⟩

/-- Phrases without stray tokens are found in the tokens of a text exactly when they are found
in what it is cut into. -/
theorem tokens_iff_exists_cutInto {p : List Token → Prop} (hp : ∀ read, p read → NoStray read)
    (text : List Char) : p (tokens text) ↔ ∃ read, CutInto text read ∧ p read := by
  constructor
  · intro h
    exact ⟨tokens text, cutInto_tokens (hp _ h), h⟩
  · rintro ⟨read, hcut, h⟩
    rwa [hcut.tokens_eq]

end Sequitur.Notation
