import Sequitur.Proofs.Notation.Canonical.RoundTrip
import Sequitur.Proofs.Notation.Cutting

/-!
# Single lines of the canonical notation

A text without a line feed is a rule exactly when what it is cut into is one in the grammar.
In this grammar an operator never stands free: there is an opening mark before it, a closing
mark behind it, and nothing but its operands in between. Conversely the parentheses of a term
that is written out in full are all that the grammar asks for, at any depth.
-/

namespace Sequitur.Notation.Canonical

open Sequitur.Text

theorem IsTerm.noStray {read : List Token} {term : Term} (h : IsTerm read term) : NoStray read :=
  IsTerm.induction (p := fun read _ => NoStray read) (b := fun read _ => NoStray read)
    Suffixed.noStray (fun h => by simpa using h) id
    (fun hleft hright => by simpa using ⟨hleft, hright⟩) h

theorem IsTerm.hasSymbol {read : List Token} {term : Term} (h : IsTerm read term) :
    HasSymbol read :=
  IsTerm.induction (p := fun read _ => HasSymbol read) (b := fun read _ => HasSymbol read)
    Suffixed.hasSymbol (fun h => h.cons _) id (fun hleft _ => hleft.append_left _) h

/-! ### Operators in parentheses -/

/-- An operator between these tokens is enclosed when it stands in parentheses with nothing but
its operands, of which the left one may be missing. -/
def Enclosed (front back : List Token) : Prop :=
  ∃ before left right after, front = before ++ .openParen :: left ∧
    back = right ++ .closeParen :: after ∧
    (left = [] ∨ ∃ term, IsTerm left term) ∧ ∃ term, IsTerm right term

/-- Every operator among the tokens is enclosed. -/
def OperatorsEnclosed (read : List Token) : Prop :=
  ∀ front operator back, read = front ++ .operator operator :: back → Enclosed front back

theorem Enclosed.extend {front back : List Token} (h : Enclosed front back)
    (before after : List Token) : Enclosed (before ++ front) (back ++ after) := by
  obtain ⟨outer, left, right, inner, rfl, rfl, hleft, hright⟩ := h
  refine ⟨before ++ outer, left, right, inner ++ after, ?_, ?_, hleft, hright⟩
  · rw [List.append_assoc]
  · rw [List.append_assoc, List.cons_append]

/-- What stands at a place of two lists in a row stands at a place of one of them. -/
theorem exists_of_append_eq_append_cons {others rest front back : List α} {x : α}
    (h : others ++ rest = front ++ x :: back) :
    (∃ inner, others = front ++ x :: inner ∧ back = inner ++ rest) ∨
    ∃ inner, front = others ++ inner ∧ rest = inner ++ x :: back := by
  rcases List.append_eq_append_iff.mp h with ⟨inner, hfront, hrest⟩ | ⟨inner, hothers, hback⟩
  · exact .inr ⟨inner, hfront, hrest⟩
  · cases inner with
    | nil => exact .inr ⟨[], by simpa using hothers.symm, by simpa using hback.symm⟩
    | cons y inner =>
        obtain ⟨rfl, rfl⟩ := List.cons.inj hback
        exact .inl ⟨inner, hothers, rfl⟩

theorem OperatorsEnclosed.append {front back : List Token} (hfront : OperatorsEnclosed front)
    (hback : OperatorsEnclosed back) : OperatorsEnclosed (front ++ back) := by
  intro before operator after h
  rcases exists_of_append_eq_append_cons h with ⟨inner, hsplit, rfl⟩ | ⟨inner, rfl, hsplit⟩
  · simpa using (hfront before operator inner hsplit).extend [] back
  · simpa using (hback inner operator after hsplit).extend front []

theorem operatorsEnclosed_singleton {token : Token} (h : ∀ text, token ≠ .operator text) :
    OperatorsEnclosed [token] := by
  intro front operator back hsplit
  cases front with
  | nil => exact absurd (List.cons.inj hsplit).1 (h operator)
  | cons other front => simp at hsplit

theorem OperatorsEnclosed.cons {token : Token} {read : List Token}
    (h : ∀ text, token ≠ .operator text) (hread : OperatorsEnclosed read) :
    OperatorsEnclosed (token :: read) :=
  (operatorsEnclosed_singleton h).append hread

/-- A further operator is enclosed if the tokens around it enclose it. -/
theorem OperatorsEnclosed.insert {front back : List Token} (hfront : OperatorsEnclosed front)
    (hback : OperatorsEnclosed back) (henclosed : Enclosed front back) (operator : String) :
    OperatorsEnclosed (front ++ .operator operator :: back) := by
  intro before other after h
  rcases exists_of_append_eq_append_cons h with ⟨inner, hsplit, rfl⟩ | ⟨inner, rfl, hsplit⟩
  · simpa using (hfront before other inner hsplit).extend [] (.operator operator :: back)
  · cases inner with
    | nil =>
        obtain ⟨-, rfl⟩ := List.cons.inj hsplit
        simpa using henclosed
    | cons token inner =>
        obtain ⟨rfl, hinner⟩ := List.cons.inj hsplit
        have hlater := (hback inner other after hinner).extend (front ++ [.operator operator]) []
        rwa [List.append_nil, List.append_assoc] at hlater

theorem OperatorsEnclosed.group {read : List Token} (h : OperatorsEnclosed read) :
    OperatorsEnclosed (.openParen :: read ++ [.closeParen]) :=
  (h.cons (by simp)).append (operatorsEnclosed_singleton (by simp))

theorem operatorsEnclosed_listing {item : List Token → α → Prop} {read : List Token}
    {values : List α} (h : Listing item read values)
    (hitem : ∀ read value, item read value → OperatorsEnclosed read) : OperatorsEnclosed read := by
  induction h with
  | one hvalue => exact hitem _ _ hvalue
  | more hvalue _ ih => exact (hitem _ _ hvalue).append (ih.cons (by simp))

theorem operatorsEnclosed_suffixed {body item : List Token → Term → Prop} {read : List Token}
    {term : Term} (h : Suffixed body item read term)
    (hbody : ∀ read term, body read term →
      OperatorsEnclosed (.openParen :: read ++ [.closeParen]))
    (hitem : ∀ read term, item read term → OperatorsEnclosed read) : OperatorsEnclosed read := by
  induction h with
  | symbol => exact operatorsEnclosed_singleton (by simp)
  | group hterm => exact hbody _ _ hterm
  | subscript _ hterms ih | application _ hterms ih =>
      have hlist := operatorsEnclosed_listing hterms hitem
      rw [List.append_assoc]
      exact ih.append ((hlist.cons (by simp)).append (operatorsEnclosed_singleton (by simp)))

/-- In a term every operator is enclosed. -/
theorem IsTerm.operatorsEnclosed {read : List Token} {term : Term} (h : IsTerm read term) :
    OperatorsEnclosed read := by
  -- The operands of an enclosed operator have to be terms, so that goes along in the induction.
  suffices hboth : IsTerm read term ∧ OperatorsEnclosed read from hboth.2
  refine IsTerm.induction (p := fun read term => IsTerm read term ∧ OperatorsEnclosed read)
    (b := fun read term => IsBody read term ∧
      OperatorsEnclosed (.openParen :: read ++ [.closeParen])) ?_ ?_ ?_ ?_ h
  · intro read term hterm
    refine ⟨.suffixed (hterm.imp (fun _ _ h => h.1) fun _ _ h => h.1), ?_⟩
    exact operatorsEnclosed_suffixed hterm (fun _ _ h => h.2) fun _ _ h => h.2
  · rintro operator read operand ⟨hoperand, henclosed⟩
    refine ⟨.unary hoperand, ?_⟩
    have hback : OperatorsEnclosed (read ++ [.closeParen]) :=
      henclosed.append (operatorsEnclosed_singleton (by simp))
    exact OperatorsEnclosed.insert (operatorsEnclosed_singleton (by simp)) hback
      ⟨[], [], read, [], rfl, rfl, .inl rfl, operand, hoperand⟩ operator
  · rintro read term ⟨hterm, henclosed⟩
    exact ⟨.term hterm, henclosed.group⟩
  · rintro front left operator back right ⟨hleft, hfront⟩ ⟨hright, hback⟩
    refine ⟨.binary hleft hright, ?_⟩
    have hbehind : OperatorsEnclosed (back ++ [.closeParen]) :=
      hback.append (operatorsEnclosed_singleton (by simp))
    simpa using OperatorsEnclosed.insert (hfront.cons (by simp)) hbehind
      ⟨[], front, back, [], rfl, rfl, .inr ⟨left, hleft⟩, right, hright⟩ operator

theorem operatorsEnclosed_rule {read : List Token} {rule : Rule} (h : IsRule IsTerm read rule) :
    OperatorsEnclosed read := by
  cases h with
  | axiom_ hconclusion => exact hconclusion.operatorsEnclosed
  | inference hpremises hconclusion =>
      have hfront := operatorsEnclosed_listing hpremises fun _ _ => IsTerm.operatorsEnclosed
      exact hfront.append (hconclusion.operatorsEnclosed.cons (by simp))

/-! ### Lines -/

theorem readRule_eq_ok_iff_of_not_mem {text : String} (h : '\n' ∉ text.toList) (rule : Rule) :
    readRule text = .ok rule ↔ IsRule IsTerm (tokens (trim text.toList)) rule := by
  rw [readRule, filledLines_of_not_mem h]
  by_cases hblank : trim text.toList = []
  · rw [if_pos hblank, hblank, tokens_nil]
    constructor
    · intro hread
      simp at hread
    · intro hrule
      obtain ⟨name, hname⟩ := hrule.hasSymbol fun _ _ => IsTerm.hasSymbol
      simp at hname
  · rw [if_neg hblank]
    exact readRuleLine_eq_ok_iff.trans (ruleOfLine_eq_ok_iff _ rule)

/-- A line with the tokens of a term that is written out is read as the term, without its
grouping nodes, whatever blanks stand between the tokens. -/
theorem readRule_of_cutInto_termText {text : String} (hline : '\n' ∉ text.toList) {term : Term}
    (hterm : term.Writable) (hcut : CutInto (trim text.toList) (tokens (termText term))) :
    readRule text = .ok ⟨[], term.normalized⟩ := by
  have hspelled : Spells (termText term) (IsTerm · term.normalized) :=
    (spells_termText term hterm).mono fun _ hread => .suffixed hread
  rw [readRule_eq_ok_iff_of_not_mem hline, hcut.tokens_eq]
  exact .axiom_ hspelled.tokens

/-- A text of one line is cut into tokens in one way at most, and it is read as a rule exactly
when these tokens are that rule in the grammar. So a line with an operator that does not stand
in parentheses with its operands is no rule, and a line with the tokens of any term that is
written out, with parentheses around each operator and its operands, is this term. -/
theorem readRule_eq_ok_iff_exists_cutInto (text : String) (hline : '\n' ∉ text.toList) :
    (∀ read other, CutInto (trim text.toList) read → CutInto (trim text.toList) other →
      read = other) ∧
    (∀ rule, readRule text = .ok rule ↔
      ∃ read, CutInto (trim text.toList) read ∧ IsRule IsTerm read rule) ∧
    (∀ front operator back, CutInto (trim text.toList) (front ++ .operator operator :: back) →
      ¬Enclosed front back → ∀ rule, readRule text ≠ .ok rule) ∧
    ∀ term : Term, term.Writable → CutInto (trim text.toList) (tokens (termText term)) →
      readRule text = .ok ⟨[], term.normalized⟩ := by
  refine ⟨fun read other hread hother => hread.unique hother, ?_, ?_, ?_⟩
  · intro rule
    rw [readRule_eq_ok_iff_of_not_mem hline]
    exact tokens_iff_exists_cutInto (p := (IsRule IsTerm · rule))
      (fun _ h => h.noStray fun _ _ => IsTerm.noStray) _
  · intro front operator back hcut hfree rule hread
    rw [readRule_eq_ok_iff_of_not_mem hline, hcut.tokens_eq] at hread
    exact hfree (operatorsEnclosed_rule hread front operator back rfl)
  · intro term hterm hcut
    exact readRule_of_cutInto_termText hline hterm hcut

/-- A rule with nested groups and uneven blanks is cut into tokens of the grammar; the operator
of a conclusion that stands free makes a line unreadable; and a term in full parentheses is read
with other blanks than it is written with. -/
theorem exists_cutInto_isRule_and_readRule_ne :
    let text := "(¬(a\t->> b)) ,f( ((c ∘ d)) )[i]-> ( (-- a)∧(b) )"
    let premises : List Term :=
      [.unary "¬" (.binary "->>" (.symbol "a") (.symbol "b")),
        .subscript (.application (.symbol "f") [.binary "∘" (.symbol "c") (.symbol "d")])
          [.symbol "i"]]
    let conclusion : Term := .binary "∧" (.unary "--" (.symbol "a")) (.symbol "b")
    let free := "a -> b ∧ (c)"
    let spaced := "((-- a)∧ b)"
    ('\n' ∉ text.toList ∧ ∃ read, CutInto (trim text.toList) read ∧
      IsRule IsTerm read ⟨premises, conclusion⟩) ∧
    ('\n' ∉ free.toList ∧ ∀ rule, readRule free ≠ .ok rule) ∧
    '\n' ∉ spaced.toList ∧ readRule spaced = .ok ⟨[], conclusion⟩ := by
  intro text premises conclusion free spaced
  have htext : '\n' ∉ text.toList := by decide +kernel
  have hfree : '\n' ∉ free.toList := by decide +kernel
  have hspaced : '\n' ∉ spaced.toList := by decide +kernel
  refine ⟨⟨htext, ?_⟩, ⟨hfree, ?_⟩, hspaced, ?_⟩
  · have hread : readRule text = .ok ⟨premises, conclusion⟩ := by decide +kernel
    exact ((readRule_eq_ok_iff_exists_cutInto text htext).2.1 _).mp hread
  · have htokens : tokens (trim free.toList) =
        [.symbol "a", .arrow, .symbol "b"] ++
          .operator "∧" :: [.openParen, .symbol "c", .closeParen] := by decide +kernel
    have hcut := cutInto_iff.mpr ⟨htokens, by simp⟩
    refine (readRule_eq_ok_iff_exists_cutInto free hfree).2.2.1 _ _ _ hcut ?_
    rintro ⟨before, left, right, after, hfront, -⟩
    have hopen : Token.openParen ∈ [Token.symbol "a", .arrow, .symbol "b"] := by
      rw [hfront]
      simp
    simp at hopen
  · have hterm : conclusion.Writable := by
      simp only [conclusion, Term.writable_binary, Term.writable_unary, Term.writable_symbol]
      decide +kernel
    have htokens : tokens (trim spaced.toList) = tokens (termText conclusion) := by decide +kernel
    have hphrase := IsTerm.suffixed (spells_termText conclusion hterm).tokens
    have hcut := cutInto_iff.mpr ⟨htokens, hphrase.noStray⟩
    exact (readRule_eq_ok_iff_exists_cutInto spaced hspaced).2.2.2 conclusion hterm hcut

end Sequitur.Notation.Canonical
