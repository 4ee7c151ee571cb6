import Sequitur.Proofs.Notation.Phrases
import Sequitur.Proofs.Notation.Writable
import Sequitur.Proofs.Text.Lines

/-!
# Texts that spell a phrase

A text spells a kind of phrase when its tokens are such a phrase wherever the text stands
before something that does not continue its last symbol. Lists, groups and suffixes are
spelled out of texts that spell their parts, so that the printers of both notations are
followed node by node.
-/

namespace Sequitur.Notation

open Sequitur.Text

/-- The tokens of the text are such a phrase, and what stands behind them is cut by itself. -/
def Spells (text : List Char) (kind : List Token → Prop) : Prop :=
  ∃ read, kind read ∧
    ∀ rest, NoneAhead isSymbolChar rest → tokens (text ++ rest) = read ++ tokens rest

@[simp] theorem isSymbolChar_space : isSymbolChar ' ' = false :=
  isSymbolChar_eq_false_of_isBlank (by decide)

@[simp] theorem isSymbolChar_openParen : isSymbolChar '(' = false :=
  isSymbolChar_eq_false_of_isMark (by decide)

@[simp] theorem isSymbolChar_closeParen : isSymbolChar ')' = false :=
  isSymbolChar_eq_false_of_isMark (by decide)

@[simp] theorem isSymbolChar_openBracket : isSymbolChar '[' = false :=
  isSymbolChar_eq_false_of_isMark (by decide)

@[simp] theorem isSymbolChar_closeBracket : isSymbolChar ']' = false :=
  isSymbolChar_eq_false_of_isMark (by decide)

@[simp] theorem isSymbolChar_comma : isSymbolChar ',' = false :=
  isSymbolChar_eq_false_of_isMark (by decide)

@[simp] theorem isOperatorChar_space : isOperatorChar ' ' = false :=
  isOperatorChar_eq_false_of_isBlank (by decide)

@[simp] theorem isOperatorChar_openParen : isOperatorChar '(' = false :=
  isOperatorChar_eq_false_of_isMark (by decide)

theorem IsSymbolName.solid {name : String} (h : IsSymbolName name) : Solid name.toList :=
  .of_forall h.1 fun c hc => isBlank_eq_false_of_isSymbolChar (h.2 c hc)

theorem IsOperatorText.solid {text : String} (h : IsOperatorText text) : Solid text.toList :=
  .of_forall h.1 fun c hc => isBlank_eq_false_of_isOperatorChar (h.2.2 c hc)

namespace Spells

variable {body item : List Token → Term → Prop}

theorem tokens {text : List Char} {kind : List Token → Prop} (h : Spells text kind) :
    kind (tokens text) := by
  obtain ⟨read, hread, htokens⟩ := h
  have hall := htokens [] (noneAhead_nil _)
  rw [List.append_nil, tokens_nil, List.append_nil] at hall
  rw [hall]
  exact hread

theorem mono {text : List Char} {kind other : List Token → Prop} (h : Spells text kind)
    (himp : ∀ read, kind read → other read) : Spells text other := by
  obtain ⟨read, hread, htokens⟩ := h
  exact ⟨read, himp read hread, htokens⟩

theorem space {text : List Char} {kind : List Token → Prop} (h : Spells text kind) :
    Spells (' ' :: text) kind := by
  obtain ⟨read, hread, htokens⟩ := h
  refine ⟨read, hread, ?_⟩
  intro rest hrest
  rw [List.cons_append, tokens_space, htokens rest hrest]

theorem symbol {name : String} (hname : IsSymbolName name) :
    Spells name.toList (Suffixed body item · (.symbol name)) := by
  refine ⟨[.symbol name], .symbol, ?_⟩
  intro rest hrest
  rw [tokens_name hname hrest, List.singleton_append]

theorem group {text : List Char} {term : Term} (h : Spells text (body · term)) :
    Spells ('(' :: text ++ [')']) (Suffixed body item · term) := by
  obtain ⟨read, hread, htokens⟩ := h
  refine ⟨.openParen :: read ++ [.closeParen], .group hread, ?_⟩
  intro rest hrest
  have hinner := htokens (')' :: rest) (by simp)
  simp [hinner]

theorem listed {write : Term → List Char} {result : Term → Term} {terms : List Term}
    (hne : terms ≠ []) (h : ∀ term ∈ terms, Spells (write term) (item · (result term))) :
    Spells (listed (terms.map write)) (Listing item · (terms.map result)) := by
  induction terms with
  | nil => exact absurd rfl hne
  | cons term terms ih =>
      rw [List.forall_mem_cons] at h
      obtain ⟨⟨read, hread, htokens⟩, hothers⟩ := h
      cases terms with
      | nil => exact ⟨read, .one hread, htokens⟩
      | cons other terms =>
          obtain ⟨reads, hreads, htokens'⟩ := ih (by simp) hothers
          refine ⟨read ++ .comma :: reads, .more hread hreads, ?_⟩
          intro rest hrest
          have hfirst := htokens (',' :: ' ' :: Text.listed ((other :: terms).map write) ++ rest)
            (by simp)
          have hlater := htokens' rest hrest
          rw [List.map_cons, Text.listed, joinWith_cons _ _ (by simp)]
          rw [Text.listed] at hfirst hlater
          simp only [List.append_assoc, List.cons_append, List.nil_append] at hfirst ⊢
          rw [hfirst, tokens_comma, tokens_space, hlater]

theorem subscript {front list : List Char} {base : Term} {indices : List Term}
    (hbase : Spells front (Suffixed body item · base))
    (hlist : Spells list (Listing item · indices)) :
    Spells (front ++ '[' :: list ++ [']']) (Suffixed body item · (.subscript base indices)) := by
  obtain ⟨read, hread, htokens⟩ := hbase
  obtain ⟨reads, hreads, htokens'⟩ := hlist
  refine ⟨read ++ .openBracket :: reads ++ [.closeBracket], .subscript hread hreads, ?_⟩
  intro rest hrest
  have hfront := htokens ('[' :: list ++ [']'] ++ rest) (by simp)
  have hinner := htokens' (']' :: rest) (by simp)
  simp only [List.append_assoc, List.cons_append, List.nil_append] at hfront ⊢
  rw [hfront, tokens_openBracket, hinner, tokens_closeBracket]

theorem application {front list : List Char} {function : Term} {arguments : List Term}
    (hfunction : Spells front (Suffixed body item · function))
    (hlist : Spells list (Listing item · arguments)) :
    Spells (front ++ '(' :: list ++ [')'])
      (Suffixed body item · (.application function arguments)) := by
  obtain ⟨read, hread, htokens⟩ := hfunction
  obtain ⟨reads, hreads, htokens'⟩ := hlist
  refine ⟨read ++ .openParen :: reads ++ [.closeParen], .application hread hreads, ?_⟩
  intro rest hrest
  have hfront := htokens ('(' :: list ++ [')'] ++ rest) (by simp)
  have hinner := htokens' (')' :: rest) (by simp)
  simp only [List.append_assoc, List.cons_append, List.nil_append] at hfront ⊢
  rw [hfront, tokens_openParen, hinner, tokens_closeParen]

theorem prefixed {operator : String} (hoperator : IsOperatorText operator) {text : List Char}
    {kind : List Token → Prop} (hhead : ∃ c ∈ text.head?, isOperatorChar c = false)
    (h : Spells text kind) :
    Spells (operator.toList ++ text) fun read => ∃ inner, read = .operator operator :: inner ∧
      kind inner := by
  obtain ⟨read, hread, htokens⟩ := h
  obtain ⟨c, hc, hnone⟩ := hhead
  obtain ⟨others, rfl⟩ := List.head?_eq_some_iff.mp hc
  refine ⟨.operator operator :: read, ⟨read, rfl, hread⟩, ?_⟩
  intro rest hrest
  rw [List.append_assoc, tokens_operator hoperator (by simpa using hnone), htokens rest hrest]
  rfl

/-- An operator with spaces around it stands between two phrases. -/
theorem infixed {operator : String} (hoperator : IsOperatorText operator)
    {front back : List Char} {kind kind' : List Token → Prop} (hfront : Spells front kind)
    (hback : Spells back kind') :
    Spells (front ++ ' ' :: operator.toList ++ ' ' :: back) fun read => ∃ left right,
      read = left ++ .operator operator :: right ∧ kind left ∧ kind' right := by
  obtain ⟨left, hleft, htokens⟩ := hfront
  obtain ⟨_, ⟨right, rfl, hright⟩, htokens'⟩ :=
    hback.space.prefixed hoperator ⟨' ', rfl, isOperatorChar_space⟩
  refine ⟨left ++ .operator operator :: right, ⟨left, right, rfl, hleft, hright⟩, ?_⟩
  intro rest hrest
  have hfirst := htokens (' ' :: operator.toList ++ ' ' :: back ++ rest) (by simp)
  have hlater := htokens' rest hrest
  simp only [List.append_assoc, List.cons_append] at hfirst hlater ⊢
  rw [hfirst, tokens_space, hlater]

/-- The arrow with spaces around it stands between the premises and the conclusion. -/
theorem inference {list text : List Char} {premises : List Term} {conclusion : Term}
    (hlist : Spells list (Listing item · premises)) (h : Spells text (item · conclusion)) :
    Spells (list ++ ' ' :: arrowText ++ ' ' :: text) (IsRule item · ⟨premises, conclusion⟩) := by
  obtain ⟨front, hfront, htokens⟩ := hlist
  obtain ⟨back, hback, htokens'⟩ := h
  refine ⟨front ++ .arrow :: back, .inference hfront hback, ?_⟩
  intro rest hrest
  have hfirst := htokens (' ' :: arrowText ++ ' ' :: text ++ rest) (by simp)
  have hlater := htokens' rest hrest
  have hgap : NoneAhead isOperatorChar (' ' :: text ++ rest) := by simp
  have harrow := tokens_arrow hgap
  simp only [List.append_assoc, List.cons_append] at hfirst harrow ⊢
  rw [hfirst, tokens_space, harrow, tokens_space, hlater]

end Spells

end Sequitur.Notation
