import Sequitur.Notation.Phrases
import Sequitur.Proofs.Notation.Tracking

/-!
# The grammar around the operators

Lists, atoms with suffixes, and rules are put together in the same way in both notations.
Their grammar is given here for any kind of term, with the proof that the readers of these
phrases track it, and are complete for it, as soon as the reader of terms does and is.

What may follow a phrase is told by the first token behind it: an operand goes on with an
opening mark, a term also with an operator, and a list also with a comma.
-/

namespace Sequitur.Notation

/-! ### Grammar -/

/-- Phrases with commas between them, at least one. -/
inductive Listing (item : List Token → α → Prop) : List Token → List α → Prop where
  | one {read value} : item read value → Listing item read [value]
  | more {read value others values} : item read value → Listing item others values →
      Listing item (read ++ .comma :: others) (value :: values)

/-- An atom and its suffixes: a symbol or a body in parentheses, then any number of lists in
brackets or parentheses, each of which applies to all that stands before it. -/
inductive Suffixed (body item : List Token → Term → Prop) : List Token → Term → Prop where
  | symbol {name} : Suffixed body item [.symbol name] (.symbol name)
  | group {read term} : body read term →
      Suffixed body item (.openParen :: read ++ [.closeParen]) term
  | subscript {front base read indices} : Suffixed body item front base →
      Listing item read indices →
      Suffixed body item (front ++ .openBracket :: read ++ [.closeBracket])
        (.subscript base indices)
  | application {front function read arguments} : Suffixed body item front function →
      Listing item read arguments →
      Suffixed body item (front ++ .openParen :: read ++ [.closeParen])
        (.application function arguments)

/-- A rule on one line: a term, or a list of terms, the arrow and a term. -/
inductive IsRule (item : List Token → Term → Prop) : List Token → Rule → Prop where
  | axiom_ {read conclusion} : item read conclusion → IsRule item read ⟨[], conclusion⟩
  | inference {front premises back conclusion} : Listing item front premises →
      item back conclusion → IsRule item (front ++ .arrow :: back) ⟨premises, conclusion⟩

theorem Listing.snoc {item : List Token → α → Prop} {read others : List Token} {values : List α}
    {value : α} (h : Listing item read values) (hvalue : item others value) :
    Listing item (read ++ .comma :: others) (values ++ [value]) := by
  induction h with
  | one hfirst => exact .more hfirst (.one hvalue)
  | more hfirst _ ih =>
      rw [List.append_assoc, List.cons_append]
      exact .more hfirst ih

theorem Listing.imp {item other : List Token → α → Prop} {read : List Token} {values : List α}
    (himp : ∀ read value, item read value → other read value) (h : Listing item read values) :
    Listing other read values := by
  induction h with
  | one hvalue => exact .one (himp _ _ hvalue)
  | more hvalue _ ih => exact .more (himp _ _ hvalue) ih

theorem Suffixed.imp {body item body' item' : List Token → Term → Prop} {read : List Token}
    {term : Term} (hbody : ∀ read term, body read term → body' read term)
    (hitem : ∀ read term, item read term → item' read term) (h : Suffixed body item read term) :
    Suffixed body' item' read term := by
  induction h with
  | symbol => exact .symbol
  | group hterm => exact .group (hbody _ _ hterm)
  | subscript _ hterms ih => exact .subscript ih (hterms.imp hitem)
  | application _ hterms ih => exact .application ih (hterms.imp hitem)

theorem IsRule.imp {item other : List Token → Term → Prop} {read : List Token} {rule : Rule}
    (himp : ∀ read term, item read term → other read term) (h : IsRule item read rule) :
    IsRule other read rule := by
  cases h with
  | axiom_ hconclusion => exact .axiom_ (himp _ _ hconclusion)
  | inference hpremises hconclusion =>
      exact .inference (hpremises.imp himp) (himp _ _ hconclusion)

theorem Listing.ne_nil {item : List Token → α → Prop} {read : List Token} {values : List α}
    (h : Listing item read values) : values ≠ [] := by
  cases h <;> simp

/-- Only a term alone is a rule without premises. -/
theorem isRule_nil_iff {item : List Token → Term → Prop} {read : List Token} {conclusion : Term} :
    IsRule item read ⟨[], conclusion⟩ ↔ item read conclusion := by
  constructor
  · intro h
    generalize hrule : Rule.mk [] conclusion = rule at h
    cases h with
    | axiom_ hconclusion =>
        obtain ⟨-, rfl⟩ := Rule.mk.inj hrule
        exact hconclusion
    | inference hpremises _ => exact absurd (Rule.mk.inj hrule).1.symm hpremises.ne_nil
  · exact .axiom_

theorem Suffixed.head?_ne_operator {body item : List Token → Term → Prop} {read : List Token}
    {term : Term} (h : Suffixed body item read term) (rest : List Token) (text : String) :
    (read ++ rest).head? ≠ some (.operator text) := by
  induction h generalizing rest with
  | symbol => simp
  | group _ => simp
  | subscript _ _ ih =>
      rw [List.append_assoc, List.append_assoc]
      exact ih _
  | application _ _ ih =>
      rw [List.append_assoc, List.append_assoc]
      exact ih _

/-- Every phrase of terms holds a symbol. -/
def HasSymbol (read : List Token) : Prop := ∃ name, .symbol name ∈ read

theorem HasSymbol.append_left {front : List Token} (h : HasSymbol front) (back : List Token) :
    HasSymbol (front ++ back) := by
  obtain ⟨name, hname⟩ := h
  exact ⟨name, List.mem_append_left back hname⟩

theorem HasSymbol.append_right {back : List Token} (h : HasSymbol back) (front : List Token) :
    HasSymbol (front ++ back) := by
  obtain ⟨name, hname⟩ := h
  exact ⟨name, List.mem_append_right front hname⟩

theorem HasSymbol.cons {read : List Token} (h : HasSymbol read) (token : Token) :
    HasSymbol (token :: read) := by
  obtain ⟨name, hname⟩ := h
  exact ⟨name, List.mem_cons_of_mem token hname⟩

theorem Suffixed.hasSymbol {item : List Token → Term → Prop} {read : List Token} {term : Term}
    (h : Suffixed (fun read _ => HasSymbol read) item read term) : HasSymbol read := by
  induction h with
  | @symbol name => exact ⟨name, by simp⟩
  | group hbody => exact (hbody.cons _).append_left _
  | subscript _ _ ih => exact (ih.append_left _).append_left _
  | application _ _ ih => exact (ih.append_left _).append_left _

theorem IsRule.hasSymbol {item : List Token → Term → Prop} {read : List Token} {rule : Rule}
    (h : IsRule item read rule) (hitem : ∀ read term, item read term → HasSymbol read) :
    HasSymbol read := by
  cases h with
  | axiom_ hconclusion => exact hitem _ _ hconclusion
  | inference _ hconclusion => exact ((hitem _ _ hconclusion).cons _).append_right _

/-! ### What may follow -/

/-- No suffix begins here. -/
def EndsOperand : List Token → Prop
  | .openParen :: _ | .openBracket :: _ => False
  | _ => True

/-- Neither a suffix nor an operator begins here. -/
def EndsTerm : List Token → Prop
  | .openParen :: _ | .openBracket :: _ | .operator _ :: _ => False
  | _ => True

/-- Neither a suffix nor an operator nor a further item begins here. -/
def EndsList : List Token → Prop
  | .openParen :: _ | .openBracket :: _ | .operator _ :: _ | .comma :: _ => False
  | _ => True

theorem EndsTerm.endsOperand {rest : List Token} (h : EndsTerm rest) : EndsOperand rest := by
  unfold EndsOperand
  split <;> trivial

theorem EndsTerm.head?_ne_operator {rest : List Token} (h : EndsTerm rest) (text : String) :
    rest.head? ≠ some (.operator text) := by
  rintro heq
  obtain ⟨others, rfl⟩ := List.head?_eq_some_iff.mp heq
  exact h

theorem EndsList.endsTerm {rest : List Token} (h : EndsList rest) : EndsTerm rest := by
  unfold EndsTerm
  split <;> trivial

theorem EndsList.head?_ne_comma {rest : List Token} (h : EndsList rest) :
    rest.head? ≠ some .comma := by
  rintro heq
  obtain ⟨others, rfl⟩ := List.head?_eq_some_iff.mp heq
  exact h

namespace Reader

/-! ### Lists -/

section Series

variable {stop : Nat} {item : Reader α n} {kind : List Token → α → Prop}

theorem tracks_series (hitem : Tracks stop item kind) :
    Tracks stop (series item) (Listing kind) := by
  have hcomma : Expressible [.comma] := by simp [Token.IsCut]
  refine Tracks.withTails (fun values => (tracks_exactly hcomma).andThen fun _ => hitem.map _) ?_
    ((hitem.map _).mono ?_)
  · rintro front values _ _ hvalues ⟨_, _, read, rfl, rfl, value, hvalue, rfl⟩
    exact hvalues.snoc hvalue
  · rintro read _ ⟨value, hvalue, rfl⟩
    exact .one hvalue

/-- Behind some items the others of a list are read, each after its comma. -/
theorem extends_series (hitem : Complete item kind EndsTerm) {read : List Token}
    {values : List α} (h : Listing kind read values) (front : List α) {rest : List Token}
    (hrest : EndsList rest) :
    Extends (fun values : List α => (exactly .comma : Reader Unit n).andThen fun _ =>
      item.map fun value => values ++ [value]) front (.comma :: read ++ rest) (front ++ values)
      rest := by
  induction h generalizing front with
  | @one read value hvalue =>
      have hread := hitem read value rest hvalue hrest.endsTerm
      refine ((reads_exactly .comma _).andThen (hread.map _)).extends (Extends.none ?_)
      exact (fails_exactly hrest.head?_ne_comma).andThen
  | @more read value others values hvalue hothers ih =>
      have hread := hitem read value (.comma :: others ++ rest) hvalue trivial
      rw [← List.append_assoc] at hread
      refine ((reads_exactly .comma _).andThen (hread.map _)).extends ?_
      rw [List.append_cons front value values]
      exact ih (front ++ [value])

theorem complete_series (hitem : Complete item kind EndsTerm) :
    Complete (series item) (Listing kind) EndsList := by
  intro read values rest h hrest
  cases h with
  | @one read value hvalue =>
      have hread := hitem read value rest hvalue hrest.endsTerm
      refine (hread.map _).withTails (Extends.none ?_)
      exact (fails_exactly hrest.head?_ne_comma).andThen
  | @more read value others values hvalue hothers =>
      have hread := hitem read value (.comma :: others ++ rest) hvalue trivial
      rw [← List.append_assoc] at hread
      exact (hread.map _).withTails (extends_series hitem hothers [value] hrest)

end Series

/-! ### Atoms with suffixes -/

section Suffixes

variable (stop : Nat) (group indices arguments : Phrase) {body item : Reader Term n}
  {bodyKind kind : List Token → Term → Prop}

/-- A symbol alone is an atom with suffixes, so there are tokens that are one. -/
theorem begins_suffixed : Begins (Suffixed bodyKind kind) [] := by
  obtain ⟨read, name, hread, hname⟩ := (tracks_symbol (n := 0) 0).begins
  refine ⟨read, .symbol name, hread, ?_⟩
  rw [hname]
  exact .symbol

theorem tracks_suffix (hitem : Tracks stop item kind) (base : Term) :
    Tracks stop (suffix stop indices arguments item base) fun read term => ∃ inner terms,
      Listing kind inner terms ∧
        (read = .openBracket :: inner ++ [.closeBracket] ∧ term = .subscript base terms ∨
          read = .openParen :: inner ++ [.closeParen] ∧ term = .application base terms) := by
  have hlist := tracks_series hitem
  refine Tracks.orElse
    ((hlist.between (by simp [Token.IsCut]) (by simp [Token.IsCut])).phrase.map _ |>.mono ?_)
    ((hlist.between (by simp [Token.IsCut]) (by simp [Token.IsCut])).phrase.map _ |>.mono ?_)
  · rintro read term ⟨terms, ⟨inner, rfl, hterms⟩, rfl⟩
    exact ⟨inner, terms, hterms, .inl ⟨rfl, rfl⟩⟩
  · rintro read term ⟨terms, ⟨inner, rfl, hterms⟩, rfl⟩
    exact ⟨inner, terms, hterms, .inr ⟨rfl, rfl⟩⟩

theorem tracks_suffixed (hbody : Tracks stop body bodyKind) (hitem : Tracks stop item kind) :
    Tracks stop ((atom stop group body).withTails (suffix stop indices arguments item))
      (Suffixed bodyKind kind) := by
  have hatom : Tracks stop (atom stop group body) (Suffixed bodyKind kind) := by
    refine Tracks.orElse ((tracks_symbol stop).map _ |>.mono ?_)
      ((hbody.between (by simp [Token.IsCut]) (by simp [Token.IsCut])).phrase.mono ?_)
    · rintro read term ⟨name, rfl, rfl⟩
      exact .symbol
    · rintro read term ⟨inner, rfl, hinner⟩
      exact .group hinner
  refine Tracks.withTails (tracks_suffix stop indices arguments hitem) ?_ hatom
  rintro front base back term hbase ⟨inner, terms, hterms, ⟨rfl, rfl⟩ | ⟨rfl, rfl⟩⟩
  · rw [← List.append_assoc]
    exact .subscript hbase hterms
  · rw [← List.append_assoc]
    exact .application hbase hterms

variable (hbody : Complete body bodyKind EndsTerm) (hitem : Complete item kind EndsTerm)

include hitem in
theorem reads_subscript {read : List Token} {terms : List Term} (base : Term)
    (h : Listing kind read terms) (rest : List Token) :
    Reads (suffix stop indices arguments item base)
      (.openBracket :: (read ++ .closeBracket :: rest)) (.subscript base terms) rest := by
  have hread := complete_series hitem read terms (.closeBracket :: rest) h trivial
  exact (hread.between.phrase.map _).orElse

include hitem in
theorem reads_application {read : List Token} {terms : List Term} (function : Term)
    (h : Listing kind read terms) (rest : List Token) :
    Reads (suffix stop indices arguments item function)
      (.openParen :: (read ++ .closeParen :: rest)) (.application function terms) rest := by
  have hread := complete_series hitem read terms (.closeParen :: rest) h trivial
  refine Fails.orElse_reads ?_ (hread.between.phrase.map _)
  exact (fails_between _ (by simp)).phrase.map _

theorem fails_suffix (item : Reader Term n) (base : Term) {rest : List Token}
    (h : EndsOperand rest) : Fails (suffix stop indices arguments item base) rest := by
  refine Fails.orElse ((fails_between _ ?_).phrase.map _) ((fails_between _ ?_).phrase.map _)
  · rintro heq
    obtain ⟨others, rfl⟩ := List.head?_eq_some_iff.mp heq
    exact h
  · rintro heq
    obtain ⟨others, rfl⟩ := List.head?_eq_some_iff.mp heq
    exact h

include hbody hitem in
/-- After an atom with some suffixes the reader stands as if it had to extend the term by
further suffixes. -/
theorem reads_suffixed_extends {read : List Token} {term : Term}
    (h : Suffixed bodyKind kind read term) {rest final : List Token} {result : Term}
    (hrest : Extends (suffix stop indices arguments item) term rest result final) :
    Reads ((atom stop group body).withTails (suffix stop indices arguments item))
      (read ++ rest) result final := by
  induction h generalizing rest with
  | symbol => exact (((reads_symbol stop _ rest).map _).orElse).withTails hrest
  | @group read term hterm =>
      have hread := hbody read term (.closeParen :: rest) hterm trivial
      refine Reads.withTails (Fails.orElse_reads ((fails_symbol stop (by simp)).map _) ?_) hrest
      simpa using hread.between.phrase
  | @subscript front base read terms hbase hterms ih =>
      have hsuffix := reads_subscript stop indices arguments hitem base hterms rest
      simpa using ih (hsuffix.extends hrest)
  | @application front function read terms hfunction hterms ih =>
      have hsuffix := reads_application stop indices arguments hitem function hterms rest
      simpa using ih (hsuffix.extends hrest)

include hbody hitem in
theorem complete_suffixed :
    Complete ((atom stop group body).withTails (suffix stop indices arguments item))
      (Suffixed bodyKind kind) EndsOperand := fun _ term _ h hrest =>
  reads_suffixed_extends stop group indices arguments hbody hitem h
    (Extends.none (fails_suffix stop indices arguments item term hrest))

end Suffixes

/-! ### Rules -/

section Rules

variable (stop : Nat) (list : Phrase) {term : Reader Term n}
  {kind : List Token → Term → Prop}

theorem tracks_rule (hterm : Tracks stop term kind) :
    Tracks stop (rule stop list term) (IsRule kind) := by
  have hpremises : Tracks stop (premisesWithArrow stop list term) fun read premises =>
      ∃ front, read = front ++ [.arrow] ∧ Listing kind front premises := by
    refine ((tracks_series hterm).phrase.andThen fun premises =>
      (tracks_arrow stop).map _).mono ?_
    rintro read _ ⟨front, premises, _, rfl, hfront, _, rfl, rfl⟩
    exact ⟨front, rfl, hfront⟩
  refine (hpremises.afterOptional fun premises => hterm.map _).mono ?_
  rintro read _ (⟨conclusion, hconclusion, rfl⟩ |
    ⟨_, premises, back, rfl, ⟨front, rfl, hfront⟩, conclusion, hconclusion, rfl⟩)
  · exact .axiom_ hconclusion
  · rw [List.append_assoc]
    exact .inference hfront hconclusion

theorem complete_rule (hterm : Complete term kind EndsTerm) :
    Complete (rule stop list term) (IsRule kind) (· = []) := by
  rintro read result rest h rfl
  rw [List.append_nil]
  cases h with
  | @axiom_ read conclusion hconclusion =>
      have hlist := complete_series hterm read [conclusion] [] (.one hconclusion) trivial
      have hread := hterm read conclusion [] hconclusion trivial
      rw [List.append_nil] at hlist hread
      have hnoArrow : Fails (premisesWithArrow stop list term) read :=
        hlist.phrase.andThen_fails ((fails_arrow stop (by simp)).map _)
      exact hnoArrow.afterOptional (hread.map _)
  | @inference front premises back conclusion hpremises hconclusion =>
      have hlist := complete_series hterm front premises (.arrow :: back) hpremises trivial
      have hread := hterm back conclusion [] hconclusion trivial
      rw [List.append_nil] at hread
      exact (hlist.phrase.andThen ((reads_arrow stop back).map _)).afterOptional (hread.map _)

end Rules

end Reader

end Sequitur.Notation
