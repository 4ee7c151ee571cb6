import Sequitur.Notation.Display.Grammar
import Sequitur.Proofs.Notation.Legible

/-!
# The grammar of the display notation

`IsTerm` and `IsOperand` give the grammar of terms over tokens. The readers of the display
notation track it and are complete for it, so a line is read as a term, or as a rule, exactly
when its tokens are one in this grammar.
-/

namespace Sequitur.Notation.Display

open Reader

mutual

/-- A term is an operand, or two operands with an operator between them. -/
inductive IsTerm : List Token → Term → Prop where
  | operand {read term} : IsOperand read term → IsTerm read term
  | binary {front left operator back right} : IsOperand front left → IsOperand back right →
      IsTerm (front ++ .operator operator :: back) (.binary operator left right)

/-- An operand has an operator before an operand, or is an atom with suffixes. -/
inductive IsOperand : List Token → Term → Prop where
  | unary {operator read operand} : IsOperand read operand →
      IsOperand (.operator operator :: read) (.unary operator operand)
  | suffixed {read term} : Suffixed IsTerm IsTerm read term → IsOperand read term

end

/-- What both kinds of phrase pass on from their parts holds of every term. -/
theorem IsTerm.induction {p o : List Token → Term → Prop}
    (operand : ∀ {read term}, o read term → p read term)
    (binary : ∀ {front left operator back right}, o front left → o back right →
      p (front ++ .operator operator :: back) (.binary operator left right))
    (unary : ∀ {operator read operand}, o read operand →
      o (.operator operator :: read) (.unary operator operand))
    (suffixed : ∀ {read term}, Suffixed p p read term → o read term)
    {read : List Token} {term : Term} (h : IsTerm read term) : p read term :=
  @IsTerm.rec (fun read term _ => p read term) (fun read term _ => o read term)
    (fun read term _ => Suffixed p p read term) (fun read terms _ => Listing p read terms)
    (fun _ h => operand h) (fun _ _ hleft hright => binary hleft hright) (fun _ h => unary h)
    (fun _ h => suffixed h) .symbol (fun _ h => .group h) (fun _ _ h hs => .subscript h hs)
    (fun _ _ h hs => .application h hs) (fun _ h => .one h) (fun _ _ h hs => .more h hs)
    read term h

theorem IsTerm.legible {read : List Token} {term : Term} (h : IsTerm read term) :
    LegibleIfCut read term :=
  h.induction id .binary .unary Suffixed.legible

theorem IsTerm.hasSymbol {read : List Token} {term : Term} (h : IsTerm read term) :
    HasSymbol read :=
  IsTerm.induction (p := fun read _ => HasSymbol read) (o := fun read _ => HasSymbol read)
    id (fun hleft _ => hleft.append_left _) (fun h => h.cons _) Suffixed.hasSymbol h

/-! ### The readers -/

section Readers

variable (stop : Nat)

theorem tracks_infixTerm {operand : Reader Term n} (hoperand : Tracks stop operand IsOperand) :
    Tracks stop (infixTerm stop operand) IsTerm := by
  refine (hoperand.withTail fun left =>
    (tracks_operator stop).andThen fun text => hoperand.map _).phrase.mono ?_
  rintro read term (hterm |
    ⟨front, left, _, rfl, hleft, _, text, back, rfl, rfl, right, hright, rfl⟩)
  · exact .operand hterm
  · exact .binary hleft hright

theorem complete_infixTerm {operand : Reader Term n}
    (hoperand : Complete operand IsOperand EndsOperand) :
    Complete (infixTerm stop operand) IsTerm EndsTerm := by
  intro read term rest h hrest
  cases h with
  | operand hterm =>
      have hread := hoperand read term rest hterm hrest.endsOperand
      refine (hread.withoutTail ?_).phrase
      exact (fails_operator stop hrest.head?_ne_operator).andThen
  | @binary front left text back right hleft hright =>
      have hreadLeft := hoperand front left (.operator text :: back ++ rest) hleft trivial
      have hreadRight := hoperand back right rest hright hrest.endsOperand
      rw [← List.append_assoc] at hreadLeft
      exact (hreadLeft.withTail ((reads_operator stop text _).andThen (hreadRight.map _))).phrase

theorem tracks_operandStep (n : Nat) (operand : Reader Term n)
    (hoperand : Tracks stop operand IsOperand) :
    Tracks stop (operandStep stop n operand) IsOperand := by
  have hterm := tracks_infixTerm stop hoperand
  refine Tracks.phrase (Tracks.orElse ?_ ?_)
  · refine ((tracks_operator stop).andThen fun text => hoperand.map _).phrase.mono ?_
    rintro read _ ⟨_, text, back, rfl, rfl, inner, hinner, rfl⟩
    exact .unary hinner
  · exact (tracks_suffixed stop _ _ _ hterm hterm).phrase.mono fun _ _ h => .suffixed h

theorem complete_operandStep (n : Nat) (operand : Reader Term n)
    (hoperand : Complete operand IsOperand EndsOperand) :
    Complete (operandStep stop n operand) IsOperand EndsOperand := by
  have hterm := complete_infixTerm stop hoperand
  intro read term rest h hrest
  cases h with
  | @unary text read inner hinner =>
      have hread := hoperand read inner rest hinner hrest
      exact ((reads_operator stop text _).andThen (hread.map _)).phrase.orElse.phrase
  | suffixed hterms =>
      refine (Fails.orElse_reads ?_ ?_).phrase
      · exact (fails_operator stop (hterms.head?_ne_operator rest)).andThen.phrase
      · exact (complete_suffixed stop _ _ _ hterm hterm read term rest hterms hrest).phrase

theorem tracks_term : Tracks stop (term stop : Reader Term n) IsTerm := by
  have hbegins : Begins IsOperand [] :=
    begins_suffixed.mono fun _ term hread => ⟨term, .suffixed hread⟩
  exact tracks_infixTerm stop (tracks_recursive hbegins (tracks_operandStep stop))

theorem complete_term : Complete (term stop : Reader Term n) IsTerm EndsTerm :=
  complete_infixTerm stop (complete_recursive (complete_operandStep stop))

end Readers

/-- A line is read as a term exactly when its tokens are that term. -/
theorem termOfLine_eq_ok_iff (line : List Char) (term : Term) :
    termOfLine line = .ok term ↔ IsTerm (tokens line) term :=
  wholeLine_eq_ok_iff (fun _ stop => (tracks_term stop).sound)
    (fun _ stop => complete_term stop) trivial line term

/-- A line is read as a rule exactly when its tokens are that rule. -/
theorem ruleOfLine_eq_ok_iff (line : List Char) (rule : Rule) :
    ruleOfLine line = .ok rule ↔ IsRule IsTerm (tokens line) rule :=
  wholeLine_eq_ok_iff (fun _ stop => (tracks_rule stop _ (tracks_term stop)).sound)
    (fun _ stop => complete_rule stop _ (complete_term stop)) rfl line rule

theorem legible_of_termOfLine {line : List Char} {term : Term} (h : termOfLine line = .ok term) :
    term.Legible :=
  ((termOfLine_eq_ok_iff line term).mp h).legible fun _ => isCut_of_mem_tokens

theorem legible_of_ruleOfLine {line : List Char} {rule : Rule} (h : ruleOfLine line = .ok rule) :
    rule.Legible :=
  ((ruleOfLine_eq_ok_iff line rule).mp h).legible fun _ _ => IsTerm.legible

end Sequitur.Notation.Display
