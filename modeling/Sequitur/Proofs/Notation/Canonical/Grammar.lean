import Sequitur.Notation.Canonical.Grammar
import Sequitur.Proofs.Notation.Legible

/-!
# The grammar of the canonical notation

Operators stand in parentheses only. As in the display notation the readers track the grammar
and are complete for it, so a line is read as a rule exactly when its tokens are one in it.
-/

namespace Sequitur.Notation.Canonical

open Reader

mutual

/-- A term is an atom with suffixes. -/
inductive IsTerm : List Token → Term → Prop where
  | suffixed {read term} : Suffixed IsBody IsTerm read term → IsTerm read term

/-- In parentheses stand an operator and a term, a term, or two terms with an operator
between them. -/
inductive IsBody : List Token → Term → Prop where
  | unary {operator read operand} : IsTerm read operand →
      IsBody (.operator operator :: read) (.unary operator operand)
  | term {read term} : IsTerm read term → IsBody read term
  | binary {front left operator back right} : IsTerm front left → IsTerm back right →
      IsBody (front ++ .operator operator :: back) (.binary operator left right)

end

theorem IsTerm.head?_ne_operator {read : List Token} {term : Term} (h : IsTerm read term)
    (rest : List Token) (text : String) : (read ++ rest).head? ≠ some (.operator text) := by
  cases h with
  | suffixed h => exact h.head?_ne_operator rest text

/-- What both kinds of phrase pass on from their parts holds of every term. -/
theorem IsTerm.induction {p b : List Token → Term → Prop}
    (suffixed : ∀ {read term}, Suffixed b p read term → p read term)
    (unary : ∀ {operator read operand}, p read operand →
      b (.operator operator :: read) (.unary operator operand))
    (term : ∀ {read term}, p read term → b read term)
    (binary : ∀ {front left operator back right}, p front left → p back right →
      b (front ++ .operator operator :: back) (.binary operator left right))
    {read : List Token} {value : Term} (h : IsTerm read value) : p read value :=
  @IsTerm.rec (fun read term _ => p read term) (fun read term _ => b read term)
    (fun read term _ => Suffixed b p read term) (fun read terms _ => Listing p read terms)
    (fun _ h => suffixed h) (fun _ h => unary h) (fun _ h => term h)
    (fun _ _ hleft hright => binary hleft hright) .symbol (fun _ h => .group h)
    (fun _ _ h hs => .subscript h hs) (fun _ _ h hs => .application h hs) (fun _ h => .one h)
    (fun _ _ h hs => .more h hs) read value h

theorem IsTerm.legible {read : List Token} {term : Term} (h : IsTerm read term) :
    LegibleIfCut read term :=
  h.induction Suffixed.legible .unary id .binary

/-! ### The readers -/

section Readers

variable (stop : Nat)

theorem tracks_groupBody {term : Reader Term n} (hterm : Tracks stop term IsTerm) :
    Tracks stop (groupBody stop term) IsBody := by
  refine Tracks.orElse
    (((tracks_operator stop).andThen fun text => hterm.map _).phrase.mono ?_)
    ((hterm.withTail fun left =>
      (tracks_operator stop).andThen fun text => hterm.map _).phrase.mono ?_)
  · rintro read _ ⟨_, text, back, rfl, rfl, inner, hinner, rfl⟩
    exact .unary hinner
  · rintro read term (hread |
      ⟨front, left, _, rfl, hleft, _, text, back, rfl, rfl, right, hright, rfl⟩)
    · exact .term hread
    · exact .binary hleft hright

theorem complete_groupBody {term : Reader Term n} (hterm : Complete term IsTerm EndsOperand) :
    Complete (groupBody stop term) IsBody EndsTerm := by
  intro read value rest h hrest
  cases h with
  | @unary text read inner hinner =>
      have hread := hterm read inner rest hinner hrest.endsOperand
      exact ((reads_operator stop text _).andThen (hread.map _)).phrase.orElse
  | term hread =>
      apply Fails.orElse_reads
      · exact (fails_operator stop (hread.head?_ne_operator rest)).andThen.phrase
      · refine ((hterm read value rest hread hrest.endsOperand).withoutTail ?_).phrase
        exact (fails_operator stop hrest.head?_ne_operator).andThen
  | @binary front left text back right hleft hright =>
      have hreadLeft := hterm front left (.operator text :: back ++ rest) hleft trivial
      have hreadRight := hterm back right rest hright hrest.endsOperand
      rw [← List.append_assoc] at hreadLeft
      refine Fails.orElse_reads ?_
        (hreadLeft.withTail ((reads_operator stop text _).andThen (hreadRight.map _))).phrase
      rw [List.append_assoc]
      exact (fails_operator stop (hleft.head?_ne_operator _)).andThen.phrase

theorem tracks_termStep (n : Nat) (term : Reader Term n) (hterm : Tracks stop term IsTerm) :
    Tracks stop (termStep stop n term) IsTerm :=
  (tracks_suffixed stop _ _ _ (tracks_groupBody stop hterm) hterm).phrase.mono
    fun _ _ h => .suffixed h

theorem complete_termStep (n : Nat) (term : Reader Term n)
    (hterm : Complete term IsTerm EndsOperand) :
    Complete (termStep stop n term) IsTerm EndsOperand := by
  intro read value rest h hrest
  cases h with
  | suffixed hterms =>
      have hitem := hterm.mono fun rest (hrest : EndsTerm rest) => hrest.endsOperand
      exact (complete_suffixed stop _ _ _ (complete_groupBody stop hterm) hitem read value rest
        hterms hrest).phrase

theorem tracks_term : Tracks stop (term stop : Reader Term n) IsTerm := by
  have hbegins : Begins IsTerm [] :=
    begins_suffixed.mono fun _ term hread => ⟨term, .suffixed hread⟩
  exact tracks_recursive hbegins (tracks_termStep stop)

theorem complete_term : Complete (term stop : Reader Term n) IsTerm EndsTerm :=
  (complete_recursive (complete_termStep stop)).mono fun _ hrest => hrest.endsOperand

end Readers

/-- A line is read as a rule exactly when its tokens are that rule. -/
theorem ruleOfLine_eq_ok_iff (line : List Char) (rule : Rule) :
    ruleOfLine line = .ok rule ↔ IsRule IsTerm (tokens line) rule :=
  wholeLine_eq_ok_iff (fun _ stop => (tracks_rule stop _ (tracks_term stop)).sound)
    (fun _ stop => complete_rule stop _ (complete_term stop)) rfl line rule

theorem legible_of_ruleOfLine {line : List Char} {rule : Rule} (h : ruleOfLine line = .ok rule) :
    rule.Legible :=
  ((ruleOfLine_eq_ok_iff line rule).mp h).legible fun _ _ => IsTerm.legible

end Sequitur.Notation.Canonical
