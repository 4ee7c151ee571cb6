import Sequitur.Notation.Conversion
import Sequitur.Proofs.Notation.Canonical.RoundTrip
import Sequitur.Proofs.Notation.Display.RoundTrip

/-!
# From one notation to the other and back

The canonical text of a writable rule is turned into the display text of the same rule
without grouping nodes, and both texts are read as that rule. Whatever text is turned, what
comes out is the display text of a rule that can be read.

So a rule has one canonical and one display text, and no two rules that can be read share
either: display texts that are spelled in different ways are turned into the same text
exactly when they are read as the same rule.
-/

namespace Sequitur.Notation

theorem displayOfCanonical_printRule {rule : Rule} (h : rule.Writable) :
    displayOfCanonical (Canonical.printRule rule) = .ok (Display.printRule rule.normalized) := by
  rw [displayOfCanonical, Canonical.readRule_printRule h]
  rfl

/-- Nothing is taken out of a legible rule on the way. -/
theorem displayOfCanonical_printRule_of_legible {rule : Rule} (h : rule.Legible) :
    displayOfCanonical (Canonical.printRule rule) = .ok (Display.printRule rule) := by
  rw [displayOfCanonical_printRule h.writable, h.normalized_eq]

/-- Every display text that comes from a canonical text is that of a legible rule. -/
theorem exists_legible_of_displayOfCanonical {text display : String}
    (h : displayOfCanonical text = .ok display) :
    ∃ rule : Rule, rule.Legible ∧ Display.printRule rule = display := by
  unfold displayOfCanonical at h
  cases hread : Canonical.readRule text with
  | error error => simp [hread, Except.map] at h
  | ok rule =>
      simp only [hread, Except.map, Except.ok.injEq] at h
      exact ⟨rule, Canonical.legible_of_readRule hread, h⟩

/-! ### One text for each rule -/

/-- A function that tells the results of two attempts apart makes no difference to whether the
attempts end alike. -/
theorem map_eq_map_iff_of_inj {f : α → β} {attempt other : Except ε α}
    (hinj : ∀ a b, attempt = .ok a → other = .ok b → f a = f b → a = b) :
    attempt.map f = other.map f ↔ attempt = other := by
  constructor
  · intro h
    cases attempt with
    | error fault =>
        cases other with
        | error fault' => exact congrArg Except.error (Except.error.inj h)
        | ok b => simp [Except.map] at h
    | ok a =>
        cases other with
        | error fault => simp [Except.map] at h
        | ok b => exact congrArg Except.ok (hinj a b rfl rfl (Except.ok.inj h))
  · rintro rfl
    rfl

/-- Turning a display text into the canonical notation and back is reading and printing it. -/
theorem canonicalOfDisplay_bind_displayOfCanonical (text : String) :
    (canonicalOfDisplay text >>= displayOfCanonical) =
      (Display.readRule text).map Display.printRule := by
  unfold canonicalOfDisplay
  cases hread : Display.readRule text with
  | error error => rfl
  | ok rule => exact displayOfCanonical_printRule_of_legible (Display.legible_of_readRule hread)

/-- Two display texts have the same canonical text exactly when they are read as the same rule,
and exactly then these canonical texts are turned back into the same display text. That text
is there for every text that is read; it is the one that the rule is printed as, and both it
and the canonical text are read as the rule again. -/
theorem canonicalOfDisplay_eq_iff_readRule_eq (first second : String) :
    (canonicalOfDisplay first = canonicalOfDisplay second ↔
      Display.readRule first = Display.readRule second) ∧
    (Display.readRule first = Display.readRule second ↔
      (canonicalOfDisplay first >>= displayOfCanonical) =
        (canonicalOfDisplay second >>= displayOfCanonical)) ∧
    ∀ rule, Display.readRule first = .ok rule → ∃ canonical,
      canonicalOfDisplay first = .ok canonical ∧
      displayOfCanonical canonical = .ok (Display.printRule rule) ∧
      Display.readRule (Display.printRule rule) = .ok rule ∧
      Canonical.readRule canonical = .ok rule := by
  refine ⟨?_, ?_, ?_⟩
  · apply map_eq_map_iff_of_inj
    intro rule other hfirst hsecond
    exact Canonical.printRule_injOn (Display.legible_of_readRule hfirst)
      (Display.legible_of_readRule hsecond)
  · rw [canonicalOfDisplay_bind_displayOfCanonical, canonicalOfDisplay_bind_displayOfCanonical]
    symm
    apply map_eq_map_iff_of_inj
    intro rule other hfirst hsecond
    exact Display.printRule_injOn (Display.legible_of_readRule hfirst)
      (Display.legible_of_readRule hsecond)
  · intro rule hread
    have hlegible := Display.legible_of_readRule hread
    have hdisplay := Display.readRule_printRule hlegible.writable
    have hcanonical := Canonical.readRule_printRule hlegible.writable
    rw [hlegible.normalized_eq] at hdisplay hcanonical
    refine ⟨Canonical.printRule rule, ?_, ?_, hdisplay, hcanonical⟩
    · rw [canonicalOfDisplay, hread]
      rfl
    · exact displayOfCanonical_printRule_of_legible hlegible

/-- The one-line form of a rule and its layout in lines, with other blanks and groups. -/
theorem canonicalOfDisplay_eq_of_spellings :
    let first := "(p)  ∧ q ,--(r) -> s"
    let second := "p ∧ (q)\n -- r\n--\n\ts"
    let rule : Rule := ⟨[.binary "∧" (.symbol "p") (.symbol "q"), .unary "--" (.symbol "r")],
      .symbol "s"⟩
    Display.readRule first = .ok rule ∧ canonicalOfDisplay first = canonicalOfDisplay second ∧
    ∃ canonical, canonicalOfDisplay first = .ok canonical ∧
      displayOfCanonical canonical = .ok (Display.printRule rule) ∧
      Display.readRule (Display.printRule rule) = .ok rule ∧
      Canonical.readRule canonical = .ok rule := by
  intro first second rule
  have hfirst : Display.readRule first = .ok rule := by decide +kernel
  have hsecond : Display.readRule second = .ok rule := by decide +kernel
  obtain ⟨hsame, -, htexts⟩ := canonicalOfDisplay_eq_iff_readRule_eq first second
  exact ⟨hfirst, hsame.mpr (hfirst.trans hsecond.symm), htexts rule hfirst⟩

end Sequitur.Notation
