import Sequitur.Proofs.Engine.Calls
import Sequitur.Proofs.Notation.Conversion
import Sequitur.Proofs.Session.Runs

/-!
# Sessions in step with their engines

A session with the forward engine has two stores, the lines it shows and the rules of its
engine, and fills them on different ways. They stay in step: the lines are the display texts
of the rules, in the same order. This rests on the rules being legible, for then their texts
can be read, turned from one notation into the other, and told apart.
-/

namespace Sequitur

open Notation

theorem Discharged.legible {known : Set Rule} (h : ∀ rule ∈ known, rule.Legible) {rule : Rule}
    (hrule : Discharged known rule) : rule.Legible := by
  cases hrule with
  | @intro front premise back conclusion hparent hfact =>
      intro term hterm
      apply h _ hparent term
      simp only [Rule.terms, List.mem_append, List.mem_cons] at hterm ⊢
      tauto

namespace Session

/-- The lines of the session are the texts of the rules of its engine, which are kept once
each, can be read, and are within the limit of the session. -/
structure InStep (session : Session Forward) : Prop where
  limit_pos : 0 < session.limit
  sizeLimit_eq : session.engine.sizeLimit = session.limit
  bufferLimit_eq : session.engine.bufferLimit = session.limit
  lines_eq : session.lines = session.engine.rules.map Display.printRule
  nodup : session.engine.rules.Nodup
  legible : ∀ rule ∈ session.engine.rules, rule.Legible
  size_le : ∀ rule ∈ session.engine.rules, rule.size ≤ session.limit

/-- The session with more rules, and their texts as lines. -/
def learn (session : Session Forward) (rules : List Rule) : Session Forward :=
  { session with
    engine := session.engine.keep rules
    lines := session.lines ++ rules.map Display.printRule }

theorem InStep.create (id : Uuid) {limit : Nat} (hlimit : 0 < limit) :
    InStep (.create Forward.kind id limit) where
  limit_pos := hlimit
  sizeLimit_eq := rfl
  bufferLimit_eq := rfl
  lines_eq := rfl
  nodup := List.nodup_nil
  legible := by simp [Session.create, Forward.kind, Forward.create]
  size_le := by simp [Session.create, Forward.kind, Forward.create]

variable {session : Session Forward}

theorem InStep.learn (h : session.InStep) {rules : List Rule}
    (hnodup : (session.engine.rules ++ rules).Nodup) (hlegible : ∀ rule ∈ rules, rule.Legible)
    (hsize : ∀ rule ∈ rules, rule.size ≤ session.limit) : (session.learn rules).InStep where
  limit_pos := h.limit_pos
  sizeLimit_eq := h.sizeLimit_eq
  bufferLimit_eq := h.bufferLimit_eq
  lines_eq := by
    change session.lines ++ _ = (session.engine.rules ++ rules).map Display.printRule
    rw [List.map_append, h.lines_eq]
  nodup := hnodup
  legible := List.forall_mem_append.mpr ⟨h.legible, hlegible⟩
  size_le := List.forall_mem_append.mpr ⟨h.size_le, hsize⟩

/-- The text of a rule is among the lines exactly when the engine keeps the rule. -/
theorem InStep.printRule_mem_lines_iff (h : session.InStep) {rule : Rule} (hrule : rule.Legible) :
    Display.printRule rule ∈ session.lines ↔ rule ∈ session.engine.rules := by
  rw [h.lines_eq, List.mem_map]
  constructor
  · rintro ⟨kept, hkept, htext⟩
    rw [← Display.printRule_injOn (h.legible kept hkept) hrule htext]
    exact hkept
  · intro hkept
    exact ⟨rule, hkept, rfl⟩

/-! ### Offered lines -/

theorem offer_of_error (kind : EngineKind σ) {session : Session σ} {line : String}
    {error : ParseError} (hread : Display.readRule line = .error error) :
    session.offer kind line = (.ok none, session) := by
  rw [offer, hread]

/-- What the engine accepts becomes the last rule and the last line. -/
theorem InStep.offer_of_accepts (h : session.InStep) {line : String} {rule : Rule}
    (hread : Display.readRule line = .ok rule) (haccepts : session.engine.Accepts rule) :
    session.offer Forward.kind line =
      (.ok (some (Display.printRule rule)), session.learn [rule]) := by
  have hlegible := Display.legible_of_readRule hread
  have hadd : Forward.kind.add session.engine rule = (.ok true, session.engine.keep [rule]) := by
    simp only [Forward.kind, Forward.add_of_accepts haccepts, hlegible.normalized_eq]
  have hnew : Display.printRule rule ∉ session.lines := by
    rw [h.printRule_mem_lines_iff hlegible, ← hlegible.normalized_eq]
    exact haccepts.2
  rw [offer, hread]
  simp only [hadd, displayOfCanonical_printRule_of_legible hlegible]
  simp [knows, insertLine, hnew, Session.learn]

theorem offer_of_not_accepts {line : String} {rule : Rule}
    (hread : Display.readRule line = .ok rule) (hrefused : ¬session.engine.Accepts rule) :
    session.offer Forward.kind line = (.ok none, session) := by
  rw [offer, hread]
  simp only [Forward.kind, Forward.add_of_not_accepts hrefused]

theorem InStep.offer (h : session.InStep) (line : String) :
    (session.offer Forward.kind line).2.InStep := by
  cases hread : Display.readRule line with
  | error error =>
      rw [offer_of_error Forward.kind hread]
      exact h
  | ok rule =>
      have hlegible := Display.legible_of_readRule hread
      by_cases haccepts : session.engine.Accepts rule
      · have hnodup := Forward.nodup_append_normalized h.nodup haccepts
        have hsize := haccepts.1
        rw [hlegible.normalized_eq] at hnodup
        rw [h.sizeLimit_eq] at hsize
        rw [h.offer_of_accepts hread haccepts]
        exact h.learn hnodup (by simpa using hlegible) (by simpa using hsize)
      · rw [offer_of_not_accepts hread haccepts]
        exact h

/-! ### Passes -/

/-- Candidates that are the canonical texts of new legible rules become lines, one for each
and in the same order. -/
theorem commit_map_printRule {session : Session σ} {rules : List Rule} (hnodup : rules.Nodup)
    (hlegible : ∀ rule ∈ rules, rule.Legible)
    (hnew : ∀ rule ∈ rules, Display.printRule rule ∉ session.lines) :
    session.commit (rules.map Canonical.printRule) = (rules.map Display.printRule,
      { session with lines := session.lines ++ rules.map Display.printRule }) := by
  induction rules generalizing session with
  | nil => simp [commit]
  | cons rule rules ih =>
      rw [List.nodup_cons] at hnodup
      rw [List.forall_mem_cons] at hlegible hnew
      have hinsert : session.insertLine (Display.printRule rule) =
          { session with lines := session.lines ++ [Display.printRule rule] } := by
        simp [insertLine, knows, hnew.1]
      -- The line that comes in now is none of the later ones: legible rules differ in their texts.
      have hlater : ∀ other ∈ rules, Display.printRule other ∉
          (session.insertLine (Display.printRule rule)).lines := by
        intro other hother hmem
        rw [hinsert, List.mem_append, List.mem_singleton] at hmem
        rcases hmem with hmem | htext
        · exact hnew.2 other hother hmem
        · have hsame := Display.printRule_injOn (hlegible.2 other hother) hlegible.1 htext
          exact hnodup.1 (hsame ▸ hother)
      rw [List.map_cons, commit, displayOfCanonical_printRule_of_legible hlegible.1]
      simp only [ih hnodup.2 hlegible.2 hlater]
      simp [hinsert, knows, hnew.1]

theorem InStep.legible_of_mem_derivable (h : session.InStep) :
    ∀ rule ∈ session.engine.derivable, rule.Legible := by
  intro rule hrule
  exact (Forward.of_mem_derivable hrule).1.legible h.legible

/-- A pass adds what the engine derives to the rules and to the lines. -/
theorem InStep.search_eq (h : session.InStep) : session.search Forward.kind =
    (.ok (session.engine.derivable.map Display.printRule),
      session.learn session.engine.derivable) := by
  have hlegible := h.legible_of_mem_derivable
  have hnew : ∀ rule ∈ session.engine.derivable, Display.printRule rule ∉ session.lines := by
    intro rule hrule
    rw [h.printRule_mem_lines_iff (hlegible rule hrule)]
    exact (Forward.of_mem_derivable hrule).2.2
  have hcommit := @commit_map_printRule _
    { session with engine := session.engine.keep session.engine.derivable } _
    session.engine.nodup_derivable hlegible hnew
  simp only [search, Forward.kind, Forward.execute_eq, hcommit]
  rfl

theorem InStep.search (h : session.InStep) : (session.search Forward.kind).2.InStep := by
  rw [h.search_eq]
  apply h.learn (Forward.nodup_append_derivable h.nodup) h.legible_of_mem_derivable
  intro rule hrule
  exact (Forward.of_mem_derivable hrule).1.size_le h.size_le

/-! ### Runs -/

theorem inStep_invariant : Session.Invariant Forward.kind InStep where
  create id _ hlimit := .create id hlimit
  offer _ line h := h.offer line
  search _ h := h.search

end Session

namespace SessionTable

theorem everywhere_inStep_run (operations : List Operation) :
    (SessionTable.empty.run Forward.kind operations).2.Everywhere Session.InStep :=
  Everywhere.empty.run Session.inStep_invariant operations

/-- After every run the lines of a session are the texts of the rules of its engine, one for
one and in order, and these rules are distinct, normalized, writable and within the limit. -/
theorem lines_eq_map_printRule_of_mem_run (operations : List Operation)
    (session : Session Forward)
    (hsession : session ∈ (SessionTable.empty.run Forward.kind operations).2.sessions) :
    session.lines = session.engine.rules.map Display.printRule ∧
    session.size = session.engine.size ∧ session.engine.rules.Nodup ∧
    ∀ rule ∈ session.engine.rules,
      rule.normalized = rule ∧ rule.Writable ∧ rule.size ≤ session.limit := by
  have h := everywhere_inStep_run operations session hsession
  refine ⟨h.lines_eq, ?_, h.nodup, ?_⟩
  · rw [Session.size, h.lines_eq, List.length_map, Forward.size]
  · intro rule hrule
    exact ⟨(h.legible rule hrule).normalized_eq, (h.legible rule hrule).writable,
      h.size_le rule hrule⟩

/-- A line that repeats a known rule in other words is no line of its own, and what a pass
derives is one. -/
theorem lines_eq_map_printRule_of_inference :
    let operations : List Operation :=
      [.create .zero 8, .addLines .zero ["a", "a -> b", "(a)"], .search .zero]
    let session : Session Forward :=
      { id := .zero
        limit := 8
        engine := ⟨8, 8, [⟨[], .symbol "a"⟩, ⟨[.symbol "a"], .symbol "b"⟩, ⟨[], .symbol "b"⟩]⟩
        lines := ["a", "a\n----\nb", "b"] }
    session ∈ (SessionTable.empty.run Forward.kind operations).2.sessions ∧
    session.lines = session.engine.rules.map Display.printRule ∧
    session.size = session.engine.size ∧ session.engine.rules.Nodup ∧
    ∀ rule ∈ session.engine.rules,
      rule.normalized = rule ∧ rule.Writable ∧ rule.size ≤ session.limit := by
  intro operations session
  have hsession : session ∈ (SessionTable.empty.run Forward.kind operations).2.sessions := by
    decide +kernel
  exact ⟨hsession, lines_eq_map_printRule_of_mem_run operations session hsession⟩

end SessionTable

end Sequitur
