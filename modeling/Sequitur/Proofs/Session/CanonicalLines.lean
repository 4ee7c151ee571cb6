import Mathlib.Data.List.Nodup
import Sequitur.Engine.Scripted
import Sequitur.Proofs.Notation.Conversion
import Sequitur.Proofs.Session.Runs

/-!
# Lines whatever the engine does

An engine may accept a rule twice, and it may report texts that are no rules or that are known
already. A session compares lines only as texts. Its lines are nevertheless the display texts
of distinct rules, because every line comes out of the printer, and the printer has one text
for each rule that can be read. And what was read as a rule is never refused on the way to its
display text.
-/

namespace Sequitur

open Notation

namespace Session

/-- The lines of the session are the texts of rules that can be read, which are there once
each. -/
def ShowsRules (session : Session σ) : Prop :=
  ∃ rules : List Rule, session.lines = rules.map Display.printRule ∧ rules.Nodup ∧
    ∀ rule ∈ rules, rule.Legible

variable {session : Session σ} {kind : EngineKind σ}

/-! ### What a session in this state shows -/

theorem ShowsRules.exists_rule (h : session.ShowsRules) {line : String}
    (hline : line ∈ session.lines) : ∃ rule, Display.readRule line = .ok rule ∧
      rule.normalized = rule ∧ Display.printRule rule = line := by
  obtain ⟨rules, hlines, -, hlegible⟩ := h
  rw [hlines, List.mem_map] at hline
  obtain ⟨rule, hrule, rfl⟩ := hline
  have hread := Display.readRule_printRule (hlegible rule hrule).writable
  rw [(hlegible rule hrule).normalized_eq] at hread
  exact ⟨rule, hread, (hlegible rule hrule).normalized_eq, rfl⟩

/-- No two lines are read as the same rule. -/
theorem ShowsRules.pairwise_readRule_ne (h : session.ShowsRules) :
    session.lines.Pairwise fun line other => Display.readRule line ≠ Display.readRule other := by
  obtain ⟨rules, hlines, hnodup, hlegible⟩ := h
  rw [hlines, List.pairwise_map]
  apply hnodup.imp_of_mem
  intro rule other hrule hother hne hread
  rw [Display.readRule_printRule (hlegible rule hrule).writable,
    Display.readRule_printRule (hlegible other hother).writable,
    (hlegible rule hrule).normalized_eq, (hlegible other hother).normalized_eq] at hread
  exact hne (Except.ok.inj hread)

/-! ### What keeps a session in this state -/

theorem ShowsRules.insertLine (h : session.ShowsRules) {rule : Rule} (hrule : rule.Legible) :
    (session.insertLine (Display.printRule rule)).ShowsRules := by
  unfold Session.insertLine
  split
  · exact h
  · rename_i hnew
    obtain ⟨rules, hlines, hnodup, hlegible⟩ := h
    have hfresh : rule ∉ rules := by
      intro hmem
      apply hnew
      rw [knows, List.contains_iff_mem, hlines]
      exact List.mem_map_of_mem hmem
    refine ⟨rules ++ [rule], ?_, ?_, ?_⟩
    · rw [hlines, List.map_append, List.map_singleton]
    · exact hnodup.append (List.nodup_singleton rule) (by simpa using hfresh)
    · rw [List.forall_mem_append, List.forall_mem_singleton]
      exact ⟨hlegible, hrule⟩

theorem ShowsRules.commit (h : session.ShowsRules) (candidates : List String) :
    (session.commit candidates).2.ShowsRules := by
  induction candidates generalizing session with
  | nil => exact h
  | cons candidate candidates ih =>
      rw [Session.commit]
      split
      · exact ih h
      · rename_i display hdisplay
        obtain ⟨rule, hrule, rfl⟩ := exists_legible_of_displayOfCanonical hdisplay
        exact ih (h.insertLine hrule)

/-- What is read from a line has a display text, so offering a line fails with the engine
only. -/
theorem offer_cases (kind : EngineKind σ) (session : Session σ) (line : String) :
    session.offer kind line = (.ok none, session) ∨
    ∃ rule engine, Display.readRule line = .ok rule ∧
      ((∃ error, session.offer kind line = (.error (.engine error), { session with engine })) ∨
        session.offer kind line = (.ok none, { session with engine }) ∨
        ∃ found, session.offer kind line =
          (.ok found, { session with engine }.insertLine (Display.printRule rule))) := by
  unfold offer
  cases hread : Display.readRule line with
  | error error => exact .inl rfl
  | ok rule =>
      have hdisplay := displayOfCanonical_printRule_of_legible (Display.legible_of_readRule hread)
      rcases hadd : kind.add session.engine rule with ⟨error | accepted, engine⟩
      · exact .inr ⟨rule, engine, rfl, .inl ⟨error, by simp only [hadd]⟩⟩
      · cases accepted with
        | false => exact .inr ⟨rule, engine, rfl, .inr (.inl (by simp only [hadd]))⟩
        | true =>
            exact .inr ⟨rule, engine, rfl, .inr (.inr ⟨_, by simp only [hadd, hdisplay]; rfl⟩)⟩

theorem ShowsRules.offer (h : session.ShowsRules) (line : String) :
    (session.offer kind line).2.ShowsRules := by
  rcases session.offer_cases kind line with
    heq | ⟨rule, engine, hread, ⟨error, heq⟩ | heq | ⟨found, heq⟩⟩
  · rw [heq]
    exact h
  · rw [heq]
    exact h
  · rw [heq]
    exact h
  · have hsame : ({ session with engine } : Session σ).ShowsRules := h
    rw [heq]
    exact hsame.insertLine (Display.legible_of_readRule hread)

theorem ShowsRules.search (h : session.ShowsRules) : (session.search kind).2.ShowsRules := by
  have hsame : ({ session with engine := (kind.execute session.engine).2 } :
    Session σ).ShowsRules := h
  rw [Session.search]
  dsimp only
  split
  · exact hsame
  · exact hsame.commit _

theorem showsRules_invariant (kind : EngineKind σ) : Session.Invariant kind ShowsRules where
  create _ _ _ := ⟨[], rfl, List.nodup_nil, by simp⟩
  offer _ line h := h.offer line
  search _ h := h.search

/-! ### Failures -/

variable {failure : Failure}

theorem exists_engine_of_offer_eq_error {line : String}
    (h : (session.offer kind line).1 = .error failure) : ∃ error, failure = .engine error := by
  rcases session.offer_cases kind line with
    heq | ⟨rule, engine, hread, ⟨error, heq⟩ | heq | ⟨found, heq⟩⟩ <;> rw [heq] at h
  · simp at h
  · exact ⟨error, (Except.error.inj h).symm⟩
  · simp at h
  · simp at h

/-- Adding lines fails with the engine only. -/
theorem exists_engine_of_addLines_eq_error {lines : List String}
    (h : (session.addLines kind lines).1 = .error failure) : ∃ error, failure = .engine error := by
  induction lines generalizing session with
  | nil => simp [Session.addLines] at h
  | cons line lines ih =>
      rw [Session.addLines] at h
      split at h
      · rename_i hoffer
        obtain rfl := Except.error.inj h
        exact exists_engine_of_offer_eq_error (congrArg Prod.fst hoffer)
      · split at h
        · rename_i hothers
          exact ih ((congrArg Prod.fst hothers).trans h)
        · simp at h

theorem exists_engine_of_search_eq_error (h : (session.search kind).1 = .error failure) :
    ∃ error, failure = .engine error := by
  rw [Session.search] at h
  dsimp only at h
  split at h
  · rename_i error _
    exact ⟨error, (Except.error.inj h).symm⟩
  · simp at h

theorem addLines_ne_error_rule (kind : EngineKind σ) (session : Session σ) (lines : List String)
    (error : ParseError) : (session.addLines kind lines).1 ≠ .error (.rule error) := by
  intro h
  obtain ⟨engineError, hengine⟩ := exists_engine_of_addLines_eq_error h
  simp at hengine

end Session

namespace SessionTable

variable {table : SessionTable σ}

theorem addLines_ne_error_rule (kind : EngineKind σ) (table : SessionTable σ) (id : Uuid)
    (lines : List String) (error : ParseError) :
    (table.addLines kind id lines).1 ≠ .error (.rule error) := by
  unfold addLines modify
  split
  · simp [notFound]
  · exact Session.addLines_ne_error_rule kind _ lines error

theorem restore_ne_error_rule (kind : EngineKind σ) (table : SessionTable σ)
    (entry : SnapshotEntry) (error : ParseError) :
    (table.restore kind entry).1 ≠ .error (.rule error) := by
  rcases table.restore_cases kind entry with
    ⟨failure, hrestore, hreason⟩ | ⟨checked, found, session, -, -, -, -, hrestore⟩
  · rw [hrestore]
    rcases hreason with ⟨fault, rfl⟩ | ⟨checked, -, hfilled⟩
    · simp
    · obtain ⟨engineError, rfl⟩ := Session.exists_engine_of_addLines_eq_error hfilled
      simp
  · simp [hrestore]

/-- In every table, whatever the engines answer, each line of a session is the display text of
the normalized rule that it is read as, and no two lines are read as the same rule. Neither
adding lines nor restoring an entry fails for want of a rule. -/
theorem lines_canonical_and_no_rule_failure (h : table.Reachable) :
    (∀ session ∈ table.sessions,
      (∀ line ∈ session.lines, ∃ rule, Display.readRule line = .ok rule ∧
        rule.normalized = rule ∧ Display.printRule rule = line) ∧
      session.lines.Pairwise fun line other =>
        Display.readRule line ≠ Display.readRule other) ∧
    ∀ (kind : EngineKind σ) (error : ParseError),
      (∀ id lines, (table.addLines kind id lines).1 ≠ .error (.rule error)) ∧
      ∀ entry, (table.restore kind entry).1 ≠ .error (.rule error) := by
  constructor
  · intro session hsession
    have hshows : session.ShowsRules :=
      h.everywhere Session.showsRules_invariant session hsession
    exact ⟨fun line hline => hshows.exists_rule hline, hshows.pairwise_readRule_ne⟩
  · intro kind error
    exact ⟨fun id lines => addLines_ne_error_rule kind table id lines error,
      fun entry => restore_ne_error_rule kind table entry error⟩

/-- An engine that accepts every rule, also a second time, and that reports a text that is no
rule, a rule that it was given, and one rule twice. -/
theorem lines_canonical_of_script :
    let script : Script := ⟨.ok true, .ok ["b ->", "(a)", "a -> b", "a -> b"]⟩
    let operations : List Operation :=
      [.create .zero 1, .addLines .zero ["((a))", "a", "a ->"], .search .zero]
    let table := (SessionTable.empty.run script.kind operations).2
    let session : Session Unit := ⟨.zero, 1, (), ["a", "a\n----\nb"]⟩
    table.Reachable ∧ session ∈ table.sessions ∧
    ((∀ line ∈ session.lines, ∃ rule, Display.readRule line = .ok rule ∧
        rule.normalized = rule ∧ Display.printRule rule = line) ∧
      session.lines.Pairwise fun line other =>
        Display.readRule line ≠ Display.readRule other) ∧
    ∀ error, (table.addLines script.kind .zero ["a ->", "b"]).1 ≠ .error (.rule error) := by
  intro script operations table session
  have hreachable : table.Reachable := Reachable.empty.run script.kind operations
  have hsession : session ∈ table.sessions := by decide +kernel
  obtain ⟨hlines, hfailures⟩ := lines_canonical_and_no_rule_failure hreachable
  exact ⟨hreachable, hsession, hlines session hsession,
    fun error => (hfailures script.kind error).1 .zero _⟩

end SessionTable

end Sequitur
