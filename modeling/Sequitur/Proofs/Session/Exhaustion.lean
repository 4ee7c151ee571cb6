import Sequitur.Proofs.Engine.Bounds
import Sequitur.Proofs.Session.Answers

/-!
# Searches that find nothing more

A series of passes ends in one of two ways: a pass finds nothing, or there have been as many as were
asked for. `EndsEmpty` tells of the first way without a number that was asked for, for engines of
any kind: passes that each find something, and behind them one that finds nothing. Whoever asks for
more passes than these gets what they found, and a pass that found nothing was the last.

With the forward engine the passes of a session are those of its engine, and the rules of the engine
bound how many of them find something. So enough passes always end with one that finds nothing.
-/

namespace Sequitur

open Notation

namespace Session

/-- So many passes that each find something, and behind them one that finds nothing; with all that
was found and the session after the last pass. -/
inductive EndsEmpty (kind : EngineKind σ) :
    Session σ → (passes : Nat) → (found : List String) → Session σ → Prop where
  | last {session later : Session σ} : session.search kind = (.ok [], later) →
      EndsEmpty kind session 0 [] later
  | pass {session next later : Session σ} {found others : List String} {passes : Nat} :
      session.search kind = (.ok found, next) → found ≠ [] →
      EndsEmpty kind next passes others later →
      EndsEmpty kind session (passes + 1) (found ++ others) later

/-- Whoever may run more passes than find something runs them all, and the one that finds
nothing. -/
theorem EndsEmpty.derive_eq {kind : EngineKind σ} {session later : Session σ} {passes : Nat}
    {found : List String} (h : EndsEmpty kind session passes found later) {maxPasses : Nat}
    (hpasses : passes < maxPasses) : session.derive kind maxPasses = (.ok found, later) := by
  induction h generalizing maxPasses with
  | last hsearch =>
      obtain ⟨more, rfl⟩ := Nat.exists_eq_add_of_lt hpasses
      rw [derive, hsearch]
  | @pass session next later found others passes hsearch hfound _ ih =>
      obtain ⟨more, rfl⟩ := Nat.exists_eq_add_of_lt hpasses
      obtain ⟨line, lines, rfl⟩ := List.exists_cons_of_ne_nil hfound
      rw [derive, hsearch]
      simp only [ih (show passes < passes + 1 + more by omega)]

/-- How many passes find something, what they find and how they leave the session is told by the
session. -/
theorem EndsEmpty.unique {kind : EngineKind σ} {session later ended : Session σ}
    {passes others : Nat} {found told : List String}
    (h : EndsEmpty kind session passes found later)
    (hother : EndsEmpty kind session others told ended) :
    passes = others ∧ found = told ∧ later = ended := by
  induction h generalizing others told with
  | last hsearch =>
      cases hother with
      | last hsearch' =>
          obtain ⟨-, rfl⟩ := Prod.mk.inj (hsearch.symm.trans hsearch')
          exact ⟨rfl, rfl, rfl⟩
      | pass hsearch' hfound' _ =>
          obtain ⟨hsame, -⟩ := Prod.mk.inj (hsearch.symm.trans hsearch')
          exact absurd (Except.ok.inj hsame).symm hfound'
  | pass hsearch hfound _ ih =>
      cases hother with
      | last hsearch' =>
          obtain ⟨hsame, -⟩ := Prod.mk.inj (hsearch.symm.trans hsearch')
          exact absurd (Except.ok.inj hsame) hfound
      | pass hsearch' _ hrest =>
          obtain ⟨hsame, rfl⟩ := Prod.mk.inj (hsearch.symm.trans hsearch')
          obtain rfl := Except.ok.inj hsame
          obtain ⟨rfl, rfl, rfl⟩ := ih hrest
          exact ⟨rfl, rfl, rfl⟩

variable {session : Session Forward}

/-- The passes of the engine that report something are passes of the session that find something,
and the same with a pass that reports nothing. -/
theorem InStep.endsEmpty (h : session.InStep) {passes : Nat}
    (hbefore : ∀ pass < passes, session.engine.reported pass ≠ [])
    (hlast : session.engine.reported passes = []) :
    EndsEmpty Forward.kind session passes
      ((session.engine.derived passes).map Display.printRule)
      (session.learn (session.engine.derived passes)) := by
  induction passes generalizing session with
  | zero =>
      have hsearch := h.search_eq
      rw [show session.engine.derivable = [] from hlast] at hsearch
      exact .last hsearch
  | succ passes ih =>
      have hsearched := h.search
      rw [h.search_eq] at hsearched
      have hfound : session.engine.derivable.map Display.printRule ≠ [] := by
        rw [ne_eq, List.map_eq_nil_iff]
        exact hbefore 0 (Nat.succ_pos passes)
      have hrest :=
        ih hsearched (fun pass hpass => hbefore (pass + 1) (Nat.succ_lt_succ hpass)) hlast
      rw [Forward.derived_succ_eq_append, List.map_append, ← learn_learn]
      exact .pass h.search_eq hfound hrest

end Session

namespace SessionTable

variable {table : SessionTable σ} {id : Uuid} {session later : Session σ}

/-- A derivation that may run more passes than find something ends with one that finds nothing. -/
theorem derive_of_endsEmpty {kind : EngineKind σ} {passes maxPasses : Nat} {found : List String}
    (hfind : table.find? id = some session)
    (h : Session.EndsEmpty kind session passes found later) (hpasses : passes < maxPasses) :
    table.derive kind id maxPasses = (.ok found, table.replace later) := by
  obtain ⟨more, rfl⟩ := Nat.exists_eq_add_of_lt hpasses
  rw [derive, modify_of_find? hfind, h.derive_eq (Nat.lt_succ_of_le (Nat.le_add_right passes more))]

/-- With whatever limits an engine runs passes, the first that reports nothing comes after at most
so many passes as there are ways to take premises out of its rules. All passes together derive at
most that many rules, each smaller than a rule that was there before them, and behind a pass that
reports nothing no pass reports anything and the engine stays as it is. So a derivation in a session
that may run more passes always ends with a pass that finds nothing. -/
theorem passes_end_within_remnantCount :
    (∀ engine : Forward,
      (∃ count ≤ Forward.remnantCount engine.rules,
        (∀ pass < count, engine.reported pass ≠ []) ∧ engine.reported count = []) ∧
      (∀ count, (engine.derived count).length ≤ Forward.remnantCount engine.rules) ∧
      (∀ pass, ∀ rule ∈ engine.reported pass, ∃ kept ∈ engine.rules, rule.size < kept.size) ∧
      ∀ count, engine.reported count = [] → ∀ later, count ≤ later →
        engine.reported later = [] ∧ engine.afterPasses later = engine.afterPasses count) ∧
    ∀ (operations : List Operation) (id : Uuid) (session : Session Forward) (maxPasses : Nat),
      let table := (SessionTable.empty.run Forward.kind operations).2
      table.find? id = some session → Forward.remnantCount session.engine.rules < maxPasses →
      ∃ passes found later, passes ≤ Forward.remnantCount session.engine.rules ∧
        Session.EndsEmpty Forward.kind session passes found later ∧
        table.derive Forward.kind id maxPasses = (.ok found, table.replace later) := by
  constructor
  · intro engine
    refine ⟨engine.exists_reported_eq_nil, engine.length_derived_le, ?_, ?_⟩
    · intro pass rule hrule
      exact Forward.exists_size_lt_of_mem_reported hrule
    · intro count hnothing later hlater
      have hstays := Forward.afterPasses_of_reported_eq_nil hnothing hlater
      refine ⟨?_, hstays⟩
      rw [Forward.reported, hstays]
      exact hnothing
  · intro operations id session maxPasses table hfind hpasses
    have hsession := everywhere_inStep_run operations session (mem_of_find?_eq_some hfind)
    obtain ⟨passes, hcount, hbefore, hlast⟩ := session.engine.exists_reported_eq_nil
    have hends := hsession.endsEmpty hbefore hlast
    exact ⟨passes, _, _, hcount, hends,
      derive_of_endsEmpty hfind hends (Nat.lt_of_le_of_lt hcount hpasses)⟩

/-- A rule with two premises that are there, so that three rules can be derived at most. They are
found in two passes, and a third pass finds nothing. -/
theorem derive_ends_of_conjunction :
    let operations : List Operation :=
      [.create .zero 8, .addLines .zero ["a, b -> c", "a", "b"]]
    let a := Term.symbol "a"
    let b := Term.symbol "b"
    let c := Term.symbol "c"
    let session : Session Forward :=
      { id := .zero
        limit := 8
        engine := ⟨8, 8, [⟨[a, b], c⟩, ⟨[], a⟩, ⟨[], b⟩]⟩
        lines := ["a\nb\n----\nc", "a", "b"] }
    let table := (SessionTable.empty.run Forward.kind operations).2
    let found := ["b\n----\nc", "a\n----\nc", "c"]
    (Forward.remnantCount session.engine.rules = 3 ∧ (session.engine.derived 3).length ≤ 3) ∧
    table.find? .zero = some session ∧ ∃ later,
      Session.EndsEmpty Forward.kind session 2 found later ∧
      table.derive Forward.kind .zero 4 = (.ok found, table.replace later) := by
  intro operations a b c session table found
  have hcount : Forward.remnantCount session.engine.rules = 3 := by decide +kernel
  have hfind : table.find? .zero = some session := by decide +kernel
  have hengine := passes_end_within_remnantCount.1 session.engine
  have hends := passes_end_within_remnantCount.2 operations .zero session 4 hfind
  rw [hcount] at hengine hends
  refine ⟨⟨hcount, hengine.2.1 3⟩, hfind, ?_⟩
  obtain ⟨passes, told, later, -, hended, hderive⟩ := hends (by decide)
  have hsession := everywhere_inStep_run operations session (mem_of_find?_eq_some hfind)
  have hbefore : ∀ pass < 2, session.engine.reported pass ≠ [] := by decide +kernel
  have htwo := hsession.endsEmpty hbefore (by decide +kernel)
  have hfound : (session.engine.derived 2).map Display.printRule = found := by decide +kernel
  rw [hfound] at htwo
  obtain ⟨rfl, rfl, rfl⟩ := hended.unique htwo
  exact ⟨_, hended, hderive⟩

end SessionTable

end Sequitur
