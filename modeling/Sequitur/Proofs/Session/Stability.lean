import Sequitur.Proofs.Session.Batches
import Sequitur.Proofs.Session.Exhaustion
import Sequitur.Proofs.Session.Isolation

/-!
# Derivations that go on

A derivation that stopped for want of passes can be taken up again: what it finds then comes behind
what it found before, as if it had not stopped. One that stopped because a pass found nothing has
nothing more to find. The lines of a session tell this as surely as its engine could: with room for
at least one rule in a pass, and every derived rule readable, new and within the limit, a pass that
shows no new line has derived no rule. Then the rules are closed, and a search shows nothing until
lines are added that bring the session a new rule.
-/

namespace Sequitur

open Notation

namespace Session

variable {session : Session Forward}

/-- Passes that are run behind others go on where those stopped. -/
theorem InStep.derive_add (h : session.InStep) (first second : Nat) :
    ∃ found others next last, session.derive Forward.kind first = (.ok found, next) ∧
      next.derive Forward.kind second = (.ok others, last) ∧
      session.derive Forward.kind (first + second) = (.ok (found ++ others), last) := by
  have hnext := inStep_invariant.derive h first
  rw [h.derive_eq] at hnext
  refine ⟨_, _, _, _, h.derive_eq first, hnext.derive_eq second, ?_⟩
  have hpasses := session.engine.flatten_passes_add first second
  rw [Forward.snd_passes] at hpasses
  rw [h.derive_eq, hpasses, List.map_append, ← learn_learn]
  rfl

/-! ### Sessions with nothing to find -/

theorem InStep.search_of_derivable_eq_nil (h : session.InStep)
    (hnothing : session.engine.derivable = []) :
    session.search Forward.kind = (.ok [], session) := by
  rw [h.search_eq, hnothing, learn_nil, List.map_nil]

theorem InStep.derive_of_derivable_eq_nil (h : session.InStep)
    (hnothing : session.engine.derivable = []) (maxPasses : Nat) :
    session.derive Forward.kind maxPasses = (.ok [], session) := by
  rw [h.derive_eq, Forward.flatten_passes_of_derivable_eq_nil hnothing, learn_nil, List.map_nil]

/-- A pass that finds no line derives no rule and leaves the session as it is. -/
theorem InStep.eq_of_search_eq_nil (h : session.InStep) {later : Session Forward}
    (hsearch : session.search Forward.kind = (.ok [], later)) :
    later = session ∧ session.engine.derivable = [] := by
  rw [h.search_eq] at hsearch
  obtain ⟨hfound, rfl⟩ := Prod.mk.inj hsearch
  have hnothing := List.map_eq_nil_iff.mp (Except.ok.inj hfound)
  exact ⟨by rw [hnothing, learn_nil], hnothing⟩

theorem EndsEmpty.derivable_eq_nil {passes : Nat} {found : List String} {closed : Session Forward}
    (h : EndsEmpty Forward.kind session passes found closed) (hsession : session.InStep) :
    closed.InStep ∧ closed.engine.derivable = [] := by
  induction h with
  | last hsearch =>
      obtain ⟨rfl, hnothing⟩ := hsession.eq_of_search_eq_nil hsearch
      exact ⟨hsession, hnothing⟩
  | pass hsearch _ _ ih =>
      have hnext := hsession.search
      rw [hsearch] at hnext
      exact ih hnext

theorem InStep.dischargeClosed (h : session.InStep) (hnothing : session.engine.derivable = []) :
    DischargeClosed {rule | rule ∈ session.engine.rules} := by
  apply Forward.dischargeClosed_of_derivable_eq_nil _ _ hnothing
  · rw [h.bufferLimit_eq]
    exact h.limit_pos
  · rw [h.sizeLimit_eq]
    exact h.size_le

end Session

namespace SessionTable

variable {table : SessionTable Forward} {id : Uuid} {session closed : Session Forward}

/-- Two derivations find what one finds that may run as many passes, and leave the same table. -/
theorem derive_add (hids : table.ids.Nodup) (hfind : table.find? id = some session)
    (h : session.InStep) (first second : Nat) :
    ∃ found others next last, table.derive Forward.kind id first = (.ok found, next) ∧
      next.derive Forward.kind id second = (.ok others, last) ∧
      table.derive Forward.kind id (first + second) = (.ok (found ++ others), last) := by
  obtain ⟨found, others, next, last, hfirst, hsecond, hboth⟩ := h.derive_add first second
  have hnext := (session.continues_derive Forward.kind first).of_eq hfirst
  have hlast := (next.continues_derive Forward.kind second).of_eq hsecond
  have hfound : (table.replace next).find? id = some next := find?_replace_self hfind hnext.id_eq
  have hids' := nodup_ids_replace hids next
  refine ⟨found, others, table.replace next, table.replace last, ?_, ?_, ?_⟩
  · rw [derive_of_find? hids hfind, hfirst]
  · rw [derive_of_find? hids' hfound, hsecond, replace_replace table hlast.id_eq]
  · rw [derive_of_find? hids hfind, hboth]

/-! ### Tables in which a session has nothing to find -/

theorem search_of_derivable_eq_nil (hids : table.ids.Nodup) (hfind : table.find? id = some closed)
    (h : closed.InStep) (hnothing : closed.engine.derivable = []) :
    table.search Forward.kind id = (.ok [], table) :=
  modify_of_same hids hfind (h.search_of_derivable_eq_nil hnothing)

theorem derive_of_derivable_eq_nil (hids : table.ids.Nodup) (hfind : table.find? id = some closed)
    (h : closed.InStep) (hnothing : closed.engine.derivable = []) (maxPasses : Nat) :
    table.derive Forward.kind id maxPasses = (.ok [], table) := by
  rw [derive_of_find? hids hfind, h.derive_of_derivable_eq_nil hnothing,
    replace_self hids (mem_of_find?_eq_some hfind)]

/-- An operation that brings a session with nothing to find no rule leaves it as it is. -/
theorem find?_perform_of_derivable_eq_nil (hids : table.ids.Nodup)
    (hfind : table.find? id = some closed) (h : closed.InStep)
    (hnothing : closed.engine.derivable = []) {operation : Operation}
    (hkept : operation ≠ .delete id) (hbatch : ∀ batch, operation = .addLines id batch →
      newRules closed.limit closed.lines batch = []) :
    (table.perform Forward.kind operation).2.find? id = some closed := by
  by_cases hid : operation.id? = some id
  · cases operation with
    | create other limit => exact find?_create_of_find? hfind other limit
    | restore entry => exact find?_restore_of_find? hfind entry
    | delete other => exact absurd (congrArg Operation.delete (Option.some.inj hid)) hkept
    | addLines other batch =>
        obtain rfl : other = id := Option.some.inj hid
        simpa only [perform, addLines_of_newRules_eq_nil hids hfind h (hbatch batch rfl)]
          using hfind
    | search other =>
        obtain rfl : other = id := Option.some.inj hid
        simpa only [perform, search_of_derivable_eq_nil hids hfind h hnothing] using hfind
    | derive other maxPasses =>
        obtain rfl : other = id := Option.some.inj hid
        simpa only [perform, derive_of_derivable_eq_nil hids hfind h hnothing] using hfind
    | lines | list | snapshot => exact hfind
  · rw [find?_perform_of_ne Forward.kind table hid, hfind]

theorem find?_run_of_derivable_eq_nil (hids : table.ids.Nodup)
    (hfind : table.find? id = some closed) (h : closed.InStep)
    (hnothing : closed.engine.derivable = []) {operations : List Operation}
    (hkept : .delete id ∉ operations) (hbatches : ∀ batch, .addLines id batch ∈ operations →
      newRules closed.limit closed.lines batch = []) :
    (table.run Forward.kind operations).2.find? id = some closed := by
  induction operations generalizing table with
  | nil => exact hfind
  | cons operation operations ih =>
      rw [List.mem_cons, not_or] at hkept
      have hstep := find?_perform_of_derivable_eq_nil hids hfind h hnothing (Ne.symm hkept.1)
        fun batch hbatch => hbatches batch (hbatch ▸ List.mem_cons_self)
      exact ih (nodup_ids_perform hids operation) hstep hkept.2
        fun batch hbatch => hbatches batch (List.mem_cons_of_mem _ hbatch)

/-- A derivation of some passes and behind it one of some more find what one derivation finds that
may run all of them, and leave the table as that leaves it. When a derivation ends with a pass that
finds nothing, no rule is left to discharge that the session does not know, and as long as no batch
brings it a new rule and it is not deleted, every search finds nothing and changes nothing. -/
theorem derive_add_and_search_of_endsEmpty (operations : List Operation) (id : Uuid)
    (session : Session Forward) :
    let table := (SessionTable.empty.run Forward.kind operations).2
    table.find? id = some session →
    (∀ first second, ∃ found others next last,
      table.derive Forward.kind id first = (.ok found, next) ∧
      next.derive Forward.kind id second = (.ok others, last) ∧
      table.derive Forward.kind id (first + second) = (.ok (found ++ others), last)) ∧
    ∀ passes maxPasses found closed, passes < maxPasses →
      Session.EndsEmpty Forward.kind session passes found closed →
      table.derive Forward.kind id maxPasses = (.ok found, table.replace closed) ∧
      DischargeClosed {rule | rule ∈ closed.engine.rules} ∧
      ∀ later : List Operation, .delete id ∉ later →
        (∀ batch, .addLines id batch ∈ later → newRules closed.limit closed.lines batch = []) →
        let ended := ((table.replace closed).run Forward.kind later).2
        ended.find? id = some closed ∧ ended.search Forward.kind id = (.ok [], ended) := by
  intro table hfind
  have hreachable : table.Reachable := .run Forward.kind .empty operations
  have hsession := everywhere_inStep_run operations session (mem_of_find?_eq_some hfind)
  refine ⟨derive_add hreachable.nodup_ids hfind hsession, ?_⟩
  intro passes maxPasses found closed hpasses hends
  obtain ⟨hclosed, hnothing⟩ := hends.derivable_eq_nil hsession
  have hderive := derive_of_endsEmpty hfind hends hpasses
  refine ⟨hderive, hclosed.dischargeClosed hnothing, ?_⟩
  intro later hkept hbatches ended
  have hids := nodup_ids_replace hreachable.nodup_ids closed
  have hsame := (session.continues_derive Forward.kind maxPasses).of_eq (hends.derive_eq hpasses)
  have hfound : (table.replace closed).find? id = some closed :=
    find?_replace_self hfind hsame.id_eq
  have hended := find?_run_of_derivable_eq_nil hids hfound hclosed hnothing hkept hbatches
  exact ⟨hended, search_of_derivable_eq_nil (nodup_ids_run hids later) hended hclosed hnothing⟩

/-- A rule with two premises, of which one pass takes out one and another pass the other; the third
pass finds nothing. A known rule in other words and a rule that is too large bring nothing. -/
theorem derive_add_of_conjunction :
    let operations : List Operation :=
      [.create .zero 4, .addLines .zero ["a, b -> c", "a", "b"]]
    let later : List Operation :=
      [.addLines .zero ["(c)", "a, b, c -> d, e"], .derive .zero 2, .list]
    let a := Term.symbol "a"
    let b := Term.symbol "b"
    let c := Term.symbol "c"
    let closed : Session Forward :=
      { id := .zero
        limit := 4
        engine := ⟨4, 4, [⟨[a, b], c⟩, ⟨[], a⟩, ⟨[], b⟩, ⟨[b], c⟩, ⟨[a], c⟩, ⟨[], c⟩]⟩
        lines := ["a\nb\n----\nc", "a", "b", "b\n----\nc", "a\n----\nc", "c"] }
    let table := (SessionTable.empty.run Forward.kind operations).2
    let ended := ((table.replace closed).run Forward.kind later).2
    (∃ found others next last, table.derive Forward.kind .zero 1 = (.ok found, next) ∧
      next.derive Forward.kind .zero 2 = (.ok others, last) ∧
      table.derive Forward.kind .zero 3 = (.ok (found ++ others), last)) ∧
    table.derive Forward.kind .zero 3 =
      (.ok ["b\n----\nc", "a\n----\nc", "c"], table.replace closed) ∧
    DischargeClosed {rule | rule ∈ closed.engine.rules} ∧
    ended.find? .zero = some closed ∧ ended.search Forward.kind .zero = (.ok [], ended) := by
  intro operations later a b c closed table ended
  let session : Session Forward :=
    { id := .zero
      limit := 4
      engine := ⟨4, 4, [⟨[a, b], c⟩, ⟨[], a⟩, ⟨[], b⟩]⟩
      lines := ["a\nb\n----\nc", "a", "b"] }
  have hfind : table.find? .zero = some session := by decide +kernel
  have hsession := everywhere_inStep_run operations session (mem_of_find?_eq_some hfind)
  have hends : Session.EndsEmpty Forward.kind session 2 ["b\n----\nc", "a\n----\nc", "c"]
      closed := by
    have hbefore : ∀ pass < 2, session.engine.reported pass ≠ [] := by decide +kernel
    have hderived := hsession.endsEmpty hbefore (by decide +kernel)
    have hfound : (session.engine.derived 2).map Display.printRule =
        ["b\n----\nc", "a\n----\nc", "c"] := by decide +kernel
    have hclosed : session.learn (session.engine.derived 2) = closed := by decide +kernel
    rwa [hfound, hclosed] at hderived
  have hkept : Operation.delete .zero ∉ later := by simp [later]
  have hbatches : ∀ batch, Operation.addLines .zero batch ∈ later →
      newRules closed.limit closed.lines batch = [] := by
    intro batch hbatch
    obtain rfl : batch = ["(c)", "a, b, c -> d, e"] := by simpa [later] using hbatch
    decide +kernel
  obtain ⟨hadd, hended⟩ := derive_add_and_search_of_endsEmpty operations .zero session hfind
  obtain ⟨hderive, hclosed, hlater⟩ := hended 2 3 _ closed (by decide) hends
  exact ⟨hadd 1 2, hderive, hclosed, hlater later hkept hbatches⟩

end SessionTable

end Sequitur
