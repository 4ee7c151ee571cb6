import Sequitur.Proofs.Engine.Passes
import Sequitur.Proofs.Session.Lookup
import Sequitur.Proofs.Session.Snapshot

/-!
# What a session answers and what it stores

An offered batch, a pass and a series of passes answer with lists of lines that are made apart
from the lines they store. With the forward engine both come from the same rules: whatever is
done to a session, it learns some rules, and the texts of these rules are the answer. So the
lists that a session has answered with, one behind the other, are the lines it has stored.
-/

namespace Sequitur

open Notation

namespace Session

variable {session : Session Forward}

/-- Work on a session makes it learn some rules, and the answer is the list of their texts. -/
def Learns (session : Session Forward) (result : Answer (List String) × Session Forward) : Prop :=
  ∃ rules : List Rule, result = (.ok (rules.map Display.printRule), session.learn rules)

theorem Learns.id_eq {result : Answer (List String) × Session Forward}
    (h : session.Learns result) : result.2.id = session.id := by
  obtain ⟨rules, rfl⟩ := h
  rfl

/-- An offered line makes the session learn one rule, whose text is the answer, or none. -/
theorem InStep.exists_offer_eq (h : session.InStep) (line : String) : ∃ rule? : Option Rule,
    session.offer Forward.kind line =
      (.ok (rule?.map Display.printRule), session.learn rule?.toList) := by
  cases hread : Display.readRule line with
  | error error => exact ⟨none, by simp [offer_of_error Forward.kind hread]⟩
  | ok rule =>
      by_cases haccepts : session.engine.Accepts rule
      · exact ⟨some rule, h.offer_of_accepts hread haccepts⟩
      · exact ⟨none, by simp [offer_of_not_accepts hread haccepts]⟩

theorem InStep.learns_addLines (h : session.InStep) (lines : List String) :
    session.Learns (session.addLines Forward.kind lines) := by
  induction lines generalizing session with
  | nil => exact ⟨[], by simp [addLines]⟩
  | cons line lines ih =>
      obtain ⟨rule?, hoffer⟩ := h.exists_offer_eq line
      have hoffered := h.offer line
      rw [hoffer] at hoffered
      obtain ⟨rules, hrest⟩ := ih hoffered
      refine ⟨rule?.toList ++ rules, ?_⟩
      rw [addLines, hoffer]
      simp only [hrest, learn_learn, List.map_append, Option.toList_map]

theorem InStep.learns_search (h : session.InStep) :
    session.Learns (session.search Forward.kind) :=
  ⟨_, h.search_eq⟩

/-- Running passes in the session runs them in the engine, and the answer holds the texts of all
that they derive. -/
theorem InStep.derive_eq (h : session.InStep) (maxPasses : Nat) :
    session.derive Forward.kind maxPasses =
      (.ok ((session.engine.passes maxPasses).1.flatten.map Display.printRule),
        session.learn (session.engine.passes maxPasses).1.flatten) := by
  induction maxPasses generalizing session with
  | zero => simp [derive, Forward.passes]
  | succ maxPasses ih =>
      by_cases hderivable : session.engine.derivable = []
      · rw [derive, h.search_eq, Forward.passes_succ_of_eq_nil hderivable]
        simp [hderivable]
      · have hsearched := h.search
        rw [h.search_eq] at hsearched
        have hrest := ih hsearched
        obtain ⟨rule, others, hfound⟩ := List.exists_cons_of_ne_nil hderivable
        rw [derive, h.search_eq, Forward.passes_succ_of_ne_nil hderivable, List.flatten_cons,
          List.map_append, ← learn_learn]
        simp only [hfound, List.map_cons] at hrest ⊢
        rw [hrest]
        rfl

theorem InStep.learns_derive (h : session.InStep) (maxPasses : Nat) :
    session.Learns (session.derive Forward.kind maxPasses) :=
  ⟨_, h.derive_eq maxPasses⟩

/-- Legible rules that are distinct have distinct texts. -/
theorem InStep.nodup_lines (h : session.InStep) : session.lines.Nodup := by
  rw [h.lines_eq]
  apply h.nodup.map_on
  intro rule hrule other hother htext
  exact Display.printRule_injOn (h.legible rule hrule) (h.legible other hother) htext

end Session

namespace SessionTable

/-- Whether an operation asks for new lines of the session of an identifier. -/
def Operation.fills (id : Uuid) : Operation → Bool
  | .addLines other _ | .search other | .derive other _ => other = id
  | _ => false

/-- The lines that a reply holds. -/
def Reply.found : Reply → List String
  | .lines (.ok told) => told
  | _ => []

/-- The lists that operations on the session of an identifier are answered with, one behind the
other. -/
def told (id : Uuid) (operations : List Operation) (replies : List Reply) : List String :=
  ((operations.zip replies).filter (·.1.fills id)).flatMap (·.2.found)

theorem told_singleton (id : Uuid) (operation : Operation) (reply : Reply) :
    told id [operation] [reply] = if operation.fills id then reply.found else [] := by
  rw [told, List.zip_cons_cons, List.filter_cons]
  split <;> simp

theorem told_cons (id : Uuid) (operation : Operation) (operations : List Operation)
    (reply : Reply) (replies : List Reply) :
    told id (operation :: operations) (reply :: replies) =
      told id [operation] [reply] ++ told id operations replies := by
  rw [told, List.zip_cons_cons, ← List.singleton_append, List.filter_append, List.flatMap_append]
  rfl

variable {table : SessionTable Forward} {id : Uuid} {session : Session Forward}

/-- Work on any session of a table makes the session of an identifier learn the rules whose
texts are answered, if it is the one that is worked on, and otherwise no rules. -/
theorem exists_modify_find?_eq {work : Session Forward → Answer (List String) × Session Forward}
    (hwork : ∀ session ∈ table.sessions, session.Learns (work session))
    (hfind : table.find? id = some session) (other : Uuid) : ∃ rules : List Rule,
      (table.modify other work).2.find? id = some (session.learn rules) ∧
      (if other = id then (Reply.lines (table.modify other work).1).found else []) =
        rules.map Display.printRule := by
  by_cases hid : other = id
  · subst hid
    have hlearns := hwork session (mem_of_find?_eq_some hfind)
    have hself := find?_modify_self hfind hlearns.id_eq
    obtain ⟨rules, hresult⟩ := hlearns
    refine ⟨rules, ?_, ?_⟩
    · rw [hself, hresult]
    · rw [if_pos rfl, modify_of_find? hfind, hresult]
      rfl
  · have hother := find?_modify_of_ne (Ne.symm hid) fun session hsession =>
      (hwork session hsession).id_eq
    refine ⟨[], ?_, ?_⟩
    · rw [hother, hfind, Session.learn_nil]
    · rw [if_neg hid, List.map_nil]

/-- One operation makes a session that it does not delete learn the rules whose texts are told. -/
theorem exists_perform_find?_eq (h : table.Everywhere Session.InStep)
    (hfind : table.find? id = some session) {operation : Operation}
    (hkept : operation ≠ .delete id) : ∃ rules : List Rule,
      (table.perform Forward.kind operation).2.find? id = some (session.learn rules) ∧
      told id [operation] [(table.perform Forward.kind operation).1] =
        rules.map Display.printRule := by
  have hnone : table.find? id = some (session.learn []) := by rw [hfind, Session.learn_nil]
  cases operation with
  | create other limit => exact ⟨[], find?_create_of_find? hnone other limit, rfl⟩
  | restore entry => exact ⟨[], find?_restore_of_find? hnone entry, rfl⟩
  | delete other =>
      have hne : id ≠ other := fun hid => hkept (by rw [hid])
      exact ⟨[], (find?_delete_of_ne hne).trans hnone, rfl⟩
  | addLines other lines =>
      have hwork : ∀ session ∈ table.sessions,
          session.Learns (session.addLines Forward.kind lines) :=
        fun session hsession => (h session hsession).learns_addLines lines
      simp only [told_singleton, Operation.fills, decide_eq_true_eq]
      exact exists_modify_find?_eq hwork hfind other
  | search other =>
      have hwork : ∀ session ∈ table.sessions, session.Learns (session.search Forward.kind) :=
        fun session hsession => (h session hsession).learns_search
      simp only [told_singleton, Operation.fills, decide_eq_true_eq]
      exact exists_modify_find?_eq hwork hfind other
  | derive other maxPasses =>
      simp only [told_singleton, Operation.fills, decide_eq_true_eq]
      cases maxPasses with
      | zero => exact ⟨[], hnone, ite_self []⟩
      | succ passes =>
          have hwork : ∀ session ∈ table.sessions,
              session.Learns (session.derive Forward.kind (passes + 1)) :=
            fun session hsession => (h session hsession).learns_derive (passes + 1)
          exact exists_modify_find?_eq hwork hfind other
  | lines other => exact ⟨[], hnone, rfl⟩
  | list => exact ⟨[], hnone, rfl⟩
  | snapshot => exact ⟨[], hnone, rfl⟩

/-- So does a run that never deletes the session. -/
theorem exists_run_find?_eq (h : table.Everywhere Session.InStep)
    (hfind : table.find? id = some session) {operations : List Operation}
    (hkept : .delete id ∉ operations) : ∃ rules : List Rule,
      (table.run Forward.kind operations).2.find? id = some (session.learn rules) ∧
      told id operations (table.run Forward.kind operations).1 =
        rules.map Display.printRule := by
  induction operations generalizing table session with
  | nil =>
      refine ⟨[], ?_, rfl⟩
      rw [Session.learn_nil]
      exact hfind
  | cons operation operations ih =>
      rw [List.mem_cons, not_or] at hkept
      obtain ⟨rules, hfound, htold⟩ := exists_perform_find?_eq h hfind (Ne.symm hkept.1)
      have hnext := h.perform Session.inStep_invariant operation
      obtain ⟨others, hended, hothers⟩ := ih hnext hfound hkept.2
      refine ⟨rules ++ others, ?_, ?_⟩
      · rw [← Session.learn_learn]
        exact hended
      · rw [run, told_cons, htold, List.map_append]
        exact congrArg _ hothers

/-! ### Sessions from their making on -/

/-- A session that was made from an entry is found under the identifier of the entry. -/
theorem exists_find?_restore_self {entry : SnapshotEntry} {made : Uuid}
    (hmade : (table.restore Forward.kind entry).1 = .ok made) : made = entry.id ∧
      ∃ session, (table.restore Forward.kind entry).2.find? entry.id = some session := by
  rcases table.restore_cases Forward.kind entry with
    ⟨failure, hrestore, -⟩ | ⟨checked, found, session, hpos, -, hfilled, hid, hrestore⟩
  · simp [hrestore] at hmade
  · have hlearns := (Session.InStep.create entry.id hpos).learns_addLines entry.lines
    rw [hfilled] at hlearns
    have hsession : session.id = entry.id := hlearns.id_eq
    rw [hrestore] at hmade ⊢
    refine ⟨(Except.ok.inj hmade).symm, session, ?_⟩
    rw [← hsession]
    exact find?_push_self hid

/-- An operation that makes a session leaves it under the identifier that it answers with, and
without lines unless they are those of an entry. -/
theorem exists_find?_of_perform_eq_made {making : Operation}
    (hmade : (table.perform Forward.kind making).1 = .made (.ok id)) :
    ∃ session, (table.perform Forward.kind making).2.find? id = some session ∧
      ∀ limit, making = .create id limit → session.lines = [] := by
  cases making with
  | create other limit =>
      have hcreated : (table.create Forward.kind other limit).1 = .ok id := Reply.made.inj hmade
      obtain ⟨rfl, checked, hfind⟩ := find?_create_self hcreated
      exact ⟨_, hfind, fun _ _ => rfl⟩
  | restore entry =>
      have hrestored : (table.restore Forward.kind entry).1 = .ok id := Reply.made.inj hmade
      obtain ⟨rfl, session, hfind⟩ := exists_find?_restore_self hrestored
      exact ⟨session, hfind, fun _ hcreate => nomatch hcreate⟩
  | delete | addLines | search | derive | lines | list | snapshot => exact Reply.noConfusion hmade

/-- From its making on, and for as long as it is not deleted, a session has the lines that it
was made with, none if it was created, and behind them the lists that it has answered with, in
the order of the calls. No line is among them twice. -/
theorem lines_eq_append_told (before : List Operation) (making : Operation)
    (later : List Operation) (id : Uuid) :
    let made := (SessionTable.empty.run Forward.kind before).2.perform Forward.kind making
    let ended := made.2.run Forward.kind later
    made.1 = .made (.ok id) → .delete id ∉ later → ∃ first : List String,
      made.2.lines id = .ok first ∧ (∀ limit, making = .create id limit → first = []) ∧
      ended.2.lines id = .ok (first ++ told id later ended.1) ∧
      (first ++ told id later ended.1).Nodup := by
  intro made ended hmade hkept
  have hinStep := (everywhere_inStep_run before).perform Session.inStep_invariant making
  obtain ⟨session, hfind, hcreated⟩ := exists_find?_of_perform_eq_made hmade
  obtain ⟨rules, hended, htold⟩ := exists_run_find?_eq hinStep hfind hkept
  have hlearned := hinStep.run Session.inStep_invariant later _ (mem_of_find?_eq_some hended)
  rw [htold]
  refine ⟨session.lines, ?_, hcreated, ?_, hlearned.nodup_lines⟩
  · exact lines_eq_ok_iff.mpr ⟨session, hfind, rfl⟩
  · exact lines_eq_ok_iff.mpr ⟨_, hended, rfl⟩

/-- Rules are derived and then offered in other words, and the other way round, first in a
session that was created and then in one that was made from an entry with two lines. -/
theorem lines_eq_append_told_of_script :
    let before : List Operation := [.create .zero 1, .delete .zero]
    let entry : SnapshotEntry := ⟨.zero, 8, ["(a)", "b -> c"]⟩
    let later : List Operation := [.addLines .zero ["a, b -> c", "(a)"], .search .zero,
      .addLines .zero ["(b) -> c", "b", "b ->"], .derive .zero 3, .addLines .zero ["(c)"]]
    let table := (SessionTable.empty.run Forward.kind before).2
    let created := (table.perform Forward.kind (.create .zero 8)).2.run Forward.kind later
    let restored := (table.perform Forward.kind (.restore entry)).2.run Forward.kind later
    (told .zero later created.1 = ["a\nb\n----\nc", "a", "b\n----\nc", "b", "a\n----\nc", "c"] ∧
      created.2.lines .zero = .ok (told .zero later created.1) ∧
      (told .zero later created.1).Nodup) ∧
    (told .zero later restored.1 = ["a\nb\n----\nc", "b", "c", "a\n----\nc"] ∧
      restored.2.lines .zero = .ok (["a", "b\n----\nc"] ++ told .zero later restored.1) ∧
      (["a", "b\n----\nc"] ++ told .zero later restored.1).Nodup) := by
  intro before entry later table created restored
  have hkept : Operation.delete .zero ∉ later := by simp [later]
  constructor
  · obtain ⟨first, -, hempty, hlines, hnodup⟩ :=
      lines_eq_append_told before (.create .zero 8) later .zero rfl hkept
    rw [hempty 8 rfl, List.nil_append] at hlines hnodup
    exact ⟨by decide +kernel, hlines, hnodup⟩
  · have hrestored : (table.perform Forward.kind (.restore entry)).1 = .made (.ok .zero) := by
      have hfresh : (Session.create Forward.kind entry.id 8).InStep := .create _ (by decide)
      obtain ⟨rules, hlearns⟩ := hfresh.learns_addLines entry.lines
      have hlimit : checkedLimit entry.limit = .ok 8 := rfl
      simp only [perform, restore, hlimit, hlearns]
      rfl
    have hlines : ((table.perform Forward.kind (.restore entry)).2.find? .zero).map Session.lines =
        some ["a", "b\n----\nc"] := by decide +kernel
    obtain ⟨first, hfirst, -, hended, hnodup⟩ :=
      lines_eq_append_told before (.restore entry) later .zero hrestored hkept
    obtain ⟨session, hfind, rfl⟩ := lines_eq_ok_iff.mp hfirst
    have hsession : session.lines = ["a", "b\n----\nc"] := by
      rw [hfind] at hlines
      exact Option.some.inj hlines
    rw [hsession] at hended hnodup
    exact ⟨by decide +kernel, hended, hnodup⟩

end SessionTable

end Sequitur
