import Sequitur.Proofs.Session.Identifiers
import Sequitur.Proofs.Session.InStep

/-!
# Snapshots that are restored

A snapshot keeps no engines, only lines. That is enough: the lines of a session in step with
its engine, offered to a fresh engine with the same limit, are accepted one after the other,
and the engine then keeps the same rules in the same order. So a table that is made from the
snapshot of another one is that table, with nothing left to tell them apart by.
-/

namespace Sequitur

open Notation

/-! ### Lines that are offered to a fresh engine -/

namespace Session

variable {session : Session Forward}

@[simp] theorem learn_nil (session : Session Forward) : session.learn [] = session := by
  simp [Session.learn, Forward.keep]

@[simp] theorem learn_learn (session : Session Forward) (rules others : List Rule) :
    (session.learn rules).learn others = session.learn (rules ++ others) := by
  simp [Session.learn, Forward.keep]

/-- The texts of new rules within the limit are accepted one after the other. -/
theorem InStep.addLines_map_printRule (h : session.InStep) {rules : List Rule}
    (hnodup : (session.engine.rules ++ rules).Nodup) (hlegible : ∀ rule ∈ rules, rule.Legible)
    (hsize : ∀ rule ∈ rules, rule.size ≤ session.limit) :
    session.addLines Forward.kind (rules.map Display.printRule) =
      (.ok (rules.map Display.printRule), session.learn rules) := by
  induction rules generalizing session with
  | nil => simp [addLines]
  | cons rule rules ih =>
      rw [List.forall_mem_cons] at hlegible hsize
      have hread := Display.readRule_printRule hlegible.1.writable
      rw [hlegible.1.normalized_eq] at hread
      have hnew : rule ∉ session.engine.rules := fun hkept =>
        (List.nodup_append.mp hnodup).2.2 rule hkept rule List.mem_cons_self rfl
      have haccepts : session.engine.Accepts rule := by
        rw [Forward.Accepts, h.sizeLimit_eq, hlegible.1.normalized_eq]
        exact ⟨hsize.1, hnew⟩
      rw [List.append_cons] at hnodup
      have hlearned : (session.learn [rule]).InStep := by
        apply h.learn hnodup.of_append_left
        · exact List.forall_mem_singleton.mpr hlegible.1
        · exact List.forall_mem_singleton.mpr hsize.1
      rw [List.map_cons, addLines, h.offer_of_accepts hread haccepts]
      simp only [ih hlearned hnodup hlegible.2 hsize.2]
      simp

/-- A session in step is told by its identifier, its limit and its rules. -/
theorem InStep.learn_create_eq (h : session.InStep) :
    (Session.create Forward.kind session.id session.limit).learn session.engine.rules =
      session := by
  obtain ⟨-, hsize, hbuffer, hlines, -, -, -⟩ := h
  obtain ⟨id, limit, ⟨sizeLimit, bufferLimit, rules⟩, lines⟩ := session
  simp_all [Session.learn, Session.create, Forward.kind, Forward.create, Forward.keep]

/-- Offering all lines of a session in step to a fresh engine makes the session again. -/
theorem InStep.addLines_create (h : session.InStep) :
    (Session.create Forward.kind session.id session.limit).addLines Forward.kind session.lines =
      (.ok session.lines, session) := by
  have hfresh := InStep.create session.id h.limit_pos
  have hoffered := hfresh.addLines_map_printRule h.nodup h.legible h.size_le
  rw [← h.lines_eq, h.learn_create_eq] at hoffered
  exact hoffered

end Session

/-! ### Entries that are restored -/

namespace SessionTable

theorem checkedLimit_natCast {limit : Nat} (h : 0 < limit) : checkedLimit limit = .ok limit := by
  rw [checkedLimit, if_neg (by omega), Int.toNat_natCast]

/-- The entry of a session in step makes the session again, where its identifier is not taken. -/
theorem restore_of_inStep {table : SessionTable Forward} {session : Session Forward}
    (h : session.InStep) (hid : session.id ∉ table.ids) :
    table.restore Forward.kind ⟨session.id, session.limit, session.lines⟩ =
      (.ok session.id, ⟨table.sessions ++ [session]⟩) := by
  simp only [restore, checkedLimit_natCast h.limit_pos, h.addLines_create, insert_of_not_mem hid]

/-- Entries of sessions in step are restored one after the other, behind the sessions that are
there. -/
theorem run_restore_of_inStep (sessions : List (Session Forward)) (table : SessionTable Forward)
    (h : ∀ session ∈ sessions, session.InStep)
    (hids : (table.ids ++ sessions.map Session.id).Nodup) :
    table.run Forward.kind (sessions.map fun session =>
        .restore ⟨session.id, session.limit, session.lines⟩) =
      (sessions.map fun session => .made (.ok session.id), ⟨table.sessions ++ sessions⟩) := by
  induction sessions generalizing table with
  | nil => simp [run]
  | cons session sessions ih =>
      rw [List.forall_mem_cons] at h
      have hid : session.id ∉ table.ids := fun htaken =>
        (List.nodup_append.mp hids).2.2 _ htaken _ List.mem_cons_self rfl
      have hlonger : (⟨table.sessions ++ [session]⟩ : SessionTable Forward).ids =
          table.ids ++ [session.id] := List.map_append
      rw [List.map_cons, List.append_cons, ← hlonger] at hids
      rw [List.map_cons, run, perform, restore_of_inStep h.1 hid]
      simp only [ih _ h.2 hids]
      simp

/-- Restoring the entries of a snapshot succeeds for every entry and makes the table of which
the snapshot was taken, so that all later operations have the same answers on both. -/
theorem run_restore_snapshot (operations later : List Operation) :
    let table := (SessionTable.empty.run Forward.kind operations).2
    let restored := SessionTable.empty.run Forward.kind (table.snapshot.map .restore)
    restored.1 = table.snapshot.map (fun entry => .made (.ok entry.id)) ∧
    restored.2.sessions = table.sessions ∧
    restored.2.run Forward.kind later = table.run Forward.kind later := by
  intro table restored
  have hempty : (SessionTable.empty : SessionTable Forward).ids.Nodup := List.nodup_nil
  have hids : table.ids.Nodup := nodup_ids_run hempty operations
  have hrestored : restored = (table.snapshot.map fun entry => .made (.ok entry.id), table) := by
    have hrun := run_restore_of_inStep table.sessions .empty (everywhere_inStep_run operations) hids
    rw [SessionTable.empty, List.nil_append] at hrun
    simp only [restored, snapshot, List.map_map]
    exact hrun
  rw [hrestored]
  exact ⟨rfl, rfl, rfl⟩

end SessionTable

end Sequitur
