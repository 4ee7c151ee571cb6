import Mathlib.Data.List.Nodup
import Sequitur.Engine.Scripted
import Sequitur.Proofs.Session.CanonicalLines
import Sequitur.Proofs.Session.Identifiers
import Sequitur.Proofs.Session.Isolation
import Sequitur.Proofs.Session.Lookup

/-!
# What a table lists

Whoever has seen all that was asked of a table and all that was answered knows its sessions without
the table: those that were made and whose identifiers were not deleted since, in the order in which
they were made. A list of sessions, a snapshot and the failures of operations on sessions all agree
with that record.

A record may hold operations of engines of any kinds, as `Reachable` does. Work on a session comes
and goes in it without a trace, so what matters of an operation is only whether it made a session or
deleted one.
-/

namespace Sequitur

/-- Whether an answer is that there is no session of some identifier. -/
def Answer.IsNotFound (answer : Answer α) : Prop :=
  ∃ name, answer = .error (.sessionNotFound name)

namespace SessionTable

/-! ### Records of what was asked and answered -/

/-- What was asked for and what was answered. -/
abbrev Event := Operation × Reply

/-- A table with the events that it comes from, the last one at the end. -/
inductive Recorded : List Event → SessionTable σ → Prop where
  | empty : Recorded [] .empty
  | perform {events table} (kind : EngineKind σ) (operation : Operation) : Recorded events table →
      Recorded (events ++ [(operation, (table.perform kind operation).1)])
        (table.perform kind operation).2

theorem Recorded.reachable {events : List Event} {table : SessionTable σ}
    (h : Recorded events table) : table.Reachable := by
  induction h with
  | empty => exact .empty
  | perform kind operation _ ih => exact .perform kind operation ih

theorem Recorded.run {events : List Event} {table : SessionTable σ} (h : Recorded events table)
    (kind : EngineKind σ) (operations : List Operation) :
    Recorded (events ++ operations.zip (table.run kind operations).1)
      (table.run kind operations).2 := by
  induction operations generalizing events table with
  | nil => simpa [SessionTable.run] using h
  | cons operation operations ih =>
      have hothers := ih (h.perform kind operation)
      rw [List.append_assoc] at hothers
      exact hothers

/-- The session that an event made, if it made one, with the limit that it was made with. -/
def made? : Event → Option (Uuid × Int)
  | (.create _ limit, .made (.ok id)) => some (id, limit)
  | (.restore entry, .made (.ok id)) => some (id, entry.limit)
  | _ => none

/-- Whether an event deleted the session of an identifier. -/
def deletes (id : Uuid) : Event → Bool
  | (.delete other, .deleted (.ok _)) => other = id
  | _ => false

/-- The sessions that events made and did not delete since, in the order in which they were
made. -/
def live : List Event → List (Uuid × Int)
  | [] => []
  | event :: later =>
      ((made? event).filter fun made => !later.any (deletes made.1)).toList ++ live later

/-- One event more deletes what was there before it, and what it makes comes to the end. -/
theorem live_append_singleton (events : List Event) (event : Event) :
    live (events ++ [event]) =
      (live events).filter (fun made => !deletes made.1 event) ++ (made? event).toList := by
  induction events with
  | nil => cases hmade : made? event <;> simp [live, hmade]
  | cons first events ih =>
      rw [List.cons_append, live, ih, live, List.filter_append, ← List.append_assoc]
      congr 2
      cases made? first with
      | none => rfl
      | some made =>
          by_cases hgone : events.any (deletes made.1) <;>
            by_cases hnow : deletes made.1 event <;>
            simp [Option.filter, List.any_append, hgone, hnow]

/-! ### Sessions of a table -/

/-- The sessions of a table in their order, each with its limit. -/
def roster (table : SessionTable σ) : List (Uuid × Int) :=
  table.sessions.map fun session => (session.id, (session.limit : Int))

variable {table : SessionTable σ} {kind : EngineKind σ} {id : Uuid}

theorem ids_eq_map_roster (table : SessionTable σ) : table.ids = table.roster.map Prod.fst := by
  rw [roster, List.map_map]
  rfl

/-- Identifiers that are there once each find every session. -/
theorem find?_of_mem (hids : table.ids.Nodup) {session : Session σ}
    (hsession : session ∈ table.sessions) : table.find? session.id = some session := by
  cases hfind : table.find? session.id with
  | none => exact absurd (List.mem_map_of_mem hsession) (find?_eq_none_iff.mp hfind)
  | some found =>
      have hsame := List.inj_on_of_nodup_map hids (mem_of_find?_eq_some hfind) hsession
        (id_eq_of_find?_eq_some hfind)
      rw [hsame]

variable {work : Session σ → Answer α × Session σ}

theorem roster_modify (hids : table.ids.Nodup) (id : Uuid)
    (hwork : ∀ session : Session σ, session.Continues (work session).2) :
    (table.modify id work).2.roster = table.roster := by
  unfold modify
  cases hfind : table.find? id with
  | none => rfl
  | some session =>
      have hlater := hwork session
      apply map_sessions_replace hids (mem_of_find?_eq_some hfind) hlater.id_eq
      rw [hlater.id_eq, hlater.limit_eq]

theorem roster_push (table : SessionTable σ) (session : Session σ) :
    (table.push session).roster = table.roster ++ [(session.id, (session.limit : Int))] := by
  rw [roster, push, List.map_append, List.map_singleton, roster]

theorem roster_without (table : SessionTable σ) (id : Uuid) :
    (table.without id).roster = table.roster.filter (·.1 ≠ id) := by
  rw [roster, without, roster, List.filter_map]
  rfl

/-! ### The roster after an operation -/

theorem roster_create (table : SessionTable σ) (kind : EngineKind σ) (id : Uuid) (limit : Int) :
    (table.create kind id limit).2.roster =
      table.roster ++ (made? (.create id limit, .made (table.create kind id limit).1)).toList := by
  rcases table.create_cases kind id limit with ⟨fault, hcreate⟩ | ⟨checked, -, hlimit, -, hcreate⟩
  · simp [hcreate, made?]
  · rw [hcreate, roster_push, ← hlimit]
    rfl

theorem roster_restore (table : SessionTable σ) (kind : EngineKind σ) (entry : SnapshotEntry) :
    (table.restore kind entry).2.roster =
      table.roster ++ (made? (.restore entry, .made (table.restore kind entry).1)).toList := by
  rcases table.restore_cases kind entry with
    ⟨failure, hrestore, -⟩ | ⟨checked, found, session, -, hlimit, hfilled, -, hrestore⟩
  · simp [hrestore, made?]
  · have hcontinues := (Session.create kind entry.id checked).continues_addLines kind entry.lines
    rw [hfilled] at hcontinues
    have hid : session.id = entry.id := hcontinues.id_eq
    have hsame : session.limit = checked := hcontinues.limit_eq
    rw [hrestore, roster_push, hid, hsame, hlimit]
    rfl

theorem roster_delete (table : SessionTable σ) (id : Uuid) :
    (table.delete id).2.roster = table.roster.filter fun made =>
      !deletes made.1 (.delete id, .deleted (table.delete id).1) := by
  rcases table.delete_cases id with ⟨-, hdelete⟩ | ⟨-, hdelete⟩
  · simp [hdelete, deletes]
  · rw [hdelete, roster_without]
    apply List.filter_congr
    intro made _
    simp [deletes, eq_comm]

/-- An operation takes out of the roster what it deletes and puts to its end what it makes. -/
theorem roster_perform (hids : table.ids.Nodup) (kind : EngineKind σ) (operation : Operation) :
    (table.perform kind operation).2.roster =
      table.roster.filter (fun made =>
        !deletes made.1 (operation, (table.perform kind operation).1)) ++
      (made? (operation, (table.perform kind operation).1)).toList := by
  cases operation with
  | create id limit => simpa [perform, deletes] using table.roster_create kind id limit
  | restore entry => simpa [perform, deletes] using table.roster_restore kind entry
  | delete id => simpa [perform, made?] using table.roster_delete id
  | addLines id lines =>
      have hsame : (table.addLines kind id lines).2.roster = table.roster :=
        roster_modify hids id fun session => session.continues_addLines kind lines
      simpa [perform, deletes, made?] using hsame
  | search id =>
      have hsame : (table.search kind id).2.roster = table.roster :=
        roster_modify hids id fun session => session.continues_search kind
      simpa [perform, deletes, made?] using hsame
  | derive id maxPasses =>
      cases maxPasses with
      | zero => simp [perform, derive, deletes, made?]
      | succ passes =>
          have hsame : (table.derive kind id (passes + 1)).2.roster = table.roster :=
            roster_modify hids id fun session => session.continues_derive kind (passes + 1)
          simpa [perform, deletes, made?] using hsame
  | lines | list | snapshot => simp [perform, deletes, made?]

variable {events : List Event}

/-- The record of a table tells its sessions. -/
theorem Recorded.roster_eq (h : Recorded events table) : table.roster = live events := by
  induction h with
  | empty => rfl
  | perform kind operation hbefore ih =>
      rw [roster_perform hbefore.reachable.nodup_ids, live_append_singleton, ih]

theorem limit_pos_invariant (kind : EngineKind σ) :
    Session.Invariant kind fun session => 0 < session.limit where
  create _ _ hlimit := hlimit
  offer session line hlimit := (session.continues_offer kind line).limit_eq ▸ hlimit
  search session hlimit := (session.continues_search kind).limit_eq ▸ hlimit

/-! ### Sessions that are not there -/

theorem isNotFound_lines_iff : (table.lines id).IsNotFound ↔ id ∉ table.ids := by
  rw [← find?_eq_none_iff]
  unfold SessionTable.lines SessionTable.get
  cases table.find? id <;> simp [Answer.IsNotFound, Except.map, notFound]

theorem isNotFound_delete_iff : (table.delete id).1.IsNotFound ↔ id ∉ table.ids := by
  rcases table.delete_cases id with ⟨hid, hdelete⟩ | ⟨hid, hdelete⟩ <;>
    simp [hid, hdelete, Answer.IsNotFound, notFound]

/-- Work that fails with the engine only is answered so just where there is no session. -/
theorem isNotFound_modify_iff
    (hwork : ∀ session failure, (work session).1 = .error failure →
      ∃ error, failure = .engine error) :
    (table.modify id work).1.IsNotFound ↔ id ∉ table.ids := by
  rw [← find?_eq_none_iff]
  cases hfind : table.find? id with
  | none => simp [modify, hfind, Answer.IsNotFound, notFound]
  | some session =>
      rw [modify_of_find? hfind]
      constructor
      · rintro ⟨name, hname⟩
        obtain ⟨error, herror⟩ := hwork session _ hname
        simp at herror
      · intro hnone
        simp at hnone

/-! ### What a table answers -/

/-- Lists and snapshots show the sessions that were made and not deleted since, once each, in the
order in which they were made, with the limits that were asked for and the lines that are answered
for them. The size of a table is the number of these sessions, and an operation on a session is
answered that there is none just where the identifier is none of theirs. -/
theorem summaries_and_snapshot_of_recorded (h : Recorded events table) :
    let ids := (live events).map Prod.fst
    (table.summaries.map fun summary => (summary.id, (summary.limit : Int))) = live events ∧
    (table.snapshot.map fun entry => (entry.id, entry.limit)) = live events ∧
    ids.Nodup ∧
    (∀ summary ∈ table.summaries, 0 < summary.limit ∧
      ∃ lines, table.lines summary.id = .ok lines ∧ summary.size = lines.length) ∧
    (∀ entry ∈ table.snapshot, table.lines entry.id = .ok entry.lines) ∧
    table.size = (live events).length ∧
    ∀ (kind : EngineKind σ) (id : Uuid),
      ((table.lines id).IsNotFound ↔ id ∉ ids) ∧
      (∀ lines, (table.addLines kind id lines).1.IsNotFound ↔ id ∉ ids) ∧
      ((table.search kind id).1.IsNotFound ↔ id ∉ ids) ∧
      ((table.delete id).1.IsNotFound ↔ id ∉ ids) := by
  intro ids
  have hids : table.ids = ids := by rw [ids_eq_map_roster, h.roster_eq]
  have hlines : ∀ session ∈ table.sessions, table.lines session.id = .ok session.lines := by
    intro session hsession
    exact lines_eq_ok_iff.mpr ⟨session, find?_of_mem h.reachable.nodup_ids hsession, rfl⟩
  refine ⟨?summaries, ?snapshot, hids ▸ h.reachable.nodup_ids, ?sizes, ?entries, ?count, ?notFound⟩
  case summaries =>
    rw [← h.roster_eq, summaries, List.map_map]
    rfl
  case snapshot =>
    rw [← h.roster_eq, snapshot, List.map_map]
    rfl
  case sizes =>
    rw [summaries, List.forall_mem_map]
    intro session hsession
    have hpositive := h.reachable.everywhere limit_pos_invariant session hsession
    exact ⟨hpositive, session.lines, hlines session hsession, rfl⟩
  case entries =>
    rw [snapshot, List.forall_mem_map]
    exact hlines
  case count =>
    rw [← h.roster_eq, roster, List.length_map]
    rfl
  case notFound =>
    intro kind id
    rw [← hids]
    refine ⟨isNotFound_lines_iff, fun lines => ?_, ?_, isNotFound_delete_iff⟩
    · exact isNotFound_modify_iff fun _ _ => Session.exists_engine_of_addLines_eq_error
    · exact isNotFound_modify_iff fun _ _ => Session.exists_engine_of_search_eq_error

/-- Two sessions are made, and neither is made again while it is there, nor is one with a limit of
zero made. The first one is deleted; with engines that fail, an entry with a line is not restored,
and the one that is restored under the deleted identifier comes to the end. -/
theorem summaries_and_snapshot_of_scripts :
    let other : Uuid := ⟨List.replicate 32 1, List.length_replicate⟩
    let third : Uuid := ⟨List.replicate 32 2, List.length_replicate⟩
    let willing : Script := ⟨.ok true, .ok ["(b)"]⟩
    let failing : Script := ⟨.error (.internal "off"), .error (.internal "off")⟩
    let operations : List Operation :=
      [.create .zero 4, .create other 2, .create .zero 9, .restore ⟨other, 5, []⟩,
        .create third 0, .addLines other ["a"], .search other, .delete .zero, .delete .zero]
    let later : List Operation :=
      [.restore ⟨third, 3, ["a"]⟩, .restore ⟨.zero, 7, []⟩, .search other]
    let before := SessionTable.empty.run willing.kind operations
    let after := before.2.run failing.kind later
    let events := operations.zip before.1 ++ later.zip after.1
    Recorded events after.2 ∧ live events = [(other, 2), (.zero, 7)] ∧
    (after.2.summaries.map fun summary => (summary.id, (summary.limit : Int))) =
      [(other, 2), (.zero, 7)] ∧
    (after.2.snapshot.map fun entry => (entry.id, entry.limit)) = [(other, 2), (.zero, 7)] ∧
    after.2.size = 2 ∧
    (after.2.search failing.kind third).1.IsNotFound ∧
    ¬ (after.2.search failing.kind other).1.IsNotFound := by
  intro other third willing failing operations later before after events
  have hrecorded : Recorded events after.2 :=
    (Recorded.empty.run willing.kind operations).run failing.kind later
  have hlive : live events = [(other, 2), (.zero, 7)] := by decide +kernel
  obtain ⟨hsummaries, hsnapshot, -, -, -, hsize, hnotFound⟩ :=
    summaries_and_snapshot_of_recorded hrecorded
  rw [hlive] at hsummaries hsnapshot hsize hnotFound
  refine ⟨hrecorded, hlive, hsummaries, hsnapshot, hsize, ?_, ?_⟩
  · exact (hnotFound failing.kind third).2.2.1.mpr (by decide)
  · exact fun hnone => (hnotFound failing.kind other).2.2.1.mp hnone (by decide)

end SessionTable

end Sequitur
