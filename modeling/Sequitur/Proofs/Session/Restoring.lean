import Mathlib.Data.List.Forall2
import Sequitur.Proofs.Session.Answers
import Sequitur.Proofs.Session.SnapshotFile

/-!
# Files that are restored

Restoring a file adds sessions behind those that are there, one for each entry that can be taken up,
and touches nothing else. An entry is taken up or not for its limit and its identifier alone,
whatever its lines hold: lines that are no rules or too large are left out of its session, which is
filled like one that was made empty and had the lines added. An entry that is not taken up leaves
nothing behind, although its session is filled before its identifier is compared with the others.
-/

namespace Sequitur

namespace SnapshotEntry

/-- The entries that are taken up where some identifiers are taken: those with a positive limit
whose identifier is not taken, neither from the beginning nor by an earlier entry that is taken
up. -/
def accepted (taken : List Uuid) : List SnapshotEntry → List SnapshotEntry
  | [] => []
  | entry :: entries =>
      if 0 < entry.limit ∧ entry.id ∉ taken then
        entry :: accepted (taken ++ [entry.id]) entries
      else accepted taken entries

/-- A session that an entry makes: it has the identifier and the limit of the entry, and the lines
that an empty session of that limit answers with when it is given the lines of the entry. -/
structure Makes (entry : SnapshotEntry) (session : Session Forward) : Prop where
  id_eq : session.id = entry.id
  limit_eq : (session.limit : Int) = entry.limit
  addLines_eq : (Session.create Forward.kind entry.id session.limit).addLines Forward.kind
    entry.lines = (.ok session.lines, session)

/-- The lines of a session that an entry makes are found from the entry alone. -/
theorem Makes.lines_eq {entry : SnapshotEntry} {session : Session Forward}
    (h : entry.Makes session) :
    ((Session.create Forward.kind entry.id entry.limit.toNat).addLines Forward.kind
      entry.lines).1.toOption = some session.lines := by
  have hlimit : session.limit = entry.limit := h.limit_eq
  have hnat : entry.limit.toNat = session.limit := by omega
  rw [hnat, h.addLines_eq]
  rfl

end SnapshotEntry

namespace SessionTable

variable {table : SessionTable Forward} {entry : SnapshotEntry}

theorem restore_of_accepted (hlimit : 0 < entry.limit) (hid : entry.id ∉ table.ids) :
    ∃ session, entry.Makes session ∧
      table.restore Forward.kind entry = (.ok entry.id, table.push session) := by
  obtain ⟨limit, hcast⟩ := Int.eq_ofNat_of_zero_le (Int.le_of_lt hlimit)
  have hpos : 0 < limit := by omega
  let fresh := Session.create Forward.kind entry.id limit
  obtain ⟨rules, hfilled⟩ := (Session.InStep.create entry.id hpos).learns_addLines entry.lines
  have hmakes : entry.Makes (fresh.learn rules) := ⟨rfl, hcast.symm, hfilled⟩
  refine ⟨fresh.learn rules, hmakes, ?_⟩
  have hnew : (fresh.learn rules).id ∉ table.ids := hid
  simp only [restore, hcast, checkedLimit_natCast hpos, hfilled]
  rw [insert_of_not_mem hnew]
  rfl

theorem restore_of_not_accepted (h : ¬(0 < entry.limit ∧ entry.id ∉ table.ids)) :
    ∃ failure, table.restore Forward.kind entry = (.error failure, table) := by
  rcases table.restore_cases Forward.kind entry with
    ⟨failure, hrestore, -⟩ | ⟨checked, found, session, hpos, hlimit, hfilled, hid, -⟩
  · exact ⟨failure, hrestore⟩
  · have hlearns := (Session.InStep.create entry.id hpos).learns_addLines entry.lines
    rw [hfilled] at hlearns
    have hsame : session.id = entry.id := hlearns.id_eq
    exact absurd ⟨by omega, hsame ▸ hid⟩ h

/-- Entries are taken up one after the other, behind the sessions that are there. -/
theorem exists_restoreAll_eq (table : SessionTable Forward) (entries : List SnapshotEntry) :
    ∃ made, List.Forall₂ SnapshotEntry.Makes (SnapshotEntry.accepted table.ids entries) made ∧
      table.restoreAll Forward.kind entries =
        ((SnapshotEntry.accepted table.ids entries).length, ⟨table.sessions ++ made⟩) := by
  induction entries generalizing table with
  | nil => exact ⟨[], .nil, by simp [restoreAll, SnapshotEntry.accepted]⟩
  | cons entry entries ih =>
      by_cases haccepted : 0 < entry.limit ∧ entry.id ∉ table.ids
      · obtain ⟨session, hmakes, hrestore⟩ := restore_of_accepted haccepted.1 haccepted.2
        obtain ⟨made, hothers, hrest⟩ := ih (table.push session)
        rw [ids_push, hmakes.id_eq] at hothers hrest
        rw [SnapshotEntry.accepted, if_pos haccepted]
        refine ⟨session :: made, .cons hmakes hothers, ?_⟩
        simp only [restoreAll, hrestore, hrest, List.length_cons]
        simp [push]
      · obtain ⟨failure, hrestore⟩ := restore_of_not_accepted haccepted
        rw [SnapshotEntry.accepted, if_neg haccepted]
        simp only [restoreAll, hrestore]
        exact ih table

end SessionTable

namespace SnapshotFile

/-- A file that is missing or holds no list of entries restores nothing and leaves the table as it
is. Any other file leaves the sessions of the table as they are and puts one session behind them for
each entry that is taken up, in the order of the file; the answer is how many these are. An entry
that is not restored leaves the table as it is. -/
theorem restore_eq_append_accepted (table : SessionTable Forward) (files : Files)
    (path : FilePath) :
    (∀ error, files.readText path = .error error →
      restore Forward.kind table files path = (0, table)) ∧
    (∀ text, files.readText path = .ok text →
      (∀ fault, SnapshotEntry.readAll text = .error fault →
        restore Forward.kind table files path = (0, table)) ∧
      ∀ entries, SnapshotEntry.readAll text = .ok entries →
        let accepted := SnapshotEntry.accepted table.ids entries
        ∃ made, List.Forall₂ SnapshotEntry.Makes accepted made ∧
          restore Forward.kind table files path =
            (accepted.length, ⟨table.sessions ++ made⟩)) ∧
    ∀ entry failure, (table.restore Forward.kind entry).1 = .error failure →
      (table.restore Forward.kind entry).2 = table := by
  refine ⟨?unread, ?read, fun _ _ h => SessionTable.snd_restore_of_eq_error h⟩
  case unread =>
    intro error hread
    cases error <;> simp [restore, load, hread, SessionTable.restoreAll]
  case read =>
    intro text hread
    constructor
    · intro fault hentries
      simp [restore, load, hread, hentries, Except.mapError]
    · intro entries hentries accepted
      obtain ⟨made, hmade, hrestored⟩ := table.exists_restoreAll_eq entries
      refine ⟨made, hmade, ?_⟩
      simpa [restore, load, hread, hentries, Except.mapError] using hrestored

/-- An entry without a positive limit, one with the identifier of a session that is there and one
with the identifier of an earlier entry are among two that are taken up, one of which has lines that
are no rule, known in other words and too large. Beside them a file that is not there, one that
holds no entries, and an entry that is not restored. -/
theorem restore_of_mixedEntries :
    let other : Uuid := ⟨List.replicate 32 1, List.length_replicate⟩
    let third : Uuid := ⟨List.replicate 32 2, List.length_replicate⟩
    let first : SnapshotEntry :=
      ⟨.zero, 3, ["(a)", "not ) valid", "a", "a, b, c -> d", "a -> b"]⟩
    let last : SnapshotEntry := ⟨third, 1, []⟩
    let entries : List SnapshotEntry :=
      [⟨.zero, -1, ["a"]⟩, ⟨other, 5, ["a"]⟩, first, ⟨.zero, 9, ["c"]⟩, last]
    let path : FilePath := .ofName "sessions.json"
    let files := (save .empty path ".sessions.json.tmp" entries).2
    let broken := Files.empty.set ["sessions.json"] (.file (Files.encode "[1"))
    let table := (SessionTable.empty.run Forward.kind [.create other 8]).2
    (∃ made, List.Forall₂ SnapshotEntry.Makes [first, last] made ∧
      made.map Session.lines = [["a", "a\n----\nb"], []] ∧
      restore Forward.kind table files path = (2, ⟨table.sessions ++ made⟩)) ∧
    restore Forward.kind table .empty path = (0, table) ∧
    restore Forward.kind table broken path = (0, table) ∧
    (table.restore Forward.kind ⟨.zero, 0, ["a"]⟩).2 = table := by
  intro other third first last entries path files broken table
  have hsaved : (save .empty path ".sessions.json.tmp" entries).1 = .ok () :=
    save_eq_ok_iff.mpr (by decide +kernel)
  have hread : files.readText path = .ok (SnapshotEntry.printAll entries) :=
    readText_of_replace (save_eq_ok_iff.mp hsaved)
  have hentries : SnapshotEntry.readAll (SnapshotEntry.printAll entries) = .ok entries :=
    SnapshotEntry.readAll_printAll (by decide)
  have haccepted : SnapshotEntry.accepted table.ids entries = [first, last] := by decide +kernel
  have hmissing : Files.empty.readText path = .error .notFound := by decide +kernel
  have hbroken : broken.readText path = .ok "[1" := by decide +kernel
  have hmalformed : SnapshotEntry.readAll "[1" = .error .misshapen := by decide +kernel
  have hrefused : (table.restore Forward.kind ⟨.zero, 0, ["a"]⟩).1 =
    .error (.argument (.limitNotPositive 0)) := rfl
  obtain ⟨-, hrestored, -⟩ := restore_eq_append_accepted table files path
  obtain ⟨made, hmade, hfiles⟩ := (hrestored _ hread).2 entries hentries
  rw [haccepted] at hmade hfiles
  have hlines : made.map Session.lines = [["a", "a\n----\nb"], []] := by
    obtain _ | ⟨hfirst, _ | ⟨hlast, _ | _⟩⟩ := hmade
    have hfirstLines : _ = ["a", "a\n----\nb"] :=
      Option.some.inj (hfirst.lines_eq.symm.trans (by decide +kernel))
    have hlastLines : _ = [] := Option.some.inj (hlast.lines_eq.symm.trans (by decide +kernel))
    rw [List.map_cons, List.map_cons, List.map_nil, hfirstLines, hlastLines]
  refine ⟨⟨made, hmade, hlines, hfiles⟩, ?_, ?_, ?_⟩
  · exact (restore_eq_append_accepted table .empty path).1 _ hmissing
  · exact ((restore_eq_append_accepted table broken path).2.1 _ hbroken).1 _ hmalformed
  · exact (restore_eq_append_accepted table files path).2.2 _ _ hrefused

end SnapshotFile

end Sequitur
