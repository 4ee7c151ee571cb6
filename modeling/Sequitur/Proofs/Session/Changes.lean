import Sequitur.Session.Manager

/-!
# What operations change in a table

A session comes to the end of a table, under an identifier that is not taken, or it leaves the
table and the others move up. Everything else that is done changes a session in its place. All
outcomes of the operations that make and delete sessions are listed here, once for each operation;
what these operations keep up, and why they fail, is proved from the lists.
-/

namespace Sequitur.SessionTable

/-- The table with one session more, at the end. -/
def push (table : SessionTable σ) (session : Session σ) : SessionTable σ :=
  ⟨table.sessions ++ [session]⟩

/-- The table without the session of an identifier. -/
def without (table : SessionTable σ) (id : Uuid) : SessionTable σ :=
  ⟨table.sessions.filter (·.id ≠ id)⟩

variable {table : SessionTable σ} {id : Uuid}

/-! ### Sessions and their identifiers -/

theorem mem_of_find?_eq_some {session : Session σ} (h : table.find? id = some session) :
    session ∈ table.sessions :=
  List.mem_of_find?_eq_some h

theorem id_eq_of_find?_eq_some {session : Session σ} (h : table.find? id = some session) :
    session.id = id := by
  have hid := List.find?_some h
  simpa using hid

theorem find?_eq_none_iff : table.find? id = none ↔ id ∉ table.ids := by
  rw [find?, List.find?_eq_none, ids, List.mem_map]
  constructor
  · rintro h ⟨session, hsession, rfl⟩
    exact h session hsession (by simp)
  · intro h session hsession hid
    exact h ⟨session, hsession, by simpa using hid⟩

theorem mem_ids_of_find?_eq_some {session : Session σ} (h : table.find? id = some session) :
    id ∈ table.ids := by
  rw [← id_eq_of_find?_eq_some h]
  exact List.mem_map_of_mem (mem_of_find?_eq_some h)

/-! ### Limits -/

theorem checkedLimit_cases (limit : Int) :
    (∃ fault, checkedLimit limit = .error (.argument fault)) ∨
    ∃ checked : Nat, checkedLimit limit = .ok checked ∧ 0 < checked ∧ (checked : Int) = limit := by
  unfold checkedLimit
  split
  · exact .inl ⟨_, rfl⟩
  · exact .inr ⟨limit.toNat, rfl, by omega, by omega⟩

/-! ### Outcomes -/

theorem insert_cases (table : SessionTable σ) (session : Session σ) :
    (∃ fault, table.insert session = .error (.argument fault)) ∨
    session.id ∉ table.ids ∧ table.insert session = .ok (table.push session) := by
  unfold SessionTable.insert
  cases hfind : table.find? session.id with
  | some taken => exact .inl ⟨_, rfl⟩
  | none => exact .inr ⟨find?_eq_none_iff.mp hfind, rfl⟩

theorem create_cases (table : SessionTable σ) (kind : EngineKind σ) (id : Uuid) (limit : Int) :
    -- The limit is not positive, or the identifier is taken.
    (∃ fault, table.create kind id limit = (.error (.argument fault), table)) ∨
    ∃ checked : Nat, 0 < checked ∧ (checked : Int) = limit ∧ id ∉ table.ids ∧
      table.create kind id limit = (.ok id, table.push (.create kind id checked)) := by
  unfold SessionTable.create
  rcases checkedLimit_cases limit with ⟨fault, hlimit⟩ | ⟨checked, hlimit, hpos, hcast⟩
  · exact .inl ⟨fault, by rw [hlimit]⟩
  · rw [hlimit]
    rcases insert_cases table (.create kind id checked) with ⟨fault, hinsert⟩ | ⟨hid, hinsert⟩
    · exact .inl ⟨fault, by simp only [hinsert]⟩
    · exact .inr ⟨checked, hpos, hcast, hid, by simp only [hinsert]⟩

theorem delete_cases (table : SessionTable σ) (id : Uuid) :
    (id ∉ table.ids ∧ table.delete id = (.error (notFound id), table)) ∨
    id ∈ table.ids ∧ table.delete id = (.ok (), table.without id) := by
  unfold SessionTable.delete SessionTable.remove
  cases hfind : table.find? id with
  | none => exact .inl ⟨find?_eq_none_iff.mp hfind, rfl⟩
  | some session => exact .inr ⟨mem_ids_of_find?_eq_some hfind, rfl⟩

theorem restore_cases (table : SessionTable σ) (kind : EngineKind σ) (entry : SnapshotEntry) :
    -- The limit is not positive, the identifier is taken, or the lines cannot be added.
    (∃ failure, table.restore kind entry = (.error failure, table) ∧
      ((∃ fault, failure = .argument fault) ∨ ∃ checked : Nat, 0 < checked ∧
        ((Session.create kind entry.id checked).addLines kind entry.lines).1 = .error failure)) ∨
    ∃ (checked : Nat) (found : List String) (session : Session σ),
      0 < checked ∧ (checked : Int) = entry.limit ∧
      (Session.create kind entry.id checked).addLines kind entry.lines = (.ok found, session) ∧
      session.id ∉ table.ids ∧ table.restore kind entry = (.ok entry.id, table.push session) := by
  unfold SessionTable.restore
  rcases checkedLimit_cases entry.limit with ⟨fault, hlimit⟩ | ⟨checked, hlimit, hpos, hcast⟩
  · exact .inl ⟨_, by rw [hlimit], .inl ⟨fault, rfl⟩⟩
  · rw [hlimit]
    rcases hfilled : (Session.create kind entry.id checked).addLines kind entry.lines with
      ⟨failure | found, session⟩
    · refine .inl ⟨failure, by simp only [hfilled], .inr ⟨checked, hpos, ?_⟩⟩
      rw [hfilled]
    · rcases insert_cases table session with ⟨fault, hinsert⟩ | ⟨hid, hinsert⟩
      · exact .inl ⟨_, by simp only [hfilled, hinsert], .inl ⟨fault, rfl⟩⟩
      · refine .inr ⟨checked, found, session, hpos, hcast, hfilled, hid, ?_⟩
        simp only [hfilled, hinsert]

theorem snd_restore_of_eq_error {kind : EngineKind σ} {entry : SnapshotEntry} {failure : Failure}
    (h : (table.restore kind entry).1 = .error failure) :
    (table.restore kind entry).2 = table := by
  rcases table.restore_cases kind entry with
    ⟨reason, hrestore, -⟩ | ⟨checked, found, session, -, -, -, -, hrestore⟩
  · rw [hrestore]
  · simp [hrestore] at h

end Sequitur.SessionTable
