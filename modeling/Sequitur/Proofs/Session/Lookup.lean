import Sequitur.Proofs.Session.Identifiers

/-!
# Sessions that are looked up

Which session has an identifier after a table has changed: a session that was inserted is found
under its identifier, and work on a session is seen where that session is looked up. Under
every other identifier the same session is found as before.

Work is taken to keep the identifier of the session it is done on.
-/

namespace Sequitur.SessionTable

variable {table : SessionTable σ} {id : Uuid}

theorem lines_eq_ok_iff {lines : List String} :
    table.lines id = .ok lines ↔
      ∃ session, table.find? id = some session ∧ session.lines = lines := by
  unfold SessionTable.lines SessionTable.get
  cases table.find? id <;> simp [Except.map]

/-! ### Sessions that come and go -/

theorem find?_push_self {session : Session σ} (hid : session.id ∉ table.ids) :
    (table.push session).find? session.id = some session := by
  have hnone : table.sessions.find? (·.id = session.id) = none := find?_eq_none_iff.mpr hid
  rw [find?, push, List.find?_append, hnone, Option.none_or]
  simp

theorem find?_push_of_ne {session : Session σ} (hne : session.id ≠ id) :
    (table.push session).find? id = table.find? id := by
  rw [find?, push, List.find?_append, find?]
  simp [hne]

theorem find?_push_of_find? {session other : Session σ} (hfind : table.find? id = some other) :
    (table.push session).find? id = some other := by
  rw [find?] at hfind
  rw [find?, push, List.find?_append, hfind, Option.some_or]

theorem find?_without_self : (table.without id).find? id = none := by
  rw [find?, List.find?_eq_none]
  intro session hsession
  simpa using (List.mem_filter.mp hsession).2

theorem find?_without_of_ne {other : Uuid} (hne : id ≠ other) :
    (table.without other).find? id = table.find? id := by
  rw [find?, without, List.find?_filter, find?]
  congr 1
  funext candidate
  by_cases hid : candidate.id = id
  · simp [hid, hne]
  · simp [hid]

variable {kind : EngineKind σ}

theorem find?_create_of_find? {session : Session σ} (hfind : table.find? id = some session)
    (other : Uuid) (limit : Int) : (table.create kind other limit).2.find? id = some session := by
  rcases table.create_cases kind other limit with ⟨fault, hcreate⟩ | ⟨checked, -, -, -, hcreate⟩
  · rw [hcreate]
    exact hfind
  · rw [hcreate]
    exact find?_push_of_find? hfind

theorem find?_restore_of_find? {session : Session σ} (hfind : table.find? id = some session)
    (entry : SnapshotEntry) : (table.restore kind entry).2.find? id = some session := by
  rcases table.restore_cases kind entry with
    ⟨failure, hrestore, -⟩ | ⟨checked, found, other, -, -, -, -, hrestore⟩
  · rw [hrestore]
    exact hfind
  · rw [hrestore]
    exact find?_push_of_find? hfind

theorem find?_delete_of_ne {other : Uuid} (hne : id ≠ other) :
    (table.delete other).2.find? id = table.find? id := by
  rcases table.delete_cases other with ⟨-, hdelete⟩ | ⟨-, hdelete⟩
  · rw [hdelete]
  · rw [hdelete]
    exact find?_without_of_ne hne

/-- A session that was created is found without lines. -/
theorem find?_create_self {limit : Int} {made : Uuid}
    (hmade : (table.create kind id limit).1 = .ok made) :
    made = id ∧ ∃ checked,
      (table.create kind id limit).2.find? id = some (.create kind id checked) := by
  rcases table.create_cases kind id limit with ⟨fault, hcreate⟩ | ⟨checked, -, -, hid, hcreate⟩
  · simp [hcreate] at hmade
  · rw [hcreate] at hmade ⊢
    exact ⟨(Except.ok.inj hmade).symm, checked, find?_push_self hid⟩

/-! ### Sessions that are worked on -/

/-- Whoever has an identifier keeps its place, so the search for it ends at the same place. -/
theorem find?_replace (table : SessionTable σ) (session : Session σ) (id : Uuid) :
    (table.replace session).find? id =
      (table.find? id).map fun other => if other.id = session.id then session else other := by
  rw [find?, replace, List.find?_map, find?]
  congr 2
  funext other
  rw [Function.comp_apply]
  split
  · rename_i hid
    rw [hid]
  · rfl

theorem find?_replace_self {session later : Session σ} (hfind : table.find? id = some session)
    (hid : later.id = session.id) : (table.replace later).find? id = some later := by
  rw [find?_replace, hfind, Option.map_some, hid, if_pos rfl]

/-- The session that was put into a place last is there. -/
theorem replace_replace (table : SessionTable σ) {session later : Session σ}
    (hid : later.id = session.id) :
    (table.replace session).replace later = table.replace later := by
  rw [replace, replace, replace, List.map_map]
  congr 1
  apply List.map_congr_left
  intro other _
  rw [Function.comp_apply, hid]
  by_cases hother : other.id = session.id <;> simp [hother]

variable {work : Session σ → Answer α × Session σ}

theorem modify_of_find? {session : Session σ} (hfind : table.find? id = some session) :
    table.modify id work = ((work session).1, table.replace (work session).2) := by
  rw [modify, hfind]

/-- Work that leaves the session as it is leaves the table as it is. -/
theorem modify_of_same (hids : table.ids.Nodup) {session : Session σ}
    (hfind : table.find? id = some session) {answer : Answer α}
    (hwork : work session = (answer, session)) : table.modify id work = (answer, table) := by
  rw [modify_of_find? hfind, hwork, replace_self hids (mem_of_find?_eq_some hfind)]

/-- Also a derivation without passes is work on the session: it leaves it as it is. -/
theorem derive_of_find? (hids : table.ids.Nodup) {session : Session σ}
    (hfind : table.find? id = some session) (maxPasses : Nat) :
    table.derive kind id maxPasses =
      ((session.derive kind maxPasses).1, table.replace (session.derive kind maxPasses).2) := by
  cases maxPasses with
  | zero =>
      rw [derive, Session.derive, replace_self hids (mem_of_find?_eq_some hfind)]
  | succ passes => exact modify_of_find? hfind

theorem find?_modify_self {session : Session σ} (hfind : table.find? id = some session)
    (hid : (work session).2.id = session.id) :
    (table.modify id work).2.find? id = some (work session).2 := by
  rw [modify_of_find? hfind, find?_replace_self hfind hid]

theorem find?_modify_of_ne {other : Uuid} (hne : id ≠ other)
    (hid : ∀ session ∈ table.sessions, (work session).2.id = session.id) :
    (table.modify other work).2.find? id = table.find? id := by
  unfold modify
  split
  · rfl
  · rename_i session hfind
    have hother : (work session).2.id = other := by
      rw [hid session (mem_of_find?_eq_some hfind), id_eq_of_find?_eq_some hfind]
    rw [find?_replace]
    cases hfound : table.find? id with
    | none => rfl
    | some found =>
        have hdiffers : found.id ≠ (work session).2.id := by
          rw [id_eq_of_find?_eq_some hfound, hother]
          exact hne
        rw [Option.map_some, if_neg hdiffers]

end Sequitur.SessionTable
