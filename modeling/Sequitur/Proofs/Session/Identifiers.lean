import Mathlib.Data.List.Nodup
import Sequitur.Proofs.Session.Runs

/-!
# Identifiers of a table

No two sessions of a table have the same identifier: a session is inserted under an identifier
that is not taken, and work on a session leaves the list of identifiers as it is.
-/

namespace Sequitur.SessionTable

variable {table : SessionTable σ}

theorem insert_of_not_mem {session : Session σ} (h : session.id ∉ table.ids) :
    table.insert session = .ok ⟨table.sessions ++ [session]⟩ := by
  rw [SessionTable.insert, find?_eq_none_iff.mpr h]

/-- Putting a session in the place of another one keeps the identifiers in their places. -/
@[simp] theorem ids_replace (table : SessionTable σ) (session : Session σ) :
    (table.replace session).ids = table.ids := by
  rw [ids, replace, List.map_map, ids]
  apply List.map_congr_left
  intro other _
  rw [Function.comp_apply]
  split
  · rename_i hid
    exact hid.symm
  · rfl

@[simp] theorem ids_modify (table : SessionTable σ) (id : Uuid)
    (work : Session σ → Answer α × Session σ) : (table.modify id work).2.ids = table.ids := by
  unfold modify
  split
  · rfl
  · exact ids_replace _ _

/-- Where no other session has the identifier, a session that is put into the place of another one
is not seen by what does not tell the two apart. -/
theorem map_sessions_replace (hids : table.ids.Nodup) {session later : Session σ}
    (hsession : session ∈ table.sessions) (hid : later.id = session.id) {f : Session σ → β}
    (hf : f later = f session) : (table.replace later).sessions.map f = table.sessions.map f := by
  rw [replace, List.map_map]
  apply List.map_congr_left
  intro other hother
  rw [Function.comp_apply]
  split
  · rename_i hsame
    rw [hf, List.inj_on_of_nodup_map hids hother hsession (hsame.trans hid)]
  · rfl

theorem replace_self (hids : table.ids.Nodup) {session : Session σ}
    (hsession : session ∈ table.sessions) : table.replace session = table := by
  have hsame := map_sessions_replace hids hsession rfl (f := id) rfl
  rw [List.map_id, List.map_id] at hsame
  exact congrArg SessionTable.mk hsame

@[simp] theorem ids_push (table : SessionTable σ) (session : Session σ) :
    (table.push session).ids = table.ids ++ [session.id] :=
  List.map_append

theorem nodup_ids_push {session : Session σ} (h : table.ids.Nodup) (hid : session.id ∉ table.ids) :
    (table.push session).ids.Nodup := by
  rw [ids_push]
  exact h.append (List.nodup_singleton _) (by simpa using hid)

theorem nodup_ids_without (h : table.ids.Nodup) (id : Uuid) : (table.without id).ids.Nodup :=
  h.sublist (List.filter_sublist.map Session.id)

theorem nodup_ids_replace (h : table.ids.Nodup) (session : Session σ) :
    (table.replace session).ids.Nodup := by
  rw [ids_replace]
  exact h

variable {kind : EngineKind σ}

theorem nodup_ids_create (h : table.ids.Nodup) (id : Uuid) (limit : Int) :
    (table.create kind id limit).2.ids.Nodup := by
  rcases table.create_cases kind id limit with ⟨fault, hcreate⟩ | ⟨checked, -, -, hid, hcreate⟩
  · rw [hcreate]
    exact h
  · rw [hcreate]
    exact nodup_ids_push h hid

theorem nodup_ids_delete (h : table.ids.Nodup) (id : Uuid) : (table.delete id).2.ids.Nodup := by
  rcases table.delete_cases id with ⟨-, hdelete⟩ | ⟨-, hdelete⟩
  · rw [hdelete]
    exact h
  · rw [hdelete]
    exact nodup_ids_without h id

theorem nodup_ids_restore (h : table.ids.Nodup) (entry : SnapshotEntry) :
    (table.restore kind entry).2.ids.Nodup := by
  rcases table.restore_cases kind entry with
    ⟨failure, hrestore, -⟩ | ⟨checked, found, session, -, -, -, hid, hrestore⟩
  · rw [hrestore]
    exact h
  · rw [hrestore]
    exact nodup_ids_push h hid

@[simp] theorem ids_derive (table : SessionTable σ) (id : Uuid) (maxPasses : Nat) :
    (table.derive kind id maxPasses).2.ids = table.ids := by
  cases maxPasses with
  | zero => rfl
  | succ passes => exact ids_modify _ _ _

theorem nodup_ids_perform (h : table.ids.Nodup) :
    (operation : Operation) → (table.perform kind operation).2.ids.Nodup
  | .create id limit => nodup_ids_create h id limit
  | .delete id => nodup_ids_delete h id
  | .addLines id _ | .search id => (ids_modify table id _).symm ▸ h
  | .derive id maxPasses => (ids_derive table id maxPasses).symm ▸ h
  | .restore entry => nodup_ids_restore h entry
  | .lines _ | .list | .snapshot => h

theorem nodup_ids_run (h : table.ids.Nodup) (operations : List Operation) :
    (table.run kind operations).2.ids.Nodup := by
  induction operations generalizing table with
  | nil => exact h
  | cons operation operations ih => exact ih (nodup_ids_perform h operation)

theorem Reachable.nodup_ids (h : table.Reachable) : table.ids.Nodup := by
  induction h with
  | empty => exact List.nodup_nil
  | perform kind operation _ ih => exact nodup_ids_perform ih operation

end Sequitur.SessionTable
