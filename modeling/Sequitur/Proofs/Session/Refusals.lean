import Sequitur.Proofs.Session.Answers

/-!
# Operations that fail

With the forward engine an operation fails only for what was asked: an argument is refused, or
there is no session of the identifier. It then has not begun to work, and the table is as it was.
-/

namespace Sequitur

/-- Failures that are the caller's: an argument is refused, or there is no such session. -/
inductive Failure.IsRefusal : Failure → Prop where
  | argument (fault : ArgumentFault) : IsRefusal (.argument fault)
  | sessionNotFound (name : String) : IsRefusal (.sessionNotFound name)

/-- The failure that an answer is, if it is one. -/
def Answer.failure? : Answer α → Option Failure
  | .error failure => some failure
  | .ok _ => none

theorem Answer.failure?_eq_some_iff {answer : Answer α} {failure : Failure} :
    answer.failure? = some failure ↔ answer = .error failure := by
  cases answer <;> simp [Answer.failure?]

namespace SessionTable

/-- The failure that a reply tells of, if it tells of one. -/
def Reply.failure? : Reply → Option Failure
  | .made answer => answer.failure?
  | .deleted answer => answer.failure?
  | .lines answer => answer.failure?
  | .summaries _ | .entries _ => none

variable {failure : Failure}

theorem isRefusal_notFound (id : Uuid) : (notFound id).IsRefusal := .sessionNotFound _

variable {table : SessionTable σ} {kind : EngineKind σ} {id : Uuid}

theorem refused_create {limit : Int} (h : (table.create kind id limit).1 = .error failure) :
    failure.IsRefusal ∧ (table.create kind id limit).2 = table := by
  rcases table.create_cases kind id limit with ⟨fault, hcreate⟩ | ⟨checked, -, -, -, hcreate⟩
  · rw [hcreate] at h ⊢
    rw [← Except.error.inj h]
    exact ⟨.argument fault, rfl⟩
  · simp [hcreate] at h

theorem refused_delete (h : (table.delete id).1 = .error failure) :
    failure.IsRefusal ∧ (table.delete id).2 = table := by
  rcases table.delete_cases id with ⟨-, hdelete⟩ | ⟨-, hdelete⟩
  · rw [hdelete] at h ⊢
    rw [← Except.error.inj h]
    exact ⟨isRefusal_notFound id, rfl⟩
  · simp [hdelete] at h

theorem refused_lines (h : table.lines id = .error failure) : failure.IsRefusal := by
  unfold SessionTable.lines SessionTable.get at h
  cases hfind : table.find? id with
  | none =>
      simp only [hfind, Except.map] at h
      rw [← Except.error.inj h]
      exact isRefusal_notFound id
  | some session => simp [hfind, Except.map] at h

section Forward

variable {table : SessionTable Forward}

/-- Work that makes a session learn rules does not fail, so there was no session to work on. -/
theorem refused_modify {work : Session Forward → Answer (List String) × Session Forward}
    (hwork : ∀ session ∈ table.sessions, session.Learns (work session))
    (h : (table.modify id work).1 = .error failure) :
    failure.IsRefusal ∧ (table.modify id work).2 = table := by
  cases hfind : table.find? id with
  | none =>
      rw [modify, hfind] at h ⊢
      rw [← Except.error.inj h]
      exact ⟨isRefusal_notFound id, rfl⟩
  | some session =>
      obtain ⟨rules, hresult⟩ := hwork session (mem_of_find?_eq_some hfind)
      rw [modify_of_find? hfind, hresult] at h
      simp at h

theorem refused_restore {entry : SnapshotEntry}
    (h : (table.restore Forward.kind entry).1 = .error failure) :
    failure.IsRefusal ∧ (table.restore Forward.kind entry).2 = table := by
  rcases table.restore_cases Forward.kind entry with
    ⟨reason, hrestore, hreason⟩ | ⟨checked, found, session, -, -, -, -, hrestore⟩
  · rw [hrestore] at h ⊢
    rw [← Except.error.inj h]
    rcases hreason with ⟨fault, rfl⟩ | ⟨checked, hpos, hfilled⟩
    · exact ⟨.argument fault, rfl⟩
    · obtain ⟨rules, hlearned⟩ := (Session.InStep.create entry.id hpos).learns_addLines entry.lines
      simp [hlearned] at hfilled
  · simp [hrestore] at h

/-- An operation that fails is refused, and leaves the table as it was. -/
theorem Everywhere.refused (htable : table.Everywhere Session.InStep) {operation : Operation}
    (h : (table.perform Forward.kind operation).1.failure? = some failure) :
    failure.IsRefusal ∧ (table.perform Forward.kind operation).2 = table := by
  cases operation with
  | create made limit => exact refused_create (Answer.failure?_eq_some_iff.mp h)
  | delete gone => exact refused_delete (Answer.failure?_eq_some_iff.mp h)
  | restore entry => exact refused_restore (Answer.failure?_eq_some_iff.mp h)
  | lines asked => exact ⟨refused_lines (Answer.failure?_eq_some_iff.mp h), rfl⟩
  | addLines worked lines =>
      apply refused_modify _ (Answer.failure?_eq_some_iff.mp h)
      exact fun session hsession => (htable session hsession).learns_addLines lines
  | search worked =>
      apply refused_modify _ (Answer.failure?_eq_some_iff.mp h)
      exact fun session hsession => (htable session hsession).learns_search
  | derive worked maxPasses =>
      cases maxPasses with
      | zero =>
          simp [SessionTable.perform, SessionTable.derive, Reply.failure?, Answer.failure?] at h
      | succ passes =>
          apply refused_modify _ (Answer.failure?_eq_some_iff.mp h)
          exact fun session hsession => (htable session hsession).learns_derive (passes + 1)
  | list | snapshot => simp [SessionTable.perform, Reply.failure?] at h

end Forward

end SessionTable

end Sequitur
