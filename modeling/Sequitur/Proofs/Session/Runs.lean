import Sequitur.Proofs.Session.Changes

/-!
# Runs of operations on a table

A table comes about by operations in any order, each with any arguments. What every fresh
session has, and no offered line and no pass takes away, every session has after every run.
-/

namespace Sequitur

namespace SessionTable

/-- What can be asked of a table. The identifier of a new session is drawn beforehand. -/
inductive Operation where
  | create (id : Uuid) (limit : Int)
  | delete (id : Uuid)
  | addLines (id : Uuid) (lines : List String)
  | lines (id : Uuid)
  | search (id : Uuid)
  | derive (id : Uuid) (maxPasses : Nat)
  | restore (entry : SnapshotEntry)
  | list
  | snapshot

/-- What is answered to an operation. -/
inductive Reply where
  | made (answer : Answer Uuid)
  | deleted (answer : Answer Unit)
  | lines (answer : Answer (List String))
  | summaries (summaries : List SessionSummary)
  | entries (entries : List SnapshotEntry)

variable (kind : EngineKind σ)

/-- Carries an operation out. -/
def perform (table : SessionTable σ) : Operation → Reply × SessionTable σ
  | .create id limit =>
      let (answer, table) := table.create kind id limit
      (.made answer, table)
  | .delete id =>
      let (answer, table) := table.delete id
      (.deleted answer, table)
  | .addLines id lines =>
      let (answer, table) := table.addLines kind id lines
      (.lines answer, table)
  | .lines id => (.lines (table.lines id), table)
  | .search id =>
      let (answer, table) := table.search kind id
      (.lines answer, table)
  | .derive id maxPasses =>
      let (answer, table) := table.derive kind id maxPasses
      (.lines answer, table)
  | .restore entry =>
      let (answer, table) := table.restore kind entry
      (.made answer, table)
  | .list => (.summaries table.summaries, table)
  | .snapshot => (.entries table.snapshot, table)

/-- Carries operations out one after the other. -/
def run (table : SessionTable σ) : List Operation → List Reply × SessionTable σ
  | [] => ([], table)
  | operation :: operations =>
      let (reply, table) := table.perform kind operation
      let (replies, table) := table.run operations
      (reply :: replies, table)

/-- The tables that come about by operations. The engines need not be of one kind: what they
answer may change with every operation. -/
inductive Reachable : SessionTable σ → Prop where
  | empty : Reachable .empty
  | perform {table} (kind : EngineKind σ) (operation : Operation) :
      Reachable table → Reachable (table.perform kind operation).2

theorem Reachable.run {table : SessionTable σ} (h : table.Reachable)
    (operations : List Operation) : (table.run kind operations).2.Reachable := by
  induction operations generalizing table with
  | nil => exact h
  | cons operation operations ih => exact ih (.perform kind operation h)

end SessionTable

/-- A property that fresh sessions have and that offered lines and passes keep up. -/
structure Session.Invariant (kind : EngineKind σ) (p : Session σ → Prop) : Prop where
  create : ∀ id limit, 0 < limit → p (.create kind id limit)
  offer : ∀ session line, p session → p (session.offer kind line).2
  search : ∀ session, p session → p (session.search kind).2

namespace Session.Invariant

open SessionTable

variable {kind : EngineKind σ} {p : Session σ → Prop}

theorem addLines (hp : Invariant kind p) {session : Session σ} (h : p session)
    (lines : List String) : p (session.addLines kind lines).2 := by
  induction lines generalizing session with
  | nil => exact h
  | cons line lines ih =>
      have hoffered := hp.offer session line h
      rw [Session.addLines]
      split
      · rename_i heq
        rw [heq] at hoffered
        exact hoffered
      · rename_i heq
        rw [heq] at hoffered
        have hothers := ih hoffered
        split <;> rename_i heq' <;> rw [heq'] at hothers <;> exact hothers

theorem derive (hp : Invariant kind p) {session : Session σ} (h : p session) (maxPasses : Nat) :
    p (session.derive kind maxPasses).2 := by
  induction maxPasses generalizing session with
  | zero => exact h
  | succ passes ih =>
      have hsearched := hp.search session h
      rw [Session.derive]
      split
      · rename_i heq
        rw [heq] at hsearched
        exact hsearched
      · rename_i heq
        rw [heq] at hsearched
        exact hsearched
      · rename_i heq
        rw [heq] at hsearched
        have hothers := ih hsearched
        split <;> rename_i heq' <;> rw [heq'] at hothers <;> exact hothers

end Session.Invariant

namespace SessionTable

/-- Every session of a table has a property. -/
def Everywhere (p : Session σ → Prop) (table : SessionTable σ) : Prop :=
  ∀ session ∈ table.sessions, p session

variable {p : Session σ → Prop} {table : SessionTable σ}

theorem Everywhere.empty : Everywhere p (.empty : SessionTable σ) := by
  simp [Everywhere, SessionTable.empty]

theorem Everywhere.push (h : table.Everywhere p) {session : Session σ} (hsession : p session) :
    (table.push session).Everywhere p := by
  rw [Everywhere, SessionTable.push, List.forall_mem_append, List.forall_mem_singleton]
  exact ⟨h, hsession⟩

theorem Everywhere.without (h : table.Everywhere p) (id : Uuid) :
    (table.without id).Everywhere p :=
  fun other hother => h other (List.mem_filter.mp hother).1

theorem Everywhere.replace (h : table.Everywhere p) {session : Session σ} (hsession : p session) :
    (table.replace session).Everywhere p := by
  rw [Everywhere, SessionTable.replace, List.forall_mem_map]
  intro other hother
  split
  · exact hsession
  · exact h other hother

theorem Everywhere.modify (h : table.Everywhere p) (id : Uuid)
    {work : Session σ → Answer α × Session σ} (hwork : ∀ session, p session → p (work session).2) :
    (table.modify id work).2.Everywhere p := by
  unfold SessionTable.modify
  split
  · exact h
  · rename_i session hfind
    exact h.replace (hwork session (h session (mem_of_find?_eq_some hfind)))

variable {kind : EngineKind σ}

theorem Everywhere.create (hp : Session.Invariant kind p) (h : table.Everywhere p) (id : Uuid)
    (limit : Int) : (table.create kind id limit).2.Everywhere p := by
  rcases table.create_cases kind id limit with ⟨fault, hcreate⟩ | ⟨checked, hpos, -, -, hcreate⟩
  · rw [hcreate]
    exact h
  · rw [hcreate]
    exact h.push (hp.create id checked hpos)

theorem Everywhere.delete (h : table.Everywhere p) (id : Uuid) :
    (table.delete id).2.Everywhere p := by
  rcases table.delete_cases id with ⟨-, hdelete⟩ | ⟨-, hdelete⟩
  · rw [hdelete]
    exact h
  · rw [hdelete]
    exact h.without id

theorem Everywhere.derive (hp : Session.Invariant kind p) (h : table.Everywhere p) (id : Uuid)
    (maxPasses : Nat) : (table.derive kind id maxPasses).2.Everywhere p := by
  cases maxPasses with
  | zero => exact h
  | succ passes => exact h.modify id fun session hsession => hp.derive hsession (passes + 1)

theorem Everywhere.restore (hp : Session.Invariant kind p) (h : table.Everywhere p)
    (entry : SnapshotEntry) : (table.restore kind entry).2.Everywhere p := by
  rcases table.restore_cases kind entry with
    ⟨failure, hrestore, -⟩ | ⟨checked, found, session, hpos, -, hfilled, -, hrestore⟩
  · rw [hrestore]
    exact h
  · have hsession := hp.addLines (hp.create entry.id checked hpos) entry.lines
    rw [hfilled] at hsession
    rw [hrestore]
    exact h.push hsession

theorem Everywhere.perform (hp : Session.Invariant kind p) (h : table.Everywhere p) :
    (operation : Operation) → (table.perform kind operation).2.Everywhere p
  | .create id limit => h.create hp id limit
  | .delete id => h.delete id
  | .addLines id lines => h.modify id fun _ hsession => hp.addLines hsession lines
  | .search id => h.modify id fun session hsession => hp.search session hsession
  | .derive id maxPasses => h.derive hp id maxPasses
  | .restore entry => h.restore hp entry
  | .lines _ | .list | .snapshot => h

theorem Everywhere.run (hp : Session.Invariant kind p) (h : table.Everywhere p)
    (operations : List Operation) : (table.run kind operations).2.Everywhere p := by
  induction operations generalizing table with
  | nil => exact h
  | cons operation operations ih => exact ih (h.perform hp operation)

/-- What engines of all kinds keep up, every session has in every table. -/
theorem Reachable.everywhere (hp : ∀ kind, Session.Invariant kind p) (h : table.Reachable) :
    table.Everywhere p := by
  induction h with
  | empty => exact .empty
  | perform kind operation _ ih => exact ih.perform (hp kind) operation

end SessionTable

end Sequitur
