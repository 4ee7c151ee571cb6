import Sequitur.Engine.Forward
import Sequitur.Proofs.Session.CanonicalLines
import Sequitur.Proofs.Session.Lookup

/-!
# Sessions do not interfere

Whoever works with one session can tell nothing about the others. An operation on another
session leaves the session as it is, also when it fails, and an operation on the session is
answered by what the session is, whatever else the table holds. So all operations on other
sessions can be left out of a run, and the session is answered and ends the same.

Engines are of any kind. Only that nothing is shared between the engines of two sessions
matters, and a kind of engine has nothing that could be shared.
-/

namespace Sequitur

/-! ### A session through its changes -/

namespace Session

/-- A later state of a session has its identifier and its limit. -/
structure Continues (session later : Session σ) : Prop where
  id_eq : later.id = session.id
  limit_eq : later.limit = session.limit

variable {session later last : Session σ} {kind : EngineKind σ}

theorem Continues.refl (session : Session σ) : session.Continues session := ⟨rfl, rfl⟩

theorem Continues.trans (h : session.Continues later) (h' : later.Continues last) :
    session.Continues last :=
  ⟨h'.id_eq.trans h.id_eq, h'.limit_eq.trans h.limit_eq⟩

theorem Continues.of_eq {result : Answer α × Session σ} {answer : Answer α}
    (h : session.Continues result.2) (heq : result = (answer, later)) :
    session.Continues later := by
  rw [heq] at h
  exact h

theorem continues_insertLine (session : Session σ) (line : String) :
    session.Continues (session.insertLine line) := by
  unfold insertLine
  split <;> exact ⟨rfl, rfl⟩

theorem continues_commit (session : Session σ) (candidates : List String) :
    session.Continues (session.commit candidates).2 := by
  induction candidates generalizing session with
  | nil => exact .refl session
  | cons candidate candidates ih =>
      rw [commit]
      split
      · exact ih session
      · exact (continues_insertLine session _).trans (ih _)

theorem continues_offer (kind : EngineKind σ) (session : Session σ) (line : String) :
    session.Continues (session.offer kind line).2 := by
  rcases session.offer_cases kind line with
    heq | ⟨rule, engine, hread, ⟨error, heq⟩ | heq | ⟨found, heq⟩⟩
  · rw [heq]
    exact .refl session
  · rw [heq]
    exact ⟨rfl, rfl⟩
  · rw [heq]
    exact ⟨rfl, rfl⟩
  · have hengine : session.Continues { session with engine } := ⟨rfl, rfl⟩
    rw [heq]
    exact hengine.trans (continues_insertLine _ _)

theorem continues_addLines (kind : EngineKind σ) (session : Session σ) (lines : List String) :
    session.Continues (session.addLines kind lines).2 := by
  induction lines generalizing session with
  | nil => exact .refl session
  | cons line lines ih =>
      have hoffered := session.continues_offer kind line
      rw [addLines]
      split
      · rename_i heq
        exact hoffered.of_eq heq
      · rename_i found next heq
        have hothers := (hoffered.of_eq heq).trans (ih next)
        split <;> rename_i heq' <;> exact hothers.of_eq heq'

theorem continues_search (kind : EngineKind σ) (session : Session σ) :
    session.Continues (session.search kind).2 := by
  have hengine : session.Continues
    { session with engine := (kind.execute session.engine).2 } := ⟨rfl, rfl⟩
  rw [search]
  dsimp only
  split
  · exact hengine
  · exact hengine.trans (continues_commit _ _)

theorem continues_derive (kind : EngineKind σ) (session : Session σ) (maxPasses : Nat) :
    session.Continues (session.derive kind maxPasses).2 := by
  induction maxPasses generalizing session with
  | zero => exact .refl session
  | succ passes ih =>
      have hsearched := session.continues_search kind
      rw [derive]
      split
      · rename_i heq
        exact hsearched.of_eq heq
      · rename_i heq
        exact hsearched.of_eq heq
      · rename_i found next _ heq
        have hothers := (hsearched.of_eq heq).trans (ih next)
        split <;> rename_i heq' <;> exact hothers.of_eq heq'

end Session

namespace SessionTable

/-- The identifier of the session that an operation is about, if it is about one. -/
def Operation.id? : Operation → Option Uuid
  | .create id _ | .delete id | .addLines id _ | .lines id | .search id | .derive id _ => some id
  | .restore entry => some entry.id
  | .list | .snapshot => none

/-- Whether an operation is about no other session than that of an identifier. -/
def Operation.namesNoOther (id : Uuid) (operation : Operation) : Bool :=
  operation.id?.all (· = id)

/-- The replies to the operations that are about the session of an identifier. -/
def repliesTo (id : Uuid) (operations : List Operation) (replies : List Reply) : List Reply :=
  ((operations.zip replies).filter (·.1.id? = some id)).map Prod.snd

theorem repliesTo_cons (id : Uuid) (operation : Operation) (operations : List Operation)
    (reply : Reply) (replies : List Reply) :
    repliesTo id (operation :: operations) (reply :: replies) =
      if operation.id? = some id then reply :: repliesTo id operations replies
      else repliesTo id operations replies := by
  rw [repliesTo, List.zip_cons_cons, List.filter_cons]
  by_cases hid : operation.id? = some id <;> simp [hid, repliesTo]

variable {table other : SessionTable σ} {id : Uuid} {kind : EngineKind σ}

/-! ### Operations on other sessions -/

theorem find?_create_of_ne {made : Uuid} (hne : made ≠ id) (limit : Int) :
    (table.create kind made limit).2.find? id = table.find? id := by
  rcases table.create_cases kind made limit with ⟨fault, hcreate⟩ | ⟨checked, -, -, -, hcreate⟩
  · rw [hcreate]
  · rw [hcreate]
    exact find?_push_of_ne hne

theorem find?_restore_of_ne {entry : SnapshotEntry} (hne : entry.id ≠ id) :
    (table.restore kind entry).2.find? id = table.find? id := by
  rcases table.restore_cases kind entry with
    ⟨failure, hrestore, -⟩ | ⟨checked, found, session, -, -, hfilled, -, hrestore⟩
  · rw [hrestore]
  · have hcontinues := (Session.create kind entry.id checked).continues_addLines kind entry.lines
    rw [hfilled] at hcontinues
    rw [hrestore]
    apply find?_push_of_ne
    rw [hcontinues.id_eq]
    exact hne

theorem find?_derive_of_ne {worked : Uuid} (hne : id ≠ worked) (maxPasses : Nat) :
    (table.derive kind worked maxPasses).2.find? id = table.find? id := by
  cases maxPasses with
  | zero => rfl
  | succ passes =>
      exact find?_modify_of_ne hne fun session _ =>
        (session.continues_derive kind (passes + 1)).id_eq

/-- An operation that is not about a session leaves it as it is. -/
theorem find?_perform_of_ne (kind : EngineKind σ) (table : SessionTable σ)
    {operation : Operation} (hne : operation.id? ≠ some id) :
    (table.perform kind operation).2.find? id = table.find? id := by
  cases operation with
  | create made limit => exact find?_create_of_ne (fun hid => hne (congrArg some hid)) limit
  | restore entry => exact find?_restore_of_ne fun hid => hne (congrArg some hid)
  | delete gone => exact find?_delete_of_ne fun hid => hne (congrArg some hid.symm)
  | addLines worked lines =>
      apply find?_modify_of_ne fun hid => hne (congrArg some hid.symm)
      exact fun session _ => (session.continues_addLines kind lines).id_eq
  | search worked =>
      apply find?_modify_of_ne fun hid => hne (congrArg some hid.symm)
      exact fun session _ => (session.continues_search kind).id_eq
  | derive worked maxPasses =>
      exact find?_derive_of_ne (fun hid => hne (congrArg some hid.symm)) maxPasses
  | lines | list | snapshot => rfl

/-! ### Operations on the session itself -/

/-- Two results that cannot be told apart by the answer and by the session of an identifier. -/
def LookAlike (id : Uuid) (result result' : α × SessionTable σ) : Prop :=
  result.1 = result'.1 ∧ result.2.find? id = result'.2.find? id

theorem insert_lookAlike (session : Session σ)
    (hfind : table.find? session.id = other.find? session.id) :
    (∃ failure, table.insert session = .error failure ∧ other.insert session = .error failure) ∨
    ∃ longer longer', table.insert session = .ok longer ∧ other.insert session = .ok longer' ∧
      longer.find? session.id = longer'.find? session.id := by
  cases htaken : other.find? session.id with
  | some found =>
      rw [htaken] at hfind
      exact .inl ⟨_, by rw [SessionTable.insert, hfind], by rw [SessionTable.insert, htaken]⟩
  | none =>
      rw [htaken] at hfind
      have hinsert : table.insert session = .ok (table.push session) := by
        rw [SessionTable.insert, hfind, push]
      have hinsert' : other.insert session = .ok (other.push session) := by
        rw [SessionTable.insert, htaken, push]
      refine .inr ⟨_, _, hinsert, hinsert', ?_⟩
      rw [find?_push_self (find?_eq_none_iff.mp hfind),
        find?_push_self (find?_eq_none_iff.mp htaken)]

theorem create_lookAlike (kind : EngineKind σ) (hfind : table.find? id = other.find? id)
    (limit : Int) :
    LookAlike id (table.create kind id limit) (other.create kind id limit) := by
  unfold SessionTable.create
  cases checkedLimit limit with
  | error failure => exact ⟨rfl, hfind⟩
  | ok checked =>
      rcases insert_lookAlike (.create kind id checked) hfind with
        ⟨failure, hinsert, hinsert'⟩ | ⟨longer, longer', hinsert, hinsert', hlonger⟩
      · simp only [hinsert, hinsert']
        exact ⟨rfl, hfind⟩
      · simp only [hinsert, hinsert']
        exact ⟨rfl, hlonger⟩

theorem restore_lookAlike (kind : EngineKind σ) {entry : SnapshotEntry}
    (hfind : table.find? entry.id = other.find? entry.id) :
    LookAlike entry.id (table.restore kind entry) (other.restore kind entry) := by
  unfold SessionTable.restore
  cases checkedLimit entry.limit with
  | error failure => exact ⟨rfl, hfind⟩
  | ok checked =>
      have hfilled := (Session.create kind entry.id checked).continues_addLines kind entry.lines
      rcases heq : (Session.create kind entry.id checked).addLines kind entry.lines with
        ⟨failure | added, session⟩
      · simp only [heq]
        exact ⟨rfl, hfind⟩
      · rw [heq] at hfilled
        have hid : session.id = entry.id := hfilled.id_eq
        rw [← hid] at hfind
        rcases insert_lookAlike session hfind with ⟨failure, hinsert, hinsert'⟩ |
          ⟨longer, longer', hinsert, hinsert', hlonger⟩
        · simp only [heq, hinsert, hinsert']
          exact ⟨rfl, hid ▸ hfind⟩
        · simp only [heq, hinsert, hinsert']
          exact ⟨rfl, hid ▸ hlonger⟩

theorem delete_lookAlike (hfind : table.find? id = other.find? id) :
    LookAlike id (table.delete id) (other.delete id) := by
  have hids : id ∉ table.ids ↔ id ∉ other.ids := by
    rw [← find?_eq_none_iff, ← find?_eq_none_iff, hfind]
  rcases table.delete_cases id with ⟨hid, hdelete⟩ | ⟨hid, hdelete⟩ <;>
    rcases other.delete_cases id with ⟨hid', hdelete'⟩ | ⟨hid', hdelete'⟩
  · rw [hdelete, hdelete']
    exact ⟨rfl, hfind⟩
  · exact absurd hid' (hids.mp hid)
  · exact absurd hid (hids.mpr hid')
  · rw [hdelete, hdelete']
    exact ⟨rfl, find?_without_self.trans find?_without_self.symm⟩

theorem modify_lookAlike (hfind : table.find? id = other.find? id)
    (work : Session σ → Answer α × Session σ) :
    LookAlike id (table.modify id work) (other.modify id work) := by
  cases hfound : other.find? id with
  | none =>
      rw [modify, modify, hfind, hfound]
      exact ⟨rfl, hfind⟩
  | some session =>
      rw [modify_of_find? (hfind.trans hfound), modify_of_find? hfound]
      refine ⟨rfl, ?_⟩
      rw [find?_replace, find?_replace, hfind]

/-- What an operation on a session does is decided by the session alone. -/
theorem perform_lookAlike (kind : EngineKind σ) {operation : Operation}
    (hid : operation.id? = some id)
    (hfind : table.find? id = other.find? id) :
    LookAlike id (table.perform kind operation) (other.perform kind operation) := by
  cases operation with
  | create made limit =>
      obtain rfl := Option.some.inj hid
      obtain ⟨hanswer, hfound⟩ := create_lookAlike kind hfind limit
      exact ⟨congrArg Reply.made hanswer, hfound⟩
  | restore entry =>
      obtain rfl := Option.some.inj hid
      obtain ⟨hanswer, hfound⟩ := restore_lookAlike kind hfind
      exact ⟨congrArg Reply.made hanswer, hfound⟩
  | delete gone =>
      obtain rfl := Option.some.inj hid
      obtain ⟨hanswer, hfound⟩ := delete_lookAlike hfind
      exact ⟨congrArg Reply.deleted hanswer, hfound⟩
  | addLines worked lines =>
      obtain rfl := Option.some.inj hid
      obtain ⟨hanswer, hfound⟩ := modify_lookAlike hfind fun session => session.addLines kind lines
      exact ⟨congrArg Reply.lines hanswer, hfound⟩
  | search worked =>
      obtain rfl := Option.some.inj hid
      obtain ⟨hanswer, hfound⟩ := modify_lookAlike hfind fun session => session.search kind
      exact ⟨congrArg Reply.lines hanswer, hfound⟩
  | derive worked maxPasses =>
      obtain rfl := Option.some.inj hid
      cases maxPasses with
      | zero => exact ⟨rfl, hfind⟩
      | succ passes =>
          obtain ⟨hanswer, hfound⟩ := modify_lookAlike hfind fun session =>
            session.derive kind (passes + 1)
          exact ⟨congrArg Reply.lines hanswer, hfound⟩
  | lines asked =>
      obtain rfl := Option.some.inj hid
      refine ⟨?_, hfind⟩
      simp only [perform, SessionTable.lines, SessionTable.get, hfind]
  | list | snapshot => simp [Operation.id?] at hid

/-! ### Runs -/

theorem run_lookAlike (kind : EngineKind σ) (operations : List Operation)
    (hfind : table.find? id = other.find? id) :
    let kept := operations.filter (·.namesNoOther id)
    repliesTo id operations (table.run kind operations).1 =
      repliesTo id kept (other.run kind kept).1 ∧
    (table.run kind operations).2.find? id = (other.run kind kept).2.find? id := by
  induction operations generalizing table other with
  | nil => exact ⟨rfl, hfind⟩
  | cons operation operations ih =>
      rw [List.filter_cons]
      cases hid : operation.id? with
      | none =>
          -- Lists and snapshots stay in the run and change nothing.
          have hne : operation.id? ≠ some id := by simp [hid]
          have hstep := (find?_perform_of_ne kind table hne).trans
            (hfind.trans (find?_perform_of_ne kind other hne).symm)
          obtain ⟨hreplies, hended⟩ := ih hstep
          rw [if_pos (by simp [Operation.namesNoOther, hid])]
          simp only [run, repliesTo_cons, if_neg hne]
          exact ⟨hreplies, hended⟩
      | some named =>
          by_cases hnamed : named = id
          · subst hnamed
            obtain ⟨hanswer, hstep⟩ := perform_lookAlike kind hid hfind
            obtain ⟨hreplies, hended⟩ := ih hstep
            rw [if_pos (by simp [Operation.namesNoOther, hid])]
            simp only [run, repliesTo_cons, if_pos hid]
            exact ⟨by rw [hanswer, hreplies], hended⟩
          · have hne : operation.id? ≠ some id := by simpa [hid] using hnamed
            have hstep := (find?_perform_of_ne kind table hne).trans hfind
            obtain ⟨hreplies, hended⟩ := ih hstep
            rw [if_neg (by simpa [Operation.namesNoOther, hid] using hnamed)]
            simp only [run, repliesTo_cons, if_neg hne]
            exact ⟨hreplies, hended⟩

/-- A session is answered the same, and ends with the same limit, lines and engine, when all
operations on other sessions are left out of a run. Every single operation that is not about
the session leaves it as it is, whether it succeeds or fails. -/
theorem repliesTo_and_find?_run_filter (kind : EngineKind σ) (table : SessionTable σ)
    (operations : List Operation) (id : Uuid) :
    let full := table.run kind operations
    let kept := operations.filter (·.namesNoOther id)
    let alone := table.run kind kept
    repliesTo id operations full.1 = repliesTo id kept alone.1 ∧
    full.2.find? id = alone.2.find? id ∧
    ∀ operation : Operation, operation.id? ≠ some id →
      (full.2.perform kind operation).2.find? id = full.2.find? id := by
  intro full kept alone
  obtain ⟨hreplies, hended⟩ := run_lookAlike kind operations rfl
  exact ⟨hreplies, hended, fun operation hne => find?_perform_of_ne kind _ hne⟩

/-- A session that finds the axiom for its rule only in another session does not derive anything
from it. What is asked of the other session succeeds and fails in between. -/
theorem repliesTo_and_find?_of_inference :
    let other : Uuid := ⟨List.replicate 32 1, List.length_replicate⟩
    let operations : List Operation :=
      [.create .zero 8, .create other 4, .addLines other ["p"], .addLines .zero ["p -> q"],
        .restore ⟨other, 0, []⟩, .search .zero, .list, .delete other, .search other,
        .addLines .zero ["r"], .lines .zero]
    let kept : List Operation :=
      [.create .zero 8, .addLines .zero ["p -> q"], .search .zero, .list, .addLines .zero ["r"],
        .lines .zero]
    let full := SessionTable.empty.run Forward.kind operations
    let alone := SessionTable.empty.run Forward.kind kept
    let session : Session Forward :=
      { id := .zero
        limit := 8
        engine := ⟨8, 8, [⟨[.symbol "p"], .symbol "q"⟩, ⟨[], .symbol "r"⟩]⟩
        lines := ["p\n----\nq", "r"] }
    (Operation.create other 2).id? ≠ some .zero ∧
    repliesTo .zero operations full.1 = repliesTo .zero kept alone.1 ∧
    full.2.find? .zero = some session ∧ alone.2.find? .zero = some session ∧
    (full.2.perform Forward.kind (.create other 2)).2.find? .zero = some session := by
  intro other operations kept full alone session
  have hne : (Operation.create other 2).id? ≠ some .zero := by decide
  have hkept : operations.filter (·.namesNoOther .zero) = kept := rfl
  have hfound : full.2.find? .zero = some session := by decide +kernel
  obtain ⟨hreplies, hended, hothers⟩ :=
    repliesTo_and_find?_run_filter Forward.kind .empty operations .zero
  rw [hkept] at hreplies hended
  exact ⟨hne, hreplies, hfound, hended.symm.trans hfound, (hothers _ hne).trans hfound⟩

end SessionTable

end Sequitur
