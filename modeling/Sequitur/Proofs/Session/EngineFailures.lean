import Sequitur.Proofs.Session.Isolation

/-!
# Engines that fail

An engine may fail at any rule that it is offered and in any pass. The operation then ends there.
What the session had learned before stays, and nothing comes from the rule or the pass that failed:
a batch leaves the lines that its first lines alone would leave, a pass none of its candidates, a
series of passes what the passes before left, and an entry no session. Only the engine itself may
have changed, and the next operation goes on with it.

Nothing is known of the engines, not even that they fail in the same way twice.
-/

namespace Sequitur

open Notation

theorem Answer.exists_eq_error {answer : Answer α} (h : answer.isOk = false) :
    ∃ failure, answer = .error failure := by
  cases answer with
  | error failure => exact ⟨failure, rfl⟩
  | ok value => simp [Except.isOk, Except.toBool] at h

namespace Session

variable {kind : EngineKind σ} {session next : Session σ} {failure : Failure}

theorem offer_of_add_eq_error {line : String} {rule : Rule} {error : EngineError}
    (hread : Display.readRule line = .ok rule)
    (hadd : (kind.add session.engine rule).1 = .error error) :
    session.offer kind line =
      (.error (.engine error), { session with engine := (kind.add session.engine rule).2 }) := by
  rcases hresult : kind.add session.engine rule with ⟨answer, engine⟩
  rw [hresult] at hadd
  obtain rfl : answer = .error error := hadd
  simp only [offer, hread, hresult]

/-- A line is only refused when it holds a rule that the engine fails to add. -/
theorem exists_of_offer_eq_error {line : String}
    (h : (session.offer kind line).1 = .error failure) :
    ∃ rule error, Display.readRule line = .ok rule ∧
      (kind.add session.engine rule).1 = .error error := by
  cases hread : Display.readRule line with
  | error error => simp [offer, hread] at h
  | ok rule =>
      have hdisplay := displayOfCanonical_printRule_of_legible (Display.legible_of_readRule hread)
      rcases hadd : kind.add session.engine rule with ⟨error | accepted, engine⟩
      · exact ⟨rule, error, rfl, by rw [hadd]⟩
      · cases accepted <;> simp [offer, hread, hadd, hdisplay] at h

/-- Lines behind others are offered to the session that those leave. -/
theorem addLines_append_of_ok {before found : List String}
    (h : session.addLines kind before = (.ok found, next)) (lines : List String) :
    session.addLines kind (before ++ lines) =
      ((next.addLines kind lines).1.map (found ++ ·), (next.addLines kind lines).2) := by
  induction before generalizing session found with
  | nil =>
      obtain ⟨hfound, rfl⟩ := Prod.mk.inj h
      obtain rfl := Except.ok.inj hfound
      rcases hlines : session.addLines kind lines with ⟨failure | more, last⟩ <;>
        simp [hlines, Except.map]
  | cons line before ih =>
      rcases hoffer : session.offer kind line with ⟨failure | first, offered⟩
      · simp [addLines, hoffer] at h
      · rcases hothers : offered.addLines kind before with ⟨failure | others, last⟩
        · simp [addLines, hoffer, hothers] at h
        · simp only [addLines, hoffer, hothers, Prod.mk.injEq, Except.ok.injEq] at h
          obtain ⟨rfl, rfl⟩ := h
          simp only [List.cons_append, addLines, hoffer, ih hothers]
          rcases last.addLines kind lines with ⟨failure | more, ended⟩ <;> simp [Except.map]

/-- A batch that fails is taken up to a line that is refused. -/
theorem exists_refused_of_addLines_eq_error {lines : List String}
    (h : (session.addLines kind lines).1 = .error failure) :
    ∃ before line after found next, lines = before ++ line :: after ∧
      session.addLines kind before = (.ok found, next) ∧
      ∃ failure, (next.offer kind line).1 = .error failure := by
  induction lines generalizing session with
  | nil => simp [addLines] at h
  | cons line lines ih =>
      rcases hoffer : session.offer kind line with ⟨failed | first, offered⟩
      · exact ⟨[], line, lines, [], session, rfl, rfl, failed, by rw [hoffer]⟩
      · have hothers : (offered.addLines kind lines).1 = .error failure := by
          rcases heq : offered.addLines kind lines with ⟨failed | more, last⟩
          · simpa only [addLines, hoffer, heq] using h
          · simp [addLines, hoffer, heq] at h
        obtain ⟨before, other, after, found, next, rfl, hbefore, hrefused⟩ := ih hothers
        refine ⟨line :: before, other, after, first.toList ++ found, next, rfl, ?_, hrefused⟩
        simp only [addLines, hoffer, hbefore]

/-- The engine fails to add the rule of that line, and the lines behind it make no difference. -/
theorem exists_of_addLines_eq_error {lines : List String}
    (h : (session.addLines kind lines).1 = .error failure) :
    ∃ before line after found next rule error, lines = before ++ line :: after ∧
      session.addLines kind before = (.ok found, next) ∧ Display.readRule line = .ok rule ∧
      (kind.add next.engine rule).1 = .error error ∧
      ∀ others, session.addLines kind (before ++ line :: others) =
        (.error (.engine error), { next with engine := (kind.add next.engine rule).2 }) := by
  obtain ⟨before, line, after, found, next, hlines, hbefore, _, hrefused⟩ :=
    exists_refused_of_addLines_eq_error h
  obtain ⟨rule, error, hread, hadd⟩ := exists_of_offer_eq_error hrefused
  refine ⟨before, line, after, found, next, rule, error, hlines, hbefore, hread, hadd, ?_⟩
  intro others
  rw [addLines_append_of_ok hbefore, addLines, offer_of_add_eq_error hread hadd]
  rfl

theorem search_of_eq_error (h : (session.search kind).1 = .error failure) :
    (session.search kind).2 = { session with engine := (kind.execute session.engine).2 } := by
  rw [search] at h ⊢
  dsimp only at h ⊢
  split
  · rfl
  · rename_i heq
    simp [heq] at h

end Session

namespace SessionTable

variable {table : SessionTable σ} {kind : EngineKind σ} {id : Uuid} {failure : Failure}

/-- A snapshot does not tell the engines of sessions. -/
theorem snapshot_replace (hids : table.ids.Nodup) {session : Session σ}
    (hfind : table.find? id = some session) (engine : σ) :
    (table.replace { session with engine }).snapshot = table.snapshot := by
  have hid : ({ session with engine } : Session σ).id = session.id := rfl
  exact map_sessions_replace hids (mem_of_find?_eq_some hfind) hid rfl

/-- A batch that fails leaves what the lines before the failing one leave, but for the engine. -/
theorem exists_of_addLines_eq_error (hids : table.ids.Nodup) (hid : id ∈ table.ids)
    {lines : List String} (h : (table.addLines kind id lines).1 = .error failure) :
    ∃ before line after found next, lines = before ++ line :: after ∧
      table.addLines kind id before = (.ok found, next) ∧
      (table.addLines kind id lines).2.snapshot = next.snapshot ∧
      ∃ session rule error, next.find? id = some session ∧ Display.readRule line = .ok rule ∧
        (kind.add session.engine rule).1 = .error error ∧
        ∀ others, table.addLines kind id (before ++ line :: others) =
          (.error (.engine error),
            next.replace { session with engine := (kind.add session.engine rule).2 }) := by
  obtain ⟨session, hfind⟩ := Option.ne_none_iff_exists'.mp fun hnone =>
    find?_eq_none_iff.mp hnone hid
  rw [addLines, modify_of_find? hfind] at h
  obtain ⟨before, line, after, found, next, rule, error, rfl, hbefore, hread, hadd, hlines⟩ :=
    Session.exists_of_addLines_eq_error h
  have hnext := (session.continues_addLines kind before).of_eq hbefore
  have hfound : (table.replace next).find? id = some next := find?_replace_self hfind hnext.id_eq
  have hids' := nodup_ids_replace hids next
  have hstopped : ∀ others, table.addLines kind id (before ++ line :: others) =
      (.error (.engine error), (table.replace next).replace
        { next with engine := (kind.add next.engine rule).2 }) := by
    intro others
    rw [addLines, modify_of_find? hfind, hlines, replace_replace]
    rfl
  refine ⟨before, line, after, found, table.replace next, rfl, ?_, ?_, next, rule, error, hfound,
    hread, hadd, hstopped⟩
  · rw [addLines, modify_of_find? hfind, hbefore]
  · rw [hstopped, snapshot_replace hids' hfound]

/-! ### Passes -/

/-- A search that fails changes nothing but the engine, whatever the pass had reported. -/
theorem search_of_eq_error {session : Session σ} (hfind : table.find? id = some session)
    (h : (table.search kind id).1 = .error failure) :
    (table.search kind id).2 =
      table.replace { session with engine := (kind.execute session.engine).2 } := by
  rw [search, modify_of_find? hfind] at h ⊢
  rw [Session.search_of_eq_error h]

theorem snapshot_search_of_eq_error (hids : table.ids.Nodup)
    (h : (table.search kind id).1 = .error failure) :
    (table.search kind id).2.snapshot = table.snapshot := by
  cases hfind : table.find? id with
  | none => rw [search, modify, hfind]
  | some session => rw [search_of_eq_error hfind h, snapshot_replace hids hfind]

/-- The session may be looked up anew for each pass. -/
theorem derive_succ (hids : table.ids.Nodup) (passes : Nat) :
    table.derive kind id (passes + 1) =
      match table.search kind id with
      | (.error failure, next) => (.error failure, next)
      | (.ok [], next) => (.ok [], next)
      | (.ok found, next) =>
          ((next.derive kind id passes).1.map (found ++ ·), (next.derive kind id passes).2) := by
  cases hfind : table.find? id with
  | none => simp only [derive, search, modify, hfind]
  | some session =>
      rw [derive, search, modify_of_find? hfind, modify_of_find? hfind, Session.derive]
      rcases hsearch : session.search kind with ⟨failure | found, next⟩
      · rfl
      · cases found with
        | nil => rfl
        | cons line lines =>
            have hnext := (session.continues_search kind).of_eq hsearch
            have hfound := find?_replace_self hfind hnext.id_eq
            have hlast := next.continues_derive kind passes
            simp only [derive_of_find? (nodup_ids_replace hids next) hfound,
              replace_replace table hlast.id_eq]
            rcases next.derive kind passes with ⟨failure | more, last⟩ <;> rfl

/-- A derivation that fails is a pass that fails, behind passes that each find something. -/
theorem exists_passes_of_derive_eq_error (hids : table.ids.Nodup) {maxPasses : Nat}
    (h : (table.derive kind id maxPasses).1 = .error failure) :
    ∃ passes < maxPasses,
      let before := table.run kind (List.replicate passes (.search id))
      (∀ reply ∈ before.1, ∃ found, found ≠ [] ∧ reply = .lines (.ok found)) ∧
      table.derive kind id maxPasses = before.2.search kind id := by
  induction maxPasses generalizing table with
  | zero => simp [derive] at h
  | succ maxPasses ih =>
      rw [derive_succ hids] at h ⊢
      rcases hsearch : table.search kind id with ⟨failed | found, next⟩
      · exact ⟨0, Nat.succ_pos _, by simp [run], hsearch.symm⟩
      · cases found with
        | nil => simp [hsearch] at h
        | cons line lines =>
            have hids' : next.ids.Nodup := by
              have hsame : (table.search kind id).2.ids = table.ids := ids_modify _ _ _
              rw [hsearch] at hsame
              exact hsame ▸ hids
            rcases hrest : next.derive kind id maxPasses with ⟨failed | more, last⟩
            · simp only [hsearch, hrest, Except.map] at h ⊢
              obtain ⟨passes, hpasses, hbefore, hfailed⟩ := ih hids' (hrest ▸ h)
              refine ⟨passes + 1, Nat.succ_lt_succ hpasses, ?_⟩
              simp only [List.replicate_succ, run, perform, hsearch, List.forall_mem_cons]
              exact ⟨⟨⟨_, List.cons_ne_nil _ _, rfl⟩, hbefore⟩, hrest ▸ hfailed⟩
            · simp [hsearch, hrest, Except.map] at h

/-- A search that fails leaves the lines of all sessions as they are and changes one engine. A batch
that fails for a session that is there fails at a line whose rule the engine fails to add: the lines
of all sessions are then those that the lines before leave, which are added without failure, and the
lines behind make no difference. An entry that is not restored leaves the table as it is. A
derivation that fails does so in a pass, and the lines of all sessions are those that the passes
before it leave, each of which found something. -/
theorem snapshot_of_engine_failure (h : table.Reachable) (kind : EngineKind σ) :
    (∀ id failure, (table.search kind id).1 = .error failure →
      (table.search kind id).2.snapshot = table.snapshot ∧
      ∀ session, table.find? id = some session → (table.search kind id).2 =
        table.replace { session with engine := (kind.execute session.engine).2 }) ∧
    (∀ id ∈ table.ids, ∀ lines failure, (table.addLines kind id lines).1 = .error failure →
      ∃ before line after found next, lines = before ++ line :: after ∧
        table.addLines kind id before = (.ok found, next) ∧
        (table.addLines kind id lines).2.snapshot = next.snapshot ∧
        ∃ session rule error, next.find? id = some session ∧
          Display.readRule line = .ok rule ∧
          (kind.add session.engine rule).1 = .error error ∧
          ∀ others, table.addLines kind id (before ++ line :: others) =
            (.error (.engine error),
              next.replace { session with engine := (kind.add session.engine rule).2 })) ∧
    (∀ entry failure, (table.restore kind entry).1 = .error failure →
      (table.restore kind entry).2 = table) ∧
    ∀ id maxPasses failure, (table.derive kind id maxPasses).1 = .error failure →
      ∃ passes < maxPasses,
        let before := table.run kind (List.replicate passes (.search id))
        (∀ reply ∈ before.1, ∃ found, found ≠ [] ∧ reply = .lines (.ok found)) ∧
        table.derive kind id maxPasses = before.2.search kind id ∧
        (table.derive kind id maxPasses).2.snapshot = before.2.snapshot := by
  have hids := h.nodup_ids
  refine ⟨?search, ?add, ?restore, ?derive⟩
  case search =>
    intro id failure hfailed
    exact ⟨snapshot_search_of_eq_error hids hfailed,
      fun session hfind => search_of_eq_error hfind hfailed⟩
  case add => exact fun id hid lines failure hfailed => exists_of_addLines_eq_error hids hid hfailed
  case restore => exact fun entry failure hfailed => snd_restore_of_eq_error hfailed
  case derive =>
    intro id maxPasses failure hfailed
    obtain ⟨passes, hpasses, hbefore, hderive⟩ := exists_passes_of_derive_eq_error hids hfailed
    refine ⟨passes, hpasses, hbefore, hderive, ?_⟩
    rw [hderive] at hfailed ⊢
    exact snapshot_search_of_eq_error (nodup_ids_run hids _) hfailed

/-- An engine that takes up as many rules and passes as its strength allows and fails from then on.
Its passes report atoms, each a longer one than the next, and report one also when they fail. -/
def tiring (strength : Nat) : EngineKind Nat where
  create _ _ := strength
  add
    | 0, _ => (.error (.rejected "tired"), 0)
    | left + 1, _ => (.ok true, left)
  execute
    | 0 => (⟨["p"], .error (.internal "tired")⟩, 0)
    | left + 1 => (⟨[String.ofList (List.replicate (left + 1) 'q')], .ok 1⟩, left)

/-- The engine fails at the last but one line of a batch, two lines behind one that is no rule. A
search on the tired engine and an entry of more rules than its strength fail as well, and so does
the third pass of a derivation. -/
theorem snapshot_of_tiring :
    let kind := tiring 3
    let table := (SessionTable.empty.run kind [.create .zero 5, .addLines .zero ["a"]]).2
    let batch := ["b", "b ->", "c", "d", "e"]
    let tired := (table.addLines kind .zero batch).2
    let entry : SnapshotEntry :=
      ⟨⟨List.replicate 32 1, List.length_replicate⟩, 2, ["a", "b", "c", "d"]⟩
    tired.snapshot = [⟨.zero, 5, ["a", "b", "c"]⟩] ∧
    (∃ before line after found next, batch = before ++ line :: after ∧
      table.addLines kind .zero before = (.ok found, next) ∧ tired.snapshot = next.snapshot) ∧
    (tired.search kind .zero).2.snapshot = tired.snapshot ∧
    (table.restore kind entry).2 = table ∧
    (table.derive kind .zero 5).2.snapshot = [⟨.zero, 5, ["a", "qq", "q"]⟩] ∧
    ∃ passes < 5,
      let before := table.run kind (List.replicate passes (.search .zero))
      (∀ reply ∈ before.1, ∃ found, found ≠ [] ∧ reply = .lines (.ok found)) ∧
      (table.derive kind .zero 5).2.snapshot = before.2.snapshot := by
  intro kind table batch tired entry
  have hreachable : table.Reachable := Reachable.empty.run kind _
  have hid : Uuid.zero ∈ table.ids := by decide +kernel
  obtain ⟨_, hbatch⟩ := Answer.exists_eq_error
    (show (table.addLines kind .zero batch).1.isOk = false by decide +kernel)
  obtain ⟨_, hsearch⟩ := Answer.exists_eq_error
    (show (tired.search kind .zero).1.isOk = false by decide +kernel)
  obtain ⟨_, hentry⟩ := Answer.exists_eq_error
    (show (table.restore kind entry).1.isOk = false by decide +kernel)
  obtain ⟨_, hderive⟩ := Answer.exists_eq_error
    (show (table.derive kind .zero 5).1.isOk = false by decide +kernel)
  have htired : tired.Reachable := .perform kind (.addLines .zero batch) hreachable
  obtain ⟨-, hadded, hrestored, hderived⟩ := snapshot_of_engine_failure hreachable kind
  obtain ⟨before, line, after, found, next, hlines, hbefore, hsnapshot, -⟩ :=
    hadded _ hid _ _ hbatch
  obtain ⟨passes, hpasses, hfound, -, hended⟩ := hderived _ _ _ hderive
  refine ⟨by decide +kernel, ⟨before, line, after, found, next, hlines, hbefore, hsnapshot⟩, ?_,
    hrestored _ _ hentry, by decide +kernel, passes, hpasses, hfound, hended⟩
  exact ((snapshot_of_engine_failure htired kind).1 _ _ hsearch).1

end SessionTable

end Sequitur
