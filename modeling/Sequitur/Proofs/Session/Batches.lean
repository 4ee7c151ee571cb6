import Sequitur.Proofs.Session.Engines

/-!
# Batches of lines

What a batch of lines brings a session can be told from texts and the limit alone, without the
engine: the lines that are rules are taken in order, and of their rules those are left out that are
beyond the limit, that a line known before is read as, or that an earlier line of the batch is read
as. Adding the batch answers the texts of the others, and these are the new lines.

A session never forgets a line. So a rule that it knows is not taken in again, in whatever words it
is offered and whatever was done since, and neither is a batch that was offered before.
-/

namespace Sequitur

open Notation

/-- The rules that a batch of lines brings to a session of a limit that knows certain lines: those
within the limit that no known line is read as, each for the first line that is read as it. -/
def newRules (limit : Nat) (known batch : List String) : List Rule :=
  ((rulesOfLines batch).filter fun rule =>
    rule.size ≤ limit && !(rulesOfLines known).contains rule).eraseDups

variable {limit : Nat} {known batch : List String} {rule : Rule}

theorem mem_newRules_iff : rule ∈ newRules limit known batch ↔
    rule ∈ rulesOfLines batch ∧ rule.size ≤ limit ∧ rule ∉ rulesOfLines known := by
  simp [newRules]

/-- A batch of which every rule within the limit is known brings nothing. -/
theorem newRules_eq_nil (h : ∀ rule ∈ rulesOfLines batch, rule.size ≤ limit →
    rule ∈ rulesOfLines known) : newRules limit known batch = [] := by
  rw [List.eq_nil_iff_forall_not_mem]
  intro rule hrule
  obtain ⟨hbatch, hsize, hnew⟩ := mem_newRules_iff.mp hrule
  exact hnew (h rule hbatch hsize)

/-- A batch brings nothing to those who know what it brought before. -/
theorem newRules_eq_nil_of_learned {more : List String}
    (hknown : ∀ rule ∈ rulesOfLines known, rule ∈ rulesOfLines more)
    (hlearned : ∀ rule ∈ newRules limit known batch, rule ∈ rulesOfLines more) :
    newRules limit more batch = [] := by
  apply newRules_eq_nil
  intro rule hrule hsize
  by_cases hbefore : rule ∈ rulesOfLines known
  · exact hknown rule hbefore
  · exact hlearned rule (mem_newRules_iff.mpr ⟨hrule, hsize, hbefore⟩)

/-- A line whose rule is known makes no difference to what the lines around it bring. -/
theorem newRules_append_cons_of_mem {line : String} (hread : Display.readRule line = .ok rule)
    (hknown : rule ∈ rulesOfLines known) (front back : List String) :
    newRules limit known (front ++ line :: back) = newRules limit known (front ++ back) := by
  have hleft : ([rule].filter fun rule =>
      rule.size ≤ limit && !(rulesOfLines known).contains rule) = [] := by
    simp [hknown]
  rw [newRules, newRules, rulesOfLines_append, rulesOfLines_cons, rulesOfLines_of_ok hread,
    rulesOfLines_append]
  simp only [List.filter_append, hleft, List.nil_append]

namespace Session

variable {session : Session Forward}

theorem InStep.rulesOfLines_lines (h : session.InStep) :
    rulesOfLines session.lines = session.engine.rules := by
  rw [h.lines_eq, rulesOfLines_map_printRule h.legible]

/-- The rules that the engine takes in are those that the batch brings to the lines. -/
theorem InStep.takenIn_rulesOfLines (h : session.InStep) (batch : List String) :
    session.engine.takenIn (rulesOfLines batch) = newRules session.limit session.lines batch := by
  have hnormalized : ((rulesOfLines batch).filter session.engine.withinLimit).map Rule.normalized =
      (rulesOfLines batch).filter session.engine.withinLimit := by
    refine (List.map_congr_left fun rule hrule => ?_).trans (List.map_id _)
    exact (legible_of_mem_rulesOfLines (List.mem_filter.mp hrule).1).normalized_eq
  rw [Forward.takenIn, Forward.admissible, hnormalized, List.filter_filter, newRules,
    h.rulesOfLines_lines]
  congr 1
  apply List.filter_congr
  intro rule _
  rw [Forward.withinLimit, h.sizeLimit_eq, Bool.and_comm]

/-- Adding a batch makes the session learn the rules that it brings, and answers their texts. -/
theorem InStep.addLines_eq (h : session.InStep) (batch : List String) :
    session.addLines Forward.kind batch =
      (.ok ((newRules session.limit session.lines batch).map Display.printRule),
        session.learn (newRules session.limit session.lines batch)) := by
  have hengine := h.engine_addLines batch
  obtain ⟨rules, hlearned⟩ := h.learns_addLines batch
  rw [hlearned, Forward.run_map_add, h.takenIn_rulesOfLines] at hengine
  have hrules : rules = newRules session.limit session.lines batch :=
    List.append_cancel_left (congrArg Forward.rules hengine)
  rw [hlearned, hrules]

end Session

namespace SessionTable

variable {table : SessionTable Forward} {id : Uuid} {session : Session Forward}

/-- A batch that brings a session nothing is answered with nothing and leaves the table as it is. -/
theorem addLines_of_newRules_eq_nil (hids : table.ids.Nodup) (hfind : table.find? id = some session)
    (h : session.InStep) (hnew : newRules session.limit session.lines batch = []) :
    table.addLines Forward.kind id batch = (.ok [], table) := by
  apply modify_of_same hids hfind
  rw [h.addLines_eq, hnew, Session.learn_nil, List.map_nil]

/-- Lines that are other words for known ones bring nothing. -/
theorem addLines_of_known (hids : table.ids.Nodup) (hfind : table.find? id = some session)
    (h : session.InStep) {lines : List String}
    (hknown : ∀ line ∈ lines, ∃ other ∈ session.lines,
      Display.readRule line = Display.readRule other) :
    table.addLines Forward.kind id lines = (.ok [], table) := by
  apply addLines_of_newRules_eq_nil hids hfind h
  apply newRules_eq_nil
  intro rule hrule _
  obtain ⟨line, hline, hread⟩ := mem_rulesOfLines_iff.mp hrule
  obtain ⟨other, hother, hsame⟩ := hknown line hline
  exact mem_rulesOfLines_iff.mpr ⟨other, hother, hsame ▸ hread⟩

/-- A line that is other words for a known one can be left out of a batch. -/
theorem addLines_append_cons_of_known (hfind : table.find? id = some session) (h : session.InStep)
    {line other : String} (hother : other ∈ session.lines)
    (hsame : Display.readRule line = Display.readRule other) (front back : List String) :
    table.addLines Forward.kind id (front ++ line :: back) =
      table.addLines Forward.kind id (front ++ back) := by
  obtain ⟨rule, hrule, rfl⟩ := List.mem_map.mp (h.lines_eq ▸ hother)
  have hread : Display.readRule line = .ok rule := by
    rw [hsame, Display.readRule_printRule (h.legible rule hrule).writable,
      (h.legible rule hrule).normalized_eq]
  have hknown : rule ∈ rulesOfLines session.lines := by
    rw [h.rulesOfLines_lines]
    exact hrule
  rw [addLines, addLines, modify_of_find? hfind, modify_of_find? hfind, h.addLines_eq,
    h.addLines_eq, newRules_append_cons_of_mem hread hknown]

/-- Adding a batch to a session answers the texts of the rules that it brings, and behind the lines
of before these are the lines. They and whatever else the session is answered with stay known for
as long as it is not deleted: lines that are read as rules of known lines are answered with nothing
and change nothing, and among other lines they can be left out. The same goes for the batch. -/
theorem addLines_newRules_and_addLines_again (operations : List Operation) (id : Uuid)
    (session : Session Forward) (batch : List String) (later : List Operation) :
    let table := (SessionTable.empty.run Forward.kind operations).2
    let found := (newRules session.limit session.lines batch).map Display.printRule
    let offered := table.addLines Forward.kind id batch
    let ended := offered.2.run Forward.kind later
    let known := session.lines ++ found ++ told id later ended.1
    table.find? id = some session →
    (offered.1 = .ok found ∧ offered.2.lines id = .ok (session.lines ++ found)) ∧
    (.delete id ∉ later →
      ended.2.lines id = .ok known ∧
      (∀ lines : List String,
        (∀ line ∈ lines, ∃ other ∈ known, Display.readRule line = Display.readRule other) →
        ended.2.addLines Forward.kind id lines = (.ok [], ended.2)) ∧
      (∀ line, ∀ other ∈ known, Display.readRule line = Display.readRule other →
        ∀ front back, ended.2.addLines Forward.kind id (front ++ line :: back) =
          ended.2.addLines Forward.kind id (front ++ back)) ∧
      ended.2.addLines Forward.kind id batch = (.ok [], ended.2)) := by
  intro table found offered ended known hfind
  let new := newRules session.limit session.lines batch
  have htable := everywhere_inStep_run operations
  have hsession := htable session (mem_of_find?_eq_some hfind)
  have hlearned : offered.2.find? id = some (session.learn new) := by
    have hself : offered.2.find? id = some (session.addLines Forward.kind batch).2 :=
      find?_modify_self hfind (hsession.learns_addLines batch).id_eq
    rw [hself, hsession.addLines_eq]
  refine ⟨⟨?_, lines_eq_ok_iff.mpr ⟨_, hlearned, rfl⟩⟩, fun hkept => ?_⟩
  · simp only [offered, addLines, modify_of_find? hfind, hsession.addLines_eq, found]
  · have hreachable : ended.2.Reachable :=
      .run Forward.kind (.perform Forward.kind (.addLines id batch)
        (.run Forward.kind .empty operations)) later
    have hoffered : offered.2.Everywhere Session.InStep :=
      htable.perform Session.inStep_invariant (.addLines id batch)
    obtain ⟨rules, hended, htold⟩ := exists_run_find?_eq hoffered hlearned hkept
    have hlater := hoffered.run Session.inStep_invariant later _ (mem_of_find?_eq_some hended)
    have hlines : known = ((session.learn new).learn rules).lines := by
      simp only [known, found, ended, htold]
      rfl
    have hbefore : ∀ rule ∈ rulesOfLines session.lines,
        rule ∈ rulesOfLines ((session.learn new).learn rules).lines := by
      rw [hsession.rulesOfLines_lines, hlater.rulesOfLines_lines]
      exact fun rule hrule => List.mem_append_left _ (List.mem_append_left _ hrule)
    have hnew : ∀ rule ∈ new, rule ∈ rulesOfLines ((session.learn new).learn rules).lines := by
      rw [hlater.rulesOfLines_lines]
      exact fun rule hrule => List.mem_append_left _ (List.mem_append_right _ hrule)
    rw [hlines]
    exact ⟨lines_eq_ok_iff.mpr ⟨_, hended, rfl⟩,
      fun lines => addLines_of_known hreachable.nodup_ids hended hlater,
      fun line other hother => addLines_append_cons_of_known hended hlater hother,
      addLines_of_newRules_eq_nil hreachable.nodup_ids hended hlater
        (newRules_eq_nil_of_learned hbefore hnew)⟩

/-- Lines that are no rules, a rule beyond the limit, one that is known in other words and one that
is in the batch twice are left out. Behind a search that derives a rule and another batch, the rules
are offered again in other words, with a new one among them. -/
theorem addLines_newRules_of_spellings :
    let operations : List Operation := [.create .zero 4, .addLines .zero ["a -> b"]]
    let batch := ["(a)\n--\nb", "b ->", "a", "f(a, b, c) -> d", "(c)", "c ", "((a))"]
    let later : List Operation := [.search .zero, .addLines .zero ["d"]]
    let table := (SessionTable.empty.run Forward.kind operations).2
    let offered := table.addLines Forward.kind .zero batch
    let ended := offered.2.run Forward.kind later
    offered.1 = .ok ["a", "c"] ∧ offered.2.lines .zero = .ok ["a\n----\nb", "a", "c"] ∧
    ended.2.lines .zero = .ok ["a\n----\nb", "a", "c", "b", "d"] ∧
    ended.2.addLines Forward.kind .zero ["(b)", "((a)) -> b"] = (.ok [], ended.2) ∧
    ended.2.addLines Forward.kind .zero ["e", "(b)", "e"] =
      ended.2.addLines Forward.kind .zero ["e", "e"] ∧
    ended.2.addLines Forward.kind .zero batch = (.ok [], ended.2) := by
  intro operations batch later table offered ended
  let a := Term.symbol "a"
  let b := Term.symbol "b"
  let session : Session Forward :=
    { id := .zero
      limit := 4
      engine := ⟨4, 4, [⟨[a], b⟩]⟩
      lines := ["a\n----\nb"] }
  have hfind : table.find? .zero = some session := by decide +kernel
  have hfound : (newRules session.limit session.lines batch).map Display.printRule =
      ["a", "c"] := by
    decide +kernel
  have hknown : session.lines ++ ["a", "c"] ++ told .zero later ended.1 =
      ["a\n----\nb", "a", "c", "b", "d"] := by decide +kernel
  obtain ⟨⟨hanswer, hlines⟩, hlater⟩ :=
    addLines_newRules_and_addLines_again operations .zero session batch later hfind
  have hkept : Operation.delete .zero ∉ later := by simp [later]
  obtain ⟨hended, hwords, hleft, hagain⟩ := hlater hkept
  rw [hfound] at hanswer hlines hended hwords hleft
  rw [hknown] at hended hwords hleft
  refine ⟨hanswer, hlines, hended, hwords _ ?_, ?_, hagain⟩
  · decide +kernel
  · exact hleft "(b)" "b" (by decide) (by decide +kernel) ["e"] ["e"]

end SessionTable

end Sequitur
