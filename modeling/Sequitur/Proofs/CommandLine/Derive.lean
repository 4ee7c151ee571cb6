import Sequitur.Proofs.CommandLine.Translate
import Sequitur.Proofs.Engine.FixedPoint
import Sequitur.Proofs.Session.Engines

/-!
# The text that a derivation writes

A derivation offers the texts of the rules of a file to a session and writes the lines of the
session when the passes have ended. What it writes is the text of the rules of an engine to which
the rules of the file were added without their texts. When the passes ended because one derived
nothing, the rules in the output are closed, and a derivation from the output, with the same limit
and any number of passes, writes the output again.
-/

namespace Sequitur

open Notation

namespace CommandLine

theorem intercalate_map_printRule (rules : List Rule) :
    String.intercalate "\n\n" (rules.map Display.printRule) = Display.printPool rules := by
  have htexts : (rules.map Display.printRule).map String.toList = rules.map Display.ruleText := by
    rw [List.map_map]
    exact List.map_congr_left fun rule _ => String.toList_ofList
  rw [← String.toList_inj, String.toList_intercalate, htexts, Display.printPool,
    Text.joinWith_eq_intercalate]
  simp

/-- An engine whose limits are both the given one, after rules were added to it one by one. -/
def engineOf (limit : Nat) (pool : List Rule) : Forward :=
  (Forward.create limit limit).run (pool.map .add)

variable {limit : Nat} {pool : List Rule}

/-- The session of a derivation is in step with an engine to which the rules were added. -/
theorem exists_session_derive (hlimit : 1 ≤ limit) (hpool : ∀ rule ∈ pool, rule.Legible)
    (maxPasses : Nat) : ∃ session : Session Forward, session.InStep ∧ session.limit = limit ∧
      session.engine = ((engineOf limit pool).passes maxPasses).2 ∧
      CommandLine.derive limit maxPasses pool = .ok session.lines := by
  have hfresh : (Session.create Forward.kind Uuid.zero limit).InStep := .create _ hlimit
  have hengine := hfresh.engine_addLines (pool.map Display.printRule)
  have hadded := Session.inStep_invariant.addLines hfresh (pool.map Display.printRule)
  obtain ⟨rules, hlearned⟩ := hfresh.learns_addLines (pool.map Display.printRule)
  rw [rulesOfLines_map_printRule hpool, hlearned] at hengine
  rw [hlearned] at hadded
  have hderived := Session.inStep_invariant.derive hadded maxPasses
  rw [hadded.derive_eq] at hderived
  refine ⟨_, hderived, rfl, ?_, ?_⟩
  · rw [Forward.snd_passes]
    change Forward.keep _ _ = _
    rw [hengine]
    rfl
  · simp only [CommandLine.derive, SessionTable.checkedLimit_natCast hlimit, hlearned,
      hadded.derive_eq, bind, Except.bind]
    rfl

/-- Rules that a session has learned are all taken in again by an engine of the same limit. -/
theorem engineOf_rules {session : Session Forward} (h : session.InStep) :
    engineOf session.limit session.engine.rules = session.engine := by
  have hadded : engineOf session.limit session.engine.rules =
      (Forward.create session.limit session.limit).keep session.engine.rules :=
    Forward.run_map_add_of_nodup h.nodup (fun rule hrule => (h.legible rule hrule).normalized_eq)
      h.size_le
  have hsame := congrArg Session.engine h.learn_create_eq
  rw [hadded]
  exact hsame

/-- What is kept when the passes have ended is the least closed set of rules that contains the added
ones within the limit. -/
theorem isLeast_closedOver_passes (hlimit : 1 ≤ limit) {maxPasses : Nat}
    (hended : ((engineOf limit pool).passes maxPasses).1.getLast? = some []) :
    IsLeast (Forward.closedOver limit pool)
      {rule | rule ∈ ((engineOf limit pool).passes maxPasses).2.rules} := by
  let calls : List Forward.Call := pool.map .add ++
    List.replicate ((engineOf limit pool).passes maxPasses).1.length .execute
  have hengine : (Forward.create limit limit).run calls =
      ((engineOf limit pool).passes maxPasses).2 := by
    rw [Forward.run_append]
    exact (Forward.run_replicate_length_passes (engineOf limit pool) maxPasses).2
  have hsteady : ∀ call ∈ calls, call.IsSteady := by
    intro call hcall
    obtain hadd | hexecute := List.mem_append.mp hcall
    · obtain ⟨rule, -, rfl⟩ := List.mem_map.mp hadd
      trivial
    · rw [List.eq_of_mem_replicate hexecute]
      trivial
  have hoffered : Forward.offered calls = pool := by
    simp [calls, Forward.offered, List.filterMap_map]
  have hfresh : Forward.Fed limit [] (.create limit limit) := .create hlimit
  have hfed := hfresh.run hsteady
  rw [List.nil_append, hoffered, hengine] at hfed
  exact hfed.isLeast (Forward.derivable_snd_passes hended)

/-- A derivation from a file that can be read writes the text of the rules of the engine. -/
theorem run_derive {read : String → Except FileError String} {arguments : List String}
    {maxPasses : Nat} {file text : String} (hlimit : 1 ≤ limit)
    (harguments : parse arguments = .ok (.derive limit maxPasses file))
    (hfile : read file = .ok text) (hpool : Display.readPool text = .ok pool) :
    run read arguments =
      ⟨0, Display.printPool ((engineOf limit pool).passes maxPasses).2.rules ++ "\n", none⟩ := by
  have hrules : readRules read file = .ok pool := by
    simp only [readRules, hfile, hpool, Except.mapError]
  obtain ⟨session, hsession, -, hengine, hlines⟩ :=
    exists_session_derive hlimit (Display.legible_of_readPool hpool) maxPasses
  rw [hsession.lines_eq, hengine] at hlines
  simp only [run, harguments, Command.output, hrules, hlines, bind, Except.bind, Except.mapError,
    intercalate_map_printRule]
  rfl

/-- A derivation writes the text of the rules that are kept by an engine, whose limits are both the
given one, after the rules of the file were added and the passes were run, and this text is read as
these rules. If the last pass derived nothing, every derivation from the output with the same limit,
however many passes it may run, writes the output again. -/
theorem run_derive_and_run_derive_again {read : String → Except FileError String}
    {arguments : List String} {maxPasses : Nat} {file text : String} (hlimit : 1 ≤ limit)
    (harguments : parse arguments = .ok (.derive limit maxPasses file))
    (hfile : read file = .ok text) (hpool : Display.readPool text = .ok pool) :
    let found := (engineOf limit pool).passes maxPasses
    let output := Display.printPool found.2.rules ++ "\n"
    run read arguments = ⟨0, output, none⟩ ∧
    Display.readPool output = .ok found.2.rules ∧
    (found.1.getLast? = some [] → ∀ reread others again copy,
      parse others = .ok (.derive limit again copy) → reread copy = .ok output →
      run reread others = ⟨0, output, none⟩) := by
  intro found output
  obtain ⟨session, hsession, rfl, hengine, -⟩ :=
    exists_session_derive hlimit (Display.legible_of_readPool hpool) maxPasses
  have hengine : session.engine = found.2 := hengine
  have hreread : Display.readPool output = .ok found.2.rules := by
    apply Display.readPool_printPool_append_lineFeed
    rw [← hengine]
    exact hsession.legible
  refine ⟨run_derive hlimit harguments hfile hpool, hreread, ?_⟩
  intro hended reread others again copy hothers hcopy
  have hadded : engineOf session.limit found.2.rules = found.2 := by
    rw [← hengine]
    exact engineOf_rules hsession
  have hstays : (found.2.passes again).2 = found.2 :=
    Forward.snd_passes_of_derivable_eq_nil (Forward.derivable_snd_passes hended) again
  rw [run_derive hlimit hothers hcopy hreread, hadded, hstays]

/-- A rule that is repeated in other words and one that is too large are left out, and what two
passes derive is added; from the output nothing more is derived. -/
theorem run_derive_of_inference :
    let text := "(p)\n\np, q -> r\n\nq\n\np\nq\n---\nr\n\nf(a, b, c, d, e, g)\n"
    let output := "p\n\np\nq\n----\nr\n\nq\n\nq\n----\nr\n\np\n----\nr\n\nr\n"
    let read : String → Except FileError String := fun _ => .ok text
    let reread : String → Except FileError String := fun _ => .ok output
    run read ["derive", "--limit=5", "rules"] = ⟨0, output, none⟩ ∧
    run reread ["derive", "--max-passes", "0", "--limit", "5", "copy"] = ⟨0, output, none⟩ := by
  intro text output read reread
  let p := Term.symbol "p"
  let q := Term.symbol "q"
  let r := Term.symbol "r"
  let wide := Term.application (.symbol "f")
    [.symbol "a", .symbol "b", .symbol "c", .symbol "d", .symbol "e", .symbol "g"]
  let pool : List Rule :=
    [⟨[], p⟩, ⟨[p, q], r⟩, ⟨[], q⟩, ⟨[p, q], r⟩, ⟨[], wide⟩]
  have hread : Display.readPool text = .ok pool := by decide +kernel
  have hfirst : parse ["derive", "--limit=5", "rules"] =
      .ok (.derive (5 : Nat) defaultMaxPasses "rules") := by decide +kernel
  have hsecond : parse ["derive", "--max-passes", "0", "--limit", "5", "copy"] =
      .ok (.derive (5 : Nat) 0 "copy") := by decide +kernel
  have hended : ((engineOf 5 pool).passes defaultMaxPasses).1.getLast? = some [] := by
    decide +kernel
  have hwritten : Display.printPool ((engineOf 5 pool).passes defaultMaxPasses).2.rules ++ "\n" =
      output := by decide +kernel
  obtain ⟨hrun, -, hagain⟩ :=
    run_derive_and_run_derive_again (by decide) hfirst (show read "rules" = .ok text from rfl) hread
  rw [hwritten] at hrun hagain
  exact ⟨hrun, hagain hended reread _ 0 "copy" hsecond rfl⟩

end CommandLine

end Sequitur
