import Sequitur.CommandLine
import Sequitur.Proofs.Nodes
import Sequitur.Proofs.Notation.Canonical.RoundTrip
import Sequitur.Proofs.Notation.Display.RoundTrip

/-!
# The text that a translation writes

What is read from a text, in either notation, is a pool of legible rules, and these have a text
in both notations. A translation writes the text of the pool with a line feed behind it, which
is read as the same pool. So the output of a translation says what the translated file says,
and a translation into the display notation leaves its own output as it is.
-/

namespace Sequitur

open Notation

/-- No node of a legible term is a grouping node, and each can be written. -/
theorem Term.Legible.forall_mem_walk {term : Term} (h : term.Legible) :
    ∀ node ∈ term.walk, node.isParenthesized = false ∧ node.IsWritableNode := by
  intro node hnode
  refine ⟨?_, h.writable node hnode⟩
  rw [← h.normalized_eq] at hnode
  exact isParenthesized_eq_false_of_mem_walk_normalized hnode

namespace CommandLine

/-- Reads the rules of a text in the notation of a name. -/
def NotationName.readPool : NotationName → String → Except ParseError (List Rule)
  | .display => Display.readPool
  | .canonical => Canonical.readPool

theorem NotationName.legible_of_readPool (source : NotationName) {text : String}
    {pool : List Rule} (h : source.readPool text = .ok pool) : ∀ rule ∈ pool, rule.Legible := by
  cases source with
  | display => exact Display.legible_of_readPool h
  | canonical => exact Canonical.legible_of_readPool h

theorem NotationName.readPool_translate (target : NotationName) {pool : List Rule}
    (h : ∀ rule ∈ pool, rule.Legible) :
    target.readPool (translate target pool ++ "\n") = .ok pool := by
  cases target with
  | display => exact Display.readPool_printPool_append_lineFeed h
  | canonical => exact Canonical.readPool_printPool_append_lineFeed h

/-- A translation of a file that can be read writes the text of the rules of the file. -/
theorem run_translate {read : String → Except FileError String} {arguments : List String}
    {target : NotationName} {file text : String} {pool : List Rule}
    (harguments : parse arguments = .ok (.translate target file)) (hfile : read file = .ok text)
    (hpool : Display.readPool text = .ok pool) :
    run read arguments = ⟨0, translate target pool ++ "\n", none⟩ := by
  have hrules : readRules read file = .ok pool := by
    simp only [readRules, hfile, hpool, Except.mapError]
  simp only [run, harguments, Command.output, hrules, Except.map]

/-- The rules that are read from a text hold no grouping node and nothing that cannot be
written, and in both notations the text that they are translated to is read as the same rules.
So a translation of a file writes a text that is read as the rules of the file, and a
translation of this output into the display notation, if it is in this notation, writes the
output again. -/
theorem readPool_translate_and_run_translate {source : NotationName} {text : String}
    {pool : List Rule} (h : source.readPool text = .ok pool) :
    (∀ rule ∈ pool, ∀ term ∈ rule.terms, ∀ node ∈ term.walk,
      node.isParenthesized = false ∧ node.IsWritableNode) ∧
    (∀ target : NotationName, target.readPool (translate target pool ++ "\n") = .ok pool) ∧
    (source = .display → ∀ read arguments target file,
      parse arguments = .ok (.translate target file) → read file = .ok text →
      ∃ output, run read arguments = ⟨0, output, none⟩ ∧ target.readPool output = .ok pool ∧
        (target = .display → ∀ reread others copy,
          parse others = .ok (.translate .display copy) → reread copy = .ok output →
          run reread others = ⟨0, output, none⟩)) := by
  have hlegible := source.legible_of_readPool h
  refine ⟨?_, fun target => target.readPool_translate hlegible, ?_⟩
  · intro rule hrule term hterm
    exact (hlegible rule hrule term hterm).forall_mem_walk
  · rintro rfl read arguments target file harguments hfile
    have houtput := target.readPool_translate hlegible
    refine ⟨_, run_translate harguments hfile h, houtput, ?_⟩
    rintro rfl reread others copy hothers hcopy
    exact run_translate hothers hcopy houtput

/-- Two rules, the first in its one-line form, are laid out in lines, and stay so. -/
theorem run_translate_of_inference :
    let text := "(p) ∧ q , r -> f(x)[i]\n\n~~  p\r\n"
    let output := "p ∧ q\nr\n-----\nf(x)[i]\n\n~~p\n"
    let read : String → Except FileError String := fun _ => .ok text
    let reread : String → Except FileError String := fun _ => .ok output
    run read ["translate", "--to=display", "rules"] = ⟨0, output, none⟩ ∧
    run reread ["translate", "--to", "display", "--", "copy"] = ⟨0, output, none⟩ := by
  intro text output read reread
  let pool : List Rule :=
    [⟨[.binary "∧" (.symbol "p") (.symbol "q"), .symbol "r"],
      .subscript (.application (.symbol "f") [.symbol "x"]) [.symbol "i"]⟩,
     ⟨[], .unary "~~" (.symbol "p")⟩]
  have hread : NotationName.display.readPool text = .ok pool := by decide +kernel
  have hwritten : translate .display pool ++ "\n" = output := by decide +kernel
  have hfirst : parse ["translate", "--to=display", "rules"] = .ok (.translate .display "rules") :=
    by decide +kernel
  have hsecond : parse ["translate", "--to", "display", "--", "copy"] =
      .ok (.translate .display "copy") := by decide +kernel
  obtain ⟨-, -, hrun⟩ := readPool_translate_and_run_translate hread
  obtain ⟨found, hfound, -, hagain⟩ := hrun rfl read _ .display "rules" hfirst rfl
  have heq : found = output := by
    have hwrites : run read _ = _ := run_translate hfirst rfl hread
    rw [hfound, hwritten] at hwrites
    exact congrArg Outcome.output hwrites
  subst heq
  exact ⟨hfound, hagain rfl reread _ "copy" hsecond rfl⟩

end CommandLine

end Sequitur
