import Sequitur.Notation.Canonical.Layout
import Sequitur.Notation.Display.Layout
import Sequitur.Proofs.Text.Lines

/-!
# Pools that are put together

A pool is read piece by piece: block by block in the display notation, line by line in the
canonical one. The pieces of two texts with an empty line, or a line feed, between them are the
pieces of the one and then those of the other, whatever blanks the texts begin and end with. So
two texts are read as their pools one behind the other, and the first piece that cannot be read
decides how reading fails.
-/

namespace Sequitur.Notation

open Sequitur.Text

theorem Display.blocks_toList_append (text others : String) :
    blocks (text ++ "\n\n" ++ others).toList = blocks text.toList ++ blocks others.toList := by
  have htext : (text ++ "\n\n" ++ others).toList =
      text.toList ++ '\n' :: '\n' :: others.toList := by
    rw [String.toList_append, String.toList_append, List.append_assoc]
    rfl
  rw [htext, blocks_append_emptyLine]

theorem Canonical.filledLines_toList_append (text others : String) :
    filledLines (text ++ "\n" ++ others).toList =
      filledLines text.toList ++ filledLines others.toList := by
  have htext : (text ++ "\n" ++ others).toList = text.toList ++ '\n' :: others.toList := by
    rw [String.toList_append, String.toList_append, List.append_assoc]
    rfl
  rw [htext, filledLines_append_lineFeed]

/-- Two texts with an empty line between them in the display notation, or a line feed in the
canonical one, are read as the rules of the first and then those of the second. If one of them
is no pool, the error is that of the first text, and else that of the second. What a pool holds
is told piece by piece, and its error is that of the first piece that is no rule. -/
theorem readPool_append_and_readPool_eq_error_iff :
    (∀ text others : String, Display.readPool (text ++ "\n\n" ++ others) = do
      let rules ← Display.readPool text
      let more ← Display.readPool others
      return rules ++ more) ∧
    (∀ text others : String, Canonical.readPool (text ++ "\n" ++ others) = do
      let rules ← Canonical.readPool text
      let more ← Canonical.readPool others
      return rules ++ more) ∧
    (∀ text pool, Display.readPool text = .ok pool ↔
      List.Forall₂ (fun block rule => Display.readBlock block = .ok rule)
        (blocks text.toList) pool) ∧
    (∀ text pool, Canonical.readPool text = .ok pool ↔
      List.Forall₂ (fun line rule => Canonical.readRuleLine line = .ok rule)
        (filledLines text.toList) pool) ∧
    (∀ text error, Display.readPool text = .error error ↔ ∃ front block back,
      blocks text.toList = front ++ block :: back ∧
      (∀ earlier ∈ front, ∃ rule, Display.readBlock earlier = .ok rule) ∧
      Display.readBlock block = .error error) ∧
    (∀ text error, Canonical.readPool text = .error error ↔ ∃ front line back,
      filledLines text.toList = front ++ line :: back ∧
      (∀ earlier ∈ front, ∃ rule, Canonical.readRuleLine earlier = .ok rule) ∧
      Canonical.readRuleLine line = .error error) := by
  refine ⟨?_, ?_, fun _ _ => mapM_eq_ok_iff, fun _ _ => mapM_eq_ok_iff,
    fun _ _ => mapM_eq_error_iff, fun _ _ => mapM_eq_error_iff⟩
  · intro text others
    rw [Display.readPool, Display.blocks_toList_append, List.mapM_append]
    rfl
  · intro text others
    rw [Canonical.readPool, Canonical.filledLines_toList_append, List.mapM_append]
    rfl

end Sequitur.Notation
