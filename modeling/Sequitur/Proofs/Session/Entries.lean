import Sequitur.Proofs.Json.Values
import Sequitur.Proofs.Uuid
import Sequitur.Session.Entry

/-!
# Entries as they are written

The text of a list of entries is read back as that list, whatever the lines of the entries hold and
whether or not identifiers come more than once. The limits have to be integers of 64 bits, as no
other integer is read.
-/

namespace Sequitur.SnapshotEntry

open Sequitur.Json Sequitur.Text.Scanner

theorem readsAs_id (id : Uuid) : ReadsAs idValue (.string id.toString) id where
  begins := (readsAs_string id.toString).begins
  takes depth front rest hfront hrest := by
    refine .bind ((readsAs_string id.toString).takes depth front rest hfront hrest) ?_
    rw [Uuid.ofString?_toString]
    exact takes_pure id rest

theorem readsAs_lines (lines : List String) : ReadsAs linesValue (.strings lines) lines :=
  readsAs_array fun line _ => readsAs_string line

/-- The members of an entry are found one after the other. -/
theorem leadsTo_members (entry : SnapshotEntry) (hlimit : Number.isSigned64 entry.limit = true) :
    LeadsTo readMember ⟨none, none, none⟩
      [("id", .string entry.id.toString), ("limit", .int entry.limit),
        ("lines", .strings entry.lines)]
      ⟨some entry.id, some entry.limit, some entry.lines⟩ := by
  refine .cons ⟨some entry.id, none, none⟩ ?id
    (.cons ⟨some entry.id, some entry.limit, none⟩ ?limit (.cons _ ?lines (.nil _)))
  case id =>
    intro depth rest hrest
    exact .ite_pos rfl (.bind (takes_memberField (readsAs_id entry.id) hrest) (takes_pure _ _))
  case limit =>
    intro depth rest hrest
    refine .ite_neg (by decide) (.ite_pos rfl ?_)
    exact .bind (takes_memberField (readsAs_int hlimit) hrest) (takes_pure _ _)
  case lines =>
    intro depth rest hrest
    refine .ite_neg (by decide) (.ite_neg (by decide) (.ite_pos rfl ?_))
    exact .bind (takes_memberField (readsAs_lines entry.lines) hrest) (takes_pure _ _)

theorem readsAs_entry (entry : SnapshotEntry) (hlimit : Number.isSigned64 entry.limit = true) :
    ReadsAs SnapshotEntry.read entry.toJson entry :=
  readsAs_record (leadsTo_members entry hlimit) fun rest =>
    .bind (takes_pure entry.id rest) (.bind (takes_pure entry.limit rest)
      (.bind (takes_pure entry.lines rest) (takes_pure entry rest)))

/-- What is written of entries is read back. -/
theorem readAll_printAll {entries : List SnapshotEntry}
    (hlimits : ∀ entry ∈ entries, Number.isSigned64 entry.limit = true) :
    readAll (printAll entries) = .ok entries :=
  whole_pretty (readsAs_array fun entry hentry => readsAs_entry entry (hlimits entry hentry))

end Sequitur.SnapshotEntry
