import Sequitur.Proofs.Files
import Sequitur.Proofs.Session.Entries
import Sequitur.Session.SnapshotFile

/-!
# Snapshots that are kept in files

A snapshot that was saved is loaded from the same path: the file holds the text of the entries when
the temporary file has been moved into its place, and that text is read back as the entries.

Saving is all or nothing as far as the target and all other files go. Up to the move the temporary
file is the only one that is new, and it stands where no file was. It is gone in the end unless the
device refuses to write it or to sync it, or refuses to remove it when it cannot be moved; then it
is left with a front part of the text.
-/

namespace Sequitur.SnapshotFile

/-! ### How a file is replaced -/

/-- The directory of the target is made, and the temporary file is created in it at a place. -/
def Creates (files : Files) (path : FilePath) (temporary : String) (place : Place)
    (created : Files) : Prop :=
  ∃ made, files.makeDirectories path.parent = (.ok (), made) ∧
    made.create (path.parent.child temporary) = .ok (place, created)

/-- How the replacing of a file ends: what it answers, and the files after it. -/
inductive Replaces (files : Files) (path : FilePath) (temporary text : String) :
    Except FileError Unit → Files → Prop
  | noDirectory {made : Files} {error : FileError}
      (hmade : files.makeDirectories path.parent = (.error error, made)) :
      Replaces files path temporary text (.error error) made
  | notCreated {made : Files} {error : FileError}
      (hmade : files.makeDirectories path.parent = (.ok (), made))
      (hcreate : made.create (path.parent.child temporary) = .error error) :
      Replaces files path temporary text (.error error) made
  | notWritten {place : Place} {created after : Files} {error : FileError}
      (hcreates : Creates files path temporary place created)
      (hwrite : created.write place (Files.encode text) = .error (error, after)) :
      Replaces files path temporary text (.error error) after
  | notSynced {place : Place} {created written : Files} {error : FileError}
      (hcreates : Creates files path temporary place created)
      (hwrite : created.write place (Files.encode text) = .ok written)
      (hsync : written.sync (path.parent.child temporary) = .error error) :
      Replaces files path temporary text (.error error) written
  | removed {place : Place} {created written after : Files} {error : FileError}
      (hcreates : Creates files path temporary place created)
      (hwrite : created.write place (Files.encode text) = .ok written)
      (hsync : written.sync (path.parent.child temporary) = .ok ())
      (hrename : written.rename (path.parent.child temporary) path = .error error)
      (hremove : written.remove (path.parent.child temporary) = .ok after) :
      Replaces files path temporary text (.error error) after
  | notRemoved {place : Place} {created written : Files} {error fault : FileError}
      (hcreates : Creates files path temporary place created)
      (hwrite : created.write place (Files.encode text) = .ok written)
      (hrename : written.rename (path.parent.child temporary) path = .error error)
      (hremove : written.remove (path.parent.child temporary) = .error fault) :
      Replaces files path temporary text (.error error) written
  | moved {place : Place} {created written after : Files}
      (hcreates : Creates files path temporary place created)
      (hwrite : created.write place (Files.encode text) = .ok written)
      (hsync : written.sync (path.parent.child temporary) = .ok ())
      (hrename : written.rename (path.parent.child temporary) path = .ok after) :
      Replaces files path temporary text (.ok ()) after

theorem replaces (files : Files) (path : FilePath) (temporary text : String) :
    Replaces files path temporary text (replace files path temporary text).1
      (replace files path temporary text).2 := by
  unfold replace
  rcases hmade : files.makeDirectories path.parent with ⟨error | result, made⟩
  · exact .noDirectory hmade
  · rcases hcreate : made.create (path.parent.child temporary) with error | ⟨place, created⟩
    · simpa only [Files.writeBytes, hcreate] using Replaces.notCreated hmade hcreate
    · have hcreates : Creates files path temporary place created := ⟨made, hmade, hcreate⟩
      simp only [Files.writeBytes, hcreate]
      rcases hwrite : created.write place (Files.encode text) with ⟨error, left⟩ | written
      · exact .notWritten hcreates hwrite
      · rcases hsync : written.sync (path.parent.child temporary) with error | result
        · simpa only [hsync] using Replaces.notSynced hcreates hwrite hsync
        · rcases hrename : written.rename (path.parent.child temporary) path with error | moved
          · rcases hremove : written.remove (path.parent.child temporary) with fault | removed
            · simpa only [hsync, hrename, hremove, Except.toOption, Option.getD_none] using
                Replaces.notRemoved hcreates hwrite hrename hremove
            · simpa only [hsync, hrename, hremove, Except.toOption, Option.getD_some] using
                Replaces.removed hcreates hwrite hsync hrename hremove
          · simpa only [hsync, hrename] using Replaces.moved hcreates hwrite hsync hrename

variable {files created written after : Files} {path : FilePath} {temporary text : String}
  {place : Place} {bytes : List UInt8} {error : FileError} {entries : List SnapshotEntry}

/-! ### Reading back -/

/-- A file that was replaced holds the text. -/
theorem readText_of_replace (h : (replace files path temporary text).1 = .ok ()) :
    (replace files path temporary text).2.readText path = .ok text := by
  have hreplaces := replaces files path temporary text
  rw [h] at hreplaces
  generalize (replace files path temporary text).2 = after at hreplaces ⊢
  cases hreplaces with
  | @moved place created written _ hcreates hwrite hsync hrename =>
      obtain ⟨made, -, hcreate⟩ := hcreates
      obtain ⟨hlocate, hentry, hclosed, -, rfl⟩ := Files.create_eq_ok_iff.mp hcreate
      obtain ⟨-, rfl⟩ := Files.write_eq_ok_iff.mp hwrite
      rw [Files.set_set] at hrename
      have hwritten : (made.set place (.file (Files.encode text))).readBytes
          (path.parent.child temporary) = .ok (Files.encode text) :=
        Files.readBytes_set_file (.refl made) hlocate hentry hclosed
      rw [Files.readText, Files.readBytes_of_rename hwritten hrename]
      exact Files.decode_encode text

theorem save_eq (files : Files) (path : FilePath) (temporary : String)
    (entries : List SnapshotEntry) : save files path temporary entries =
      ((replace files path temporary (SnapshotEntry.printAll entries)).1.mapError
          (.snapshot ∘ .file),
        (replace files path temporary (SnapshotEntry.printAll entries)).2) := rfl

/-- Saving succeeds exactly where the file is replaced. -/
theorem save_eq_ok_iff : (save files path temporary entries).1 = .ok () ↔
    (replace files path temporary (SnapshotEntry.printAll entries)).1 = .ok () := by
  rw [save_eq]
  cases (replace files path temporary (SnapshotEntry.printAll entries)).1 with
  | error error => simp [Except.mapError]
  | ok result => simp [Except.mapError]

theorem save_eq_error
    (h : (replace files path temporary (SnapshotEntry.printAll entries)).1 = .error error) :
    (save files path temporary entries).1 = .error (.snapshot (.file error)) := by
  rw [save_eq]
  dsimp only
  rw [h]
  rfl

/-- A snapshot that was saved is loaded from the same path, entry by entry and in the same order. -/
theorem load_save (hlimits : ∀ entry ∈ entries, Number.isSigned64 entry.limit = true)
    (hsaved : (save files path temporary entries).1 = .ok ()) :
    load (save files path temporary entries).2 path = .ok entries := by
  have htext : (save files path temporary entries).2.readText path =
      .ok (SnapshotEntry.printAll entries) :=
    readText_of_replace (save_eq_ok_iff.mp hsaved)
  rw [load, htext]
  simp only [SnapshotEntry.readAll_printAll hlimits]
  rfl

/-- Two entries of one identifier with the extreme limits, and lines in which characters are
escaped. -/
def escapedEntries : List SnapshotEntry :=
  [⟨Uuid.zero, -9223372036854775808, ["a \"b\" \\ \n\t\x01\x7f", "", "é 𝒜"]⟩,
    ⟨Uuid.zero, 9223372036854775807, []⟩]

theorem load_save_escapedEntries :
    let saved := save .empty (.ofName "var/./sessions.json") ".sessions.json.tmp" escapedEntries
    saved.1 = .ok () ∧ load saved.2 (.ofName "var/./sessions.json") = .ok escapedEntries := by
  have hsaved : (save .empty (.ofName "var/./sessions.json") ".sessions.json.tmp"
      escapedEntries).1 = .ok () := save_eq_ok_iff.mpr (by decide +kernel)
  exact ⟨hsaved, load_save (by decide) hsaved⟩

/-! ### All or nothing -/

/-- The place of the temporary file: beside the target, once the directories on the way are
there. -/
def temporaryPlace (files : Files) (path : FilePath) (temporary : String) :
    Except FileError Place :=
  (files.makeDirectories path.parent).2.locate (path.parent.child temporary)

/-- The temporary file stays where it is: it is created, and the device refuses to write it or to
sync it, or refuses to remove it when it cannot be moved. -/
def LeavesTemporary (files : Files) (path : FilePath) (temporary text : String) : Prop :=
  ∃ place created, Creates files path temporary place created ∧
    (files.device.refusal? .write place ≠ none ∨ files.device.refusal? .sync place ≠ none ∨
      files.device.refusal? .remove place ≠ none ∧
        ∃ error, (created.set place (.file (Files.encode text))).rename
          (path.parent.child temporary) path = .error error)

/-- A temporary file is there with its bytes, and apart from it only directories were added. -/
structure HoldsTemporary (files after : Files) (path : FilePath) (temporary : String)
    (place : Place) (bytes : List UInt8) : Prop where
  temporaryPlace_eq : temporaryPlace files path temporary = .ok place
  locate_eq : after.locate (path.parent.child temporary) = .ok place
  entry?_eq : after.entry? place = some (.file bytes)
  readBytes_eq : after.readBytes (path.parent.child temporary) = .ok bytes
  keepsDirectories : Files.KeepsDirectories files after
  addsDirectories : Files.AddsDirectories files (after.unset place)
  device_eq : after.device = files.device

theorem Creates.device_eq (h : Creates files path temporary place created) :
    created.device = files.device := by
  obtain ⟨made, hmade, hcreate⟩ := h
  obtain ⟨-, -, -, -, rfl⟩ := Files.create_eq_ok_iff.mp hcreate
  have hdevice := Files.device_makeDirectories files path.parent
  rwa [hmade] at hdevice

theorem Creates.write_eq_ok_iff (h : Creates files path temporary place created) :
    created.write place bytes = .ok written ↔
      files.device.refusal? .write place = none ∧ created.set place (.file bytes) = written := by
  rw [Files.write_eq_ok_iff, h.device_eq]

/-- There is one place at which the temporary file is created, and one way to create it. -/
theorem Creates.leavesTemporary_iff (h : Creates files path temporary place created) :
    LeavesTemporary files path temporary text ↔
      files.device.refusal? .write place ≠ none ∨ files.device.refusal? .sync place ≠ none ∨
        files.device.refusal? .remove place ≠ none ∧
          ∃ error, (created.set place (.file (Files.encode text))).rename
            (path.parent.child temporary) path = .error error := by
  constructor
  · rintro ⟨other, others, ⟨_, hmade', hcreate'⟩, hleaves⟩
    obtain ⟨made, hmade, hcreate⟩ := h
    obtain rfl : made = _ := (Prod.mk.inj (hmade.symm.trans hmade')).2
    obtain ⟨rfl, rfl⟩ := Prod.mk.inj (Except.ok.inj (hcreate.symm.trans hcreate'))
    exact hleaves
  · intro hleaves
    exact ⟨place, created, h, hleaves⟩

/-- A device that refuses nothing lets no temporary file stay. -/
theorem not_leavesTemporary_of_sound (h : files.device = .sound) :
    ¬LeavesTemporary files path temporary text := by
  rintro ⟨place, created, -, hrefused | hrefused | ⟨hrefused, -⟩⟩
  all_goals
    rw [h] at hrefused
    exact hrefused rfl

theorem HoldsTemporary.sync_eq
    (h : HoldsTemporary files written path temporary place bytes) :
    written.sync (path.parent.child temporary) = files.device.allow .sync place () := by
  rw [Files.sync_of_locate h.locate_eq, h.device_eq]

theorem HoldsTemporary.remove_eq
    (h : HoldsTemporary files written path temporary place bytes) :
    written.remove (path.parent.child temporary) =
      files.device.allow .remove place (written.unset place) := by
  rw [Files.remove_of_locate h.readBytes_eq h.locate_eq, h.device_eq]

theorem ne_file_of_entry?_eq_none (hplace : temporaryPlace files path temporary = .ok place)
    (hnone : files.entry? place = none) (other : Place) (bytes : List UInt8)
    (hother : temporaryPlace files path temporary = .ok other) :
    files.entry? other ≠ some (.file bytes) := by
  obtain rfl : place = other := Except.ok.inj (hplace.symm.trans hother)
  simp [hnone]

section Replacing

variable (hfree : ∀ place bytes, temporaryPlace files path temporary = .ok place →
  files.entry? place ≠ some (.file bytes))

include hfree

/-- A temporary file that was created may be given any bytes. -/
theorem Creates.holdsTemporary (h : Creates files path temporary place created)
    (bytes : List UInt8) :
    HoldsTemporary files (created.set place (.file bytes)) path temporary place bytes := by
  have hdevice : (created.set place (.file bytes)).device = files.device := by
    rw [Files.set_device, h.device_eq]
  obtain ⟨made, hmade, hcreate⟩ := h
  obtain ⟨hlocate, hentry, hclosed, -, rfl⟩ := Files.create_eq_ok_iff.mp hcreate
  have hadds : Files.AddsDirectories files made := Files.addsDirectories_of_makeDirectories hmade
  have hplace : temporaryPlace files path temporary = .ok place := by
    rw [temporaryPlace, hmade]
    exact hlocate
  have hnone : files.entry? place = none := by
    cases hheld : files.entry? place with
    | none => rfl
    | some held =>
        cases held with
        | file found => exact absurd hheld (hfree place found hplace)
        | directory => exact absurd (hadds.keepsDirectories place hheld) hentry
  rw [Files.set_set] at hdevice ⊢
  exact {
    temporaryPlace_eq := hplace
    locate_eq := Files.locate_of_keepsDirectories (.set (.refl made) hentry) hlocate
    entry?_eq := Files.entry?_set_self (Files.isRoot_eq_false_of_entry?_ne hentry)
    readBytes_eq := Files.readBytes_set_file (.refl made) hlocate hentry hclosed
    keepsDirectories := hadds.keepsDirectories.set (by simp [hnone])
    addsDirectories := hadds.unset_set hnone _ hentry
    device_eq := hdevice }

/-- A file that cannot be replaced is left as it was, and so is every other file; the temporary
file stays where it is, or it is gone. -/
theorem Replaces.of_error (h : Replaces files path temporary text (.error error) after) :
    (¬LeavesTemporary files path temporary text ∧ Files.AddsDirectories files after) ∨
    (LeavesTemporary files path temporary text ∧
      ∃ place bytes, bytes <+: Files.encode text ∧
        HoldsTemporary files after path temporary place bytes) := by
  cases h with
  | noDirectory hmade =>
      refine .inl ⟨?_, Files.addsDirectories_of_makeDirectories hmade⟩
      rintro ⟨place, created, ⟨made, hother, -⟩, -⟩
      cases hmade.symm.trans hother
  | notCreated hmade hcreate =>
      refine .inl ⟨?_, Files.addsDirectories_of_makeDirectories hmade⟩
      rintro ⟨place, created, ⟨made, hother, hcreated⟩, -⟩
      obtain rfl : after = made := (Prod.mk.inj (hmade.symm.trans hother)).2
      cases hcreate.symm.trans hcreated
  | @notWritten place created _ _ hcreates hwrite =>
      obtain ⟨hrefused, rfl⟩ := Files.write_eq_error_iff.mp hwrite
      rw [hcreates.device_eq] at hrefused
      refine .inr ⟨hcreates.leavesTemporary_iff.mpr (.inl (by simp [hrefused])), place, _,
        List.take_prefix _ _, hcreates.holdsTemporary hfree _⟩
  | @notSynced place created _ _ hcreates hwrite hsync =>
      obtain ⟨-, rfl⟩ := hcreates.write_eq_ok_iff.mp hwrite
      have hholds := hcreates.holdsTemporary hfree (Files.encode text)
      rw [hholds.sync_eq, Device.allow_eq_error_iff] at hsync
      exact .inr ⟨hcreates.leavesTemporary_iff.mpr (.inr (.inl (by simp [hsync]))), place, _,
        List.prefix_rfl, hholds⟩
  | @removed place created _ _ _ hcreates hwrite hsync hrename hremove =>
      obtain ⟨hwritten, rfl⟩ := hcreates.write_eq_ok_iff.mp hwrite
      have hholds := hcreates.holdsTemporary hfree (Files.encode text)
      rw [hholds.sync_eq, Device.allow_eq_ok_iff] at hsync
      rw [hholds.remove_eq, Device.allow_eq_ok_iff] at hremove
      obtain ⟨hremoved, rfl⟩ := hremove
      refine .inl ⟨?_, hholds.addsDirectories⟩
      rw [hcreates.leavesTemporary_iff]
      simp [hwritten, hsync.1, hremoved]
  | @notRemoved place created _ _ _ hcreates hwrite hrename hremove =>
      obtain ⟨-, rfl⟩ := hcreates.write_eq_ok_iff.mp hwrite
      have hholds := hcreates.holdsTemporary hfree (Files.encode text)
      rw [hholds.remove_eq, Device.allow_eq_error_iff] at hremove
      exact .inr ⟨hcreates.leavesTemporary_iff.mpr (.inr (.inr ⟨by simp [hremove], _, hrename⟩)),
        place, _, List.prefix_rfl, hholds⟩

/-- Where a file was replaced, the path leads to the text, and apart from that only directories
were added. -/
theorem Replaces.of_ok (h : Replaces files path temporary text (.ok ()) after) :
    ¬LeavesTemporary files path temporary text ∧
    ∃ target, after.locate path = .ok target ∧ files.entry? target ≠ some .directory ∧
      Files.AddsDirectories (files.set target (.file (Files.encode text))) after := by
  cases h with
  | @moved place created _ _ hcreates hwrite hsync hrename =>
      obtain ⟨hwritten, rfl⟩ := hcreates.write_eq_ok_iff.mp hwrite
      have hholds := hcreates.holdsTemporary hfree (Files.encode text)
      constructor
      · rw [hholds.sync_eq, Device.allow_eq_ok_iff] at hsync
        rw [hcreates.leavesTemporary_iff]
        simp [hwritten, hsync.1, hrename]
      · obtain ⟨bytes, source, target, hbytes, hsource, htarget, -, -, hentry, -, rfl⟩ :=
          Files.rename_eq_ok_iff.mp hrename
        obtain rfl : Files.encode text = bytes :=
          Except.ok.inj (hholds.readBytes_eq.symm.trans hbytes)
        obtain rfl : place = source := Except.ok.inj (hholds.locate_eq.symm.trans hsource)
        refine ⟨target, ?_, ?_, ?_⟩
        · exact Files.locate_of_keepsDirectories (Files.keepsDirectories_of_rename hrename) htarget
        · intro hdirectory
          exact hentry (hholds.keepsDirectories target hdirectory)
        · exact hholds.addsDirectories.set (Files.isRoot_eq_false_of_entry?_ne hentry) _

end Replacing

/-- Saving is all or nothing. When it succeeds, the path leads to the text of the entries, at a
place where no directory was, and apart from that only directories were added. When it fails, only
directories were added. The temporary file is gone in both cases. -/
structure IsAllOrNothing (files : Files) (path : FilePath) (temporary : String)
    (entries : List SnapshotEntry) : Prop where
  saved : (save files path temporary entries).1 = .ok () →
    ∃ target, (save files path temporary entries).2.locate path = .ok target ∧
      files.entry? target ≠ some .directory ∧
      (save files path temporary entries).2.readText path =
        .ok (SnapshotEntry.printAll entries) ∧
      Files.AddsDirectories
        (files.set target (.file (Files.encode (SnapshotEntry.printAll entries))))
        (save files path temporary entries).2
  refused : ∀ failure, (save files path temporary entries).1 = .error failure →
    Files.AddsDirectories files (save files path temporary entries).2
  gone : ∀ place bytes, temporaryPlace files path temporary = .ok place →
    ((save files path temporary entries).1 = .ok () →
      (save files path temporary entries).2.locate path ≠ .ok place) →
    Files.entry? (save files path temporary entries).2 place ≠ some (.file bytes)

variable {failure : Failure}

/-- Where the temporary file is held after a failure, saving was not all or nothing. -/
theorem HoldsTemporary.not_isAllOrNothing
    (h : HoldsTemporary files (save files path temporary entries).2 path temporary place bytes)
    (hfailed : (save files path temporary entries).1 = .error failure) :
    ¬IsAllOrNothing files path temporary entries := by
  intro hall
  apply hall.gone place bytes h.temporaryPlace_eq
  · intro hdone
    cases hfailed.symm.trans hdone
  · exact h.entry?_eq

namespace IsAllOrNothing

variable (hfree : ∀ place bytes, temporaryPlace files path temporary = .ok place →
  files.entry? place ≠ some (.file bytes))

include hfree

theorem of_replace
    (hresult : (replace files path temporary (SnapshotEntry.printAll entries)).1 = .ok ()) :
    IsAllOrNothing files path temporary entries := by
  have hreplaces := replaces files path temporary (SnapshotEntry.printAll entries)
  rw [hresult] at hreplaces
  obtain ⟨-, target, htarget, hentry, hadds⟩ := hreplaces.of_ok hfree
  have hdone : (save files path temporary entries).1 = .ok () := save_eq_ok_iff.mpr hresult
  exact {
    saved := fun _ => ⟨target, htarget, hentry, readText_of_replace hresult, hadds⟩
    refused := by
      intro failure hfailure
      cases hdone.symm.trans hfailure
    gone := by
      intro place bytes hplace hother
      have hne : place ≠ target := by
        rintro rfl
        exact hother hdone htarget
      apply hadds.entry?_ne_file
      rw [Files.entry?_set_of_ne hne]
      exact hfree place bytes hplace }

theorem of_addsDirectories (hfailed : (save files path temporary entries).1 = .error failure)
    (hadds : Files.AddsDirectories files (save files path temporary entries).2) :
    IsAllOrNothing files path temporary entries where
  saved := by
    intro hdone
    cases hfailed.symm.trans hdone
  refused := fun _ _ => hadds
  gone := by
    intro place bytes hplace _
    exact hadds.entry?_ne_file (hfree place bytes hplace)

end IsAllOrNothing

/-- Saving is all or nothing unless the device lets the temporary file stay. Then saving fails, what
a place held it still holds, and what is new are directories and the temporary file, which holds a
front part of the text of the entries. -/
theorem isAllOrNothing_iff_not_leavesTemporary (files : Files) (path : FilePath)
    (temporary : String) (entries : List SnapshotEntry)
    (hfree : ∀ place bytes, temporaryPlace files path temporary = .ok place →
      files.entry? place ≠ some (.file bytes)) :
    let saved := save files path temporary entries
    let text := SnapshotEntry.printAll entries
    (IsAllOrNothing files path temporary entries ↔
      ¬LeavesTemporary files path temporary text) ∧
    (LeavesTemporary files path temporary text → (∃ failure, saved.1 = .error failure) ∧
      ∃ place front, temporaryPlace files path temporary = .ok place ∧
        front <+: Files.encode text ∧ Files.entry? saved.2 place = some (.file front) ∧
        Files.AddsDirectories files (saved.2.unset place)) := by
  intro saved text
  have hreplaces := replaces files path temporary text
  cases hresult : (replace files path temporary text).1 with
  | ok result =>
      rw [hresult] at hreplaces
      have hnot : ¬LeavesTemporary files path temporary text := (hreplaces.of_ok hfree).1
      have hall : IsAllOrNothing files path temporary entries := .of_replace hfree hresult
      exact ⟨iff_of_true hall hnot, fun hleaves => absurd hleaves hnot⟩
  | error error =>
      rw [hresult] at hreplaces
      have hfailed : saved.1 = .error (.snapshot (.file error)) := save_eq_error hresult
      rcases hreplaces.of_error hfree with ⟨hnot, hadds⟩ | ⟨hleaves, place, front, hfront, hholds⟩
      · have hall : IsAllOrNothing files path temporary entries :=
          .of_addsDirectories hfree hfailed hadds
        exact ⟨iff_of_true hall hnot, fun hleaves => absurd hleaves hnot⟩
      · have hnotAll : ¬IsAllOrNothing files path temporary entries :=
          hholds.not_isAllOrNothing hfailed
        refine ⟨iff_of_false hnotAll (not_not_intro hleaves), fun _ => ⟨⟨_, hfailed⟩, ?_⟩⟩
        exact ⟨place, front, hholds.temporaryPlace_eq, hfront, hholds.entry?_eq,
          hholds.addsDirectories⟩

/-- A directory with a snapshot in it, and a file beside the directory. -/
def earlierFiles : Files where
  entries := [(["var"], .directory), (["var", "sessions.json"], .file (Files.encode "[]")),
    (["notes"], .file (Files.encode "kept"))]

/-- The same files on a device that has room for one byte more. -/
def crowdedFiles : Files where
  entries := earlierFiles.entries
  device := ⟨fun step _ => if step = .write then some .deviceFull else none, 1⟩

/-- A snapshot that is replaced by way of a directory that has to be made first, a directory at
the target, a file where the directory of the target ought to be, and a device that is full: it
takes the first byte of the temporary file, and the file stays. -/
theorem isAllOrNothing_earlierFiles :
    let temporary := ".a.tmp"
    let through := FilePath.ofName "var/new/../sessions.json"
    let occupied := FilePath.ofName "var"
    let blocked := FilePath.ofName "notes/sessions.json"
    let ordinary := FilePath.ofName "var/sessions.json"
    let crowded := save crowdedFiles ordinary temporary escapedEntries
    ((save earlierFiles through temporary escapedEntries).1 = .ok () ∧
      IsAllOrNothing earlierFiles through temporary escapedEntries) ∧
    ((save earlierFiles occupied temporary escapedEntries).1 =
        .error (.snapshot (.file .isADirectory)) ∧
      IsAllOrNothing earlierFiles occupied temporary escapedEntries) ∧
    ((save earlierFiles blocked temporary escapedEntries).1 =
        .error (.snapshot (.file .alreadyExists)) ∧
      IsAllOrNothing earlierFiles blocked temporary escapedEntries) ∧
    (∃ failure, crowded.1 = .error failure) ∧
      Files.entry? crowded.2 ["var", temporary] = some (.file (Files.encode "[")) ∧
      Files.AddsDirectories crowdedFiles (crowded.2.unset ["var", temporary]) := by
  intro temporary through occupied blocked ordinary crowded
  have hthrough : temporaryPlace earlierFiles through temporary = .ok ["var", temporary] := by
    decide +kernel
  have hoccupied : temporaryPlace earlierFiles occupied temporary = .ok [temporary] := by
    decide +kernel
  have hblocked : temporaryPlace earlierFiles blocked temporary = .error .notADirectory := by
    decide +kernel
  have hordinary : temporaryPlace crowdedFiles ordinary temporary = .ok ["var", temporary] := by
    decide +kernel
  have hall (path : FilePath)
      (hfree : ∀ place bytes, temporaryPlace earlierFiles path temporary = .ok place →
        earlierFiles.entry? place ≠ some (.file bytes)) :
      IsAllOrNothing earlierFiles path temporary escapedEntries :=
    (isAllOrNothing_iff_not_leavesTemporary earlierFiles path temporary escapedEntries hfree).1.mpr
      (not_leavesTemporary_of_sound rfl)
  refine ⟨⟨?_, ?_⟩, ⟨?_, ?_⟩, ⟨?_, ?_⟩, ?_⟩
  · exact save_eq_ok_iff.mpr (by decide +kernel)
  · exact hall through (ne_file_of_entry?_eq_none hthrough (by decide +kernel))
  · exact save_eq_error (by decide +kernel)
  · exact hall occupied (ne_file_of_entry?_eq_none hoccupied (by decide +kernel))
  · exact save_eq_error (by decide +kernel)
  · exact hall blocked (by simp [hblocked])
  · have hleft : Files.entry? crowded.2 ["var", temporary] = some (.file (Files.encode "[")) := by
      decide +kernel
    have htarget : crowded.2.locate ordinary = .ok ["var", "sessions.json"] := by decide +kernel
    obtain ⟨hiff, hstays⟩ := isAllOrNothing_iff_not_leavesTemporary crowdedFiles ordinary
      temporary escapedEntries (ne_file_of_entry?_eq_none hordinary (by decide +kernel))
    have hleaves : LeavesTemporary crowdedFiles ordinary temporary
        (SnapshotEntry.printAll escapedEntries) := by
      by_contra hnot
      apply (hiff.mpr hnot).gone _ _ hordinary _ hleft
      intro _
      rw [htarget]
      decide
    obtain ⟨hfailed, place, front, hplace, -, -, hadds⟩ := hstays hleaves
    obtain rfl : ["var", temporary] = place := Except.ok.inj (hordinary.symm.trans hplace)
    exact ⟨hfailed, hleft, hadds⟩

/-- On a device that is full saving is not all or nothing. -/
theorem not_forall_isAllOrNothing :
    ¬∀ (files : Files) (path : FilePath) (temporary : String) (entries : List SnapshotEntry),
      (∀ place bytes, temporaryPlace files path temporary = .ok place →
        files.entry? place ≠ some (.file bytes)) →
      IsAllOrNothing files path temporary entries := by
  intro h
  let path := FilePath.ofName "sessions.json"
  let files : Files := { crowdedFiles with entries := [] }
  have hplace : temporaryPlace files path ".a.tmp" = .ok [".a.tmp"] := by decide +kernel
  have hleft : Files.entry? (save files path ".a.tmp" []).2 [".a.tmp"] =
      some (.file (Files.encode "[")) := by
    decide +kernel
  have htarget : (save files path ".a.tmp" []).2.locate path = .ok ["sessions.json"] := by
    decide +kernel
  have hall : IsAllOrNothing files path ".a.tmp" [] :=
    h files path ".a.tmp" [] (ne_file_of_entry?_eq_none hplace (by decide +kernel))
  apply hall.gone _ _ hplace _ hleft
  intro _
  rw [htarget]
  decide

end Sequitur.SnapshotFile
