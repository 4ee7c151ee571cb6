import Mathlib.Tactic.SplitIfs
import Sequitur.Files

/-!
# What files hold after they are changed

A place that is written holds what was written, and every other place holds what it held. A path
leads to the same place for as long as what were directories stay directories, so a file is read
back from the path by which it was written or moved. Making directories adds directories and
changes nothing else.

The device stays the same through all changes, so that what it refuses can be told beforehand.
-/

namespace Sequitur

namespace Device

variable {device : Device} {step : FileStep} {place : Place} {result outcome : α}
  {error : FileError}

theorem allow_eq_ok_iff : device.allow step place result = .ok outcome ↔
    device.refusal? step place = none ∧ result = outcome := by
  unfold allow
  cases device.refusal? step place with
  | none => simp
  | some refusal => simp

theorem allow_eq_error_iff : device.allow step place result = .error error ↔
    device.refusal? step place = some error := by
  unfold allow
  cases device.refusal? step place with
  | none => simp
  | some refusal => simp

end Device

namespace Files

variable {files after : Files} {place other : Place} {entry : FileEntry} {path : FilePath}
  {bytes : List UInt8}

/-! ### What a place holds -/

@[simp] theorem set_device (files : Files) (place : Place) (entry : FileEntry) :
    (files.set place entry).device = files.device := rfl

/-- Of two entries that are put at one place the second is there. -/
theorem set_set (files : Files) (place : Place) (first second : FileEntry) :
    (files.set place first).set place second = files.set place second := by
  simp [set, List.filter_filter]

theorem entry?_set_self (h : Place.isRoot place = false) :
    entry? (files.set place entry) place = some entry := by
  simp [set, entry?, h]

theorem lookup_filter_of_ne (entries : List (Place × FileEntry)) (h : other ≠ place) :
    (entries.filter (·.1 ≠ place)).lookup other = entries.lookup other := by
  induction entries with
  | nil => rfl
  | cons found entries ih =>
      rw [List.filter_cons, List.lookup_cons]
      by_cases hhere : found.1 = place
      · have hother : (other == found.1) = false := by simpa [hhere] using h
        rw [if_neg (by simpa using hhere), ih, hother]
      · rw [if_pos (by simpa using hhere), List.lookup_cons, ih]

theorem entry?_unset_of_ne (h : other ≠ place) :
    entry? (files.unset place) other = files.entry? other := by
  simp only [unset, entry?, lookup_filter_of_ne files.entries h]

theorem entry?_unset_self (h : Place.isRoot place = false) :
    entry? (files.unset place) place = none := by
  have hnone : (files.entries.filter (·.1 ≠ place)).lookup place = none := by
    rw [List.lookup_eq_none_iff]
    intro found hfound
    have hne : found.1 ≠ place := by simpa using (List.mem_filter.mp hfound).2
    exact bne_iff_ne.mpr hne.symm
  rw [unset, entry?, h]
  exact hnone

theorem entry?_set_of_ne (h : other ≠ place) :
    entry? (files.set place entry) other = files.entry? other := by
  have hne : (other == place) = false := by simpa using h
  simp only [set, entry?, List.lookup_cons, hne, lookup_filter_of_ne files.entries h]

theorem isRoot_eq_false_of_entry?_ne (h : files.entry? place ≠ some .directory) :
    Place.isRoot place = false := by
  cases hroot : Place.isRoot place with
  | false => rfl
  | true => exact absurd (if_pos hroot) h

/-! ### Following paths -/

theorem bind_eq_ok_iff {x : Except ε α} {next : α → Except ε β} {result : β} :
    x >>= next = .ok result ↔ ∃ value, x = .ok value ∧ next value = .ok result := by
  cases x with
  | error fault => simp [bind, Except.bind]
  | ok value => simp [bind, Except.bind]

/-- What are directories among the files are directories among the others. -/
def KeepsDirectories (files after : Files) : Prop :=
  ∀ place, files.entry? place = some .directory → after.entry? place = some .directory

theorem KeepsDirectories.refl (files : Files) : KeepsDirectories files files :=
  fun _ h => h

theorem follow_of_keepsDirectories (hkeeps : KeepsDirectories files after) {part : String}
    (h : files.follow place part = .ok other) : after.follow place part = .ok other := by
  cases hentry : files.entry? place with
  | none => simp [follow, hentry] at h
  | some entry =>
      cases entry with
      | file bytes => simp [follow, hentry] at h
      | directory =>
          simp only [follow, hentry] at h
          simpa only [follow, hkeeps place hentry] using h

theorem foldlM_follow_of_keepsDirectories (hkeeps : KeepsDirectories files after)
    {parts : List String} (h : parts.foldlM files.follow place = .ok other) :
    parts.foldlM after.follow place = .ok other := by
  induction parts generalizing place with
  | nil => exact h
  | cons part parts ih =>
      rw [List.foldlM_cons, bind_eq_ok_iff] at h ⊢
      obtain ⟨next, hfollow, hothers⟩ := h
      exact ⟨next, follow_of_keepsDirectories hkeeps hfollow, ih hothers⟩

/-- A path leads where it led before. -/
theorem locate_of_keepsDirectories (hkeeps : KeepsDirectories files after)
    (h : files.locate path = .ok place) : after.locate path = .ok place := by
  unfold locate at h ⊢
  split_ifs at h ⊢
  -- What refuses a path before it is followed does not look at the files.
  exact foldlM_follow_of_keepsDirectories hkeeps h

theorem KeepsDirectories.unset (hkeeps : KeepsDirectories files after)
    (h : files.entry? place ≠ some .directory) : KeepsDirectories files (after.unset place) := by
  intro here hhere
  have hne : here ≠ place := by
    rintro rfl
    exact h hhere
  rw [entry?_unset_of_ne hne, hkeeps here hhere]

theorem KeepsDirectories.set (hkeeps : KeepsDirectories files after)
    (h : files.entry? place ≠ some .directory) :
    KeepsDirectories files (after.set place entry) := by
  intro here hhere
  have hne : here ≠ place := by
    rintro rfl
    exact h hhere
  rw [entry?_set_of_ne hne, hkeeps here hhere]

/-! ### Making directories -/

/-- What a place held it still holds, and what is new is a directory. -/
def AddsDirectories (files after : Files) : Prop :=
  ∀ place, after.entry? place = files.entry? place ∨
    files.entry? place = none ∧ after.entry? place = some .directory

namespace AddsDirectories

theorem refl (files : Files) : AddsDirectories files files :=
  fun _ => .inl rfl

theorem trans {middle : Files} (hfirst : AddsDirectories files middle)
    (hsecond : AddsDirectories middle after) : AddsDirectories files after := by
  intro place
  rcases hsecond place with hsame | ⟨hnone, hnew⟩
  · rw [hsame]
    exact hfirst place
  · rcases hfirst place with hsame | ⟨-, hmade⟩
    · exact .inr ⟨hsame ▸ hnone, hnew⟩
    · simp [hmade] at hnone

/-- What was there is still there. -/
theorem entry?_eq_some (h : AddsDirectories files after)
    (hplace : files.entry? place = some entry) : after.entry? place = some entry := by
  rcases h place with hsame | ⟨hnone, -⟩
  · rw [hsame, hplace]
  · simp [hplace] at hnone

theorem keepsDirectories (h : AddsDirectories files after) : KeepsDirectories files after :=
  fun _ hplace => h.entry?_eq_some hplace

/-- No file appears where there was none. -/
theorem entry?_ne_file (h : AddsDirectories files after)
    (hfree : files.entry? place ≠ some (.file bytes)) :
    after.entry? place ≠ some (.file bytes) := by
  rcases h place with hsame | ⟨-, hnew⟩
  · rwa [hsame]
  · simp [hnew]

/-- The same file can be put at a place before directories are added and after it. -/
theorem set (h : AddsDirectories files after) (hroot : Place.isRoot place = false)
    (entry : FileEntry) : AddsDirectories (files.set place entry) (after.set place entry) := by
  intro other
  by_cases hother : other = place
  · rw [hother, entry?_set_self hroot, entry?_set_self hroot]
    exact .inl rfl
  · rw [entry?_set_of_ne hother, entry?_set_of_ne hother]
    exact h other

/-- Nothing is left of a file that was put where nothing was, once it is taken away. -/
theorem unset_set (h : AddsDirectories files after) (hnone : files.entry? place = none)
    (entry : FileEntry) (hentry : after.entry? place ≠ some .directory) :
    AddsDirectories files ((after.set place entry).unset place) := by
  intro other
  by_cases hother : other = place
  · rw [hother, entry?_unset_self (isRoot_eq_false_of_entry?_ne hentry), hnone]
    exact .inl rfl
  · rw [entry?_unset_of_ne hother, entry?_set_of_ne hother]
    exact h other

end AddsDirectories

theorem addsDirectories_of_makeDirectory (h : files.makeDirectory path = .ok after) :
    AddsDirectories files after := by
  rw [makeDirectory, bind_eq_ok_iff] at h
  obtain ⟨place, -, h⟩ := h
  split at h
  · cases h
  · next hnone =>
    obtain ⟨-, rfl⟩ := Device.allow_eq_ok_iff.mp h
    have hnot : files.entry? place ≠ some .directory := by simp [hnone]
    intro other
    by_cases hother : other = place
    · rw [hother, hnone]
      exact .inr ⟨rfl, entry?_set_self (isRoot_eq_false_of_entry?_ne hnot)⟩
    · exact .inl (entry?_set_of_ne hother)

theorem addsDirectories_of_ensureDirectory (h : files.ensureDirectory path = .ok after) :
    AddsDirectories files after := by
  unfold ensureDirectory at h
  split at h
  · rename_i made hmade
    rw [← Except.ok.inj h]
    exact addsDirectories_of_makeDirectory hmade
  · split_ifs at h
    rw [← Except.ok.inj h]
    exact .refl files

/-- Making directories changes nothing else, also when it stops halfway. -/
theorem addsDirectories_makeDirectories (files : Files) (path : FilePath) :
    AddsDirectories files (files.makeDirectories path).2 := by
  fun_induction makeDirectories files path with
  | case1 path => exact .refl files
  | case2 path _ _ made hmade => exact addsDirectories_of_ensureDirectory hmade
  | case3 path _ _ _ error above habove ih => rwa [habove] at ih
  | case4 path _ _ _ above habove made hmade ih =>
      rw [habove] at ih
      exact ih.trans (addsDirectories_of_ensureDirectory hmade)
  | case5 path _ _ _ above habove error _ ih => rwa [habove] at ih
  | case6 path => exact .refl files

theorem addsDirectories_of_makeDirectories {result : Except FileError Unit}
    (h : files.makeDirectories path = (result, after)) : AddsDirectories files after := by
  have hadds := addsDirectories_makeDirectories files path
  rwa [h] at hadds

theorem device_of_makeDirectory (h : files.makeDirectory path = .ok after) :
    after.device = files.device := by
  rw [makeDirectory, bind_eq_ok_iff] at h
  obtain ⟨place, -, h⟩ := h
  split at h
  · cases h
  · obtain ⟨-, rfl⟩ := Device.allow_eq_ok_iff.mp h
    rfl

theorem device_of_ensureDirectory (h : files.ensureDirectory path = .ok after) :
    after.device = files.device := by
  unfold ensureDirectory at h
  split at h
  · next made hmade =>
    rw [← Except.ok.inj h]
    exact device_of_makeDirectory hmade
  · split_ifs at h
    rw [← Except.ok.inj h]

theorem device_makeDirectories (files : Files) (path : FilePath) :
    (files.makeDirectories path).2.device = files.device := by
  fun_induction makeDirectories files path with
  | case1 path => rfl
  | case2 path _ _ made hmade => exact device_of_ensureDirectory hmade
  | case3 path _ _ _ error above habove ih => rwa [habove] at ih
  | case4 path _ _ _ above habove made hmade ih =>
      rw [habove] at ih
      exact (device_of_ensureDirectory hmade).trans ih
  | case5 path _ _ _ above habove error _ ih => rwa [habove] at ih
  | case6 path => rfl

/-! ### Steps of writing a file -/

theorem create_eq_ok_iff : files.create path = .ok (place, after) ↔
    files.locate path = .ok place ∧ files.entry? place ≠ some .directory ∧
      path.isClosed = false ∧ files.device.refusal? .create place = none ∧
      files.set place (.file []) = after := by
  rw [create, bind_eq_ok_iff]
  constructor
  · rintro ⟨found, hlocate, hfound⟩
    split at hfound
    · cases hfound
    · next hentry =>
      split_ifs at hfound with hclosed
      obtain ⟨hallowed, heq⟩ := Device.allow_eq_ok_iff.mp hfound
      obtain ⟨rfl, rfl⟩ := Prod.mk.inj heq
      exact ⟨hlocate, hentry, Bool.eq_false_iff.mpr hclosed, hallowed, rfl⟩
  · rintro ⟨hlocate, hentry, hclosed, hallowed, rfl⟩
    refine ⟨place, hlocate, ?_⟩
    split
    · next hdirectory => exact absurd hdirectory hentry
    · rw [if_neg (Bool.eq_false_iff.mp hclosed)]
      exact Device.allow_eq_ok_iff.mpr ⟨hallowed, rfl⟩

theorem write_eq_ok_iff : files.write place bytes = .ok after ↔
    files.device.refusal? .write place = none ∧ files.set place (.file bytes) = after := by
  unfold write
  cases files.device.refusal? .write place with
  | none => simp
  | some error => simp

/-- A file whose writing is refused holds a front part of the bytes. -/
theorem write_eq_error_iff {error : FileError} : files.write place bytes = .error (error, after) ↔
    files.device.refusal? .write place = some error ∧
      files.set place (.file (bytes.take files.device.taken)) = after := by
  unfold write
  cases files.device.refusal? .write place with
  | none => simp
  | some refusal => simp

theorem sync_of_locate (h : files.locate path = .ok place) :
    files.sync path = files.device.allow .sync place () := by
  rw [sync, h]
  rfl

theorem remove_of_locate (hread : files.readBytes path = .ok bytes)
    (h : files.locate path = .ok place) :
    files.remove path = files.device.allow .remove place (files.unset place) := by
  rw [remove, hread, h]
  rfl

/-! ### Reading what was written -/

theorem find_eq_file_iff : files.find path = .ok (.file bytes) ↔
    ∃ place, files.locate path = .ok place ∧ files.entry? place = some (.file bytes) ∧
      path.isClosed = false := by
  rw [find, bind_eq_ok_iff]
  refine exists_congr fun place => and_congr_right fun _ => ?_
  cases hentry : files.entry? place with
  | none => simp
  | some entry =>
      cases entry with
      | directory => simp
      | file found => cases path.isClosed <;> simp

theorem readBytes_eq_ok_iff :
    files.readBytes path = .ok bytes ↔ files.find path = .ok (.file bytes) := by
  unfold readBytes
  cases files.find path with
  | error error => simp
  | ok entry => cases entry <;> simp

theorem rename_eq_ok_iff {source target : FilePath} : files.rename source target = .ok after ↔
    ∃ bytes sourcePlace targetPlace, files.readBytes source = .ok bytes ∧
      files.locate source = .ok sourcePlace ∧ files.locate target = .ok targetPlace ∧
      target.endsInDots = false ∧ target.isClosed = false ∧
      files.entry? targetPlace ≠ some .directory ∧
      files.device.refusal? .rename targetPlace = none ∧
      (files.unset sourcePlace).set targetPlace (.file bytes) = after := by
  simp only [rename, bind_eq_ok_iff, exists_and_left]
  refine exists_congr fun bytes => and_congr_right fun _ => exists_congr fun sourcePlace =>
    and_congr_right fun _ => exists_congr fun targetPlace => and_congr_right fun _ => ?_
  split_ifs <;> simp_all [Device.allow_eq_ok_iff]

/-- A file that is put at a place is read from the path that led there. -/
theorem readBytes_set_file (hkeeps : KeepsDirectories files after)
    (hlocate : files.locate path = .ok place) (hentry : files.entry? place ≠ some .directory)
    (hclosed : path.isClosed = false) :
    (after.set place (.file bytes)).readBytes path = .ok bytes :=
  readBytes_eq_ok_iff.mpr (find_eq_file_iff.mpr
    ⟨place, locate_of_keepsDirectories (hkeeps.set hentry) hlocate,
      entry?_set_self (isRoot_eq_false_of_entry?_ne hentry), hclosed⟩)

/-- What is read is no directory. -/
theorem entry?_ne_directory_of_readBytes (hread : files.readBytes path = .ok bytes)
    (hlocate : files.locate path = .ok place) : files.entry? place ≠ some .directory := by
  obtain ⟨found, hfound, hfile, -⟩ := find_eq_file_iff.mp (readBytes_eq_ok_iff.mp hread)
  obtain rfl : found = place := by simpa [hfound] using hlocate
  simp [hfile]

theorem keepsDirectories_of_rename {source target : FilePath}
    (h : files.rename source target = .ok after) : KeepsDirectories files after := by
  obtain ⟨bytes, sourcePlace, targetPlace, hread, hsource, -, -, -, hentry, -, rfl⟩ :=
    rename_eq_ok_iff.mp h
  exact .set (.unset (.refl files) (entry?_ne_directory_of_readBytes hread hsource)) hentry

/-- A file that was moved is read from the path it was moved to. -/
theorem readBytes_of_rename {source target : FilePath} (hread : files.readBytes source = .ok bytes)
    (h : files.rename source target = .ok after) : after.readBytes target = .ok bytes := by
  obtain ⟨found, sourcePlace, targetPlace, hfound, hsource, htarget, -, hclosed, hentry, -, rfl⟩ :=
    rename_eq_ok_iff.mp h
  obtain rfl : found = bytes := by simpa [hfound] using hread
  have hnot := entry?_ne_directory_of_readBytes hfound hsource
  exact readBytes_set_file (.unset (.refl files) hnot) htarget hentry hclosed

theorem decode_encode (text : String) : decode (encode text) = .ok text := by
  have hvalid : text.toByteArray.IsValidUTF8 := text.isValidUTF8
  simp [decode, encode, String.fromUTF8?, hvalid]
  rfl

end Files

end Sequitur
