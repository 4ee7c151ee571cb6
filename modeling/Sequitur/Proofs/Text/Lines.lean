import Mathlib.Data.List.Forall2
import Sequitur.Text.Join
import Sequitur.Text.Lines

/-!
# Lines and blocks that are put together and cut again

A text that is put together from lines is cut into the same lines, and blocks of lines with
empty lines between them into the same blocks, when no line is empty, is changed by
trimming or holds a line feed. Texts without other blanks than spaces inside them are such
lines. A line feed at the end of a text adds nothing to it, and two line feeds in a row part
its blocks.
-/

namespace Sequitur.Text

/-! ### Solid texts -/

/-- A text that begins and ends with characters that are not blank, and whose blanks are
spaces. -/
structure Solid (text : List Char) : Prop where
  head : ∃ c ∈ text.head?, isBlank c = false
  last : ∃ c ∈ text.getLast?, isBlank c = false
  inner : ∀ c ∈ text, c = ' ' ∨ isBlank c = false

theorem Solid.ne_nil {text : List Char} (h : Solid text) : text ≠ [] := by
  rintro rfl
  obtain ⟨c, hc, -⟩ := h.head
  simp at hc

theorem Solid.of_forall {text : List Char} (hne : text ≠ [])
    (h : ∀ c ∈ text, isBlank c = false) : Solid text where
  head := ⟨text.head hne, List.head?_eq_some_head hne, h _ (List.head_mem hne)⟩
  last := ⟨text.getLast hne, List.getLast?_eq_some_getLast hne, h _ (List.getLast_mem hne)⟩
  inner c hc := .inr (h c hc)

theorem Solid.singleton {c : Char} (h : isBlank c = false) : Solid [c] :=
  .of_forall (by simp) (by simpa using h)

/-- Solid texts make a solid text when only spaces and solid texts are between them. -/
theorem Solid.append_between {front back : List Char} (hfront : Solid front) (hback : Solid back)
    (between : List Char) (h : ∀ c ∈ between, c = ' ' ∨ isBlank c = false) :
    Solid (front ++ between ++ back) where
  head := by
    obtain ⟨c, hc, hblank⟩ := hfront.head
    refine ⟨c, ?_, hblank⟩
    rw [Option.mem_def] at hc ⊢
    rw [List.append_assoc, List.head?_append, hc, Option.some_or]
  last := by
    obtain ⟨c, hc, hblank⟩ := hback.last
    refine ⟨c, ?_, hblank⟩
    rw [Option.mem_def] at hc ⊢
    rw [List.getLast?_append, hc, Option.some_or]
  inner c hc := by
    rw [List.mem_append, List.mem_append] at hc
    rcases hc with (hc | hc) | hc
    · exact hfront.inner c hc
    · exact h c hc
    · exact hback.inner c hc

theorem Solid.append {front back : List Char} (hfront : Solid front) (hback : Solid back) :
    Solid (front ++ back) := by
  have h := hfront.append_between hback [] (by simp)
  rwa [List.append_nil] at h

theorem Solid.append_space {front back : List Char} (hfront : Solid front) (hback : Solid back) :
    Solid (front ++ ' ' :: back) := by
  have h := hfront.append_between hback [' '] (by simp)
  rwa [List.append_assoc] at h

theorem Solid.enclosed {text : List Char} (h : Solid text) {opening closing : Char}
    (hopening : isBlank opening = false) (hclosing : isBlank closing = false) :
    Solid (opening :: text ++ [closing]) :=
  (singleton hopening).append_between (singleton hclosing) text h.inner

theorem Solid.listed {texts : List (List Char)} (hne : texts ≠ [])
    (h : ∀ text ∈ texts, Solid text) : Solid (listed texts) := by
  have hcomma : Solid [','] := .singleton (by decide)
  induction texts with
  | nil => exact absurd rfl hne
  | cons text texts ih =>
      rw [List.forall_mem_cons] at h
      cases texts with
      | nil => exact h.1
      | cons other texts =>
          have hothers := ih (by simp) h.2
          have htext := (h.1.append hcomma).append_space hothers
          rw [List.append_assoc] at htext
          simpa [Text.listed, joinWith] using htext

/-! ### Lines -/

/-- A line as it stands in a text: not empty, trimmed, and without a line feed. -/
structure IsLine (line : List Char) : Prop where
  ne_nil : line ≠ []
  trim_eq : trim line = line
  forall_ne : ∀ c ∈ line, (c == '\n') = false

theorem trim_eq_self {text : List Char} (hhead : ∃ c ∈ text.head?, isBlank c = false)
    (hlast : ∃ c ∈ text.getLast?, isBlank c = false) : trim text = text := by
  obtain ⟨c, hc, hblank⟩ := hhead
  obtain ⟨d, hd, hblank'⟩ := hlast
  obtain ⟨back, rfl⟩ := List.head?_eq_some_iff.mp hc
  have hstart : trimStart (c :: back) = c :: back := by
    rw [trimStart, List.dropWhile_cons_of_neg (by simp [hblank])]
  obtain ⟨front, hfront⟩ := List.getLast?_eq_some_iff.mp hd
  rw [trim, hstart, hfront, trimEnd, List.reverse_append, List.reverse_singleton,
    List.singleton_append, List.dropWhile_cons_of_neg (by simp [hblank']), List.reverse_cons,
    List.reverse_reverse]

theorem Solid.isLine {text : List Char} (h : Solid text) : IsLine text where
  ne_nil := h.ne_nil
  trim_eq := trim_eq_self h.head h.last
  forall_ne c hc := by
    rcases h.inner c hc with rfl | hblank
    · rfl
    · rw [beq_eq_false_iff_ne]
      rintro rfl
      exact absurd hblank (by decide)

/-! ### Blanks around a text -/

theorem trimEnd_append {after : List Char} (hafter : ∀ c ∈ after, isBlank c = true)
    (text : List Char) : trimEnd (text ++ after) = trimEnd text := by
  rw [trimEnd, List.reverse_append, List.dropWhile_append_of_pos (by simpa using hafter), trimEnd]

/-- Trimming takes off what blanks are put around a text. -/
theorem trim_append_append {before after : List Char} (hbefore : ∀ c ∈ before, isBlank c = true)
    (hafter : ∀ c ∈ after, isBlank c = true) (text : List Char) :
    trim (before ++ text ++ after) = trim text := by
  have hstart : trimStart (before ++ text ++ after) = trimStart (text ++ after) := by
    rw [trimStart, List.append_assoc, List.dropWhile_append_of_pos hbefore, trimStart]
  rw [trim, hstart, trimStart, List.dropWhile_append]
  split
  · rename_i hblank
    have hnone : after.dropWhile isBlank = [] := by
      rw [← List.append_nil after, List.dropWhile_append_of_pos hafter, List.dropWhile_nil]
    rw [hnone, trim, trimStart, List.isEmpty_iff.mp hblank]
  · exact trimEnd_append hafter _

/-- A text is what trimming leaves of it, with blanks around. -/
theorem exists_eq_append_trim (text : List Char) : ∃ before after,
    text = before ++ trim text ++ after ∧ (∀ c ∈ before, isBlank c = true) ∧
      ∀ c ∈ after, isBlank c = true := by
  refine ⟨text.takeWhile isBlank, ((trimStart text).reverse.takeWhile isBlank).reverse, ?_,
    List.all_eq_true.mp List.all_takeWhile, ?_⟩
  · have hend : trim text ++ ((trimStart text).reverse.takeWhile isBlank).reverse =
        trimStart text := by
      rw [trim, trimEnd, ← List.reverse_append, List.takeWhile_append_dropWhile,
        List.reverse_reverse]
    rw [List.append_assoc, hend, trimStart, List.takeWhile_append_dropWhile]
  · intro c hc
    exact List.all_eq_true.mp List.all_takeWhile c (List.mem_reverse.mp hc)

/-! ### Joining and cutting -/

theorem joinWith_cons (separator text : List α) {texts : List (List α)} (hne : texts ≠ []) :
    joinWith separator (text :: texts) = text ++ separator ++ joinWith separator texts := by
  cases texts with
  | nil => exact absurd rfl hne
  | cons other texts => rfl

theorem joinWith_eq_intercalate (separator : List α) (texts : List (List α)) :
    joinWith separator texts = separator.intercalate texts := by
  induction texts with
  | nil => rfl
  | cons text texts ih =>
      cases texts with
      | nil => simp [joinWith]
      | cons next texts =>
          rw [joinWith_cons _ _ (by simp), ih, List.intercalate_cons_cons, List.append_assoc]

theorem joinWith_cons_ne_nil (separator : List α) {text : List α} (hne : text ≠ [])
    (texts : List (List α)) : joinWith separator (text :: texts) ≠ [] := by
  cases texts <;> simp [joinWith, hne]

theorem joinWith_append (separator : List α) {front back : List (List α)} (hfront : front ≠ [])
    (hback : back ≠ []) : joinWith separator (front ++ back) =
      joinWith separator front ++ separator ++ joinWith separator back := by
  induction front with
  | nil => exact absurd rfl hfront
  | cons text texts ih =>
      cases texts with
      | nil => exact joinWith_cons separator text hback
      | cons other texts =>
          rw [List.cons_append, joinWith_cons separator text (by simp), ih (by simp),
            joinWith_cons separator text (by simp)]
          simp only [List.append_assoc]

theorem mem_of_mem_joinWith {separator : List α} {texts : List (List α)} {x : α}
    (h : x ∈ joinWith separator texts) : x ∈ separator ∨ ∃ text ∈ texts, x ∈ text := by
  induction texts with
  | nil => simp [joinWith] at h
  | cons text texts ih =>
      cases texts with
      | nil => exact .inr ⟨text, by simp, h⟩
      | cons other texts =>
          rw [joinWith_cons _ _ (by simp), List.mem_append, List.mem_append] at h
          rcases h with (htext | hseparator) | hothers
          · exact .inr ⟨text, by simp, htext⟩
          · exact .inl hseparator
          · rcases ih hothers with hseparator | ⟨found, hfound, hmem⟩
            · exact .inl hseparator
            · exact .inr ⟨found, List.mem_cons_of_mem _ hfound, hmem⟩

/-- Pieces without a cut are what is between the cuts when they are joined by one. -/
theorem splitWhere_joinWith {isCut : α → Bool} {cut : α} (hcut : isCut cut = true)
    {pieces : List (List α)} (hne : pieces ≠ [])
    (h : ∀ piece ∈ pieces, ∀ x ∈ piece, isCut x = false) :
    splitWhere isCut (joinWith [cut] pieces) = pieces := by
  induction pieces with
  | nil => exact absurd rfl hne
  | cons piece pieces ih =>
      rw [List.forall_mem_cons] at h
      have hpiece := splitWhere_of_forall isCut piece h.1
      cases pieces with
      | nil => exact hpiece
      | cons other pieces =>
          rw [joinWith_cons _ _ (by simp), List.append_assoc, List.singleton_append,
            splitWhere_append_cut isCut piece cut _ hcut, hpiece, ih (by simp) h.2]
          rfl

theorem trimmedLines_joinWith {lines : List (List Char)} (hne : lines ≠ [])
    (h : ∀ line ∈ lines, trim line = line ∧ ∀ c ∈ line, (c == '\n') = false) :
    trimmedLines (joinWith ['\n'] lines) = lines := by
  rw [trimmedLines, splitWhere_joinWith (by decide) hne fun line hline => (h line hline).2]
  rw [List.map_congr_left fun line hline => (h line hline).1, List.map_id']

/-- The lines that a text is put together from are its filled lines. -/
theorem filledLines_joinWith {lines : List (List Char)} (h : ∀ line ∈ lines, IsLine line) :
    filledLines (joinWith ['\n'] lines) = lines := by
  cases lines with
  | nil => rfl
  | cons line lines =>
      rw [filledLines, trimmedLines_joinWith (by simp) fun line hline =>
        ⟨(h line hline).trim_eq, (h line hline).forall_ne⟩]
      rw [List.filter_eq_self]
      intro line hline
      simp [(h line hline).ne_nil]

/-- Blocks with empty lines between them are a text with two line feeds between the texts of
the blocks. -/
theorem joinWith_blocks {blocks : List (List (List Char))} (h : ∀ block ∈ blocks, block ≠ []) :
    joinWith ['\n', '\n'] (blocks.map (joinWith ['\n'])) =
      joinWith ['\n'] (joinWith [[]] blocks) := by
  induction blocks with
  | nil => rfl
  | cons block blocks ih =>
      rw [List.forall_mem_cons] at h
      cases blocks with
      | nil => rfl
      | cons other blocks =>
          have hrest : joinWith [[]] (other :: blocks) ≠ [] :=
            joinWith_cons_ne_nil _ (h.2 other (by simp)) blocks
          rw [List.map_cons, joinWith_cons _ _ (by simp), ih h.2, joinWith_cons _ block (by simp),
            joinWith_append _ (by simp) hrest, joinWith_append _ h.1 (by simp)]
          simp [joinWith]

/-- The blocks that a text is put together from are its blocks. -/
theorem blocks_joinWith {lists : List (List (List Char))} (hne : ∀ block ∈ lists, block ≠ [])
    (h : ∀ block ∈ lists, ∀ line ∈ block, IsLine line) :
    blocks (joinWith ['\n', '\n'] (lists.map (joinWith ['\n']))) = lists := by
  cases lists with
  | nil => rfl
  | cons block lists =>
      have hsplit : splitWhere (·.isEmpty) (joinWith [[]] (block :: lists)) = block :: lists := by
        apply splitWhere_joinWith rfl (by simp)
        intro block hblock line hline
        simpa using (h block hblock line hline).ne_nil
      have hlines : ∀ line ∈ joinWith [[]] (block :: lists),
          trim line = line ∧ ∀ c ∈ line, (c == '\n') = false := by
        intro line hline
        rcases mem_of_mem_joinWith hline with hempty | ⟨block, hblock, hmem⟩
        · rw [List.mem_singleton.mp hempty]
          exact ⟨rfl, by simp⟩
        · exact ⟨(h block hblock line hmem).trim_eq, (h block hblock line hmem).forall_ne⟩
      have hfilled : joinWith [[]] (block :: lists) ≠ [] :=
        joinWith_cons_ne_nil _ (hne block (by simp)) lists
      rw [blocks, joinWith_blocks hne, trimmedLines_joinWith hfilled hlines, hsplit,
        List.filter_eq_self]
      intro block hblock
      simp [hne block hblock]

/-! ### Texts of one line -/

theorem trimmedLines_of_not_mem {text : List Char} (h : '\n' ∉ text) :
    trimmedLines text = [trim text] := by
  have hcut : splitWhere (· == '\n') text = [text] := by
    apply splitWhere_of_forall
    intro c hc
    rw [beq_eq_false_iff_ne]
    rintro rfl
    exact h hc
  rw [trimmedLines, hcut, List.map_singleton]

/-- A text of one line has one filled line, unless the line is blank. -/
theorem filledLines_of_not_mem {text : List Char} (h : '\n' ∉ text) :
    filledLines text = if trim text = [] then [] else [trim text] := by
  rw [filledLines, trimmedLines_of_not_mem h]
  split <;> simp_all

/-- A text of one line has one block, of this line, unless the line is blank. -/
theorem blocks_of_not_mem {text : List Char} (h : '\n' ∉ text) :
    blocks text = if trim text = [] then [] else [[trim text]] := by
  rw [blocks, trimmedLines_of_not_mem h]
  split
  · rename_i hblank
    rw [hblank]
    rfl
  · rename_i hfilled
    rw [splitWhere_of_forall _ _ (by simpa using hfilled)]
    rfl

/-- Lines that are put together are one block, whatever blanks are around each, if none of
them is blank. -/
theorem blocks_joinWith_eq_singleton {texts : List (List Char)} (hne : texts ≠ [])
    (h : ∀ text ∈ texts, '\n' ∉ text ∧ trim text ≠ []) :
    blocks (joinWith ['\n'] texts) = [texts.map trim] := by
  have hcut : splitWhere (· == '\n') (joinWith ['\n'] texts) = texts := by
    refine splitWhere_joinWith rfl hne fun text htext c hc => ?_
    rw [beq_eq_false_iff_ne]
    rintro rfl
    exact (h text htext).1 hc
  have hfilled : ∀ line ∈ texts.map trim, line.isEmpty = false := by
    rw [List.forall_mem_map]
    intro text htext
    simpa using (h text htext).2
  rw [blocks, trimmedLines, hcut, splitWhere_of_forall _ _ hfilled]
  simpa using hne

/-! ### Line feeds between and behind texts -/

theorem trimmedLines_append_lineFeed (text others : List Char) :
    trimmedLines (text ++ '\n' :: others) = trimmedLines text ++ trimmedLines others := by
  rw [trimmedLines, splitWhere_append_cut _ text '\n' others rfl, List.map_append]
  rfl

theorem filledLines_append_lineFeed (text others : List Char) :
    filledLines (text ++ '\n' :: others) = filledLines text ++ filledLines others := by
  rw [filledLines, trimmedLines_append_lineFeed, List.filter_append]
  rfl

/-- Behind a line feed at the end stands one more line, which is empty and so in no block. -/
theorem blocks_append_lineFeed (text : List Char) : blocks (text ++ ['\n']) = blocks text := by
  have hempty : trimmedLines [] = [[]] := rfl
  rw [blocks, trimmedLines_append_lineFeed, hempty, splitWhere_append_cut _ _ [] [] rfl,
    List.filter_append]
  exact List.append_nil _

/-- An empty line parts the blocks before it from the blocks after it. -/
theorem blocks_append_emptyLine (text others : List Char) :
    blocks (text ++ '\n' :: '\n' :: others) = blocks text ++ blocks others := by
  have hempty : trimmedLines ('\n' :: others) = [] :: trimmedLines others :=
    trimmedLines_append_lineFeed [] others
  rw [blocks, trimmedLines_append_lineFeed, hempty, splitWhere_append_cut _ _ [] _ rfl,
    List.filter_append]
  rfl

/-! ### Blocks and filled lines -/

/-- What is between the cuts is what is not cut out. -/
theorem flatten_splitWhere (isCut : α → Bool) (xs : List α) :
    (splitWhere isCut xs).flatten = xs.filter (!isCut ·) := by
  induction xs with
  | nil => rfl
  | cons x xs ih =>
      by_cases hx : isCut x = true
      · simp [splitWhere, hx, ih]
      · obtain ⟨piece, pieces, hpieces⟩ :=
          List.exists_cons_of_ne_nil (splitWhere_ne_nil isCut xs)
        simp only [hpieces, List.flatten_cons] at ih
        simp [splitWhere, hx, hpieces, ih]

/-- The lines of the blocks of a text are its filled lines. -/
theorem flatten_blocks (text : List Char) : (blocks text).flatten = filledLines text := by
  rw [blocks, List.flatten_filter_not_isEmpty, flatten_splitWhere, filledLines]

/-- A text with one filled line has one block, of this line, whatever blank lines are around. -/
theorem blocks_of_filledLines_eq_singleton {text line : List Char}
    (h : filledLines text = [line]) : blocks text = [[line]] := by
  have hfilled : ∀ block ∈ blocks text, block ≠ [] := by
    intro block hblock
    simpa using (List.mem_filter.mp hblock).2
  rw [← flatten_blocks] at h
  generalize blocks text = lists at h hfilled
  cases lists with
  | nil => simp at h
  | cons block others =>
      rw [List.forall_mem_cons] at hfilled
      obtain ⟨first, rest, rfl⟩ := List.exists_cons_of_ne_nil hfilled.1
      rw [List.flatten_cons, List.cons_append, List.cons.injEq, List.append_eq_nil_iff] at h
      obtain ⟨rfl, rfl, hothers⟩ := h
      have hnone : others = [] := by
        rw [List.eq_nil_iff_forall_not_mem]
        intro other hother
        exact hfilled.2 other hother (List.flatten_eq_nil_iff.mp hothers other hother)
      rw [hnone]

/-! ### Reading piece by piece -/

/-- Reading every piece succeeds exactly when each is read. -/
theorem mapM_eq_ok_iff {read : α → Except ε β} {pieces : List α} {values : List β} :
    pieces.mapM read = .ok values ↔
      List.Forall₂ (fun piece value => read piece = .ok value) pieces values := by
  induction pieces generalizing values with
  | nil =>
      rw [List.mapM_nil, List.forall₂_nil_left_iff]
      constructor
      · intro h
        exact (Except.ok.inj h).symm
      · rintro rfl
        rfl
  | cons piece pieces ih =>
      rw [List.mapM_cons, List.forall₂_cons_left_iff]
      constructor
      · intro h
        cases hpiece : read piece with
        | error fault => simp [hpiece, bind, Except.bind] at h
        | ok value =>
            cases hpieces : pieces.mapM read with
            | error fault => simp [hpiece, hpieces, bind, Except.bind] at h
            | ok others =>
                simp only [hpiece, hpieces, bind, Except.bind, pure, Except.pure] at h
                exact ⟨value, others, rfl, ih.mp hpieces, (Except.ok.inj h).symm⟩
      · rintro ⟨value, others, hpiece, hpieces, rfl⟩
        rw [hpiece, ih.mpr hpieces]
        rfl

/-- Reading every piece fails with the fault of the first piece that is not read. -/
theorem mapM_eq_error_iff {read : α → Except ε β} {pieces : List α} {fault : ε} :
    pieces.mapM read = .error fault ↔ ∃ front piece back, pieces = front ++ piece :: back ∧
      (∀ earlier ∈ front, ∃ value, read earlier = .ok value) ∧ read piece = .error fault := by
  constructor
  · intro h
    induction pieces with
    | nil => simp [pure, Except.pure] at h
    | cons piece pieces ih =>
        rw [List.mapM_cons] at h
        cases hpiece : read piece with
        | error found =>
            obtain rfl : found = fault := by simpa [hpiece, bind, Except.bind] using h
            exact ⟨[], piece, pieces, rfl, by simp, hpiece⟩
        | ok value =>
            cases hpieces : pieces.mapM read with
            | ok values => simp [hpiece, hpieces, bind, Except.bind, pure, Except.pure] at h
            | error found =>
                obtain rfl : found = fault := by
                  simpa [hpiece, hpieces, bind, Except.bind] using h
                obtain ⟨front, bad, back, rfl, hfront, hbad⟩ := ih hpieces
                refine ⟨piece :: front, bad, back, rfl, ?_, hbad⟩
                exact List.forall_mem_cons.mpr ⟨⟨value, hpiece⟩, hfront⟩
  · rintro ⟨front, piece, back, rfl, hfront, hpiece⟩
    induction front with
    | nil =>
        rw [List.nil_append, List.mapM_cons, hpiece]
        rfl
    | cons first front ih =>
        rw [List.forall_mem_cons] at hfront
        obtain ⟨⟨value, hfirst⟩, hfront⟩ := hfront
        rw [List.cons_append, List.mapM_cons, hfirst, ih hfront]
        rfl

theorem exists_of_mem_forall₂ {related : α → β → Prop} {pieces : List α} {values : List β}
    (h : List.Forall₂ related pieces values) {piece : α} (hpiece : piece ∈ pieces) :
    ∃ value, related piece value := by
  induction h with
  | nil => simp at hpiece
  | @cons first value pieces values hfirst _ ih =>
      rcases List.mem_cons.mp hpiece with rfl | hpiece
      · exact ⟨value, hfirst⟩
      · exact ih hpiece

theorem exists_of_mem_mapM {read : α → Except ε β} {pieces : List α} {values : List β} {value : β}
    (h : pieces.mapM read = .ok values) (hvalue : value ∈ values) :
    ∃ piece ∈ pieces, read piece = .ok value := by
  have hall := mapM_eq_ok_iff.mp h
  induction hall with
  | nil => simp at hvalue
  | @cons piece first pieces others hpiece hpieces ih =>
      rcases List.mem_cons.mp hvalue with rfl | hvalue
      · exact ⟨piece, by simp, hpiece⟩
      · obtain ⟨found, hfound, hread⟩ := ih (mapM_eq_ok_iff.mpr hpieces) hvalue
        exact ⟨found, List.mem_cons_of_mem piece hfound, hread⟩

theorem mapM_map_eq_ok {read : β → Except ε γ} {write : α → β} {result : α → γ} {items : List α}
    (h : ∀ item ∈ items, read (write item) = .ok (result item)) :
    (items.map write).mapM read = .ok (items.map result) := by
  rw [mapM_eq_ok_iff, List.forall₂_map_left_iff, List.forall₂_map_right_iff, List.forall₂_same]
  exact h

end Sequitur.Text
