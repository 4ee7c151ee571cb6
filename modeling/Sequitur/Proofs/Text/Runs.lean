/-!
# Runs of characters

A run of characters of one class is cut off a text where what follows does not begin with a
character of the class.
-/

namespace Sequitur.Text

variable {isMember : Char → Bool} {run rest : List Char}

/-- A run ends where no member of its class is ahead. -/
theorem takeWhile_run (hrun : ∀ c ∈ run, isMember c = true)
    (hrest : ∀ c ∈ rest.head?, isMember c = false) : (run ++ rest).takeWhile isMember = run := by
  rw [List.takeWhile_append_of_pos hrun]
  cases rest with
  | nil => simp
  | cons c rest =>
      have hc : isMember c = false := hrest c rfl
      simp [hc]

/-- Behind a run stands what no member of its class begins. -/
theorem dropWhile_run (hrun : ∀ c ∈ run, isMember c = true)
    (hrest : ∀ c ∈ rest.head?, isMember c = false) : (run ++ rest).dropWhile isMember = rest := by
  rw [List.dropWhile_append_of_pos hrun]
  cases rest with
  | nil => simp
  | cons c rest =>
      have hc : isMember c = false := hrest c rfl
      simp [hc]

/-- A text that no member of the class follows begins with the same run as by itself. -/
theorem takeWhile_append_of_head? (hrest : ∀ c ∈ rest.head?, isMember c = false)
    (text : List Char) : (text ++ rest).takeWhile isMember = text.takeWhile isMember := by
  induction text with
  | nil => exact takeWhile_run (List.forall_mem_nil _) hrest
  | cons c text ih =>
      rw [List.cons_append, List.takeWhile_cons, List.takeWhile_cons, ih]

theorem dropWhile_append_of_head? (hrest : ∀ c ∈ rest.head?, isMember c = false)
    (text : List Char) : (text ++ rest).dropWhile isMember = text.dropWhile isMember ++ rest := by
  induction text with
  | nil => exact dropWhile_run (List.forall_mem_nil _) hrest
  | cons c text ih =>
      rw [List.cons_append, List.dropWhile_cons, List.dropWhile_cons, ih]
      split <;> rfl

end Sequitur.Text
