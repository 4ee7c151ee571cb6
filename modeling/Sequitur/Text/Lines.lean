import Sequitur.Text.Blank

/-!
# Lines and blocks of lines

A text is cut into lines at every line feed, and each line is trimmed, so that a carriage
return before the line feed goes with the other blanks. A block is a longest run of lines
that are not empty.
-/

namespace Sequitur.Text

/-- The pieces of a list between the elements that satisfy `isCut`; a list with `n` such
elements has `n + 1` pieces, of which any may be empty. -/
def splitWhere (isCut : α → Bool) : List α → List (List α)
  | [] => [[]]
  | x :: xs =>
      if isCut x then [] :: splitWhere isCut xs
      else
        match splitWhere isCut xs with
        | [] => [[x]]
        | piece :: pieces => (x :: piece) :: pieces

theorem splitWhere_ne_nil (isCut : α → Bool) (xs : List α) : splitWhere isCut xs ≠ [] := by
  cases xs with
  | nil => simp [splitWhere]
  | cons x xs =>
      rw [splitWhere]
      split
      · simp
      · split <;> simp

/-- A cut element parts the pieces before it from the pieces after it. -/
theorem splitWhere_append_cut (isCut : α → Bool) (xs : List α) (cut : α) (ys : List α)
    (hcut : isCut cut = true) :
    splitWhere isCut (xs ++ cut :: ys) = splitWhere isCut xs ++ splitWhere isCut ys := by
  induction xs with
  | nil => simp [splitWhere, hcut]
  | cons x xs ih =>
      by_cases hx : isCut x = true
      · simp [splitWhere, hx, ih]
      · obtain ⟨piece, pieces, hpieces⟩ :=
          List.exists_cons_of_ne_nil (splitWhere_ne_nil isCut xs)
        simp [splitWhere, hx, ih, hpieces]

theorem splitWhere_of_forall (isCut : α → Bool) (xs : List α)
    (h : ∀ x ∈ xs, isCut x = false) : splitWhere isCut xs = [xs] := by
  induction xs with
  | nil => rfl
  | cons x xs ih =>
      have hx : isCut x = false := h x (by simp)
      have hxs : splitWhere isCut xs = [xs] := ih (fun y hy => h y (by simp [hy]))
      simp [splitWhere, hx, hxs]

def trimmedLines (text : List Char) : List (List Char) :=
  (splitWhere (· == '\n') text).map trim

/-- The trimmed lines of a text that hold something. -/
def filledLines (text : List Char) : List (List Char) :=
  (trimmedLines text).filter (!·.isEmpty)

/-- The blocks of a text: its trimmed lines, parted at the empty ones. -/
def blocks (text : List Char) : List (List (List Char)) :=
  (splitWhere (·.isEmpty) (trimmedLines text)).filter (!·.isEmpty)

end Sequitur.Text
