import Sequitur.Proofs.Text.Runs
import Sequitur.Text.Scanner

/-!
# What scanners take

A scanner takes a value off the front of a text when it succeeds with it and leaves the rest. A
`do` block takes what its parts take one after the other, and a loop what its rounds take.

A scanner yields values of a kind when it takes no others, whatever the text is. A `do` block yields
what its last part yields, and a loop what a round ends with, if the rounds keep up what that needs.
-/

namespace Sequitur.Text.Scanner

/-- The scanner takes a value off the front of a text and leaves the rest. -/
def Takes (scanner : Scanner ε α) (text : List Char) (value : α) (rest : List Char) : Prop :=
  scanner text = .ok (value, rest)

variable {text middle rest : List Char}

theorem takes_pure (value : α) (text : List Char) :
    Takes (pure value : Scanner ε α) text value text := rfl

theorem Takes.bind {scanner : Scanner ε α} {next : α → Scanner ε β} {value : α} {result : β}
    (h : Takes scanner text value middle) (hnext : Takes (next value) middle result rest) :
    Takes (scanner >>= next) text result rest := by
  have hbind : (scanner >>= next) text =
      (scanner text).bind fun taken => next taken.1 taken.2 := rfl
  rw [Takes, hbind, h]
  exact hnext

theorem Takes.ite_pos {p : Prop} [Decidable p] {scanner other : Scanner ε α} {value : α} (hp : p)
    (h : Takes scanner text value rest) : Takes (if p then scanner else other) text value rest := by
  rw [if_pos hp]
  exact h

theorem Takes.ite_neg {p : Prop} [Decidable p] {scanner other : Scanner ε α} {value : α}
    (hp : ¬p) (h : Takes other text value rest) :
    Takes (if p then scanner else other) text value rest := by
  rw [if_neg hp]
  exact h

theorem takes_peek (text : List Char) :
    Takes (peek : Scanner ε (Option Char)) text text.head? text := rfl

theorem takes_accept (c : Char) (rest : List Char) :
    Takes (accept c : Scanner ε Bool) (c :: rest) true rest := by
  simp [Takes, accept]

theorem takes_accept_of_head?_ne {c : Char} (h : text.head? ≠ some c) :
    Takes (accept c : Scanner ε Bool) text false text := by
  cases text with
  | nil => rfl
  | cons d rest =>
      have hne : d ≠ c := fun hsame => h (congrArg some hsame)
      simp [Takes, accept, hne]

theorem takes_expect (fault : ε) (c : Char) (rest : List Char) :
    Takes (expect fault c) (c :: rest) () rest :=
  .bind (takes_accept c rest) (takes_pure () rest)

/-- A run of characters is taken up to the first that is not of the kind. -/
theorem takes_takeWhile {p : Char → Bool} {run : List Char} (hrun : ∀ c ∈ run, p c = true)
    (hrest : ∀ c ∈ rest.head?, p c = false) :
    Takes (takeWhile p : Scanner ε (List Char)) (run ++ rest) run rest := by
  rw [Takes, takeWhile, takeWhile_run hrun hrest, dropWhile_run hrun hrest]

theorem takes_skipWhile {p : Char → Bool} {run : List Char} (hrun : ∀ c ∈ run, p c = true)
    (hrest : ∀ c ∈ rest.head?, p c = false) :
    Takes (skipWhile p : Scanner ε Unit) (run ++ rest) () rest := by
  rw [Takes, skipWhile, dropWhile_run hrun hrest]

/-! ### Loops -/

variable {fault : ε} {step : σ → Scanner ε (Turn σ β)} {state next : σ} {result : β}

theorem takes_loop_of_done (h : Takes (step state) text (.done result) rest) :
    Takes (loop fault step state) text result rest := by
  rw [Takes] at h
  rw [Takes, loop, h]

theorem takes_loop_of_again (h : Takes (step state) text (.again next) middle)
    (hshorter : middle.length < text.length)
    (hnext : Takes (loop fault step next) middle result rest) :
    Takes (loop fault step state) text result rest := by
  rw [Takes] at h
  rw [Takes, loop, h]
  simp only [if_pos hshorter]
  exact hnext

/-! ### What is never taken otherwise -/

/-- Whatever the scanner takes off the front of a text is of the kind. -/
def Yields (scanner : Scanner ε α) (kind : α → Prop) : Prop :=
  ∀ text value rest, Takes scanner text value rest → kind value

variable {kind : α → Prop}

theorem yields_pure {value : α} (h : kind value) : Yields (pure value : Scanner ε α) kind := by
  rintro text value rest ⟨⟩
  exact h

theorem yields_throw (fault : ε) : Yields (throw fault : Scanner ε α) kind := by
  rintro text value rest ⟨⟩

/-- The last part of a block decides, given what the part before it yields. -/
theorem Yields.bind {first : Scanner ε α} {next : α → Scanner ε β} {outcome : β → Prop}
    (h : Yields first kind) (hnext : ∀ value, kind value → Yields (next value) outcome) :
    Yields (first >>= next) outcome := by
  intro text result rest htakes
  have hbind : (first >>= next) text =
      (first text).bind fun taken => next taken.1 taken.2 := rfl
  rw [Takes, hbind] at htakes
  cases hfirst : first text with
  | error fault =>
      rw [hfirst] at htakes
      cases htakes
  | ok taken =>
      obtain ⟨value, middle⟩ := taken
      rw [hfirst] at htakes
      exact hnext value (h text value middle hfirst) middle result rest htakes

theorem yields_bind {first : Scanner ε α} {next : α → Scanner ε β} {outcome : β → Prop}
    (h : ∀ value, Yields (next value) outcome) : Yields (first >>= next) outcome := by
  have hfirst : Yields first fun _ => True := fun _ _ _ _ => trivial
  exact hfirst.bind fun value _ => h value

theorem Yields.ite {p : Prop} [Decidable p] {scanner other : Scanner ε α}
    (h : Yields scanner kind) (hother : Yields other kind) :
    Yields (if p then scanner else other) kind := by
  split
  · exact h
  · exact hother

/-- A round of a loop ends with a result of one kind, or goes on with a state of another. -/
def EndsOrGoesOn (ends : β → Prop) (goesOn : σ → Prop) : Turn σ β → Prop
  | .done result => ends result
  | .again state => goesOn state

/-- What every round keeps up holds of what a loop ends with. -/
theorem yields_loop {ends : β → Prop} (goesOn : σ → Prop)
    (hstep : ∀ state, goesOn state → Yields (step state) (EndsOrGoesOn ends goesOn))
    (hstate : goesOn state) : Yields (loop fault step state) ends := by
  intro text
  -- The rounds leave shorter and shorter texts.
  induction hlength : text.length using Nat.strongRecOn generalizing text state with
  | ind length ih =>
      intro result rest htakes
      rw [Takes, loop] at htakes
      cases hround : step state text with
      | error fault =>
          rw [hround] at htakes
          cases htakes
      | ok taken =>
          obtain ⟨turn, middle⟩ := taken
          have hturn := hstep state hstate text turn middle hround
          rw [hround] at htakes
          cases turn with
          | done value =>
              obtain ⟨rfl, -⟩ := Prod.mk.inj (Except.ok.inj htakes)
              exact hturn
          | again next =>
              dsimp only at htakes
              split at htakes
              · next hshorter =>
                exact ih middle.length (hlength ▸ hshorter) hturn middle rfl result rest htakes
              · cases htakes

end Sequitur.Text.Scanner
