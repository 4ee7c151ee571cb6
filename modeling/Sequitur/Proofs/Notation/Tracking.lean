import Sequitur.Proofs.Notation.Lexing
import Sequitur.Proofs.Notation.Reading

/-!
# Where expectations point

A reader is said to track a kind of phrase when it is sound for it, leaves the end of what it is
given, and changes the expectation, if at all, to one that points behind lexemes with which a
phrase of the kind begins. So wherever a phrase was tried in vain, also in an alternative that was
given up, tokens could have been written there that make a phrase of what stands before.

The invariant is carried by every way of putting readers together. What a reader that comes later
blames stands behind a phrase that was read, and what an earlier one blames is made whole by a
phrase for the later one, which exists because every kind of phrase has one that can be written.
-/

namespace Sequitur.Notation

/-! ### Beginnings of phrases -/

/-- Tokens that can be written: each has the form of its kind, and none is stray. -/
def Expressible (read : List Token) : Prop :=
  ∀ token ∈ read, token.IsCut ∧ ∀ c, token ≠ .stray c

@[simp] theorem expressible_nil : Expressible [] := by
  simp [Expressible]

@[simp] theorem expressible_cons (token : Token) (read : List Token) :
    Expressible (token :: read) ↔ (token.IsCut ∧ ∀ c, token ≠ .stray c) ∧ Expressible read :=
  List.forall_mem_cons

@[simp] theorem expressible_append (front back : List Token) :
    Expressible (front ++ back) ↔ Expressible front ∧ Expressible back :=
  List.forall_mem_append

/-- Tokens that can be written behind these make a phrase of the kind. -/
def Begins (kind : List Token → α → Prop) (front : List Token) : Prop :=
  ∃ back value, Expressible back ∧ kind (front ++ back) value

theorem Begins.of_kind {kind : List Token → α → Prop} {front : List Token} {value : α}
    (h : kind front value) : Begins kind front :=
  ⟨[], value, expressible_nil, by rwa [List.append_nil]⟩

theorem Begins.mono {kind : List Token → α → Prop} {other : List Token → β → Prop}
    {front : List Token} (h : Begins kind front)
    (himp : ∀ read value, kind read value → ∃ result, other read result) : Begins other front := by
  obtain ⟨back, value, hback, hvalue⟩ := h
  obtain ⟨result, hresult⟩ := himp _ _ hvalue
  exact ⟨back, result, hback, hresult⟩

/-- What begins a phrase of one kind begins, behind other tokens, a phrase of another kind, if
the phrases of the first kind do so. -/
theorem Begins.behind {kind : List Token → α → Prop} {other : List Token → β → Prop}
    (front : List Token) {read : List Token} (h : Begins kind read)
    (himp : ∀ read value, kind read value → Begins other (front ++ read)) :
    Begins other (front ++ read) := by
  obtain ⟨back, value, hback, hvalue⟩ := h
  obtain ⟨more, result, hmore, hresult⟩ := himp _ _ hvalue
  refine ⟨back ++ more, result, by simp [hback, hmore], ?_⟩
  simpa using hresult

theorem Begins.extend {kind : List Token → α → Prop} {other : List Token → β → Prop}
    {read : List Token} (h : Begins kind read)
    (himp : ∀ read value, kind read value → Begins other read) : Begins other read :=
  h.behind [] himp

/-- A phrase of one kind, and behind it one of the kind that its value asks for. -/
def InTurn (kind : List Token → α → Prop) (next : α → List Token → β → Prop)
    (read : List Token) (result : β) : Prop :=
  ∃ front value back, read = front ++ back ∧ kind front value ∧ next value back result

/-! ### Expectations -/

/-- Recording a phrase leaves the expectation as the parts of the phrase have left it, or names
phrases at the place of the phrase. -/
theorem Expectation.record_cases (before after : Expectation) (position : Nat) (phrase : Phrase) :
    before.record after position phrase = after ∨
    ∃ phrases ≠ [], before.record after position phrase = ⟨position, phrases⟩ := by
  unfold record
  dsimp only
  split
  · exact .inl rfl
  · split
    · exact .inl rfl
    · split
      · exact .inr ⟨_, by simp, rfl⟩
      · exact .inr ⟨_, by simp, rfl⟩

theorem Expectation.record_none_none (position : Nat) (phrase : Phrase) :
    Expectation.none.record .none position phrase = ⟨position, [phrase]⟩ := by
  by_cases hstart : position = 0
  · simp [record, none, countAt, hstart]
  · simp [record, none, countAt, hstart]

namespace Reader

variable {stop : Nat}

/-- The expectation names a phrase and points behind lexemes with which a phrase of the kind
begins. -/
structure PointsBehind (stop : Nat) (kind : List Token → α → Prop) (input : List Lexeme)
    (expectation : Expectation) : Prop where
  phrases_ne_nil : expectation.phrases ≠ []
  exists_begins : ∃ front back, input = front ++ back ∧
    expectation.position = position stop back ∧ Begins kind (front.map Lexeme.token)

theorem PointsBehind.behind {kind : List Token → α → Prop} {other : List Token → β → Prop}
    (front : List Lexeme) {rest : List Lexeme} {expectation : Expectation}
    (h : PointsBehind stop kind rest expectation)
    (himp : ∀ read value, kind read value → Begins other (front.map Lexeme.token ++ read)) :
    PointsBehind stop other (front ++ rest) expectation := by
  obtain ⟨hphrases, middle, back, rfl, hposition, hbegins⟩ := h
  refine ⟨hphrases, front ++ middle, back, by rw [List.append_assoc], hposition, ?_⟩
  rw [List.map_append]
  exact hbegins.behind _ himp

theorem PointsBehind.extend {kind : List Token → α → Prop} {other : List Token → β → Prop}
    {input : List Lexeme} {expectation : Expectation}
    (h : PointsBehind stop kind input expectation)
    (himp : ∀ read value, kind read value → Begins other read) :
    PointsBehind stop other input expectation :=
  h.behind [] himp

/-- A phrase that is recorded behind the beginning of a phrase of the kind leaves the expectation
of before, or one that points behind such a beginning. -/
theorem record_eq_or_pointsBehind {kind : List Token → α → Prop} {input front back : List Lexeme}
    {before first after : Expectation} (name : Phrase) (hinput : front ++ back = input)
    (h : after = first ∨ PointsBehind stop kind input after)
    (hbegins : Begins kind (front.map Lexeme.token)) :
    before.record after (position stop back) name = first ∨
      PointsBehind stop kind input (before.record after (position stop back) name) := by
  rcases Expectation.record_cases before after (position stop back) name with
    heq | ⟨phrases, hphrases, heq⟩
  · rwa [heq]
  · rw [heq]
    exact .inr ⟨hphrases, front, back, hinput.symm, rfl, hbegins⟩

/-- One reader after the other: what the second one blames stands behind what the first one has
read. -/
theorem points_trans {kind : List Token → α → Prop} {next : List Token → β → Prop}
    {whole : List Token → γ → Prop} {input front rest : List Lexeme}
    {before middle after : Expectation} (hinput : front ++ rest = input)
    (hfirst : middle = before ∨ PointsBehind stop kind input middle)
    (hsecond : after = middle ∨ PointsBehind stop next rest after)
    (hbegins : ∀ read value, kind read value → Begins whole read)
    (hbehind : ∀ read value, next read value → Begins whole (front.map Lexeme.token ++ read)) :
    after = before ∨ PointsBehind stop whole input after := by
  rcases hsecond with rfl | hsecond
  · exact hfirst.imp_right fun hpoints => hpoints.extend hbegins
  · rw [← hinput]
    exact .inr (hsecond.behind front hbehind)

/-! ### Tracking -/

/-- The reader is sound for the kind, leaves the end of what it is given, and where it changes
the expectation makes it point behind the beginning of a phrase of the kind. The kind has a
phrase that can be written. -/
structure Tracks (stop : Nat) (reader : Reader α n) (kind : List Token → α → Prop) : Prop where
  sound : Sound reader kind
  isSuffix : ∀ (input : List Lexeme) (h : input.length < n) (before after : Expectation)
    (parsed : Parsed α input.length), reader input h before = (after, some parsed) →
      parsed.rest <:+ input
  points : ∀ (input : List Lexeme) (h : input.length < n) (before : Expectation),
    (reader input h before).1 = before ∨ PointsBehind stop kind input (reader input h before).1
  begins : Begins kind []

/-- What is read is a phrase in front of the lexemes that are left. -/
theorem Tracks.exists_front {reader : Reader α n} {kind : List Token → α → Prop}
    (h : Tracks stop reader kind) {input : List Lexeme} {hn : input.length < n}
    {before after : Expectation} {parsed : Parsed α input.length}
    (hparsed : reader input hn before = (after, some parsed)) :
    ∃ front, front ++ parsed.rest = input ∧ kind (front.map Lexeme.token) parsed.value := by
  obtain ⟨front, hfront⟩ := h.isSuffix input hn before after parsed hparsed
  obtain ⟨read, hread, hinput⟩ := h.sound input hn before after parsed hparsed
  have hsame : front.map Lexeme.token = read := by
    have htokens := congrArg (List.map Lexeme.token) hfront
    rw [hinput, List.map_append] at htokens
    exact List.append_cancel_right htokens
  exact ⟨front, hfront, hsame ▸ hread⟩

theorem Tracks.points_of_eq {reader : Reader α n} {kind : List Token → α → Prop}
    (h : Tracks stop reader kind) {input : List Lexeme} {hn : input.length < n}
    {before after : Expectation} {result : Option (Parsed α input.length)}
    (hresult : reader input hn before = (after, result)) :
    after = before ∨ PointsBehind stop kind input after := by
  have hpoints := h.points input hn before
  rwa [hresult] at hpoints

/-! ### Lexemes -/

theorem tracks_single {select : Token → Option α} {token : Token} (htoken : Expressible [token])
    (h : (select token).isSome = true) :
    Tracks stop (single select : Reader α n)
      fun read value => ∃ token, read = [token] ∧ select token = some value where
  sound := sound_single select
  isSuffix := by
    intro input hn before after parsed hparsed
    cases input with
    | nil => simp [single] at hparsed
    | cons lexeme others =>
        simp only [single, Prod.mk.injEq, Option.map_eq_some_iff] at hparsed
        obtain ⟨-, found, -, rfl⟩ := hparsed
        exact List.suffix_cons lexeme others
  points := by
    intro input hn before
    cases input with
    | nil => exact .inl rfl
    | cons lexeme others => exact .inl rfl
  begins := by
    obtain ⟨value, hvalue⟩ := Option.isSome_iff_exists.mp h
    exact ⟨[token], value, htoken, token, rfl, hvalue⟩

/-! ### Composition -/

theorem Tracks.mono {reader : Reader α n} {kind other : List Token → α → Prop}
    (h : Tracks stop reader kind) (himp : ∀ read value, kind read value → other read value) :
    Tracks stop reader other where
  sound := h.sound.mono himp
  isSuffix := h.isSuffix
  points := fun input hn before => (h.points input hn before).imp_right fun hpoints =>
    hpoints.extend fun read value hread => .of_kind (himp read value hread)
  begins := h.begins.mono fun read value hread => ⟨value, himp read value hread⟩

theorem Tracks.map {reader : Reader α n} {kind : List Token → α → Prop} (f : α → β)
    (h : Tracks stop reader kind) :
    Tracks stop (reader.map f) fun read value => ∃ inner, kind read inner ∧ f inner = value where
  sound := h.sound.map f
  isSuffix := by
    intro input hn before after parsed hparsed
    unfold Reader.map at hparsed
    split at hparsed
    · simp at hparsed
    · rename_i middle inner hinner
      obtain ⟨-, rfl⟩ := by simpa using hparsed
      exact h.isSuffix input hn before middle inner hinner
  points := by
    intro input hn before
    have himp : ∀ read value, kind read value →
        Begins (fun read result => ∃ inner, kind read inner ∧ f inner = result) read :=
      fun read value hread => .of_kind ⟨value, hread, rfl⟩
    unfold Reader.map
    split
    · rename_i after hfailed
      exact (h.points_of_eq hfailed).imp_right fun hpoints => hpoints.extend himp
    · rename_i after parsed hparsed
      exact (h.points_of_eq hparsed).imp_right fun hpoints => hpoints.extend himp
  begins := h.begins.mono fun read value hread => ⟨f value, value, hread, rfl⟩

section AndThen

variable {first : Reader α n} {second : α → Reader β m} {hm : n ≤ m + 1}

theorem Tracks.andThen {kind : List Token → α → Prop} {next : α → List Token → β → Prop}
    (hfirst : Tracks stop first kind) (hsecond : ∀ value, Tracks stop (second value) (next value)) :
    Tracks stop (first.andThen second hm) (InTurn kind next) := by
  -- What the first reader has read is made whole by a phrase for the second one.
  have hbegins : ∀ front value, kind front value → Begins (InTurn kind next) front := by
    intro front value hfront
    obtain ⟨back, result, hback, hresult⟩ := (hsecond value).begins
    exact ⟨back, result, hback, front, value, back, rfl, hfront, hresult⟩
  refine ⟨hfirst.sound.andThen fun value => (hsecond value).sound, ?_, ?_,
    hfirst.begins.extend hbegins⟩
  · intro input hn before after parsed h
    unfold Reader.andThen at h
    split at h
    · simp at h
    · rename_i middle inner hinner
      dsimp only at h
      split at h
      · simp at h
      · rename_i final found hfound
        obtain ⟨-, rfl⟩ := by simpa using h
        exact ((hsecond inner.value).isSuffix _ _ middle final found hfound).trans
          (hfirst.isSuffix input hn before middle inner hinner)
  · intro input hn before
    unfold Reader.andThen
    split
    · rename_i middle hfailed
      exact (hfirst.points_of_eq hfailed).imp_right fun hpoints => hpoints.extend hbegins
    · rename_i middle inner hinner
      have hmiddle := hfirst.points_of_eq hinner
      obtain ⟨front, hfront, hread⟩ := hfirst.exists_front hinner
      have hbehind : ∀ read result, next inner.value read result →
          Begins (InTurn kind next) (front.map Lexeme.token ++ read) :=
        fun read result hresult => .of_kind ⟨_, _, read, rfl, hread, hresult⟩
      dsimp only
      split
      · rename_i final hfailed
        exact points_trans hfront hmiddle ((hsecond inner.value).points_of_eq hfailed) hbegins
          hbehind
      · rename_i final found hfound
        exact points_trans hfront hmiddle ((hsecond inner.value).points_of_eq hfound) hbegins
          hbehind

end AndThen

theorem Tracks.orElse {first second : Reader α n} {kind : List Token → α → Prop}
    (hfirst : Tracks stop first kind) (hsecond : Tracks stop second kind) :
    Tracks stop (first.orElse second) kind where
  sound := hfirst.sound.orElse hsecond.sound
  isSuffix := by
    intro input hn before after parsed h
    unfold Reader.orElse at h
    split at h
    · rename_i middle hmiddle
      exact hsecond.isSuffix input hn middle after parsed h
    · rename_i middle inner hinner
      obtain ⟨-, rfl⟩ := by simpa using h
      exact hfirst.isSuffix input hn before middle inner hinner
  points := by
    intro input hn before
    unfold Reader.orElse
    split
    · rename_i middle hfailed
      rcases hsecond.points input hn middle with hsame | hpoints
      · rw [hsame]
        exact hfirst.points_of_eq hfailed
      · exact .inr hpoints
    · rename_i middle inner hinner
      exact hfirst.points_of_eq hinner
  begins := hfirst.begins

section AfterOptional

variable {optional : Reader α n} {next : Option α → Reader β n}

theorem Tracks.afterOptional {kind : List Token → α → Prop}
    {then_ : Option α → List Token → β → Prop} (hoptional : Tracks stop optional kind)
    (hnext : ∀ value, Tracks stop (next value) (then_ value)) :
    Tracks stop (optional.afterOptional next) fun read result => then_ none read result ∨
      InTurn kind (fun value => then_ (some value)) read result := by
  have hbegins : ∀ front value, kind front value → Begins (fun read result =>
      then_ none read result ∨ InTurn kind (fun value => then_ (some value)) read result)
      front := by
    intro front value hfront
    obtain ⟨back, result, hback, hresult⟩ := (hnext (some value)).begins
    exact ⟨back, result, hback, .inr ⟨front, value, back, rfl, hfront, hresult⟩⟩
  refine ⟨hoptional.sound.afterOptional fun value => (hnext value).sound, ?_, ?_,
    hoptional.begins.extend hbegins⟩
  · intro input hn before after parsed h
    unfold Reader.afterOptional at h
    split at h
    · rename_i middle hmiddle
      exact (hnext none).isSuffix input hn middle after parsed h
    · rename_i middle inner hinner
      split at h
      · simp at h
      · rename_i final found hfound
        obtain ⟨-, rfl⟩ := by simpa using h
        exact ((hnext (some inner.value)).isSuffix _ _ middle final found hfound).trans
          (hoptional.isSuffix input hn before middle inner hinner)
  · intro input hn before
    unfold Reader.afterOptional
    split
    · rename_i middle hfailed
      refine points_trans (List.nil_append input) (hoptional.points_of_eq hfailed)
        ((hnext none).points input hn middle) hbegins ?_
      exact fun read result hresult => .of_kind (.inl hresult)
    · rename_i middle inner hinner
      have hmiddle := hoptional.points_of_eq hinner
      obtain ⟨front, hfront, hread⟩ := hoptional.exists_front hinner
      have hbehind : ∀ read result, then_ (some inner.value) read result →
          Begins (fun read result => then_ none read result ∨
            InTurn kind (fun value => then_ (some value)) read result)
          (front.map Lexeme.token ++ read) :=
        fun read result hresult => .of_kind (.inr ⟨_, _, read, rfl, hread, hresult⟩)
      split
      · rename_i final hfailed
        exact points_trans hfront hmiddle ((hnext (some inner.value)).points_of_eq hfailed) hbegins
          hbehind
      · rename_i final found hfound
        exact points_trans hfront hmiddle ((hnext (some inner.value)).points_of_eq hfound) hbegins
          hbehind

end AfterOptional

section WithTail

variable {head : Reader α n} {tail : α → Reader α n} {kind : List Token → α → Prop}
  {next : α → List Token → α → Prop}

theorem Tracks.withTail (hhead : Tracks stop head kind)
    (htail : ∀ value, Tracks stop (tail value) (next value)) :
    Tracks stop (head.withTail tail) fun read result => kind read result ∨
      InTurn kind next read result := by
  have hbegins : ∀ read value, kind read value →
      Begins (fun read result => kind read result ∨ InTurn kind next read result) read :=
    fun read value hread => .of_kind (.inl hread)
  refine ⟨hhead.sound.withTail fun value => (htail value).sound, ?_, ?_,
    hhead.begins.extend hbegins⟩
  · intro input hn before after parsed h
    unfold Reader.withTail at h
    split at h
    · simp at h
    · rename_i middle inner hinner
      have hsuffix := hhead.isSuffix input hn before middle inner hinner
      split at h
      · obtain ⟨-, rfl⟩ := by simpa using h
        exact hsuffix
      · rename_i final found hfound
        obtain ⟨-, rfl⟩ := by simpa using h
        exact ((htail inner.value).isSuffix _ _ middle final found hfound).trans hsuffix
  · intro input hn before
    unfold Reader.withTail
    split
    · rename_i middle hfailed
      exact (hhead.points_of_eq hfailed).imp_right fun hpoints => hpoints.extend hbegins
    · rename_i middle inner hinner
      have hmiddle := hhead.points_of_eq hinner
      obtain ⟨front, hfront, hread⟩ := hhead.exists_front hinner
      have hbehind : ∀ read result, next inner.value read result →
          Begins (fun read result => kind read result ∨ InTurn kind next read result)
          (front.map Lexeme.token ++ read) :=
        fun read result hresult => .of_kind (.inr ⟨_, _, read, rfl, hread, hresult⟩)
      split
      · rename_i final hfailed
        exact points_trans hfront hmiddle ((htail inner.value).points_of_eq hfailed) hbegins hbehind
      · rename_i final found hfound
        exact points_trans hfront hmiddle ((htail inner.value).points_of_eq hfound) hbegins hbehind

variable (htail : ∀ value, Tracks stop (tail value) (next value))
  (hextend : ∀ front value back result,
    kind front value → next value back result → kind (front ++ back) result)

include htail in
theorem tailsFrom_isSuffix (value : α) (input : List Lexeme) (hn : input.length < n)
    (before : Expectation) : (tailsFrom tail value input hn before).2.rest <:+ input := by
  fun_induction tailsFrom tail value input hn before with
  | case1 value input hn before middle hfailed => exact List.suffix_refl input
  | case2 value input hn before middle parsed hparsed hshorter final result hresult ih =>
      rw [hresult] at ih
      exact ih.trans ((htail value).isSuffix input hn before middle parsed hparsed)

include htail hextend in
theorem tailsFrom_points (value : α) (input : List Lexeme) (hn : input.length < n)
    (before : Expectation) (front : List Token) (hvalue : kind front value) :
    (tailsFrom tail value input hn before).1 = before ∨
      PointsBehind stop (fun read result => kind (front ++ read) result) input
        (tailsFrom tail value input hn before).1 := by
  fun_induction tailsFrom tail value input hn before generalizing front with
  | case1 value input hn before middle hfailed =>
      refine ((htail value).points_of_eq hfailed).imp_right fun hpoints => hpoints.extend ?_
      exact fun read result hresult => .of_kind (hextend front value read result hvalue hresult)
  | case2 value input hn before middle parsed hparsed hshorter final result hresult ih =>
      obtain ⟨inner, hinner, hread⟩ := (htail value).exists_front hparsed
      have hextended := hextend front value _ parsed.value hvalue hread
      have hlater := ih (front ++ inner.map Lexeme.token) hextended
      rw [hresult] at hlater
      refine points_trans hinner ((htail value).points_of_eq hparsed) hlater ?_ ?_
      · exact fun read result hresult => .of_kind (hextend front value read result hvalue hresult)
      · intro read result hresult
        exact .of_kind (by rwa [← List.append_assoc])

include htail hextend in
theorem Tracks.withTails (hhead : Tracks stop head kind) :
    Tracks stop (head.withTails tail) kind where
  sound := hhead.sound.withTails (fun value => (htail value).sound) hextend
  isSuffix := by
    intro input hn before after parsed h
    unfold Reader.withTails at h
    split at h
    · simp at h
    · rename_i middle inner hinner
      obtain ⟨-, rfl⟩ := by simpa using h
      exact (tailsFrom_isSuffix htail inner.value inner.rest _ middle).trans
        (hhead.isSuffix input hn before middle inner hinner)
  points := by
    intro input hn before
    unfold Reader.withTails
    split
    · rename_i middle hfailed
      exact hhead.points_of_eq hfailed
    · rename_i middle inner hinner
      obtain ⟨front, hfront, hread⟩ := hhead.exists_front hinner
      exact points_trans hfront (hhead.points_of_eq hinner)
        (tailsFrom_points htail hextend inner.value inner.rest
          (Nat.lt_trans inner.shorter hn) middle _ hread)
        (fun read value hread => .of_kind hread) fun read value hread => .of_kind hread
  begins := hhead.begins

end WithTail

/-! ### Phrases -/

/-- A phrase that fails is recorded where it was tried, in front of it all. -/
theorem Tracks.phrase {reader : Reader α n} {kind : List Token → α → Prop} {name : Phrase}
    (h : Tracks stop reader kind) : Tracks stop (phrase stop name reader) kind where
  sound := h.sound.phrase
  isSuffix := by
    intro input hn before after parsed hparsed
    unfold Reader.phrase at hparsed
    split at hparsed
    · simp at hparsed
    · rename_i middle inner hinner
      obtain ⟨-, rfl⟩ := by simpa using hparsed
      exact h.isSuffix input hn before middle inner hinner
  points := by
    intro input hn before
    unfold Reader.phrase
    split
    · rename_i after hfailed
      exact record_eq_or_pointsBehind name (List.nil_append input) (h.points_of_eq hfailed) h.begins
    · rename_i after parsed hparsed
      exact h.points_of_eq hparsed
  begins := h.begins

section Marks

variable {token : Token}

theorem tracks_exactly (h : Expressible [token]) :
    Tracks stop (exactly token : Reader Unit n) fun read _ => read = [token] := by
  refine (tracks_single h (by simp)).mono ?_
  rintro read value ⟨found, rfl, hfound⟩
  by_cases hsame : found = token
  · rw [hsame]
  · simp [hsame] at hfound

theorem Tracks.between {inner : Reader α n} {kind : List Token → α → Prop} {opening closing : Token}
    (hopening : Expressible [opening]) (hclosing : Expressible [closing])
    (h : Tracks stop inner kind) :
    Tracks stop (between opening closing inner) fun read value =>
      ∃ body, read = opening :: body ++ [closing] ∧ kind body value := by
  refine ((tracks_exactly hopening).andThen fun _ => h.andThen fun value =>
    (tracks_exactly hclosing).map fun _ => value).mono ?_
  rintro read value ⟨_, _, _, rfl, rfl, body, _, _, rfl, hbody, _, rfl, rfl⟩
  exact ⟨body, by simp, hbody⟩

end Marks

section Lexemes

variable (stop : Nat)

theorem tracks_symbol :
    Tracks stop (symbol stop : Reader String n) fun read name => read = [.symbol name] := by
  have hname : IsSymbolName "x" := by decide +kernel
  have htoken : Expressible [.symbol "x"] := by simpa [Token.IsCut] using hname
  refine (tracks_single htoken ?_).phrase.mono ?_
  · rfl
  · rintro read name ⟨token, rfl, htoken⟩
    cases token with
    | symbol found => simpa using htoken
    | _ => simp at htoken

theorem tracks_operator :
    Tracks stop (operator stop : Reader String n) fun read text => read = [.operator text] := by
  have htext : IsOperatorText "+" := by decide +kernel
  have htoken : Expressible [.operator "+"] := by simpa [Token.IsCut] using htext
  refine (tracks_single htoken ?_).phrase.mono ?_
  · rfl
  · rintro read text ⟨token, rfl, htoken⟩
    cases token with
    | operator found => simpa using htoken
    | _ => simp at htoken

theorem tracks_arrow : Tracks stop (arrow stop : Reader Unit n) fun read _ => read = [.arrow] :=
  (tracks_exactly (by simp [Token.IsCut])).phrase

end Lexemes

/-! ### Phrases inside phrases -/

theorem tracks_recursive {step : (n : Nat) → Reader α n → Reader α (n + 1)}
    {kind : List Token → α → Prop} (hbegins : Begins kind [])
    (hstep : ∀ n reader, Tracks stop reader kind → Tracks stop (step n reader) kind) :
    Tracks stop (recursive step : Reader α n) kind := by
  -- The reader inside a step is bounded by the list that the step is given.
  induction n using Nat.strongRecOn with
  | ind n ih =>
      refine ⟨?_, ?_, ?_, hbegins⟩
      · intro input hn before after parsed h
        rw [recursive_eq] at h
        exact (hstep input.length _ (ih input.length hn)).sound input (Nat.lt_succ_self _) before
          after parsed h
      · intro input hn before after parsed h
        rw [recursive_eq] at h
        exact (hstep input.length _ (ih input.length hn)).isSuffix input (Nat.lt_succ_self _)
          before after parsed h
      · intro input hn before
        rw [recursive_eq]
        exact (hstep input.length _ (ih input.length hn)).points input (Nat.lt_succ_self _) before

/-! ### Whole lines -/

/-- The phrase that takes up the whole line is recorded in front of it, unless its parts have
left an expectation that says more. -/
theorem pointsBehind_record_none {kind : List Token → α → Prop} {input : List Lexeme}
    {after : Expectation} (name : Phrase)
    (h : after = .none ∨ PointsBehind stop kind input after) (hbegins : Begins kind []) :
    PointsBehind stop kind input (Expectation.none.record after (position stop input) name) := by
  rcases h with rfl | h
  · rw [Expectation.record_none_none]
    exact ⟨List.cons_ne_nil _ _, [], input, rfl, rfl, hbegins⟩
  · rcases Expectation.record_cases .none after (position stop input) name with
      heq | ⟨phrases, hphrases, heq⟩
    · rwa [heq]
    · rw [heq]
      exact ⟨hphrases, [], input, rfl, rfl, hbegins⟩

/-- When a reader that tracks a kind of phrase refuses a line, the expectation points behind the
beginning of a phrase of the kind. -/
theorem pointsBehind_of_wholeLine {name : Phrase}
    {reader : (n : Nat) → (stop : Nat) → Reader α n} {kind : List Token → α → Prop}
    (htracks : ∀ n stop, Tracks stop (reader n stop) kind) {line : List Char}
    {expectation : Expectation} (h : wholeLine name reader line = .error expectation) :
    PointsBehind line.length kind (lexemes line) expectation := by
  have hreader := htracks ((lexemes line).length + 1) line.length
  unfold wholeLine at h
  dsimp only at h
  split at h
  · rename_i after hfailed
    rw [← Except.error.inj h]
    exact pointsBehind_record_none name (hreader.points_of_eq hfailed) hreader.begins
  · rename_i after parsed hparsed
    split at h
    · simp at h
    · -- Behind a phrase that was read the end of the line was expected.
      obtain ⟨front, hfront, hread⟩ := hreader.exists_front hparsed
      rw [← Except.error.inj h]
      refine pointsBehind_record_none name ?_ hreader.begins
      exact record_eq_or_pointsBehind _ hfront (hreader.points_of_eq hparsed) (.of_kind hread)

end Reader

end Sequitur.Notation
