import Sequitur.Notation.Reader

/-!
# What readers read

A reader is judged by the tokens of its lexemes. It is *sound* for a kind of phrase when all
that it reads is such a phrase, and *complete* for it when it reads every such phrase that
stands before tokens which cannot continue it. What is expected where plays no part in
either.

Each way of putting readers together has a lemma that says what the whole reads (`Reads`) or
that it fails (`Fails`), and one for soundness. A reader that ties the knot of a grammar is
complete as soon as one step is, given that the readers of shorter phrases are.
-/

namespace Sequitur.Notation.Reader

variable {ahead middle rest : List Token}

/-! ### Judgements -/

/-- The reader takes a value off the front of the tokens and leaves the rest. -/
def Reads (reader : Reader α n) (ahead : List Token) (value : α) (rest : List Token) : Prop :=
  ∀ (input : List Lexeme) (h : input.length < n) (before : Expectation),
    input.map Lexeme.token = ahead → ∃ after parsed,
      reader input h before = (after, some parsed) ∧ parsed.value = value ∧
        parsed.rest.map Lexeme.token = rest

/-- The reader takes nothing off the front of the tokens. -/
def Fails (reader : Reader α n) (ahead : List Token) : Prop :=
  ∀ (input : List Lexeme) (h : input.length < n) (before : Expectation),
    input.map Lexeme.token = ahead → ∃ after, reader input h before = (after, none)

/-- Everything that is read is a phrase of the kind. -/
def Sound (reader : Reader α n) (kind : List Token → α → Prop) : Prop :=
  ∀ (input : List Lexeme) (h : input.length < n) (before after : Expectation)
    (parsed : Parsed α input.length), reader input h before = (after, some parsed) →
      ∃ read, kind read parsed.value ∧
        input.map Lexeme.token = read ++ parsed.rest.map Lexeme.token

/-- Every phrase of the kind is read where what follows may follow it. -/
def Complete (reader : Reader α n) (kind : List Token → α → Prop)
    (mayFollow : List Token → Prop) : Prop :=
  ∀ read value rest, kind read value → mayFollow rest → Reads reader (read ++ rest) value rest

/-! ### Lexemes -/

theorem reads_single {select : Token → Option α} {token : Token} {value : α}
    (h : select token = some value) (rest : List Token) :
    Reads (single select : Reader α n) (token :: rest) value rest := by
  intro input hn before hinput
  obtain ⟨lexeme, others, rfl, rfl, rfl⟩ := List.map_eq_cons_iff.mp hinput
  exact ⟨before, ⟨value, others, Nat.lt_succ_self _⟩, by simp [single, h], rfl, rfl⟩

theorem fails_single {select : Token → Option α}
    (h : ∀ token ∈ ahead.head?, select token = none) :
    Fails (single select : Reader α n) ahead := by
  intro input hn before hinput
  subst hinput
  cases input with
  | nil => exact ⟨before, rfl⟩
  | cons lexeme others =>
      have hnone : select lexeme.token = none := h lexeme.token (by simp)
      exact ⟨before, by simp [single, hnone]⟩

theorem sound_single (select : Token → Option α) :
    Sound (single select : Reader α n)
      fun read value => ∃ token, read = [token] ∧ select token = some value := by
  intro input hn before after parsed h
  cases input with
  | nil => simp [single] at h
  | cons lexeme others =>
      simp only [single, Prod.mk.injEq, Option.map_eq_some_iff] at h
      obtain ⟨-, value, hvalue, rfl⟩ := h
      exact ⟨[lexeme.token], ⟨lexeme.token, rfl, hvalue⟩, rfl⟩

theorem reads_exactly (token : Token) (rest : List Token) :
    Reads (exactly token : Reader Unit n) (token :: rest) () rest :=
  reads_single (by simp) rest

theorem fails_exactly {token : Token} (h : ahead.head? ≠ some token) :
    Fails (exactly token : Reader Unit n) ahead := by
  refine fails_single fun found hfound => if_neg ?_
  rintro rfl
  exact h hfound

/-! ### Composition -/

theorem Sound.mono {reader : Reader α n} {kind other : List Token → α → Prop}
    (hreader : Sound reader kind) (h : ∀ read value, kind read value → other read value) :
    Sound reader other := by
  intro input hn before after parsed hparsed
  obtain ⟨read, hread, hinput⟩ := hreader input hn before after parsed hparsed
  exact ⟨read, h read parsed.value hread, hinput⟩

theorem Complete.mono {reader : Reader α n} {kind : List Token → α → Prop}
    {mayFollow fewer : List Token → Prop} (hreader : Complete reader kind mayFollow)
    (h : ∀ rest, fewer rest → mayFollow rest) : Complete reader kind fewer :=
  fun read value rest hread hrest => hreader read value rest hread (h rest hrest)

theorem Reads.map {reader : Reader α n} (f : α → β) (h : Reads reader ahead value rest) :
    Reads (reader.map f) ahead (f value) rest := by
  intro input hn before hinput
  obtain ⟨after, parsed, hparsed, rfl, hrest⟩ := h input hn before hinput
  exact ⟨after, parsed.map f, by simp [Reader.map, hparsed], rfl, hrest⟩

theorem Fails.map {reader : Reader α n} (f : α → β) (h : Fails reader ahead) :
    Fails (reader.map f) ahead := by
  intro input hn before hinput
  obtain ⟨after, hfailed⟩ := h input hn before hinput
  exact ⟨after, by simp [Reader.map, hfailed]⟩

theorem Sound.map {reader : Reader α n} {kind : List Token → α → Prop} (f : α → β)
    (hreader : Sound reader kind) :
    Sound (reader.map f) fun read value => ∃ inner, kind read inner ∧ f inner = value := by
  intro input hn before after parsed h
  unfold Reader.map at h
  split at h
  · simp at h
  · rename_i middle inner hinner
    obtain ⟨read, hread, hinput⟩ := hreader input hn before middle inner hinner
    obtain ⟨-, rfl⟩ := by simpa using h
    exact ⟨read, ⟨inner.value, hread, rfl⟩, hinput⟩

section AndThen

variable {first : Reader α n} {second : α → Reader β m} {hm : n ≤ m + 1}

theorem Reads.andThen (hfirst : Reads first ahead value middle)
    (hsecond : Reads (second value) middle result rest) :
    Reads (first.andThen second hm) ahead result rest := by
  intro input hn before hinput
  obtain ⟨after, parsed, hparsed, rfl, hmiddle⟩ := hfirst input hn before hinput
  have hlength : parsed.rest.length < m := by have := parsed.shorter; omega
  obtain ⟨final, found, hfound, rfl, hrest⟩ := hsecond parsed.rest hlength after hmiddle
  exact ⟨final, found.weaken (Nat.le_of_lt parsed.shorter),
    by simp [Reader.andThen, hparsed, hfound], rfl, hrest⟩

theorem Fails.andThen (hfirst : Fails first ahead) :
    Fails (first.andThen second hm) ahead := by
  intro input hn before hinput
  obtain ⟨after, hfailed⟩ := hfirst input hn before hinput
  exact ⟨after, by simp [Reader.andThen, hfailed]⟩

theorem Reads.andThen_fails (hfirst : Reads first ahead value middle)
    (hsecond : Fails (second value) middle) : Fails (first.andThen second hm) ahead := by
  intro input hn before hinput
  obtain ⟨after, parsed, hparsed, rfl, hmiddle⟩ := hfirst input hn before hinput
  have hlength : parsed.rest.length < m := by have := parsed.shorter; omega
  obtain ⟨final, hfailed⟩ := hsecond parsed.rest hlength after hmiddle
  exact ⟨final, by simp [Reader.andThen, hparsed, hfailed]⟩

theorem Sound.andThen {kind : List Token → α → Prop} {next : α → List Token → β → Prop}
    (hfirst : Sound first kind) (hsecond : ∀ value, Sound (second value) (next value)) :
    Sound (first.andThen second hm) fun read result => ∃ front value back,
      read = front ++ back ∧ kind front value ∧ next value back result := by
  intro input hn before after parsed h
  unfold Reader.andThen at h
  split at h
  · simp at h
  · rename_i middle inner hinner
    obtain ⟨front, hfront, hinput⟩ := hfirst input hn before middle inner hinner
    dsimp only at h
    split at h
    · simp at h
    · rename_i final found hfound
      obtain ⟨back, hback, hrest⟩ := hsecond inner.value inner.rest _ middle final found hfound
      obtain ⟨-, rfl⟩ := by simpa using h
      refine ⟨front ++ back, ⟨front, inner.value, back, rfl, hfront, hback⟩, ?_⟩
      rw [hinput, hrest, List.append_assoc]
      rfl

end AndThen

theorem Reads.orElse {first second : Reader α n} (h : Reads first ahead value rest) :
    Reads (first.orElse second) ahead value rest := by
  intro input hn before hinput
  obtain ⟨after, parsed, hparsed, hvalue, hrest⟩ := h input hn before hinput
  exact ⟨after, parsed, by simp [Reader.orElse, hparsed], hvalue, hrest⟩

theorem Fails.orElse_reads {first second : Reader α n} (hfirst : Fails first ahead)
    (hsecond : Reads second ahead value rest) :
    Reads (first.orElse second) ahead value rest := by
  intro input hn before hinput
  obtain ⟨middle, hfailed⟩ := hfirst input hn before hinput
  obtain ⟨after, parsed, hparsed, hvalue, hrest⟩ := hsecond input hn middle hinput
  exact ⟨after, parsed, by simp [Reader.orElse, hfailed, hparsed], hvalue, hrest⟩

theorem Fails.orElse {first second : Reader α n} (hfirst : Fails first ahead)
    (hsecond : Fails second ahead) : Fails (first.orElse second) ahead := by
  intro input hn before hinput
  obtain ⟨middle, hfailed⟩ := hfirst input hn before hinput
  obtain ⟨after, hfailed'⟩ := hsecond input hn middle hinput
  exact ⟨after, by simp [Reader.orElse, hfailed, hfailed']⟩

theorem Sound.orElse {first second : Reader α n} {kind : List Token → α → Prop}
    (hfirst : Sound first kind) (hsecond : Sound second kind) :
    Sound (first.orElse second) kind := by
  intro input hn before after parsed h
  unfold Reader.orElse at h
  split at h
  · rename_i middle hmiddle
    exact hsecond input hn middle after parsed h
  · rename_i middle inner hinner
    obtain ⟨-, rfl⟩ := by simpa using h
    exact hfirst input hn before middle inner hinner

/-! ### Optional and repeated parts -/

section AfterOptional

variable {optional : Reader α n} {next : Option α → Reader β n}

theorem Reads.afterOptional (hoptional : Reads optional ahead value middle)
    (hnext : Reads (next (some value)) middle result rest) :
    Reads (optional.afterOptional next) ahead result rest := by
  intro input hn before hinput
  obtain ⟨after, parsed, hparsed, rfl, hmiddle⟩ := hoptional input hn before hinput
  obtain ⟨final, found, hfound, rfl, hrest⟩ :=
    hnext parsed.rest (Nat.lt_trans parsed.shorter hn) after hmiddle
  exact ⟨final, found.weaken (Nat.le_of_lt parsed.shorter),
    by simp [Reader.afterOptional, hparsed, hfound], rfl, hrest⟩

theorem Fails.afterOptional (hoptional : Fails optional ahead)
    (hnext : Reads (next none) ahead result rest) :
    Reads (optional.afterOptional next) ahead result rest := by
  intro input hn before hinput
  obtain ⟨middle, hfailed⟩ := hoptional input hn before hinput
  obtain ⟨after, parsed, hparsed, hvalue, hrest⟩ := hnext input hn middle hinput
  exact ⟨after, parsed, by simp [Reader.afterOptional, hfailed, hparsed], hvalue, hrest⟩

theorem Sound.afterOptional {kind : List Token → α → Prop}
    {then_ : Option α → List Token → β → Prop} (hoptional : Sound optional kind)
    (hnext : ∀ value, Sound (next value) (then_ value)) :
    Sound (optional.afterOptional next) fun read result => then_ none read result ∨
      ∃ front value back, read = front ++ back ∧ kind front value ∧
        then_ (some value) back result := by
  intro input hn before after parsed h
  unfold Reader.afterOptional at h
  split at h
  · rename_i middle hmiddle
    obtain ⟨read, hread, hinput⟩ := hnext none input hn middle after parsed h
    exact ⟨read, .inl hread, hinput⟩
  · rename_i middle inner hinner
    obtain ⟨front, hfront, hinput⟩ := hoptional input hn before middle inner hinner
    split at h
    · simp at h
    · rename_i final found hfound
      obtain ⟨back, hback, hrest⟩ :=
        hnext (some inner.value) inner.rest _ middle final found hfound
      obtain ⟨-, rfl⟩ := by simpa using h
      refine ⟨front ++ back, .inr ⟨front, inner.value, back, rfl, hfront, hback⟩, ?_⟩
      rw [hinput, hrest, List.append_assoc]
      rfl

end AfterOptional

section WithTail

variable {head : Reader α n} {tail : α → Reader α n}

theorem Reads.withTail (hhead : Reads head ahead value middle)
    (htail : Reads (tail value) middle result rest) :
    Reads (head.withTail tail) ahead result rest := by
  intro input hn before hinput
  obtain ⟨after, parsed, hparsed, rfl, hmiddle⟩ := hhead input hn before hinput
  obtain ⟨final, found, hfound, rfl, hrest⟩ :=
    htail parsed.rest (Nat.lt_trans parsed.shorter hn) after hmiddle
  exact ⟨final, found.weaken (Nat.le_of_lt parsed.shorter),
    by simp [Reader.withTail, hparsed, hfound], rfl, hrest⟩

theorem Reads.withoutTail (hhead : Reads head ahead value rest)
    (htail : Fails (tail value) rest) : Reads (head.withTail tail) ahead value rest := by
  intro input hn before hinput
  obtain ⟨after, parsed, hparsed, rfl, hrest⟩ := hhead input hn before hinput
  obtain ⟨final, hfailed⟩ := htail parsed.rest (Nat.lt_trans parsed.shorter hn) after hrest
  exact ⟨final, parsed, by simp [Reader.withTail, hparsed, hfailed], rfl, hrest⟩

theorem Sound.withTail {kind : List Token → α → Prop} {next : α → List Token → α → Prop}
    (hhead : Sound head kind) (htail : ∀ value, Sound (tail value) (next value)) :
    Sound (head.withTail tail) fun read result => kind read result ∨
      ∃ front value back, read = front ++ back ∧ kind front value ∧ next value back result := by
  intro input hn before after parsed h
  unfold Reader.withTail at h
  split at h
  · simp at h
  · rename_i middle inner hinner
    obtain ⟨front, hfront, hinput⟩ := hhead input hn before middle inner hinner
    split at h
    · obtain ⟨-, rfl⟩ := by simpa using h
      exact ⟨front, .inl hfront, hinput⟩
    · rename_i final found hfound
      obtain ⟨back, hback, hrest⟩ := htail inner.value inner.rest _ middle final found hfound
      obtain ⟨-, rfl⟩ := by simpa using h
      refine ⟨front ++ back, .inr ⟨front, inner.value, back, rfl, hfront, hback⟩, ?_⟩
      rw [hinput, hrest, List.append_assoc]
      rfl

/-- The tails of a value take it to a final value and leave the rest. -/
def Extends (tail : α → Reader α n) (value : α) (ahead : List Token) (result : α)
    (rest : List Token) : Prop :=
  ∀ (input : List Lexeme) (h : input.length < n) (before : Expectation),
    input.map Lexeme.token = ahead → ∃ after parsed,
      tailsFrom tail value input h before = (after, parsed) ∧ parsed.value = result ∧
        parsed.rest.map Lexeme.token = rest

theorem Extends.none (h : Fails (tail value) rest) : Extends tail value rest value rest := by
  intro input hn before hinput
  obtain ⟨after, hfailed⟩ := h input hn before hinput
  exact ⟨after, ⟨value, input, Nat.lt_succ_self _⟩, by rw [tailsFrom]; simp [hfailed], rfl,
    hinput⟩

theorem Reads.extends (hfirst : Reads (tail value) ahead next middle)
    (hothers : Extends tail next middle result rest) :
    Extends tail value ahead result rest := by
  intro input hn before hinput
  obtain ⟨after, parsed, hparsed, rfl, hmiddle⟩ := hfirst input hn before hinput
  obtain ⟨final, found, hfound, rfl, hrest⟩ :=
    hothers parsed.rest (Nat.lt_trans parsed.shorter hn) after hmiddle
  exact ⟨final, found.weaken (Nat.succ_le_succ (Nat.le_of_lt parsed.shorter)),
    by rw [tailsFrom]; simp [hparsed, hfound], rfl, hrest⟩

theorem Reads.withTails (hhead : Reads head ahead value middle)
    (htails : Extends tail value middle result rest) :
    Reads (head.withTails tail) ahead result rest := by
  intro input hn before hinput
  obtain ⟨after, parsed, hparsed, rfl, hmiddle⟩ := hhead input hn before hinput
  obtain ⟨final, found, hfound, rfl, hrest⟩ :=
    htails parsed.rest (Nat.lt_trans parsed.shorter hn) after hmiddle
  exact ⟨final, found.weaken parsed.shorter, by simp [Reader.withTails, hparsed, hfound], rfl,
    hrest⟩

theorem tailsFrom_sound {kind : List Token → α → Prop} {next : α → List Token → α → Prop}
    (htail : ∀ value, Sound (tail value) (next value))
    (hextend : ∀ front value back result,
      kind front value → next value back result → kind (front ++ back) result)
    (value : α) (input : List Lexeme) (hn : input.length < n) (before : Expectation)
    (front : List Token) (hvalue : kind front value) :
    ∃ back, kind (front ++ back) (tailsFrom tail value input hn before).2.value ∧
      input.map Lexeme.token =
        back ++ (tailsFrom tail value input hn before).2.rest.map Lexeme.token := by
  fun_induction tailsFrom tail value input hn before generalizing front with
  | case1 value input hn before middle hfailed => exact ⟨[], by simpa using hvalue, rfl⟩
  | case2 value input hn before middle parsed hparsed hshorter final result hresult ih =>
      obtain ⟨read, hread, hinput⟩ := htail value input hn before middle parsed hparsed
      have hextended : kind (front ++ read) parsed.value :=
        hextend front value read parsed.value hvalue hread
      obtain ⟨back, hback, hrest⟩ := ih (front ++ read) hextended
      rw [hresult] at hback hrest
      refine ⟨read ++ back, ?_, ?_⟩
      · rw [← List.append_assoc]
        exact hback
      · rw [hinput, hrest, List.append_assoc]
        rfl

theorem Sound.withTails {kind : List Token → α → Prop} {next : α → List Token → α → Prop}
    (hhead : Sound head kind) (htail : ∀ value, Sound (tail value) (next value))
    (hextend : ∀ front value back result,
      kind front value → next value back result → kind (front ++ back) result) :
    Sound (head.withTails tail) kind := by
  intro input hn before after parsed h
  unfold Reader.withTails at h
  split at h
  · simp at h
  · rename_i middle inner hinner
    obtain ⟨front, hfront, hinput⟩ := hhead input hn before middle inner hinner
    obtain ⟨back, hback, hrest⟩ := tailsFrom_sound htail hextend inner.value inner.rest
      (Nat.lt_trans inner.shorter hn) middle front hfront
    obtain ⟨-, rfl⟩ := by simpa using h
    refine ⟨front ++ back, hback, ?_⟩
    rw [hinput, hrest, List.append_assoc]
    rfl

end WithTail

/-! ### Phrases -/

section Named

variable {reader : Reader α n} {stop : Nat} {name : Phrase}

theorem Reads.phrase (h : Reads reader ahead value rest) :
    Reads (phrase stop name reader) ahead value rest := by
  intro input hn before hinput
  obtain ⟨after, parsed, hparsed, hvalue, hrest⟩ := h input hn before hinput
  exact ⟨after, parsed, by simp [Reader.phrase, hparsed], hvalue, hrest⟩

theorem Fails.phrase (h : Fails reader ahead) : Fails (phrase stop name reader) ahead := by
  intro input hn before hinput
  obtain ⟨after, hfailed⟩ := h input hn before hinput
  exact ⟨_, by simp [Reader.phrase, hfailed]; rfl⟩

theorem Sound.phrase {kind : List Token → α → Prop} (h : Sound reader kind) :
    Sound (phrase stop name reader) kind := by
  intro input hn before after parsed hparsed
  unfold Reader.phrase at hparsed
  split at hparsed
  · simp at hparsed
  · rename_i middle inner hinner
    obtain ⟨-, rfl⟩ := by simpa using hparsed
    exact h input hn before middle inner hinner

end Named

section Lexemes

variable (stop : Nat)

theorem reads_symbol (name : String) (rest : List Token) :
    Reads (symbol stop : Reader String n) (.symbol name :: rest) name rest := by
  refine (reads_single ?_ rest).phrase
  rfl

theorem fails_symbol (h : ∀ name, ahead.head? ≠ some (.symbol name)) :
    Fails (symbol stop : Reader String n) ahead := by
  refine (fails_single fun token htoken => ?_).phrase
  cases token with
  | symbol name => exact absurd htoken (h name)
  | _ => rfl

theorem reads_operator (text : String) (rest : List Token) :
    Reads (operator stop : Reader String n) (.operator text :: rest) text rest := by
  refine (reads_single ?_ rest).phrase
  rfl

theorem fails_operator (h : ∀ text, ahead.head? ≠ some (.operator text)) :
    Fails (operator stop : Reader String n) ahead := by
  refine (fails_single fun token htoken => ?_).phrase
  cases token with
  | operator text => exact absurd htoken (h text)
  | _ => rfl

theorem reads_arrow (rest : List Token) :
    Reads (arrow stop : Reader Unit n) (.arrow :: rest) () rest :=
  (reads_exactly .arrow rest).phrase

theorem fails_arrow (h : ahead.head? ≠ some .arrow) : Fails (arrow stop : Reader Unit n) ahead :=
  (fails_exactly h).phrase

end Lexemes

/-! ### Marks around a phrase -/

theorem Reads.between {inner : Reader α n} {opening closing : Token}
    (h : Reads inner ahead value (closing :: rest)) :
    Reads (between opening closing inner) (opening :: ahead) value rest :=
  (reads_exactly opening ahead).andThen <| h.andThen <| (reads_exactly closing rest).map _

theorem fails_between (inner : Reader α n) {opening closing : Token}
    (h : ahead.head? ≠ some opening) : Fails (between opening closing inner) ahead :=
  (fails_exactly h).andThen

/-! ### Phrases inside phrases -/

section Recursive

variable {step : (n : Nat) → Reader α n → Reader α (n + 1)}

/-- A phrase is read by one step, which reads the phrases inside it in the same way. -/
theorem recursive_eq (input : List Lexeme) (hn : input.length < n) (before : Expectation) :
    (recursive step : Reader α n) input hn before =
      step input.length (recursive step) input (Nat.lt_succ_self _) before := by
  rw [recursive, recursiveFrom]
  rfl

theorem complete_recursive {kind : List Token → α → Prop} {mayFollow : List Token → Prop}
    (hstep : ∀ n reader, Complete reader kind mayFollow →
      Complete (step n reader) kind mayFollow) :
    Complete (recursive step : Reader α n) kind mayFollow := by
  induction n using Nat.strongRecOn with
  | ind n ih =>
      intro read value rest hread hrest input hn before hinput
      rw [recursive_eq]
      exact hstep input.length _ (ih input.length hn) read value rest hread hrest input
        (Nat.lt_succ_self _) before hinput

end Recursive

/-! ### Whole lines -/

/-- A reader that is sound and complete for a kind of phrase reads exactly the lines whose
tokens are such a phrase. -/
theorem wholeLine_eq_ok_iff {name : Phrase} {reader : (n : Nat) → (stop : Nat) → Reader α n}
    {kind : List Token → α → Prop} {mayFollow : List Token → Prop}
    (hsound : ∀ n stop, Sound (reader n stop) kind)
    (hcomplete : ∀ n stop, Complete (reader n stop) kind mayFollow) (hend : mayFollow [])
    (line : List Char) (value : α) :
    wholeLine name reader line = .ok value ↔ kind (tokens line) value := by
  constructor
  · intro h
    unfold wholeLine at h
    dsimp only at h
    split at h
    · simp at h
    · rename_i after parsed hparsed
      split at h
      · rename_i hnone
        obtain ⟨read, hread, hinput⟩ := hsound _ _ _ _ _ _ _ hparsed
        simp only [hnone, List.map_nil, List.append_nil] at hinput
        simp only [Except.ok.injEq] at h
        rw [tokens, hinput, ← h]
        exact hread
      · simp at h
  · intro h
    have hreads := hcomplete ((lexemes line).length + 1) line.length (tokens line) value [] h hend
    rw [List.append_nil] at hreads
    obtain ⟨after, parsed, hparsed, hvalue, hrest⟩ :=
      hreads (lexemes line) (Nat.lt_succ_self _) .none rfl
    have hnone : parsed.rest = [] := List.map_eq_nil_iff.mp hrest
    unfold wholeLine
    simp only [hparsed, hnone, hvalue]

end Sequitur.Notation.Reader
