import Mathlib.Data.List.Basic
import Mathlib.Data.List.Induction
import Mathlib.Data.Set.Function
import FormulaExport.Canonical.Letters
import FormulaExport.Proofs.FirstOccurrence

/-!
# Which letter an identifier gets

The letters are the scalar values from `x` on, in order (`letterAt?`). Whatever identifiers have
been named one after the other, each of them has the letter whose place is its own place among the
different identifiers, in order of first occurrence (`letterIn`), and the next letter is the first
one not handed out. This is what `Letters.Knows` says; naming one more identifier keeps it
(`Letters.Knows.name`).
-/

set_option autoImplicit false

namespace FormulaExport

/-! ## The letters in order -/

/-- The code point in a place, counted from `x` and without the surrogates. -/
def codeAt (place : Nat) : Nat :=
  if 'x'.toNat + place < 0xD800 then 'x'.toNat + place else 'x'.toNat + place + 0x800

/-- The letter in a place, if there are so many. -/
def letterAt? (place : Nat) : Option Char :=
  if (codeAt place).isValidChar then some (Char.ofNat (codeAt place)) else none

theorem codeAt_injective {place other : Nat} (h : codeAt place = codeAt other) : place = other := by
  unfold codeAt at h
  split at h <;> split at h <;> omega

/-- The code point behind one in some place is the one in the next place. -/
theorem skipSurrogates_codeAt (place : Nat) :
    Letters.skipSurrogates (codeAt place + 1) = codeAt (place + 1) := by
  have first : 'x'.toNat = 0x78 := rfl
  unfold Letters.skipSurrogates codeAt
  rw [first]
  split <;> split <;> split <;> omega

theorem letterAt?_eq_some_iff {place : Nat} {letter : Char} :
    letterAt? place = some letter ↔ letter.toNat = codeAt place := by
  unfold letterAt?
  constructor
  · intro h
    split at h
    · next valid =>
      cases h
      rw [Char.ofNat, dif_pos valid]
      rfl
    · cases h
  · intro h
    have valid : (codeAt place).isValidChar := h ▸ letter.valid
    rw [if_pos valid, ← h, Char.ofNat_toNat]

theorem letterAt?_injective {place other : Nat} {letter : Char}
    (h : letterAt? place = some letter) (h' : letterAt? other = some letter) : place = other := by
  rw [letterAt?_eq_some_iff] at h h'
  exact codeAt_injective (h.symm.trans h')

theorem letterAt?_eq_none_of_le {place other : Nat} (h : letterAt? place = none)
    (behind : place ≤ other) : letterAt? other = none := by
  have first : 'x'.toNat = 0x78 := rfl
  unfold letterAt? at h ⊢
  split at h
  · cases h
  · next invalid =>
    refine if_neg fun valid => invalid ?_
    unfold Nat.isValidChar codeAt at *
    rw [first] at *
    split at valid <;> split <;> omega

/-! ## Letters by first occurrence -/

/-- The letter of an identifier, if some identifiers have been named one after the other. -/
def letterIn (named : List String) (identifier : String) : Option Char :=
  if identifier ∈ named then letterAt? (named.eraseDups.idxOf identifier) else none

theorem letterIn_append_of_mem {named : List String} {identifier : String} (h : identifier ∈ named)
    (more : List String) : letterIn (named ++ more) identifier = letterIn named identifier := by
  have known : identifier ∈ named.eraseDups := List.mem_eraseDups.mpr h
  rw [letterIn, letterIn, if_pos h, if_pos (List.mem_append_left more h), List.eraseDups_append,
    List.idxOf_append_of_mem known]

/-- A new identifier gets the letter behind those of all others. -/
theorem letterIn_concat_self {named : List String} {identifier : String} (h : identifier ∉ named) :
    letterIn (named ++ [identifier]) identifier = letterAt? named.eraseDups.length := by
  have unknown : identifier ∉ named.eraseDups := fun inside => h (List.mem_eraseDups.mp inside)
  rw [letterIn, if_pos (List.mem_append_right _ (List.mem_singleton_self _)),
    eraseDups_concat_of_not_mem h, List.idxOf_append_of_notMem unknown, List.idxOf_cons_self,
    Nat.add_zero]

theorem letterIn_concat {named : List String} {identifier other : String}
    (h : other = identifier → identifier ∈ named) :
    letterIn (named ++ [identifier]) other = letterIn named other := by
  by_cases known : other ∈ named
  · exact letterIn_append_of_mem known _
  · have unknown : other ∉ named ++ [identifier] := by
      rw [List.mem_append, List.mem_singleton]
      rintro (inside | same)
      · exact known inside
      · exact known (same ▸ h same)
    rw [letterIn, letterIn, if_neg known, if_neg unknown]

theorem mem_of_letterIn {named : List String} {identifier : String} {letter : Char}
    (h : letterIn named identifier = some letter) : identifier ∈ named := by
  by_contra unknown
  rw [letterIn, if_neg unknown] at h
  cases h

theorem le_toNat_of_letterIn {named : List String} {identifier : String} {letter : Char}
    (h : letterIn named identifier = some letter) : 'x'.toNat ≤ letter.toNat := by
  unfold letterIn at h
  split at h
  · have code := letterAt?_eq_some_iff.mp h
    unfold codeAt at code
    split at code <;> omega
  · cases h

theorem letterIn_injective {named : List String} {identifier other : String} {letter : Char}
    (h : letterIn named identifier = some letter) (h' : letterIn named other = some letter) :
    identifier = other := by
  unfold letterIn at h h'
  split at h
  · next inside =>
    split at h'
    · have same := letterAt?_injective h h'
      exact (List.idxOf_inj (List.mem_eraseDups.mpr inside)).mp same
    · cases h'
  · cases h

/-- The identifier among others that has the same letter. -/
def partner (named named' : List String) (identifier : String) : String :=
  (named'.find? fun identifier' =>
    letterIn named' identifier' = letterIn named identifier).getD identifier

theorem partner_eq {named named' : List String} {identifier identifier' : String} {letter : Char}
    (known : letterIn named identifier = some letter)
    (known' : letterIn named' identifier' = some letter) :
    partner named named' identifier = identifier' := by
  unfold partner
  cases found : named'.find? fun identifier' =>
      letterIn named' identifier' = letterIn named identifier with
  | none =>
      have differ := List.find?_eq_none.mp found identifier' (mem_of_letterIn known')
      rw [decide_eq_true_iff] at differ
      exact absurd (known'.trans known.symm) differ
  | some chosen =>
      have same := List.find?_some found
      rw [decide_eq_true_iff] at same
      exact letterIn_injective (same.trans known) known'

/-- Identifiers that are exchanged for others, different ones for different ones, hand on their
letters. -/
theorem letterIn_map {exchange : String → String} {named : List String}
    (injective : Set.InjOn exchange {identifier | identifier ∈ named}) :
    (named.map exchange).eraseDups.length = named.eraseDups.length ∧
      ∀ identifier ∈ named,
        letterIn (named.map exchange) (exchange identifier) = letterIn named identifier := by
  -- from the first identifier on: the last one gets the letter behind those of all others
  induction named using List.reverseRecOn with
  | nil => exact ⟨rfl, nofun⟩
  | append_singleton named last ih =>
      have among : ∀ {identifier}, identifier ∈ named → identifier ∈ named ++ [last] :=
        fun inside => List.mem_append_left _ inside
      have atEnd : last ∈ named ++ [last] := List.mem_append_right _ (List.mem_singleton_self last)
      obtain ⟨count, letters⟩ := ih (injective.mono fun _ inside => among inside)
      rw [List.map_append, List.map_singleton]
      by_cases known : last ∈ named
      · have known' : exchange last ∈ named.map exchange := List.mem_map_of_mem known
        refine ⟨?_, ?_⟩
        · rw [eraseDups_concat_of_mem known, eraseDups_concat_of_mem known', count]
        · intro identifier inside
          have inside' : identifier ∈ named := by
            rcases List.mem_append.mp inside with inside | same
            · exact inside
            · exact List.mem_singleton.mp same ▸ known
          rw [letterIn_concat fun _ => known, letterIn_concat fun _ => known',
            letters identifier inside']
      · have new : exchange last ∉ named.map exchange := by
          rintro inside
          obtain ⟨other, inside, same⟩ := List.mem_map.mp inside
          exact known (injective (among inside) atEnd same ▸ inside)
        refine ⟨?_, ?_⟩
        · rw [eraseDups_concat_of_not_mem known, eraseDups_concat_of_not_mem new,
            List.length_append, List.length_append, count]
          rfl
        · intro identifier inside
          by_cases same : identifier = last
          · rw [same, letterIn_concat_self known, letterIn_concat_self new, count]
          · have inside' : identifier ∈ named := by
              rcases List.mem_append.mp inside with inside | same'
              · exact inside
              · exact absurd (List.mem_singleton.mp same') same
            have differ : exchange identifier ≠ exchange last :=
              fun h => same (injective inside atEnd h)
            rw [letterIn_concat fun h => absurd h differ, letterIn_concat fun h => absurd h same,
              letters identifier inside']

theorem exists_letterIn_lt {named : List String} {count : Nat}
    (few : named.eraseDups.length ≤ count) (low : count ≤ 0xD800 - 0x78) {identifier : String}
    (h : identifier ∈ named) :
    ∃ letter, letterIn named identifier = some letter ∧ 0x78 ≤ letter.toNat ∧
      letter.toNat < 0x78 + count := by
  have place := List.idxOf_lt_length_of_mem (List.mem_eraseDups.mpr h)
  have first : 'x'.toNat = 0x78 := rfl
  have code : codeAt (named.eraseDups.idxOf identifier) =
      0x78 + named.eraseDups.idxOf identifier := by
    rw [codeAt, first, if_pos (by omega)]
  have valid : (codeAt (named.eraseDups.idxOf identifier)).isValidChar := Or.inl (by omega)
  have found : letterAt? (named.eraseDups.idxOf identifier) =
      some (Char.ofNat (codeAt (named.eraseDups.idxOf identifier))) := if_pos valid
  have codeOfLetter := letterAt?_eq_some_iff.mp found
  exact ⟨_, (if_pos h).trans found, by omega, by omega⟩

/-- The first 52 letters are the characters from U+0078 to U+00AB, and there are so many. -/
theorem exists_letterIn {named : List String} (few : named.eraseDups.length ≤ 52)
    {identifier : String} (h : identifier ∈ named) :
    ∃ letter, letterIn named identifier = some letter ∧ 0x78 ≤ letter.toNat ∧
      letter.toNat ≤ 0xAB := by
  obtain ⟨letter, known, first, last⟩ := exists_letterIn_lt few (by decide) h
  exact ⟨letter, known, first, Nat.le_of_lt_succ last⟩

namespace Letters

/-! ## Runs -/

/-- The letters know the identifiers that have been named: each has the letter of its place, and the
next letter is the one behind them. -/
def Knows (letters : Letters) (named : List String) : Prop :=
  (∀ identifier, letters.assigned[identifier]? = letterIn named identifier) ∧
    letters.next? = letterAt? named.eraseDups.length

theorem knows_fresh : fresh.Knows [] := by
  constructor
  · intro identifier
    rw [letterIn, if_neg List.not_mem_nil]
    exact Std.HashMap.getElem?_empty
  · rfl

theorem next?_succ {assigned : Std.HashMap String Char} {place : Nat} {letter : Char}
    (h : letterAt? place = some letter) :
    next? ⟨assigned, letter.toNat + 1⟩ = letterAt? (place + 1) := by
  have code : letter.toNat = codeAt place := letterAt?_eq_some_iff.mp h
  unfold next? letterAt?
  rw [code, skipSurrogates_codeAt]

section

variable {letters : Letters} {named : List String} {identifier : String}

theorem Knows.concat_of_mem (h : letters.Knows named) (inside : identifier ∈ named) :
    letters.Knows (named ++ [identifier]) := by
  obtain ⟨assigned, next⟩ := h
  refine ⟨fun other => ?_, ?_⟩
  · rw [assigned, letterIn_concat fun _ => inside]
  · rw [next, eraseDups_concat_of_mem inside]

/-- An identifier that has been named has no letter only if it came when there were no letters any
more. -/
theorem Knows.next?_eq_none (h : letters.Knows named) (inside : identifier ∈ named)
    (unknown : letters.assigned[identifier]? = none) : letters.next? = none := by
  rw [h.1, letterIn, if_pos inside] at unknown
  have place := List.idxOf_lt_length_of_mem (List.mem_eraseDups.mpr inside)
  exact h.2.trans (letterAt?_eq_none_of_le unknown (Nat.le_of_lt place))

theorem Knows.name_of_mem (h : letters.Knows named) (inside : identifier ∈ named) :
    (letters.name identifier).value.1 = letterIn (named ++ [identifier]) identifier ∧
      (letters.name identifier).value.2.Knows (named ++ [identifier]) := by
  have known := h.concat_of_mem inside
  unfold Letters.name
  cases found : letters.assigned[identifier]? with
  | some letter => exact ⟨found.symm.trans (known.1 identifier), known⟩
  | none =>
      rw [h.next?_eq_none inside found]
      exact ⟨found.symm.trans (known.1 identifier), known⟩

theorem Knows.name_of_not_mem (h : letters.Knows named) (outside : identifier ∉ named) :
    (letters.name identifier).value.1 = letterIn (named ++ [identifier]) identifier ∧
      (letters.name identifier).value.2.Knows (named ++ [identifier]) := by
  obtain ⟨assigned, next⟩ := h
  have unknown : letters.assigned[identifier]? = none := by
    rw [assigned, letterIn, if_neg outside]
  have own := letterIn_concat_self outside
  have count : (named ++ [identifier]).eraseDups.length = named.eraseDups.length + 1 := by
    rw [eraseDups_concat_of_not_mem outside, List.length_append, List.length_singleton]
  unfold Letters.name
  rw [unknown]
  cases free : letters.next? with
  | some letter =>
      rw [free] at next
      refine ⟨next.trans own.symm, ⟨fun other => ?_, ?_⟩⟩
      · refine Std.HashMap.getElem?_insert.trans ?_
        by_cases same : identifier = other
        · rw [if_pos (beq_iff_eq.mpr same), ← same, own, ← next]
        · rw [if_neg (by rwa [beq_iff_eq]), assigned, letterIn_concat fun h => absurd h.symm same]
      · rw [count]
        exact next?_succ next.symm
  | none =>
      -- without a letter nothing is written down, and there is none behind either
      rw [free] at next
      refine ⟨next.trans own.symm, ⟨fun other => ?_, ?_⟩⟩
      · by_cases same : identifier = other
        · rw [← same, own, ← next]
          exact unknown
        · rw [letterIn_concat fun h => absurd h.symm same]
          exact assigned other
      · rw [count, letterAt?_eq_none_of_le next.symm (Nat.le_succ _)]
        exact free

/-- Naming an identifier answers its letter, and then its letter is known. -/
theorem Knows.name (h : letters.Knows named) (identifier : String) :
    (letters.name identifier).value.1 = letterIn (named ++ [identifier]) identifier ∧
      (letters.name identifier).value.2.Knows (named ++ [identifier]) := by
  by_cases inside : identifier ∈ named
  · exact h.name_of_mem inside
  · exact h.name_of_not_mem inside

end

theorem outOfLetters_mem_log_iff {letters : Letters} {identifier other : String} :
    Diagnostic.outOfLetters other ∈ (letters.name identifier).log ↔
      other = identifier ∧ (letters.name identifier).value.1 = none := by
  unfold Letters.name
  split
  · simp
  · split
    · simp
    · simp

/-- An identifier is announced when it is named exactly if it gets a letter that it did not have
before. -/
theorem renaming_mem_log_iff {letters : Letters} {identifier other : String} {letter : Char} :
    Diagnostic.renaming other letter ∈ (letters.name identifier).log ↔
      other = identifier ∧ letters.assigned[identifier]? = none ∧
        (letters.name identifier).value.1 = some letter := by
  unfold Letters.name
  split
  · simp [*]
  · split
    · simp [*, eq_comm]
    · simp

end Letters

end FormulaExport
