import Mathlib.Data.Nat.Nth
import FormulaExport.Proofs.Canonical.Letters

/-!
# Naming identifiers one after the other

Letters are the scalar values from `x` on (`IsLetterCode`), and there are `letterCount` of them. A run
names a list of identifiers (`Letters.nameAll`). However long it is, every letter that has been
handed out is in front of the cursor, and as many have been handed out as there are different
identifiers, until there are none left (`Letters.HasNamed`). One more name keeps this
(`Letters.HasNamed.name`), so every run does (`Letters.HasNamed.nameAll`).
-/

set_option autoImplicit false

namespace FormulaExport

/-! ## Counting letters -/

/-- The code of a letter: a Unicode scalar value from `x` on. -/
def IsLetterCode (code : ℕ) : Prop := 'x'.toNat ≤ code ∧ code.isValidChar

instance : DecidablePred IsLetterCode :=
  fun code => inferInstanceAs (Decidable ('x'.toNat ≤ code ∧ code.isValidChar))

def letterCount : ℕ := Nat.count IsLetterCode (0x10FFFF + 1)

theorem count_skipSurrogates (code : ℕ) :
    Nat.count IsLetterCode (Letters.skipSurrogates code) = Nat.count IsLetterCode code := by
  unfold Letters.skipSurrogates
  split
  · next inside =>
    obtain ⟨skipped, passed⟩ := Nat.exists_eq_add_of_le (by omega : code ≤ 0xE000)
    rw [passed, Nat.count_add, Nat.add_eq_left, Nat.count_iff_forall_not]
    rintro place early ⟨-, valid⟩
    unfold Nat.isValidChar at valid
    omega
  · rfl

theorem isLetterCode_codeAt {place : ℕ} (h : codeAt place < 0x10FFFF + 1) :
    IsLetterCode (codeAt place) := by
  have first : 'x'.toNat = 0x78 := rfl
  unfold codeAt at h
  unfold IsLetterCode Nat.isValidChar codeAt
  rw [first] at h ⊢
  split at h
  · next low =>
    rw [if_pos low]
    omega
  · next high =>
    rw [if_neg high]
    omega

/-- In front of the letter in some place there are as many letters as the place says. -/
theorem count_codeAt {place : ℕ} (h : codeAt place ≤ 0x10FFFF + 1) :
    Nat.count IsLetterCode (codeAt place) = place := by
  induction place with
  | zero =>
      rw [Nat.count_iff_forall_not]
      rintro code early ⟨late, -⟩
      exact Nat.not_lt.mpr late early
  | succ place ih =>
      have before : codeAt place < codeAt (place + 1) := by
        unfold codeAt
        split <;> split <;> omega
      have isLetter := isLetterCode_codeAt (before.trans_le h)
      rw [← skipSurrogates_codeAt, count_skipSurrogates, Nat.count_succ, if_pos isLetter,
        ih (before.le.trans h)]

theorem letterCount_eq : letterCount = 0x10F788 := by
  have last : codeAt 0x10F788 = 0x10FFFF + 1 := by decide
  rw [letterCount, ← last]
  exact count_codeAt last.le

theorem lt_of_isValidChar {code : ℕ} (h : code.isValidChar) : code < 0x10FFFF + 1 := by
  rcases h with low | ⟨-, high⟩
  · omega
  · exact high

theorem isValidChar_codeAt_iff {place : ℕ} :
    (codeAt place).isValidChar ↔ codeAt place < 0x10FFFF + 1 :=
  ⟨lt_of_isValidChar, fun h => (isLetterCode_codeAt h).2⟩

/-- The letter in a place is the one that so many letters come before. -/
theorem toNat_of_letterAt? {place : ℕ} {letter : Char} (h : letterAt? place = some letter) :
    letter.toNat = Nat.nth IsLetterCode place := by
  have code : letter.toNat = codeAt place := letterAt?_eq_some_iff.mp h
  have inRange : codeAt place < 0x10FFFF + 1 := lt_of_isValidChar (code ▸ letter.valid)
  calc letter.toNat = codeAt place := code
    _ = Nat.nth IsLetterCode (Nat.count IsLetterCode (codeAt place)) :=
        (Nat.nth_count (isLetterCode_codeAt inRange)).symm
    _ = Nat.nth IsLetterCode place := by rw [count_codeAt inRange.le]

theorem exists_letterAt?_iff {place : ℕ} :
    (∃ letter, letterAt? place = some letter) ↔ place < letterCount := by
  have first : 'x'.toNat = 0x78 := rfl
  have inRange : codeAt place < 0x10FFFF + 1 ↔ place < letterCount := by
    rw [letterCount_eq, codeAt, first]
    split <;> omega
  rw [← inRange, ← isValidChar_codeAt_iff, letterAt?]
  split
  · next valid => simp [valid]
  · next invalid => simp [invalid]

theorem letterIn_of_getElem? {named : List String} {place : ℕ} {identifier : String}
    (h : named.eraseDups[place]? = some identifier) :
    letterIn named identifier = letterAt? place := by
  obtain ⟨early, rfl⟩ := List.getElem?_eq_some_iff.mp h
  have inside : named.eraseDups[place] ∈ named := List.mem_eraseDups.mp (List.getElem_mem early)
  rw [letterIn, if_pos inside, (byFirstOccurrence_eraseDups named).nodup.idxOf_getElem place early]

namespace Letters

/-! ## Runs -/

/-- Names identifiers one after the other, and answers what each of them is given. -/
def nameAll (letters : Letters) : List String → Traced (List (Option Char) × Letters)
  | [] => pure ([], letters)
  | identifier :: rest => do
    let (letter, letters) ← letters.name identifier
    (fun (answers, letters) => (letter :: answers, letters)) <$> nameAll letters rest

/-- What has become of the letters when some identifiers **have been named**, one after the other.
-/
structure HasNamed (letters : Letters) (named : List String) : Prop where
  knows : letters.Knows named
  size_eq : letters.size = min named.eraseDups.length letterCount
  lt_cursor : ∀ (identifier : String) (letter : Char),
    letters.assigned[identifier]? = some letter → letter.toNat < letters.cursor
  cursor_le : letters.cursor ≤ 0x10FFFF + 1

theorem hasNamed_fresh : fresh.HasNamed [] where
  knows := knows_fresh
  size_eq := by
    rw [List.eraseDups_nil, List.length_nil, Nat.zero_min]
    exact Std.HashMap.size_empty
  lt_cursor identifier letter known := by
    have nothing : fresh.assigned[identifier]? = none := Std.HashMap.getElem?_empty
    rw [nothing] at known
    cases known
  cursor_le := by decide

theorem cursor_le_of_next? {letters : Letters} {letter : Char} (h : letters.next? = some letter) :
    letters.cursor ≤ letter.toNat := by
  have skipped : letters.cursor ≤ skipSurrogates letters.cursor := by
    unfold skipSurrogates
    split <;> omega
  unfold next? at h
  dsimp only at h
  split at h
  · next valid =>
    cases h
    rw [Char.ofNat, dif_pos valid]
    exact skipped
  · cases h

theorem name_of_known {letters : Letters} {identifier : String} {letter : Char}
    (known : letters.assigned[identifier]? = some letter) :
    letters.name identifier = pure (some letter, letters) := by
  rw [Letters.name, known]

/-- Naming an identifier gives it the letter that it has, or the next one, or none if there is none
left; only in the second case is anything changed. -/
theorem name_cases (letters : Letters) (identifier : String) :
    (∃ letter, letters.assigned[identifier]? = some letter ∧
      letters.name identifier = pure (some letter, letters)) ∨
    (∃ letter, letters.assigned[identifier]? = none ∧ letters.next? = some letter ∧
      (letters.name identifier).value =
        (some letter, ⟨letters.assigned.insert identifier letter, letter.toNat + 1⟩)) ∨
    letters.assigned[identifier]? = none ∧ letters.next? = none ∧
      (letters.name identifier).value = (none, letters) := by
  cases found : letters.assigned[identifier]? with
  | some letter => exact Or.inl ⟨letter, rfl, name_of_known found⟩
  | none =>
      unfold Letters.name
      rw [found]
      cases letters.next? with
      | some letter => exact Or.inr (Or.inl ⟨letter, rfl, rfl, rfl⟩)
      | none => exact Or.inr (Or.inr ⟨rfl, rfl, rfl⟩)

section

variable {letters : Letters} {named : List String} {identifier : String}

/-- The letters stay as they are if the number of different identifiers does, or is too great. -/
theorem HasNamed.of_knows (h : letters.HasNamed named) {more : List String}
    (knows : letters.Knows more)
    (count : min named.eraseDups.length letterCount = min more.eraseDups.length letterCount) :
    letters.HasNamed more :=
  { h with knows := knows, size_eq := h.size_eq.trans count }

theorem HasNamed.insert (h : letters.HasNamed named) {letter : Char}
    (unknown : letters.assigned[identifier]? = none) (next : letters.next? = some letter)
    (knows : Knows ⟨letters.assigned.insert identifier letter, letter.toNat + 1⟩
      (named ++ [identifier])) :
    HasNamed ⟨letters.assigned.insert identifier letter, letter.toNat + 1⟩
      (named ++ [identifier]) where
  knows := knows
  size_eq := by
    have new : identifier ∉ named := by
      intro inside
      rw [h.knows.next?_eq_none inside unknown] at next
      cases next
    -- there is a next letter, so not all of them have been handed out
    have place : named.eraseDups.length < letterCount :=
      exists_letterAt?_iff.mp ⟨letter, h.knows.2.symm.trans next⟩
    have outside : identifier ∉ letters.assigned := by
      rw [Std.HashMap.mem_iff_isSome_getElem?, unknown]
      exact Bool.false_ne_true
    have before : letters.assigned.size = min named.eraseDups.length letterCount := h.size_eq
    rw [Letters.size, Std.HashMap.size_insert, if_neg outside, eraseDups_concat_of_not_mem new,
      List.length_append, List.length_singleton, before]
    omega
  lt_cursor other letter' known := by
    have behind := cursor_le_of_next? next
    rw [Std.HashMap.getElem?_insert] at known
    split at known
    · cases known
      exact Nat.lt_succ_self _
    · have inFront := h.lt_cursor other letter' known
      show letter'.toNat < letter.toNat + 1
      omega
  cursor_le := lt_of_isValidChar letter.valid

/-- One more name keeps what has become of the letters as it has to be. -/
theorem HasNamed.name (h : letters.HasNamed named) (identifier : String) :
    (letters.name identifier).value.2.HasNamed (named ++ [identifier]) := by
  have knows := (h.knows.name identifier).2
  rcases letters.name_cases identifier with
    ⟨letter, known, same⟩ | ⟨letter, unknown, next, same⟩ | ⟨-, next, same⟩
  · rw [same] at knows ⊢
    have inside : identifier ∈ named := mem_of_letterIn ((h.knows.1 identifier).symm.trans known)
    exact h.of_knows knows (by rw [eraseDups_concat_of_mem inside])
  · rw [same] at knows ⊢
    exact h.insert unknown next knows
  · rw [same] at knows ⊢
    -- all letters have been handed out before
    have all : letterCount ≤ named.eraseDups.length := by
      by_contra fewer
      obtain ⟨letter, free⟩ := exists_letterAt?_iff.mpr (Nat.not_le.mp fewer)
      rw [← h.knows.2, next] at free
      cases free
    have grown : named.eraseDups.length ≤ (named ++ [identifier]).eraseDups.length := by
      rw [List.eraseDups_append, List.length_append]
      exact Nat.le_add_right _ _
    exact h.of_knows knows (by omega)

/-- A run answers the letter that each identifier has in the end. -/
theorem HasNamed.nameAll (h : letters.HasNamed named) (calls : List String) :
    (letters.nameAll calls).value.2.HasNamed (named ++ calls) ∧
      (letters.nameAll calls).value.1 = calls.map (letterIn (named ++ calls)) := by
  induction calls generalizing letters named with
  | nil =>
      rw [List.append_nil]
      exact ⟨h, rfl⟩
  | cons identifier rest ih =>
      obtain ⟨hasNamed, answers⟩ := ih (h.name identifier)
      rw [List.append_assoc, List.singleton_append] at hasNamed answers
      refine ⟨hasNamed, ?_⟩
      have first : letterIn (named ++ identifier :: rest) identifier =
          (letters.name identifier).value.1 := by
        rw [(h.knows.name identifier).1, ← List.singleton_append, ← List.append_assoc]
        exact letterIn_append_of_mem (List.mem_append_right named (List.mem_singleton_self _)) rest
      rw [List.map_cons, first, ← answers]
      rfl

end

/-- Whatever identifiers are named one after the other, each call answers the letter that its
identifier has in the end, and naming an identifier with a letter again answers this letter and
changes nothing. As long as there are letters, the different identifiers get them in order, by first
call, and no two of them get the same. All letters that have been handed out are in front of the
cursor, which is never more than one behind the last scalar value. -/
theorem nameAll_fresh (calls : List String) :
    ∃ answers letters, (fresh.nameAll calls).value = (answers, letters) ∧
      answers = calls.map (fun identifier => letters.assigned[identifier]?) ∧
      (∀ place identifier, calls.eraseDups[place]? = some identifier → place < letterCount →
        ∃ letter, letters.assigned[identifier]? = some letter ∧
          letter.toNat = Nat.nth IsLetterCode place ∧
          letters.name identifier = pure (some letter, letters)) ∧
      (∀ (identifier other : String) (letter : Char),
        letters.assigned[identifier]? = some letter → letters.assigned[other]? = some letter →
          identifier = other) ∧
      letters.size = min calls.eraseDups.length letterCount ∧
      (∀ (identifier : String) (letter : Char), letters.assigned[identifier]? = some letter →
        letter.toNat < letters.cursor) ∧
      letters.cursor ≤ 0x10FFFF + 1 := by
  obtain ⟨hasNamed, answers⟩ := hasNamed_fresh.nameAll calls
  rw [List.nil_append] at hasNamed answers
  refine ⟨_, _, rfl, ?_, ?_, ?_, hasNamed.size_eq, hasNamed.lt_cursor, hasNamed.cursor_le⟩
  · rw [answers]
    exact List.map_congr_left fun identifier _ => (hasNamed.knows.1 identifier).symm
  · intro place identifier isAt few
    obtain ⟨letter, free⟩ := exists_letterAt?_iff.mpr few
    have known := (hasNamed.knows.1 identifier).trans ((letterIn_of_getElem? isAt).trans free)
    exact ⟨letter, known, toNat_of_letterAt? free, name_of_known known⟩
  · intro identifier other letter known known'
    rw [hasNamed.knows.1] at known known'
    exact letterIn_injective known known'

end Letters

end FormulaExport
