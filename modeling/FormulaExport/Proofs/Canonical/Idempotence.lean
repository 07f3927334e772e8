import FormulaExport.Proofs.Canonical.Collapse
import FormulaExport.Proofs.Canonical.Exchange
import FormulaExport.Proofs.Canonical.Replacement

/-!
# When the canonical form is canonical

A text is its own canonical form if there is nothing to rename, to simplify or to collapse in it. The
canonical form of a text never has anything to collapse, and nothing to rename as long as no letter
is a digit, which is so for the first 1512 letters. It has something to simplify exactly if a
relation of the text is numbered twice, like `E$1$2`: that becomes `E$2`. So making a text canonical
once more changes nothing **exactly if** no relation is numbered twice in it
(`canonicalize_canonicalize_iff`).
-/

set_option autoImplicit false

namespace FormulaExport

open FormulaExport.Text

/-! ## Letters that are no digits -/

/-- Between the digits of ASCII and those of the next script there are no digits. -/
theorem isDecimalDigit_eq_false {c : Char} (low : 0x3A ≤ c.toNat) (high : c.toNat < 0x660) :
    isDecimalDigit c = false := by
  have zeros : ∀ first ∈ digitZeros, first = 0x30 ∨ 0x660 ≤ first := by decide
  rw [isDecimalDigit, List.any_eq_false]
  intro first inside
  rw [Bool.and_eq_true, decide_eq_true_iff, decide_eq_true_iff]
  rcases zeros first inside with rfl | behind <;> omega

/-- A character that is foreign to names: no digit and none of the characters `V`, `E` and `$`. -/
def IsForeign (c : Char) : Prop :=
  isDecimalDigit c = false ∧ c ≠ 'V' ∧ c ≠ 'E' ∧ c ≠ '$'

/-- The first 1512 letters are foreign to names. -/
theorem exists_isForeign_letterIn {named : List String} (few : named.eraseDups.length ≤ 1512)
    {identifier : String} (h : identifier ∈ named) :
    ∃ letter, letterIn named identifier = some letter ∧ IsForeign letter := by
  obtain ⟨letter, known, low, high⟩ := exists_letterIn_lt few (by decide) h
  have differ : ∀ {c : Char}, c.toNat < 0x78 → letter ≠ c := by
    rintro c before rfl
    omega
  exact ⟨letter, known, isDecimalDigit_eq_false (by omega) (by omega), differ (by decide),
    differ (by decide), differ (by decide)⟩

theorem IsForeign.not_mem_identifier {c : Char} (h : IsForeign c) {word : List Char}
    (isIdentifier : IsIdentifier word) : c ∉ word :=
  (separates_of_ne IsIdentifier.mem h.1 h.2.1 h.2.2.2).2 word isIdentifier

theorem IsForeign.not_mem_twiceNumbered {c : Char} (h : IsForeign c) {word : List Char}
    (twice : IsTwiceNumbered word) : c ∉ word :=
  (separates_of_ne IsTwiceNumbered.mem h.1 h.2.2.1 h.2.2.2).2 word twice

theorem IsIdentifier.not_mem_E {word : List Char} (h : IsIdentifier word) : 'E' ∉ word :=
  (separates_of_ne IsIdentifier.mem (by decide) (by decide) (by decide)).2 word h

theorem IsTwiceNumbered.not_mem_V {word : List Char} (h : IsTwiceNumbered word) : 'V' ∉ word :=
  (separates_of_ne IsTwiceNumbered.mem (by decide) (by decide) (by decide)).2 word h

/-! ## What renaming leaves -/

section

variable {named : List String} {text : List Char}

/-- What is written for the identifiers of a text is foreign to names. -/
def HasForeignLetters (named : List String) (text : List Char) : Prop :=
  ∀ name, .word name ∈ identifiers.pieces text →
    ∃ letter, letterIn named (String.ofList name) = some letter ∧ IsForeign letter

theorem hasForeignLetters_of_few (few : (identifiersIn text).eraseDups.length ≤ 1512) :
    HasForeignLetters (identifiersIn text) text :=
  fun _ inside => exists_isForeign_letterIn few (mem_identifiersIn inside)

theorem HasForeignLetters.foreign (h : HasForeignLetters named text) {form : List Char → Prop}
    (outside : ∀ {c : Char}, IsForeign c → ∀ {word : List Char}, form word → c ∉ word) :
    ∀ name, .word name ∈ identifiers.pieces text →
      ∃ c, shownIn named (.word name) = [c] ∧ ∀ word, form word → c ∉ word := by
  intro name inside
  obtain ⟨letter, known, isForeign⟩ := h name inside
  exact ⟨letter, by rw [shownIn, known]; rfl, fun word isForm => outside isForeign isForm⟩

theorem freeOf_isIdentifier_renameIn (h : HasForeignLetters named text) :
    FreeOf IsIdentifier (renameIn named text) := by
  have takes := identifiers_takesForm
  apply freeOf_flatMap_pieces (keepsPlain_shownIn named) fun isIdentifier =>
    takes.ne_nil isIdentifier rfl
  · exact h.foreign IsForeign.not_mem_identifier
  · exact fun behind _ nothing word front => takes.take?_eq_none_iff.mp nothing word front

/-- Renaming neither makes nor removes relations that are numbered twice. -/
theorem freeOf_isTwiceNumbered_renameIn_iff (h : HasForeignLetters named text) :
    FreeOf IsTwiceNumbered (renameIn named text) ↔ FreeOf IsTwiceNumbered text := by
  have nonempty : ¬ IsTwiceNumbered [] := fun twice => by
    obtain ⟨_, same⟩ := twice.exists_cons
    cases same
  constructor
  · apply freeOf_of_freeOf_flatMap_pieces (keepsPlain_shownIn named)
    · intro word twice
      obtain ⟨rest, rfl⟩ := twice.exists_cons
      refine ⟨'E', rest, rfl, fun name inside => ?_⟩
      exact (identifiers_takesForm.form_of_mem_pieces inside).not_mem_E
    · intro name inside
      obtain ⟨rest, rfl⟩ := (identifiers_takesForm.form_of_mem_pieces inside).exists_cons
      exact ⟨'V', rfl, fun word twice => twice.not_mem_V⟩
  · intro free
    apply freeOf_flatMap_pieces (keepsPlain_shownIn named) nonempty
      (h.foreign IsForeign.not_mem_twiceNumbered)
    exact fun behind suffix _ word front => free word (front.isInfix.trans suffix.isInfix)

end

/-! ## What simplifying and collapsing leave -/

theorem freeOf_isIdentifier_simplifyIn {text : List Char} (free : FreeOf IsIdentifier text) :
    FreeOf IsIdentifier (simplifyIn text) := by
  apply freeOf_flatMap_pieces keepsPlain_simplifyPiece fun isIdentifier =>
    identifiers_takesForm.ne_nil isIdentifier rfl
  · exact fun _ _ => ⟨'E', rfl, fun word isIdentifier => isIdentifier.not_mem_E⟩
  · exact fun behind suffix _ word front => free word (front.isInfix.trans suffix.isInfix)

theorem length_simplifyIn_le (text : List Char) : (simplifyIn text).length ≤ text.length := by
  unfold simplifyIn
  fun_induction Pattern.pieces numberedRelations text with
  | case1 => exact Nat.le_refl 0
  | case2 c text relation rest found ih =>
      have shorter := numberedRelations.length_of_take? found
      rw [List.flatMap_cons, simplifyPiece, List.singleton_append, List.length_cons]
      omega
  | case3 c text _ ih =>
      rw [List.flatMap_cons, simplifyPiece, List.singleton_append, List.length_cons,
        List.length_cons]
      omega

theorem length_simplifyIn_lt {text : List Char} (h : ¬ FreeOf IsNumberedRelation text) :
    (simplifyIn text).length < text.length := by
  have takes := numberedRelations_takesForm
  unfold simplifyIn
  fun_induction Pattern.pieces numberedRelations text with
  | case1 => exact absurd (freeOf_nil fun isNumbered => takes.ne_nil isNumbered rfl) h
  | case2 c text relation rest found ih =>
      obtain ⟨whole, isNumbered, -⟩ := takes.take?_eq_some_iff.mp found
      obtain ⟨digit, digits, rfl, -⟩ := isNumbered.exists_cons
      have later := length_simplifyIn_le rest
      rw [simplifyIn] at later
      rw [whole, List.flatMap_cons, simplifyPiece]
      simp only [List.length_append, List.length_cons, List.length_nil]
      omega
  | case3 c text found ih =>
      have behind : ¬ FreeOf IsNumberedRelation text := fun free =>
        h (freeOf_cons (takes.take?_eq_none_iff.mp found) free)
      rw [List.flatMap_cons, simplifyPiece, List.singleton_append, List.length_cons,
        List.length_cons]
      exact Nat.succ_lt_succ (ih behind)

/-- Loosening makes and removes no names: what is dropped stands in front of quantifiers. -/
theorem Loosened.freeOf_iff {form : List Char → Prop} {text loose : List Char}
    (h : Loosened text loose) (separates : ∀ c ∈ Token.marks, Separates form c) :
    FreeOf form loose ↔ FreeOf form text := by
  have outside : ∀ {c : Char}, c ∈ Token.marks → ∀ {word : List Char}, form word → c ∉ word :=
    fun inside _ isForm => (separates _ inside).2 _ isForm
  constructor
  · intro free word inside isForm
    exact free word (h.infix_loose (outside (by decide) isForm) inside) isForm
  · rintro free word ⟨front, back, rfl⟩ isForm
    rw [List.append_assoc] at h
    obtain ⟨rest, suffix, kept⟩ := h.exists_suffix
    have plain : ∀ c ∈ word, c ≠ '(' ∧ c ≠ '∀' ∧ c ≠ '∃' := by
      intro c inside
      refine ⟨?_, ?_, ?_⟩
      all_goals
        rintro rfl
        exact outside (by decide) isForm inside
    have front' := kept.prefix_of_prefix plain (List.prefix_append word back)
    exact free word (front'.isInfix.trans suffix.isInfix) isForm

/-! ## Once more -/

theorem toList_canonicalize (text : String) :
    (canonicalize text).value.toList =
      collapse (simplifyIn (renameIn (identifiersIn text.toList) text.toList)) := by
  have renamed := value_renameVariables text
  show (collapseQuantifiers (simplifyRelations (renameVariables text).value)).toList = _
  rw [renamed, collapseQuantifiers, simplifyRelations, String.toList_ofList, String.toList_ofList,
    String.toList_ofList]
  rfl

theorem toList_canonicalize_of_freeOf {text : String} (free : FreeOf IsIdentifier text.toList) :
    (canonicalize text).value.toList = collapse (simplifyIn text.toList) := by
  rw [toList_canonicalize, renameIn_of_freeOf _ free]

/-- Making a text canonical once more changes nothing exactly if no relation is numbered twice in
it, as long as there are no more identifiers than letters up to the next digits. -/
theorem canonicalize_canonicalize_iff {text : String}
    (few : (identifiersIn text.toList).eraseDups.length ≤ 1512) :
    (canonicalize (canonicalize text).value).value = (canonicalize text).value ↔
      FreeOf IsTwiceNumbered text.toList := by
  have letters := hasForeignLetters_of_few few
  have canonical := toList_canonicalize text
  rw [← freeOf_isTwiceNumbered_renameIn_iff letters, ← freeOf_simplifyIn_iff]
  have renamed := freeOf_isIdentifier_simplifyIn (freeOf_isIdentifier_renameIn letters)
  generalize simplifyIn (renameIn (identifiersIn text.toList) text.toList) = simplified at *
  generalize (canonicalize text).value = once at *
  have loosened := loosened_collapse simplified
  rw [← canonical] at loosened
  have noIdentifier : FreeOf IsIdentifier once.toList :=
    (loosened.freeOf_iff fun _ => separates_isIdentifier).mpr renamed
  have twice := toList_canonicalize_of_freeOf noIdentifier
  rw [← loosened.freeOf_iff fun _ => separates_isNumberedRelation]
  constructor
  · intro same
    -- with a numbered relation left, the text would get shorter
    by_contra more
    have shorter := length_simplifyIn_lt more
    have collapsed := (loosened_collapse (simplifyIn once.toList)).length_le
    rw [← twice, same] at collapsed
    omega
  · intro noRelation
    rw [simplifyIn_of_freeOf noRelation, collapse_of_not_hasParenthesized] at twice
    · exact String.toList_inj.mp twice
    · rw [canonical]
      exact hasParenthesized_collapse simplified

/-- In `E$1$2` the first number is dropped, and the second one takes its place. -/
theorem canonicalize_canonicalize_twiceNumbered :
    (identifiersIn "E$1$2(V0$0, V0$0)".toList).eraseDups.length ≤ 1512 ∧
      (canonicalize (canonicalize "E$1$2(V0$0, V0$0)").value).value ≠
        (canonicalize "E$1$2(V0$0, V0$0)").value := by
  have few : (identifiersIn "E$1$2(V0$0, V0$0)".toList).eraseDups.length ≤ 1512 := by
    decide +kernel
  have twice : IsTwiceNumbered "E$1$2".toList := ⟨"E$1".toList, '2', by decide, by decide, rfl⟩
  refine ⟨few, fun same => ?_⟩
  exact (canonicalize_canonicalize_iff few).mp same "E$1$2".toList ⟨[], "(V0$0, V0$0)".toList, rfl⟩ twice

end FormulaExport
