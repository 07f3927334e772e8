import Mathlib.Data.List.Infix
import FormulaExport.Canonical.Pattern
import FormulaExport.Proofs.Text.Run

/-!
# The names that patterns take

Which names the two patterns take, said without a reader: an identifier is `V`, a number, `$` and a
number, a numbered relation `E$` and a number. Both forms end in a number, so a pattern takes a name
of its form exactly if no further digit follows (`Pattern.TakesForm`). Everything below is derived
from that for both patterns at once: the pieces of a text do not depend on what stands behind a
character that no name has (`pieces_append_separator`), a whole name is one piece and a text without
any name is cut into its characters.
-/

set_option autoImplicit false

namespace FormulaExport

open FormulaExport.Text

/-! ## Forms -/

/-- A number is one or more decimal digits. -/
def IsNumber (text : List Char) : Prop :=
  text ≠ [] ∧ ∀ c ∈ text, isDecimalDigit c = true

/-- An identifier is `V`, a number, `$` and a number. -/
def IsIdentifier (text : List Char) : Prop :=
  ∃ major minor, IsNumber major ∧ IsNumber minor ∧ text = 'V' :: (major ++ '$' :: minor)

/-- A numbered relation is `E$` and a number. -/
def IsNumberedRelation (text : List Char) : Prop :=
  ∃ number, IsNumber number ∧ text = 'E' :: '$' :: number

/-- A text of some form is free of a text if it stands nowhere in it. -/
def FreeOf (form : List Char → Prop) (text : List Char) : Prop :=
  ∀ word, word <:+: text → ¬ form word

theorem FreeOf.of_infix {form : List Char → Prop} {text part : List Char} (h : FreeOf form text)
    (inside : part <:+: text) : FreeOf form part :=
  fun word inPart => h word (inPart.trans inside)

/-- A text ends a number in front of it if it does not begin with a digit. -/
def EndsNumber (text : List Char) : Prop := ∀ c ∈ text.head?, isDecimalDigit c = false

theorem endsNumber_nil : EndsNumber [] := nofun

theorem endsNumber_cons {c : Char} {text : List Char} :
    EndsNumber (c :: text) ↔ isDecimalDigit c = false := by
  simp [EndsNumber]

theorem exists_digits (text : List Char) :
    ∃ digits rest, text = digits ++ rest ∧ (∀ c ∈ digits, isDecimalDigit c = true) ∧
      EndsNumber rest := by
  refine ⟨text.takeWhile isDecimalDigit, text.dropWhile isDecimalDigit,
    (List.takeWhile_append_dropWhile).symm, ?_, stop_dropWhile isDecimalDigit text⟩
  intro c inside
  exact List.mem_takeWhile_imp inside

/-! ## What the readers take -/

theorem number?_eq_some_iff {text word rest : List Char} :
    number? text = some (word, rest) ↔ text = word ++ rest ∧ IsNumber word ∧ EndsNumber rest := by
  constructor
  · intro h
    obtain ⟨digits, behind, rfl, all, ends⟩ := exists_digits text
    obtain ⟨front, back⟩ := takeWhile_run all ends
    rw [number?, front, back] at h
    cases digits with
    | nil => cases h
    | cons digit digits =>
        cases h
        exact ⟨rfl, ⟨List.cons_ne_nil _ _, all⟩, ends⟩
  · rintro ⟨rfl, ⟨nonempty, all⟩, ends⟩
    obtain ⟨front, back⟩ := takeWhile_run all ends
    rw [number?, front, back]
    cases word with
    | nil => exact absurd rfl nonempty
    | cons digit digits => rfl

theorem mark?_eq_some_iff {mark : Char} {text word rest : List Char} :
    mark? mark text = some (word, rest) ↔ text = mark :: rest ∧ word = [mark] := by
  cases text with
  | nil => simp [mark?]
  | cons c text =>
      rw [mark?]
      by_cases same : c = mark
      · subst same
        rw [if_pos rfl]
        simp only [Option.some.injEq, Prod.mk.injEq, List.cons.injEq, true_and]
        constructor
        · rintro ⟨same, behind⟩
          exact ⟨behind, same.symm⟩
        · rintro ⟨behind, same⟩
          exact ⟨same.symm, behind⟩
      · simp [same]

theorem andThen?_eq_some_iff {first second : List Char → Option (List Char × List Char)}
    {text word rest : List Char} :
    andThen? first second text = some (word, rest) ↔
      ∃ front middle back, first text = some (front, middle) ∧
        second middle = some (back, rest) ∧ word = front ++ back := by
  unfold andThen?
  simp only [Option.bind_eq_some_iff, Option.map_eq_some_iff, Prod.exists, Prod.mk.injEq]
  constructor
  · rintro ⟨front, middle, taken, back, _, taken', rfl, rfl⟩
    exact ⟨front, middle, back, taken, taken', rfl⟩
  · rintro ⟨front, middle, back, taken, taken', rfl⟩
    exact ⟨front, middle, taken, back, rest, taken', rfl, rfl⟩

/-! ## Patterns of a form -/

/-- A pattern **takes a form** if it takes the texts of that form that no digit follows, where every
text of the form has a first character and may be continued by digits. -/
structure Pattern.TakesForm (pattern : Pattern) (form : List Char → Prop) : Prop where
  take?_eq_some_iff : ∀ {text word rest : List Char},
    pattern.take? text = some (word, rest) ↔ text = word ++ rest ∧ form word ∧ EndsNumber rest
  append_digits : ∀ {word digits : List Char}, form word →
    (∀ c ∈ digits, isDecimalDigit c = true) → form (word ++ digits)

theorem IsNumber.append_digits {number digits : List Char} (h : IsNumber number)
    (all : ∀ c ∈ digits, isDecimalDigit c = true) : IsNumber (number ++ digits) :=
  ⟨List.append_ne_nil_of_left_ne_nil h.1 _, List.forall_mem_append.mpr ⟨h.2, all⟩⟩

theorem identifiers_takesForm : identifiers.TakesForm IsIdentifier where
  take?_eq_some_iff := by
    intro text word rest
    simp only [identifiers, identifier?, andThen?_eq_some_iff, mark?_eq_some_iff,
      number?_eq_some_iff]
    constructor
    · rintro ⟨_, _, _, ⟨rfl, rfl⟩, ⟨major, _, _, ⟨rfl, isMajor, -⟩, ⟨_, _, minor, ⟨rfl, rfl⟩,
        ⟨rfl, isMinor, ends⟩, rfl⟩, rfl⟩, rfl⟩
      refine ⟨?_, ⟨major, minor, isMajor, isMinor, rfl⟩, ends⟩
      simp only [List.cons_append, List.nil_append, List.append_assoc]
    · rintro ⟨rfl, ⟨major, minor, isMajor, isMinor, rfl⟩, ends⟩
      refine ⟨_, _, _, ⟨rfl, rfl⟩, ⟨major, _, _, ⟨?_, isMajor, ?_⟩, ⟨_, _, minor, ⟨rfl, rfl⟩,
        ⟨rfl, isMinor, ends⟩, rfl⟩, rfl⟩, rfl⟩
      · exact List.append_assoc _ _ _
      · exact endsNumber_cons.mpr (by decide)
  append_digits := by
    rintro _ digits ⟨major, minor, isMajor, isMinor, rfl⟩ all
    refine ⟨major, minor ++ digits, isMajor, isMinor.append_digits all, ?_⟩
    rw [List.cons_append, List.append_assoc, List.cons_append]

theorem numberedRelations_takesForm : numberedRelations.TakesForm IsNumberedRelation where
  take?_eq_some_iff := by
    intro text word rest
    simp only [numberedRelations, numberedRelation?, andThen?_eq_some_iff, mark?_eq_some_iff,
      number?_eq_some_iff]
    constructor
    · rintro ⟨_, _, _, ⟨rfl, rfl⟩, ⟨_, _, number, ⟨rfl, rfl⟩, ⟨rfl, isNumber, ends⟩, rfl⟩, rfl⟩
      exact ⟨rfl, ⟨number, isNumber, rfl⟩, ends⟩
    · rintro ⟨rfl, ⟨number, isNumber, rfl⟩, ends⟩
      exact ⟨_, _, _, ⟨rfl, rfl⟩, ⟨_, _, number, ⟨rfl, rfl⟩, ⟨rfl, isNumber, ends⟩, rfl⟩, rfl⟩
  append_digits := by
    rintro _ digits ⟨number, isNumber, rfl⟩ all
    exact ⟨number ++ digits, isNumber.append_digits all, rfl⟩

/-! ## The characters of names -/

theorem IsIdentifier.mem {word : List Char} (h : IsIdentifier word) {c : Char} (inside : c ∈ word) :
    c = 'V' ∨ c = '$' ∨ isDecimalDigit c = true := by
  obtain ⟨major, minor, isMajor, isMinor, rfl⟩ := h
  rcases List.mem_cons.mp inside with rfl | inside
  · exact Or.inl rfl
  · rcases List.mem_append.mp inside with inside | inside
    · exact Or.inr (Or.inr (isMajor.2 c inside))
    · rcases List.mem_cons.mp inside with rfl | inside
      · exact Or.inr (Or.inl rfl)
      · exact Or.inr (Or.inr (isMinor.2 c inside))

theorem IsNumberedRelation.mem {word : List Char} (h : IsNumberedRelation word) {c : Char}
    (inside : c ∈ word) : c = 'E' ∨ c = '$' ∨ isDecimalDigit c = true := by
  obtain ⟨number, isNumber, rfl⟩ := h
  rcases List.mem_cons.mp inside with rfl | inside
  · exact Or.inl rfl
  · rcases List.mem_cons.mp inside with rfl | inside
    · exact Or.inr (Or.inl rfl)
    · exact Or.inr (Or.inr (isNumber.2 c inside))

theorem IsIdentifier.exists_cons {word : List Char} (h : IsIdentifier word) :
    ∃ rest, word = 'V' :: rest := by
  obtain ⟨major, minor, -, -, rfl⟩ := h
  exact ⟨_, rfl⟩

theorem not_isIdentifier_singleton (c : Char) : ¬ IsIdentifier [c] := by
  rintro ⟨major, minor, -, -, same⟩
  have nothing := (List.cons.inj same).2
  exact List.cons_ne_nil _ _ (List.append_eq_nil_iff.mp nothing.symm).2

/-! ## Pieces -/

/-- A character separates the texts of a form if none of them has it and it is no digit. -/
def Separates (form : List Char → Prop) (c : Char) : Prop :=
  isDecimalDigit c = false ∧ ∀ word, form word → c ∉ word

namespace Pattern

theorem pieces_of_take?_eq_some {pattern : Pattern} {text word rest : List Char}
    (h : pattern.take? text = some (word, rest)) :
    pattern.pieces text = .word word :: pattern.pieces rest := by
  cases text with
  | nil =>
      obtain ⟨whole, nonempty⟩ := pattern.split h
      exact absurd (List.append_eq_nil_iff.mp whole.symm).1 nonempty
  | cons c text =>
      rw [pieces]
      grind

theorem pieces_of_take?_eq_none {pattern : Pattern} {c : Char} {text : List Char}
    (h : pattern.take? (c :: text) = none) :
    pattern.pieces (c :: text) = .plain c :: pattern.pieces text := by
  rw [pieces]
  grind

theorem pieces_nil (pattern : Pattern) : pattern.pieces [] = [] := by
  rw [pieces]

namespace TakesForm

variable {pattern : Pattern} {form : List Char → Prop}

theorem ne_nil (takes : pattern.TakesForm form) {word : List Char} (h : form word) :
    word ≠ [] := by
  have taken := takes.take?_eq_some_iff.mpr ⟨(List.append_nil word).symm, h, endsNumber_nil⟩
  exact (pattern.split taken).2

/-- With all digits that follow it, a word of the form at the front of a text is taken. -/
theorem exists_take?_of_prefix (takes : pattern.TakesForm form) {text word : List Char}
    (front : word <+: text) (isForm : form word) :
    ∃ digits rest, pattern.take? text = some (word ++ digits, rest) := by
  obtain ⟨behind, rfl⟩ := front
  obtain ⟨digits, rest, rfl, all, ends⟩ := exists_digits behind
  exact ⟨digits, rest, takes.take?_eq_some_iff.mpr
    ⟨(List.append_assoc word digits rest).symm, takes.append_digits isForm all, ends⟩⟩

theorem take?_eq_none_iff (takes : pattern.TakesForm form) {text : List Char} :
    pattern.take? text = none ↔ ∀ word, word <+: text → ¬ form word := by
  constructor
  · intro none word front isForm
    obtain ⟨digits, rest, taken⟩ := takes.exists_take?_of_prefix front isForm
    rw [none] at taken
    cases taken
  · intro free
    cases found : pattern.take? text with
    | none => rfl
    | some split =>
        obtain ⟨word, rest⟩ := split
        obtain ⟨rfl, isForm, -⟩ := takes.take?_eq_some_iff.mp found
        exact absurd isForm (free word (List.prefix_append word rest))

/-- Whether a text is free of a form is found by trying the pattern everywhere. -/
theorem freeOf_iff (takes : pattern.TakesForm form) {text : List Char} :
    FreeOf form text ↔ ∀ behind ∈ text.tails, pattern.take? behind = none := by
  constructor
  · intro free behind inside
    refine takes.take?_eq_none_iff.mpr fun word front => free word ?_
    exact List.infix_iff_prefix_suffix.mpr ⟨behind, front, (List.mem_tails _ _).mp inside⟩
  · intro nowhere word inside
    obtain ⟨behind, front, back⟩ := List.infix_iff_prefix_suffix.mp inside
    exact takes.take?_eq_none_iff.mp (nowhere behind ((List.mem_tails _ _).mpr back)) word front

theorem take?_self_iff (takes : pattern.TakesForm form) {text : List Char} :
    pattern.take? text = some (text, []) ↔ form text := by
  rw [takes.take?_eq_some_iff, List.append_nil]
  exact ⟨fun h => h.2.1, fun h => ⟨rfl, h, endsNumber_nil⟩⟩

/-- What stands behind a separating character does not matter to a pattern. -/
theorem take?_append_separator (takes : pattern.TakesForm form) {c : Char}
    (separates : Separates form c) (text rest : List Char) :
    pattern.take? (text ++ c :: rest) =
      (pattern.take? text).map fun (word, behind) => (word, behind ++ c :: rest) := by
  obtain ⟨notDigit, outside⟩ := separates
  cases found : pattern.take? text with
  | some split =>
      obtain ⟨word, behind⟩ := split
      obtain ⟨rfl, isForm, ends⟩ := takes.take?_eq_some_iff.mp found
      refine takes.take?_eq_some_iff.mpr ⟨List.append_assoc _ _ _, isForm, ?_⟩
      cases behind with
      | nil => exact endsNumber_cons.mpr notDigit
      | cons d behind => exact endsNumber_cons.mpr (endsNumber_cons.mp ends)
  | none =>
      refine takes.take?_eq_none_iff.mpr fun word front isForm => ?_
      -- the word cannot reach beyond the separating character
      have upTo : text ++ [c] <+: text ++ c :: rest := ⟨rest, by simp⟩
      rcases List.prefix_or_prefix_of_prefix front upTo with short | long
      · rcases List.prefix_concat_iff.mp short with rfl | inside
        · exact outside _ isForm (List.mem_append_right _ (List.mem_singleton_self c))
        · exact takes.take?_eq_none_iff.mp found word inside isForm
      · exact outside _ isForm (long.subset (List.mem_append_right _ (List.mem_singleton_self c)))

/-- A separating character cuts a text: its pieces are those of both sides. -/
theorem pieces_append_separator (takes : pattern.TakesForm form) {c : Char}
    (separates : Separates form c) (text rest : List Char) :
    pattern.pieces (text ++ c :: rest) =
      pattern.pieces text ++ .plain c :: pattern.pieces rest := by
  fun_induction pieces pattern text with
  | case1 =>
      -- nothing of the form begins with the separating character
      refine pieces_of_take?_eq_none (takes.take?_eq_none_iff.mpr ?_)
      rintro word ⟨behind, same⟩ isForm
      cases word with
      | nil => exact takes.ne_nil isForm rfl
      | cons d word =>
          obtain ⟨rfl, -⟩ := List.cons.inj same
          exact separates.2 _ isForm List.mem_cons_self
  | case2 d text word behind found ih =>
      have taken := takes.take?_append_separator separates (d :: text) rest
      rw [found] at taken
      rw [pieces_of_take?_eq_some taken, ih, List.cons_append]
  | case3 d text found ih =>
      have taken := takes.take?_append_separator separates (d :: text) rest
      rw [found, List.cons_append] at taken
      rw [List.cons_append, pieces_of_take?_eq_none taken, ih, List.cons_append]

theorem form_of_mem_pieces (takes : pattern.TakesForm form) {text word : List Char}
    (h : .word word ∈ pattern.pieces text) : form word := by
  fun_induction pieces pattern text with
  | case1 => cases h
  | case2 c text first rest found ih =>
      rcases List.mem_cons.mp h with same | later
      · cases same
        exact (takes.take?_eq_some_iff.mp found).2.1
      · exact ih later
  | case3 c text _ ih =>
      rcases List.mem_cons.mp h with same | later
      · cases same
      · exact ih later

theorem pieces_of_form (takes : pattern.TakesForm form) {word : List Char} (h : form word) :
    pattern.pieces word = [.word word] := by
  have taken := takes.take?_eq_some_iff.mpr ⟨(List.append_nil word).symm, h, endsNumber_nil⟩
  rw [pieces_of_take?_eq_some taken, pieces_nil]

theorem pieces_of_freeOf (takes : pattern.TakesForm form) {text : List Char}
    (h : FreeOf form text) : pattern.pieces text = text.map .plain := by
  induction text with
  | nil => exact pieces_nil pattern
  | cons c text ih =>
      have nothing : pattern.take? (c :: text) = none :=
        takes.take?_eq_none_iff.mpr fun word front => h word front.isInfix
      rw [pieces_of_take?_eq_none nothing, List.map_cons,
        ih fun word inside => h word (inside.trans (List.suffix_cons c text).isInfix)]

end TakesForm

end Pattern

/-! ## Deciding -/

instance : DecidablePred IsIdentifier := fun _ =>
  decidable_of_iff _ identifiers_takesForm.take?_self_iff

instance : DecidablePred IsNumberedRelation := fun _ =>
  decidable_of_iff _ numberedRelations_takesForm.take?_self_iff

instance : DecidablePred (FreeOf IsIdentifier) := fun _ =>
  decidable_of_iff _ identifiers_takesForm.freeOf_iff.symm

instance : DecidablePred (FreeOf IsNumberedRelation) := fun _ =>
  decidable_of_iff _ numberedRelations_takesForm.freeOf_iff.symm

end FormulaExport
