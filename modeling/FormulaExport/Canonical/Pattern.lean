import FormulaExport.Text.DecimalDigit

/-!
# Numbered names

Exports number their names: a variable is called `V0$1`, a relation `E$3`. A **pattern** takes a
name of one form off the front of a text, and `Pattern.pieces` cuts a text into the names of that
form and the characters between them, from left to right. A name is taken as long as possible.
-/

set_option autoImplicit false

namespace FormulaExport

open FormulaExport.Text

/-! ## Patterns -/

/-- A **pattern** takes a word off the front of a text. The word is never empty. -/
structure Pattern where
  take? : List Char → Option (List Char × List Char)
  split : ∀ {text word rest : List Char},
    take? text = some (word, rest) → text = word ++ rest ∧ word ≠ []

/-- A **piece** of a text: a word of the pattern, or a character outside all words. -/
inductive Piece where
  | word (characters : List Char)
  | plain (c : Char)
deriving DecidableEq, Repr

def Piece.characters : Piece → List Char
  | .word characters => characters
  | .plain c => [c]

namespace Pattern

theorem length_of_take? (pattern : Pattern) {text word rest : List Char}
    (h : pattern.take? text = some (word, rest)) : rest.length < text.length := by
  obtain ⟨rfl, nonempty⟩ := pattern.split h
  have := List.length_pos_iff.mpr nonempty
  rw [List.length_append]
  omega

/-- Cuts a text into pieces, words first and from left to right. -/
def pieces (pattern : Pattern) : List Char → List Piece
  | [] => []
  | c :: text =>
    match _found : pattern.take? (c :: text) with
    | some (word, rest) => .word word :: pattern.pieces rest
    | none => .plain c :: pattern.pieces text
termination_by text => text.length
decreasing_by
  · exact pattern.length_of_take? _found
  · simp

/-- Nothing is lost: the pieces of a text make up the text. -/
theorem characters_pieces (pattern : Pattern) (text : List Char) :
    (pattern.pieces text).flatMap Piece.characters = text := by
  fun_induction pieces pattern text with
  | case1 => rfl
  | case2 c text word rest found ih =>
      rw [List.flatMap_cons, ih, Piece.characters]
      exact (pattern.split found).1.symm
  | case3 c text _ ih =>
      rw [List.flatMap_cons, ih, Piece.characters]
      rfl

end Pattern

/-! ## Numbers and marks -/

/-- One or more decimal digits, as many as there are. -/
def number? (text : List Char) : Option (List Char × List Char) :=
  match text.takeWhile isDecimalDigit with
  | [] => none
  | digit :: digits => some (digit :: digits, text.dropWhile isDecimalDigit)

def mark? (mark : Char) : List Char → Option (List Char × List Char)
  | [] => none
  | c :: text => if c = mark then some ([c], text) else none

/-- One reader after another: what both take, put together. -/
def andThen? (first second : List Char → Option (List Char × List Char)) (text : List Char) :
    Option (List Char × List Char) :=
  (first text).bind fun (front, middle) =>
    (second middle).map fun (back, rest) => (front ++ back, rest)

theorem split_number? {text word rest : List Char} (h : number? text = some (word, rest)) :
    text = word ++ rest ∧ word ≠ [] := by
  unfold number? at h
  cases t : text.takeWhile isDecimalDigit with
  | nil => simp [t] at h
  | cons digit digits =>
      simp only [t, Option.some.injEq, Prod.mk.injEq] at h
      obtain ⟨rfl, rfl⟩ := h
      exact ⟨by rw [← t, List.takeWhile_append_dropWhile], List.cons_ne_nil _ _⟩

theorem split_mark? {mark : Char} {text word rest : List Char}
    (h : mark? mark text = some (word, rest)) : text = word ++ rest ∧ word ≠ [] := by
  cases text with
  | nil => simp [mark?] at h
  | cons c text =>
      rw [mark?] at h
      split at h
      · cases h
        exact ⟨rfl, List.cons_ne_nil _ _⟩
      · cases h

theorem split_andThen? {first second : List Char → Option (List Char × List Char)}
    (hf : ∀ {text word rest : List Char},
      first text = some (word, rest) → text = word ++ rest ∧ word ≠ [])
    (hs : ∀ {text word rest : List Char},
      second text = some (word, rest) → text = word ++ rest ∧ word ≠ [])
    {text word rest : List Char} (h : andThen? first second text = some (word, rest)) :
    text = word ++ rest ∧ word ≠ [] := by
  unfold andThen? at h
  obtain ⟨⟨front, middle⟩, hfront, h⟩ := Option.bind_eq_some_iff.mp h
  obtain ⟨⟨back, after⟩, hback, h⟩ := Option.map_eq_some_iff.mp h
  cases h
  obtain ⟨rfl, nonempty⟩ := hf hfront
  obtain ⟨rfl, _⟩ := hs hback
  exact ⟨(List.append_assoc _ _ _).symm, by simp [nonempty]⟩

/-! ## The two forms of names -/

/-- An identifier of a variable: `V`, a number, `$` and a number. -/
def identifier? : List Char → Option (List Char × List Char) :=
  andThen? (mark? 'V') (andThen? number? (andThen? (mark? '$') number?))

/-- A numbered relation: `E`, `$` and a number. -/
def numberedRelation? : List Char → Option (List Char × List Char) :=
  andThen? (mark? 'E') (andThen? (mark? '$') number?)

def identifiers : Pattern where
  take? := identifier?
  split h :=
    split_andThen? split_mark?
      (split_andThen? split_number? (split_andThen? split_mark? split_number?)) h

def numberedRelations : Pattern where
  take? := numberedRelation?
  split h := split_andThen? split_mark? (split_andThen? split_mark? split_number?) h

end FormulaExport
