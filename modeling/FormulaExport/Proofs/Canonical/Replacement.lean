import FormulaExport.Proofs.Canonical.Rename

/-!
# Texts with words replaced

Renaming and simplifying replace the words among the pieces of a text and keep the characters
between them. A word that has none of the replacing characters is found in the new text where it
stands in the old one (`prefix_flatMap_of_prefix`), so replacing words by such characters makes no new
names (`freeOf_flatMap_pieces`). Simplifying is different: it replaces a numbered relation by the `E`
that another one may begin with. It leaves no numbered relation exactly if none is **numbered
twice**, like `E$1$2` (`freeOf_simplifyIn_iff`).
-/

set_option autoImplicit false

namespace FormulaExport

open FormulaExport.Text

/-! ## Words at the front -/

/-- What is written for a piece if the characters between the words are kept. -/
def KeepsPlain (f : Piece → List Char) : Prop := ∀ c, f (.plain c) = [c]

theorem keepsPlain_characters : KeepsPlain Piece.characters := fun _ => rfl

theorem keepsPlain_shownIn (named : List String) : KeepsPlain (shownIn named) := fun _ => rfl

theorem keepsPlain_simplifyPiece : KeepsPlain simplifyPiece := fun _ => rfl

/-- A word at the front of one text is at the front of another with the same plain pieces, if it has
no character with which the first text goes on in place of a name. -/
theorem prefix_flatMap_of_prefix {f g : Piece → List Char} (hf : KeepsPlain f) (hg : KeepsPlain g)
    {pieces : List Piece} {word : List Char}
    (foreign : ∀ name, .word name ∈ pieces → ∃ c ∈ (f (.word name)).head?, c ∉ word)
    (front : word <+: pieces.flatMap f) : word <+: pieces.flatMap g := by
  induction pieces generalizing word with
  | nil => exact front
  | cons piece pieces ih =>
      cases word with
      | nil => exact List.nil_prefix
      | cons d word =>
          rw [List.flatMap_cons] at front ⊢
          cases piece with
          | plain c =>
              rw [hf, List.singleton_append] at front
              rw [hg, List.singleton_append]
              obtain ⟨same, behind⟩ := List.cons_prefix_cons.mp front
              refine List.cons_prefix_cons.mpr ⟨same, ih (fun name inside => ?_) behind⟩
              obtain ⟨c, first, outside⟩ := foreign name (List.mem_cons_of_mem _ inside)
              exact ⟨c, first, fun inWord => outside (List.mem_cons_of_mem _ inWord)⟩
          | word name =>
              -- the text goes on with a character that the word does not have
              obtain ⟨c, first, outside⟩ := foreign name List.mem_cons_self
              obtain ⟨rest, shown⟩ := List.head?_eq_some_iff.mp first
              rw [shown, List.cons_append] at front
              obtain ⟨rfl, -⟩ := List.cons_prefix_cons.mp front
              exact absurd List.mem_cons_self outside

theorem freeOf_nil {form : List Char → Prop} (h : ¬ form []) : FreeOf form [] := by
  rintro word inside isForm
  rw [List.infix_nil.mp inside] at isForm
  exact h isForm

theorem freeOf_cons {form : List Char → Prop} {c : Char} {text : List Char}
    (front : ∀ word, word <+: c :: text → ¬ form word) (behind : FreeOf form text) :
    FreeOf form (c :: text) := by
  intro word inside
  rcases List.infix_cons_iff.mp inside with atFront | later
  · exact front word atFront
  · exact behind word later

/-- A word that begins with a character of the second text only stands in the second. -/
theorem infix_of_infix_append {c : Char} {word front text : List Char}
    (h : c :: word <:+: front ++ text) (outside : c ∉ front) : c :: word <:+: text := by
  induction front with
  | nil => exact h
  | cons d front ih =>
      rcases List.infix_cons_iff.mp h with atFront | later
      · obtain ⟨rfl, -⟩ := List.cons_prefix_cons.mp atFront
        exact absurd List.mem_cons_self outside
      · exact ih later fun inside => outside (List.mem_cons_of_mem d inside)

section

variable {pattern : Pattern} {form : List Char → Prop} {f : Piece → List Char} {text : List Char}

/-- Replacing names by characters that a form does not have makes no text of the form. -/
theorem freeOf_flatMap_pieces (keeps : KeepsPlain f) (nonempty : ¬ form [])
    (foreign : ∀ name, .word name ∈ pattern.pieces text →
      ∃ c, f (.word name) = [c] ∧ ∀ word, form word → c ∉ word)
    (free : ∀ behind, behind <:+ text → pattern.take? behind = none →
      ∀ word, word <+: behind → ¬ form word) :
    FreeOf form ((pattern.pieces text).flatMap f) := by
  fun_induction Pattern.pieces pattern text with
  | case1 => exact freeOf_nil nonempty
  | case2 c text name rest found ih =>
      obtain ⟨d, shown, outside⟩ := foreign name List.mem_cons_self
      have back : rest <:+ c :: text := ⟨name, (pattern.split found).1.symm⟩
      rw [List.flatMap_cons, shown]
      refine freeOf_cons (fun word front isForm => ?_) (ih ?_ ?_)
      · -- a word cannot begin with what is written for the name
        cases word with
        | nil => exact nonempty isForm
        | cons d' word =>
            obtain ⟨rfl, -⟩ := List.cons_prefix_cons.mp front
            exact outside _ isForm List.mem_cons_self
      · exact fun name' inside => foreign name' (List.mem_cons_of_mem _ inside)
      · exact fun behind suffix => free behind (suffix.trans back)
  | case3 c text found ih =>
      rw [List.flatMap_cons, keeps, List.singleton_append]
      refine freeOf_cons (fun word front isForm => ?_) (ih ?_ ?_)
      · have whole : word <+: (Piece.plain c :: pattern.pieces text).flatMap f := by
          rwa [List.flatMap_cons, keeps]
        -- the word lies among plain characters, so it was there before
        have before : word <+: c :: text := by
          have same := prefix_flatMap_of_prefix keeps keepsPlain_characters ?_ whole
          · rwa [List.flatMap_cons, pattern.characters_pieces] at same
          · intro name inside
            obtain ⟨d, shown, outside⟩ := foreign name inside
            exact ⟨d, by rw [shown]; rfl, outside word isForm⟩
        exact free _ List.suffix_rfl found word before isForm
      · exact fun name' inside => foreign name' (List.mem_cons_of_mem _ inside)
      · exact fun behind suffix => free behind (suffix.trans (List.suffix_cons c text))

/-- Replacing names removes no text of a form, if the names begin with a character that the form
does not have and do not have the one that a text of the form begins with. -/
theorem freeOf_of_freeOf_flatMap_pieces (keeps : KeepsPlain f)
    (begins : ∀ word, form word → ∃ c rest, word = c :: rest ∧
      ∀ name, .word name ∈ pattern.pieces text → c ∉ name)
    (foreign : ∀ name, .word name ∈ pattern.pieces text →
      ∃ c ∈ name.head?, ∀ word, form word → c ∉ word)
    (free : FreeOf form ((pattern.pieces text).flatMap f)) : FreeOf form text := by
  fun_induction Pattern.pieces pattern text with
  | case1 => exact free
  | case2 c text name rest found ih =>
      rw [List.flatMap_cons] at free
      have behind : FreeOf form rest := by
        apply ih _ _ (free.of_infix (List.suffix_append _ _).isInfix)
        · intro word isForm
          obtain ⟨d, back, same, outside⟩ := begins word isForm
          exact ⟨d, back, same, fun name' inside => outside name' (List.mem_cons_of_mem _ inside)⟩
        · exact fun name' inside => foreign name' (List.mem_cons_of_mem _ inside)
      rw [(pattern.split found).1]
      -- no word begins within the name, so it is in the rest
      intro word inside isForm
      obtain ⟨d, back, rfl, outside⟩ := begins word isForm
      exact behind _ (infix_of_infix_append inside (outside name List.mem_cons_self)) isForm
  | case3 c text found ih =>
      have whole : c :: text = (Piece.plain c :: pattern.pieces text).flatMap Piece.characters := by
        rw [List.flatMap_cons, pattern.characters_pieces]
        rfl
      refine freeOf_cons (fun word front isForm => ?_) (ih ?_ ?_ ?_)
      · rw [whole] at front
        refine free word (List.IsPrefix.isInfix ?_) isForm
        refine prefix_flatMap_of_prefix keepsPlain_characters keeps (fun name inside => ?_) front
        obtain ⟨d, first, outside⟩ := foreign name inside
        exact ⟨d, first, outside word isForm⟩
      · intro word isForm
        obtain ⟨d, back, same, outside⟩ := begins word isForm
        exact ⟨d, back, same, fun name inside => outside name (List.mem_cons_of_mem _ inside)⟩
      · exact fun name inside => foreign name (List.mem_cons_of_mem _ inside)
      · rw [List.flatMap_cons, keeps] at free
        exact free.of_infix (List.suffix_cons _ _).isInfix

end

/-! ## Relations that are numbered twice -/

/-- A relation that is numbered twice, up to the first digit of the second number. -/
def IsTwiceNumbered (text : List Char) : Prop :=
  ∃ relation digit, IsNumberedRelation relation ∧ isDecimalDigit digit = true ∧
    text = relation ++ ['$', digit]

theorem IsTwiceNumbered.mem {word : List Char} (h : IsTwiceNumbered word) {c : Char}
    (inside : c ∈ word) : c = 'E' ∨ c = '$' ∨ isDecimalDigit c = true := by
  obtain ⟨relation, digit, isNumbered, isDigit, rfl⟩ := h
  rcases List.mem_append.mp inside with inside | inside
  · exact isNumbered.mem inside
  · rcases List.mem_cons.mp inside with rfl | inside
    · exact Or.inr (Or.inl rfl)
    · rw [List.mem_singleton.mp inside]
      exact Or.inr (Or.inr isDigit)

theorem IsNumberedRelation.exists_cons {word : List Char} (h : IsNumberedRelation word) :
    ∃ digit digits, word = 'E' :: '$' :: digit :: digits ∧
      (∀ c ∈ digit :: digits, isDecimalDigit c = true) := by
  obtain ⟨number, ⟨nonempty, all⟩, rfl⟩ := h
  cases number with
  | nil => exact absurd rfl nonempty
  | cons digit digits => exact ⟨digit, digits, rfl, all⟩

theorem IsTwiceNumbered.exists_cons {word : List Char} (h : IsTwiceNumbered word) :
    ∃ rest, word = 'E' :: rest := by
  obtain ⟨relation, digit, isNumbered, -, rfl⟩ := h
  obtain ⟨first, digits, rfl, -⟩ := isNumbered.exists_cons
  exact ⟨_, rfl⟩

/-- A text begins with the mark of a number and a digit. -/
def BeginsNumber (text : List Char) : Prop :=
  ∃ digit, isDecimalDigit digit = true ∧ ['$', digit] <+: text

theorem exists_isNumberedRelation_iff {text : List Char} :
    (∃ word, word <+: 'E' :: text ∧ IsNumberedRelation word) ↔ BeginsNumber text := by
  constructor
  · rintro ⟨word, front, isNumbered⟩
    obtain ⟨digit, digits, rfl, all⟩ := isNumbered.exists_cons
    obtain ⟨-, front⟩ := List.cons_prefix_cons.mp front
    exact ⟨digit, all digit List.mem_cons_self, (List.prefix_append ['$', digit] digits).trans front⟩
  · rintro ⟨digit, isDigit, front⟩
    have isNumber : IsNumber [digit] :=
      ⟨List.cons_ne_nil _ _, List.forall_mem_singleton.mpr isDigit⟩
    exact ⟨['E', '$', digit], List.cons_prefix_cons.mpr ⟨rfl, front⟩, [digit], isNumber, rfl⟩

/-- Behind a numbered relation that no digit follows it makes one that is numbered twice. -/
theorem exists_isTwiceNumbered_iff {relation rest : List Char}
    (isNumbered : IsNumberedRelation relation) (ends : EndsNumber rest) :
    (∃ word, word <+: relation ++ rest ∧ IsTwiceNumbered word) ↔ BeginsNumber rest := by
  constructor
  · rintro ⟨_, ⟨back, whole⟩, _, digit, ⟨number', ⟨-, all'⟩, rfl⟩, isDigit, rfl⟩
    obtain ⟨number, ⟨-, all⟩, rfl⟩ := isNumbered
    have numbers : number' ++ '$' :: digit :: back = number ++ rest := by simpa using whole
    -- both numbers are all the digits that stand there
    have ends' : EndsNumber ('$' :: digit :: back) := endsNumber_cons.mpr (by decide)
    obtain ⟨-, left⟩ := takeWhile_run all ends
    obtain ⟨-, left'⟩ := takeWhile_run all' ends'
    rw [numbers, left] at left'
    exact ⟨digit, isDigit, back, left'.symm⟩
  · rintro ⟨digit, isDigit, front⟩
    exact ⟨relation ++ ['$', digit], (List.prefix_append_right_inj relation).mpr front, relation,
      digit, isNumbered, isDigit, rfl⟩

theorem mem_of_mem_simplifyIn {c : Char} {text : List Char} (h : c ∈ simplifyIn text) :
    c = 'E' ∨ c ∈ text := by
  obtain ⟨piece, inside, shown⟩ := List.mem_flatMap.mp h
  cases piece with
  | word name => exact Or.inl (List.mem_singleton.mp shown)
  | plain d =>
      rw [← numberedRelations.characters_pieces text]
      exact Or.inr (List.mem_flatMap.mpr ⟨.plain d, inside, shown⟩)

theorem simplifyIn_eq_or_mem (text : List Char) :
    simplifyIn text = text ∨ 'E' ∈ simplifyIn text := by
  unfold simplifyIn
  fun_induction Pattern.pieces numberedRelations text with
  | case1 => exact Or.inl rfl
  | case2 c text relation rest _ _ => exact Or.inr List.mem_cons_self
  | case3 c text _ ih =>
      rcases ih with same | inside
      · exact Or.inl (congrArg (c :: ·) same)
      · exact Or.inr (List.mem_cons_of_mem c inside)

/-- Simplifying keeps what has no `E` where it stands. -/
theorem prefix_simplifyIn_iff {word text : List Char} (noE : 'E' ∉ word) :
    word <+: simplifyIn text ↔ word <+: text := by
  constructor
  · intro front
    have same := prefix_flatMap_of_prefix keepsPlain_simplifyPiece keepsPlain_characters
      (fun _ _ => ⟨'E', rfl, noE⟩) front
    rwa [numberedRelations.characters_pieces] at same
  · intro front
    rw [← numberedRelations.characters_pieces text] at front
    refine prefix_flatMap_of_prefix keepsPlain_characters keepsPlain_simplifyPiece ?_ front
    intro name inside
    have isNumbered := numberedRelations_takesForm.form_of_mem_pieces inside
    obtain ⟨digit, digits, rfl, -⟩ := isNumbered.exists_cons
    exact ⟨'E', rfl, noE⟩

theorem beginsNumber_simplifyIn_iff {text : List Char} :
    BeginsNumber (simplifyIn text) ↔ BeginsNumber text := by
  refine exists_congr fun digit => and_congr_right fun isDigit => prefix_simplifyIn_iff ?_
  intro inside
  rcases List.mem_cons.mp inside with same | inside
  · exact absurd same (by decide)
  · rw [← List.mem_singleton.mp inside] at isDigit
    exact absurd isDigit (by decide)

/-- Simplifying leaves no numbered relation exactly if none is numbered twice. -/
theorem freeOf_simplifyIn_iff {text : List Char} :
    FreeOf IsNumberedRelation (simplifyIn text) ↔ FreeOf IsTwiceNumbered text := by
  have takes := numberedRelations_takesForm
  unfold simplifyIn
  fun_induction Pattern.pieces numberedRelations text with
  | case1 =>
      have nothing : ¬ IsTwiceNumbered [] := fun twice => by
        obtain ⟨_, same⟩ := twice.exists_cons
        cases same
      exact ⟨fun _ => freeOf_nil nothing, fun _ => freeOf_nil fun h => takes.ne_nil h rfl⟩
  | case2 c text relation rest found ih =>
      obtain ⟨whole, isNumbered, ends⟩ := takes.take?_eq_some_iff.mp found
      rw [whole, List.flatMap_cons, simplifyPiece, List.singleton_append]
      have atFront : (∃ word, word <+: 'E' :: simplifyIn rest ∧ IsNumberedRelation word) ↔
          ∃ word, word <+: relation ++ rest ∧ IsTwiceNumbered word := by
        rw [exists_isNumberedRelation_iff, beginsNumber_simplifyIn_iff,
          exists_isTwiceNumbered_iff isNumbered ends]
      constructor
      · intro free word inside twice
        have behind := ih.mp (free.of_infix (List.suffix_cons _ _).isInfix)
        obtain ⟨back, rfl⟩ := twice.exists_cons
        obtain ⟨digit, digits, rfl, all⟩ := isNumbered.exists_cons
        rcases List.infix_cons_iff.mp inside with front | later
        · obtain ⟨word', front', isNumbered'⟩ := atFront.mpr ⟨_, front, twice⟩
          exact free word' front'.isInfix isNumbered'
        · -- no other `E` stands in the relation
          have noE : 'E' ∉ '$' :: digit :: digits := by
            intro inside
            rcases List.mem_cons.mp inside with same | inside
            · exact absurd same (by decide)
            · exact absurd (all 'E' inside) (by decide)
          exact behind _ (infix_of_infix_append later noE) twice
      · intro free
        have behind := ih.mpr (free.of_infix (List.suffix_append relation rest).isInfix)
        refine freeOf_cons (fun word front isNumbered' => ?_) behind
        obtain ⟨word', front', twice⟩ := atFront.mp ⟨word, front, isNumbered'⟩
        exact free word' front'.isInfix twice
  | case3 c text found ih =>
      rw [List.flatMap_cons, simplifyPiece, List.singleton_append]
      have nowhere := takes.take?_eq_none_iff.mp found
      constructor
      · intro free
        have behind := ih.mp (free.of_infix (List.suffix_cons _ _).isInfix)
        refine freeOf_cons (fun word front twice => ?_) behind
        obtain ⟨relation, digit, isNumbered, -, rfl⟩ := twice
        exact nowhere relation ((List.prefix_append _ _).trans front) isNumbered
      · intro free
        have behind := ih.mpr (free.of_infix (List.suffix_cons _ _).isInfix)
        refine freeOf_cons (fun word front isNumbered => ?_) behind
        obtain rfl : 'E' = c := by
          obtain ⟨digit, digits, rfl, -⟩ := isNumbered.exists_cons
          exact (List.cons_prefix_cons.mp front).1
        have begins := exists_isNumberedRelation_iff.mp ⟨word, front, isNumbered⟩
        obtain ⟨word', front', isNumbered'⟩ :=
          exists_isNumberedRelation_iff.mpr (beginsNumber_simplifyIn_iff.mp begins)
        exact nowhere word' front' isNumbered'

end FormulaExport
