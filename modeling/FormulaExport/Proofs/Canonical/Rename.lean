import FormulaExport.Canonical.Text
import FormulaExport.Proofs.Canonical.Letters
import FormulaExport.Proofs.Canonical.Name
import FormulaExport.Proofs.Formula.Token

/-!
# Renaming the labels of a formula

The letters that identifiers get in the text of a formula depend only on the order in which the
identifiers occur in it, so renaming comes down to a change of each piece on its own, with letters
that are known from the start (`value_renameVariables`). No mark of the printer belongs to a name.
So both renaming and the simplification of relations change the labels of a formula one by one, and
the canonical form is the printed form of the formula with **canonical labels**, without some
opening parentheses (`canonicalize_print`).
-/

set_option autoImplicit false

namespace FormulaExport

open FormulaExport.Text

/-! ## Letters that are known from the start -/

/-- The identifiers of a piece: itself, if it is a word. -/
def Piece.names : Piece → List String
  | .word characters => [String.ofList characters]
  | .plain _ => []

/-- The identifiers in a text, one for each occurrence. -/
def identifiersIn (text : List Char) : List String :=
  (identifiers.pieces text).flatMap Piece.names

theorem mem_identifiersIn {text name : List Char} (h : .word name ∈ identifiers.pieces text) :
    String.ofList name ∈ identifiersIn text :=
  List.mem_flatMap.mpr ⟨.word name, h, List.mem_singleton_self _⟩

/-- What is written for a piece, if some identifiers are named one after the other. -/
def shownIn (named : List String) : Piece → List Char
  | .word characters => shownAs characters (letterIn named (String.ofList characters))
  | .plain c => [c]

section

variable {named : List String} {characters : List Char} {rest : List Piece}

theorem append_names_word : named ++ [String.ofList characters] ++ rest.flatMap Piece.names =
    named ++ (Piece.word characters :: rest).flatMap Piece.names :=
  List.append_assoc _ _ _

theorem letterIn_word :
    letterIn (named ++ (Piece.word characters :: rest).flatMap Piece.names)
        (String.ofList characters) =
      letterIn (named ++ [String.ofList characters]) (String.ofList characters) := by
  rw [← append_names_word]
  apply letterIn_append_of_mem
  exact List.mem_append_right named (List.mem_singleton_self _)

end

/-- Pieces are written as if all identifiers among them had been named before. -/
theorem value_renamePieces {letters : Letters} {named : List String} (h : letters.Knows named)
    (pieces : List Piece) :
    (renamePieces letters pieces).value.2 =
        pieces.flatMap (shownIn (named ++ pieces.flatMap Piece.names)) ∧
      (renamePieces letters pieces).value.1.Knows (named ++ pieces.flatMap Piece.names) := by
  induction pieces generalizing letters named with
  | nil =>
      refine ⟨rfl, ?_⟩
      rw [List.flatMap_nil, List.append_nil]
      exact h
  | cons piece rest ih =>
      cases piece with
      | plain c =>
          obtain ⟨text, knows⟩ := ih h
          exact ⟨congrArg (c :: ·) text, knows⟩
      | word characters =>
          obtain ⟨letter, knows⟩ := h.name (String.ofList characters)
          obtain ⟨text, knows'⟩ := ih knows
          rw [append_names_word] at text knows'
          refine ⟨?_, knows'⟩
          -- the letter the word gets now is the one it has when everything has been named
          have shown : shownIn (named ++ (Piece.word characters :: rest).flatMap Piece.names)
              (.word characters) =
                shownAs characters (letters.name (String.ofList characters)).value.1 := by
            rw [shownIn, letterIn_word, letter]
          rw [List.flatMap_cons, shown, ← text]
          rfl

theorem outOfLetters_mem_log_renamePieces_iff {letters : Letters} {named : List String}
    (h : letters.Knows named) (pieces : List Piece) (identifier : String) :
    Diagnostic.outOfLetters identifier ∈ (renamePieces letters pieces).log ↔
      identifier ∈ pieces.flatMap Piece.names ∧
        letterIn (named ++ pieces.flatMap Piece.names) identifier = none := by
  induction pieces generalizing letters named with
  | nil =>
      constructor
      · nofun
      · exact fun both => absurd both.1 List.not_mem_nil
  | cons piece rest ih =>
      cases piece with
      | plain c => exact ih h
      | word characters =>
          obtain ⟨letter, knows⟩ := h.name (String.ofList characters)
          have later := ih knows
          rw [append_names_word] at later
          have split : Diagnostic.outOfLetters identifier ∈
              (renamePieces letters (.word characters :: rest)).log ↔
                Diagnostic.outOfLetters identifier ∈
                    (letters.name (String.ofList characters)).log ∨
                  Diagnostic.outOfLetters identifier ∈
                    (renamePieces (letters.name (String.ofList characters)).value.2 rest).log :=
            List.mem_append
          rw [split, later, Letters.outOfLetters_mem_log_iff, letter, ← letterIn_word]
          constructor
          · rintro (⟨rfl, nothing⟩ | ⟨inside, nothing⟩)
            · exact ⟨List.mem_cons_self, nothing⟩
            · exact ⟨List.mem_cons_of_mem _ inside, nothing⟩
          · rintro ⟨inside, nothing⟩
            rcases List.mem_cons.mp inside with rfl | inside
            · exact Or.inl ⟨rfl, nothing⟩
            · exact Or.inr ⟨inside, nothing⟩

theorem renaming_mem_log_renamePieces_iff {letters : Letters} {named : List String}
    (h : letters.Knows named) (pieces : List Piece) (identifier : String) (letter : Char) :
    Diagnostic.renaming identifier letter ∈ (renamePieces letters pieces).log ↔
      letterIn named identifier = none ∧
        letterIn (named ++ pieces.flatMap Piece.names) identifier = some letter := by
  induction pieces generalizing letters named with
  | nil =>
      constructor
      · nofun
      · rintro ⟨unknown, known⟩
        rw [List.flatMap_nil, List.append_nil, unknown] at known
        cases known
  | cons piece rest ih =>
      cases piece with
      | plain c => exact ih h
      | word characters =>
          obtain ⟨known, knows⟩ := h.name (String.ofList characters)
          have later := ih knows
          rw [append_names_word] at later
          have split : Diagnostic.renaming identifier letter ∈
              (renamePieces letters (.word characters :: rest)).log ↔
                Diagnostic.renaming identifier letter ∈
                    (letters.name (String.ofList characters)).log ∨
                  Diagnostic.renaming identifier letter ∈
                    (renamePieces (letters.name (String.ofList characters)).value.2 rest).log :=
            List.mem_append
          rw [split, later, Letters.renaming_mem_log_iff, h.1, known, ← letterIn_word]
          constructor
          · rintro (⟨rfl, unknown, now⟩ | ⟨unknown, last⟩)
            · exact ⟨unknown, now⟩
            · refine ⟨?_, last⟩
              -- with a letter from before it could not be without one now
              by_contra before
              have among : identifier ∈ named := by
                obtain ⟨letter, before⟩ := Option.ne_none_iff_exists'.mp before
                exact mem_of_letterIn before
              exact before ((letterIn_append_of_mem among _).symm.trans unknown)
          · rintro ⟨unknown, last⟩
            by_cases same : identifier = String.ofList characters
            · subst same
              exact Or.inl ⟨rfl, unknown, last⟩
            · exact Or.inr ⟨(letterIn_concat fun h => absurd h same).trans unknown, last⟩

/-- Renames the identifiers in a text, if some identifiers are named one after the other. -/
def renameIn (named : List String) (text : List Char) : List Char :=
  (identifiers.pieces text).flatMap (shownIn named)

/-- A text is renamed as if its own identifiers had been named before. -/
theorem value_renameVariables (text : String) :
    (renameVariables text).value =
      String.ofList (renameIn (identifiersIn text.toList) text.toList) := by
  obtain ⟨renamed, -⟩ :=
    value_renamePieces Letters.knows_fresh (identifiers.pieces text.toList)
  rw [List.nil_append] at renamed
  exact congrArg String.ofList renamed

theorem outOfLetters_mem_log_renameVariables_iff {text identifier : String} :
    Diagnostic.outOfLetters identifier ∈ (renameVariables text).log ↔
      identifier ∈ identifiersIn text.toList ∧
        letterIn (identifiersIn text.toList) identifier = none := by
  have reported := outOfLetters_mem_log_renamePieces_iff Letters.knows_fresh
    (identifiers.pieces text.toList) identifier
  refine Iff.trans ?_ reported
  rw [renameVariables]
  simp

theorem renaming_mem_log_renameVariables_iff {text identifier : String} {letter : Char} :
    Diagnostic.renaming identifier letter ∈ (renameVariables text).log ↔
      letterIn (identifiersIn text.toList) identifier = some letter := by
  have announced := renaming_mem_log_renamePieces_iff Letters.knows_fresh
    (identifiers.pieces text.toList) identifier letter
  have unknown : letterIn [] identifier = none := if_neg List.not_mem_nil
  rw [unknown, eq_self, true_and, List.nil_append] at announced
  refine Iff.trans ?_ announced
  rw [renameVariables]
  simp

/-! ## Label by label -/

/-- No mark of the printer is a digit or belongs to a name. -/
theorem ne_of_mem_marks {c : Char} (h : c ∈ Token.marks) :
    isDecimalDigit c = false ∧ c ≠ 'V' ∧ c ≠ 'E' ∧ c ≠ '$' := by
  have all : (Token.marks.all fun c =>
      !isDecimalDigit c && c != 'V' && c != 'E' && c != '$') = true := by
    decide
  have other := List.all_eq_true.mp all c h
  simpa only [Bool.and_eq_true, Bool.not_eq_true', bne_iff_ne, ne_eq, and_assoc] using other

theorem separates_of_ne {form : List Char → Prop} {first c : Char}
    (mem : ∀ {word : List Char}, form word → ∀ {d : Char}, d ∈ word →
      d = first ∨ d = '$' ∨ isDecimalDigit d = true)
    (notDigit : isDecimalDigit c = false) (notFirst : c ≠ first) (notDollar : c ≠ '$') :
    Separates form c := by
  refine ⟨notDigit, ?_⟩
  intro word isForm inside
  rcases mem isForm inside with same | same | digit
  · exact notFirst same
  · exact notDollar same
  · exact Bool.false_ne_true (notDigit.symm.trans digit)

theorem separates_isIdentifier {c : Char} (h : c ∈ Token.marks) : Separates IsIdentifier c := by
  obtain ⟨notDigit, notV, -, notDollar⟩ := ne_of_mem_marks h
  exact separates_of_ne IsIdentifier.mem notDigit notV notDollar

theorem separates_isNumberedRelation {c : Char} (h : c ∈ Token.marks) :
    Separates IsNumberedRelation c := by
  obtain ⟨notDigit, -, notE, notDollar⟩ := ne_of_mem_marks h
  exact separates_of_ne IsNumberedRelation.mem notDigit notE notDollar

section

variable {β : Type} {pattern : Pattern} {form : List Char → Prop} {c : Char}

theorem pieces_separator (takes : pattern.TakesForm form) (separates : Separates form c) :
    pattern.pieces [c] = [.plain c] := by
  have split := takes.pieces_append_separator separates [] []
  rwa [Pattern.pieces_nil] at split

theorem splitsAt_pieces (takes : pattern.TakesForm form) (separates : Separates form c)
    (f : Piece → List β) : SplitsAt (fun text => (pattern.pieces text).flatMap f) c := by
  intro front back
  dsimp only
  rw [takes.pieces_append_separator separates, pieces_separator takes separates,
    List.flatMap_append, List.flatMap_cons, List.flatMap_singleton]

end

def simplifyIn (text : List Char) : List Char :=
  (numberedRelations.pieces text).flatMap simplifyPiece

/-- The canonical label for a label, if some identifiers are named one after the other. -/
def canonicalLabel (named : List String) (label : String) : String :=
  String.ofList (simplifyIn (renameIn named label.toList))

namespace Formula

/-- The identifiers in the labels of a formula, one for each occurrence and in printing order. -/
def named (formula : Formula) : List String :=
  formula.labels.flatMap fun label => identifiersIn label.toList

theorem identifiersIn_characters (formula : Formula) :
    identifiersIn formula.characters = formula.named := by
  have splits : ∀ c ∈ Token.marks, SplitsAt identifiersIn c := fun c inside =>
    splitsAt_pieces identifiers_takesForm (separates_isIdentifier inside) Piece.names
  have nothing : identifiersIn [] = [] := by rw [identifiersIn, Pattern.pieces_nil, List.flatMap_nil]
  rw [flatMap_tokens_of_splitsAt nothing splits, named, labels, List.filterMap_eq_flatMap_toList,
    List.flatMap_assoc]
  refine List.flatMap_congr fun token inside => ?_
  cases token with
  | label text => exact (List.append_nil _).symm
  | mark c =>
      have separates := separates_isIdentifier (mem_marks_of_mem_tokens inside)
      rw [Token.characters, identifiersIn, pieces_separator identifiers_takesForm separates]
      rfl

theorem outOfLetters_mem_log_canonicalize_iff {formula : Formula} {identifier : String} :
    Diagnostic.outOfLetters identifier ∈ (canonicalize formula.print).log ↔
      identifier ∈ formula.named ∧ letterIn formula.named identifier = none := by
  have text : formula.print.toList = formula.characters := by rw [print, String.toList_ofList]
  rw [← identifiersIn_characters, ← text]
  refine Iff.trans ?_ outOfLetters_mem_log_renameVariables_iff
  rw [canonicalize]
  simp

theorem characters_mapLabels_pieces {pattern : Pattern} {form : List Char → Prop}
    (takes : pattern.TakesForm form) (separates : ∀ c ∈ Token.marks, Separates form c)
    {f : Piece → List Char} (plain : ∀ c, f (.plain c) = [c]) (formula : Formula) :
    (pattern.pieces formula.characters).flatMap f =
      (formula.mapLabels fun label =>
        String.ofList ((pattern.pieces label.toList).flatMap f)).characters := by
  refine characters_mapLabels (f := fun text => (pattern.pieces text).flatMap f) ?_ ?_ ?_ formula
  · rw [Pattern.pieces_nil, List.flatMap_nil]
  · intro c inside
    rw [pieces_separator takes (separates c inside), List.flatMap_singleton, plain]
  · intro c inside
    exact splitsAt_pieces takes (separates c inside) f

theorem mapLabels_mapLabels (first second : String → String) (formula : Formula) :
    (formula.mapLabels first).mapLabels second = formula.mapLabels (second ∘ first) := by
  have terms : ∀ term : Term, (term.mapLabel first).mapLabel second =
      term.mapLabel (second ∘ first) := fun term => by cases term <;> rfl
  induction formula with
  | atom relation arguments => simp [mapLabels, terms]
  | negation inner ih => simp [mapLabels, ih]
  | binary connective left right ih ih' => simp [mapLabels, ih, ih']
  | quantified quantifier bound body ih => simp [mapLabels, ih]
  | leaf label => rfl

/-- Simplifying the text of a formula simplifies its labels, each by itself. -/
theorem simplifyRelations_print (formula : Formula) :
    simplifyRelations formula.print = (formula.mapLabels simplifyRelations).print := by
  have simplified := characters_mapLabels_pieces numberedRelations_takesForm
    (fun _ inside => separates_isNumberedRelation inside) (f := simplifyPiece) (fun _ => rfl)
    formula
  rw [simplifyRelations, print, String.toList_ofList, simplified]
  rfl

def canonical (formula : Formula) : Formula :=
  formula.mapLabels (canonicalLabel formula.named)

/-- Renamed and simplified, the text of a formula is that of the formula with canonical labels. -/
theorem simplifyRelations_renameVariables_print (formula : Formula) :
    simplifyRelations (renameVariables formula.print).value = formula.canonical.print := by
  have renamed := characters_mapLabels_pieces identifiers_takesForm
    (fun _ inside => separates_isIdentifier inside) (f := shownIn formula.named) (fun _ => rfl)
    formula
  have text : (renameVariables formula.print).value =
      (formula.mapLabels fun label => String.ofList (renameIn formula.named label.toList)).print := by
    rw [value_renameVariables, print, String.toList_ofList, identifiersIn_characters, renameIn,
      renamed]
    rfl
  have labels : (simplifyRelations ∘ fun label : String =>
      String.ofList (renameIn formula.named label.toList)) = canonicalLabel formula.named :=
    funext fun label => by rw [Function.comp_apply, simplifyRelations, String.toList_ofList]; rfl
  rw [text, simplifyRelations_print, mapLabels_mapLabels, labels, canonical]

/-- The canonical form of a formula is the text of the formula with canonical labels, without the
opening parentheses in front of quantifications. -/
theorem canonicalize_print (formula : Formula) :
    (canonicalize formula.print).value = collapseQuantifiers formula.canonical.print :=
  congrArg collapseQuantifiers formula.simplifyRelations_renameVariables_print

end Formula

end FormulaExport
