import FormulaExport.Proofs.Canonical.Rename

/-!
# Rewriting a formula label by label

Renaming and the simplification of relations work on a whole text. On a formula the same can be said
without any text and without a reader (`Formula.Rewrites`): its labels are gone through in printing
order, and in each of them the longest identifiers from the left are replaced by letters and then the
longest numbered relations by `E`. What is handed on from label to label are the identifiers that
have been met. A formula is rewritten in one way only, and the text of what comes out is the
rewritten text (`Formula.exists_rewritten_print`).
-/

set_option autoImplicit false

namespace FormulaExport

/-! ## Cutting a text -/

/-- A text is cut into the words of a form and the characters between them: from left to right, and
each word as long as it can be. -/
inductive Cut (form : List Char → Prop) : List Char → List Piece → Prop where
  | nil : Cut form [] []
  | word {word rest : List Char} {pieces : List Piece} :
      form word → (∀ longer, longer <+: word ++ rest → form longer → longer.length ≤ word.length) →
      Cut form rest pieces → Cut form (word ++ rest) (.word word :: pieces)
  | plain {c : Char} {text : List Char} {pieces : List Piece} :
      (∀ word, word <+: c :: text → ¬ form word) →
      Cut form text pieces → Cut form (c :: text) (.plain c :: pieces)

namespace Pattern.TakesForm

variable {pattern : Pattern} {form : List Char → Prop}

theorem length_le_of_take? (takes : pattern.TakesForm form) {text word rest longer : List Char}
    (taken : pattern.take? text = some (word, rest)) (front : longer <+: text)
    (isForm : form longer) : longer.length ≤ word.length := by
  obtain ⟨digits, behind, whole⟩ := takes.exists_take?_of_prefix front isForm
  rw [taken] at whole
  cases whole
  rw [List.length_append]
  exact Nat.le_add_right _ _

theorem take?_of_longest (takes : pattern.TakesForm form) {word rest : List Char}
    (isForm : form word)
    (longest : ∀ longer, longer <+: word ++ rest → form longer → longer.length ≤ word.length) :
    pattern.take? (word ++ rest) = some (word, rest) := by
  refine takes.take?_eq_some_iff.mpr ⟨rfl, isForm, ?_⟩
  cases rest with
  | nil => exact endsNumber_nil
  | cons c rest =>
      rw [endsNumber_cons, ← Bool.not_eq_true]
      intro digit
      have longer := takes.append_digits isForm (List.forall_mem_singleton.mpr digit)
      have bound := longest (word ++ [c]) ⟨rest, by simp⟩ longer
      rw [List.length_append, List.length_singleton] at bound
      omega

/-- A pattern cuts a text at the words of its form, and there is no other way to do it. -/
theorem cut_iff (takes : pattern.TakesForm form) {text : List Char} {pieces : List Piece} :
    Cut form text pieces ↔ pieces = pattern.pieces text := by
  constructor
  · intro cut
    induction cut with
    | nil => exact (pieces_nil pattern).symm
    | word isForm longest _ ih =>
        rw [pieces_of_take?_eq_some (takes.take?_of_longest isForm longest), ih]
    | plain nowhere _ ih =>
        rw [pieces_of_take?_eq_none (takes.take?_eq_none_iff.mpr nowhere), ih]
  · rintro rfl
    fun_induction pieces pattern text with
    | case1 => exact .nil
    | case2 c text word rest taken ih =>
        have longest : ∀ longer, longer <+: c :: text → form longer → longer.length ≤ word.length :=
          fun _ => takes.length_le_of_take? taken
        obtain ⟨whole, isForm, -⟩ := takes.take?_eq_some_iff.mp taken
        rw [whole] at longest ⊢
        exact .word isForm longest ih
    | case3 c text nothing ih => exact .plain (takes.take?_eq_none_iff.mp nothing) ih

end Pattern.TakesForm

/-! ## One label -/

/-- Pieces with letters for their identifiers, when some have been met before. An identifier is met
in its turn and then written as the letter in its place among the different ones, by first
occurrence. It stays as it is if there are not so many letters. -/
def inLetters (met : List String) : List Piece → List Char
  | [] => []
  | .plain c :: rest => c :: inLetters met rest
  | .word characters :: rest =>
    let identifier := String.ofList characters
    (letterIn (met ++ [identifier]) identifier).elim characters ([·]) ++
      inLetters (met ++ [identifier]) rest

def withoutNumber : Piece → List Char
  | .word _ => ['E']
  | .plain c => [c]

/-- A label is rewritten: its identifiers become letters, and then the numbered relations in it lose
their numbers. All identifiers of the label have been met afterwards. -/
inductive RewritesLabel (met : List String) (label : String) : List String → String → Prop where
  | intro {pieces pieces' : List Piece} :
      Cut IsIdentifier label.toList pieces →
      Cut IsNumberedRelation (inLetters met pieces) pieces' →
      RewritesLabel met label (met ++ pieces.flatMap Piece.names)
        (String.ofList (pieces'.flatMap withoutNumber))

/-- The letter of an identifier does not depend on what is met later. -/
theorem inLetters_eq (met more : List String) (pieces : List Piece) :
    inLetters met pieces =
      pieces.flatMap (shownIn (met ++ pieces.flatMap Piece.names ++ more)) := by
  induction pieces generalizing met with
  | nil => rfl
  | cons piece rest ih =>
      cases piece with
      | plain c => exact congrArg (c :: ·) (ih met)
      | word characters =>
          have letter : letterIn (met ++ (Piece.word characters :: rest).flatMap Piece.names ++ more)
              (String.ofList characters) =
                letterIn (met ++ [String.ofList characters]) (String.ofList characters) := by
            rw [← append_names_word, List.append_assoc]
            exact letterIn_append_of_mem (List.mem_append_right met (List.mem_singleton_self _)) _
          have shown : ∀ letter : Option Char,
              letter.elim characters ([·]) = shownAs characters letter := by
            rintro (_ | letter) <;> rfl
          rw [inLetters, ih, append_names_word, shown, ← letter]
          rfl

theorem rewritesLabel_iff {met met' : List String} {label label' : String} (more : List String) :
    RewritesLabel met label met' label' ↔
      met' = met ++ identifiersIn label.toList ∧ label' = canonicalLabel (met' ++ more) label := by
  have simplified : withoutNumber = simplifyPiece := by
    funext piece
    cases piece <;> rfl
  have renamed : inLetters met (identifiers.pieces label.toList) =
      renameIn (met ++ identifiersIn label.toList ++ more) label.toList :=
    inLetters_eq met more (identifiers.pieces label.toList)
  constructor
  · rintro ⟨cut, cut'⟩
    rw [identifiers_takesForm.cut_iff] at cut
    rw [numberedRelations_takesForm.cut_iff] at cut'
    subst cut cut'
    rw [simplified, renamed]
    exact ⟨rfl, rfl⟩
  · rintro ⟨rfl, rfl⟩
    rw [canonicalLabel, ← renamed, simplifyIn, ← simplified]
    exact .intro (identifiers_takesForm.cut_iff.mpr rfl) (numberedRelations_takesForm.cut_iff.mpr rfl)

/-! ## Terms and formulas -/

/-- A term is rewritten if its label is. A placeholder has none. -/
inductive Term.Rewrites : List String → Term → List String → Term → Prop where
  | var {met met' : List String} {name name' : String} :
      RewritesLabel met name met' name' → Rewrites met (.var name) met' (.var name')
  | placeholder {met : List String} : Rewrites met .placeholder met .placeholder

/-- A formula is rewritten label by label, in printing order: the relation of an atom before its
arguments, a bound variable before its body, and left before right. -/
inductive Formula.Rewrites : List String → Formula → List String → Formula → Prop where
  | atom {met met₁ met₂ met₃ : List String} {relation relation' : String}
      {first first' second second' : Term} :
      RewritesLabel met relation met₁ relation' → Term.Rewrites met₁ first met₂ first' →
      Term.Rewrites met₂ second met₃ second' →
      Rewrites met (.atom relation ⟨first, second⟩) met₃ (.atom relation' ⟨first', second'⟩)
  | negation {met met' : List String} {inner inner' : Formula} :
      Rewrites met inner met' inner' → Rewrites met (.negation inner) met' (.negation inner')
  | binary {met met₁ met₂ : List String} {connective : Connective}
      {left left' right right' : Formula} :
      Rewrites met left met₁ left' → Rewrites met₁ right met₂ right' →
      Rewrites met (.binary connective left right) met₂ (.binary connective left' right')
  | quantified {met met₁ met₂ : List String} {quantifier : Quantifier} {bound bound' : String}
      {body body' : Formula} :
      RewritesLabel met bound met₁ bound' → Rewrites met₁ body met₂ body' →
      Rewrites met (.quantified quantifier bound body) met₂ (.quantified quantifier bound' body')
  | leaf {met met' : List String} {label label' : String} :
      RewritesLabel met label met' label' → Rewrites met (.leaf label) met' (.leaf label')

def Term.named : Term → List String
  | .var name => identifiersIn name.toList
  | .placeholder => []

theorem Term.rewrites_iff {met met' : List String} {term term' : Term} (more : List String) :
    Rewrites met term met' term' ↔
      met' = met ++ term.named ∧ term' = term.mapLabel (canonicalLabel (met' ++ more)) := by
  constructor
  · rintro (rewrites | _)
    · obtain ⟨known, rfl⟩ := (rewritesLabel_iff more).mp rewrites
      exact ⟨known, rfl⟩
    · exact ⟨(List.append_nil met).symm, rfl⟩
  · rintro ⟨rfl, rfl⟩
    cases term with
    | var name => exact .var ((rewritesLabel_iff more).mpr ⟨rfl, rfl⟩)
    | placeholder =>
        rw [named, List.append_nil]
        exact .placeholder

namespace Formula

section

variable (relation bound label : String) (arguments : Arguments) (connective : Connective)
  (quantifier : Quantifier) (left right inner : Formula)

theorem named_atom : (atom relation arguments).named =
    identifiersIn relation.toList ++ (arguments.first.named ++ arguments.second.named) := by
  obtain ⟨first, second⟩ := arguments
  cases first <;> cases second <;> simp [named, labels_atom, Term.token, Term.named]

theorem named_negation : (negation inner).named = inner.named := by
  rw [named, labels_negation, named]

theorem named_binary : (binary connective left right).named = left.named ++ right.named := by
  rw [named, labels_binary, List.flatMap_append, named, named]

theorem named_quantified :
    (quantified quantifier bound inner).named = identifiersIn bound.toList ++ inner.named := by
  rw [named, labels_quantified, List.flatMap_cons, named]

theorem named_leaf : (leaf label).named = identifiersIn label.toList :=
  List.append_nil _

end

/-- What a formula is rewritten into: every label gets the letters of all identifiers that are met
in the end, and these may be `more` than those of the formula. -/
theorem Rewrites.eq {met met' : List String} {formula formula' : Formula}
    (h : Rewrites met formula met' formula') (more : List String) :
    met' = met ++ formula.named ∧
      formula' = formula.mapLabels (canonicalLabel (met' ++ more)) := by
  induction h generalizing more with
  | @atom _ _ _ _ relation _ first _ second _ onRelation onFirst onSecond =>
      -- for each label the identifiers behind it count as `more`
      obtain ⟨rfl, rfl⟩ := (rewritesLabel_iff (first.named ++ second.named ++ more)).mp onRelation
      obtain ⟨rfl, rfl⟩ := (Term.rewrites_iff (second.named ++ more)).mp onFirst
      obtain ⟨rfl, rfl⟩ := (Term.rewrites_iff more).mp onSecond
      rw [named_atom, mapLabels]
      simp only [List.append_assoc, and_self]
  | negation _ ih =>
      rw [named_negation, mapLabels, ← (ih more).2]
      exact ⟨(ih more).1, rfl⟩
  | @binary _ _ _ _ left _ right _ _ _ ih ih' =>
      obtain ⟨rfl, rfl⟩ := ih (right.named ++ more)
      obtain ⟨rfl, rfl⟩ := ih' more
      rw [named_binary, mapLabels]
      simp only [List.append_assoc, and_self]
  | @quantified _ _ _ _ bound _ body _ onBound _ ih =>
      obtain ⟨rfl, rfl⟩ := (rewritesLabel_iff (body.named ++ more)).mp onBound
      obtain ⟨rfl, rfl⟩ := ih more
      rw [named_quantified, mapLabels]
      simp only [List.append_assoc, and_self]
  | leaf onLabel =>
      obtain ⟨rfl, rfl⟩ := (rewritesLabel_iff more).mp onLabel
      rw [named_leaf, mapLabels]
      exact ⟨rfl, rfl⟩

theorem rewrites_mapLabels (met : List String) (formula : Formula) (more : List String) :
    Rewrites met formula (met ++ formula.named)
      (formula.mapLabels (canonicalLabel (met ++ formula.named ++ more))) := by
  induction formula generalizing met more with
  | atom relation arguments =>
      obtain ⟨first, second⟩ := arguments
      rw [named_atom, mapLabels]
      refine .atom ((rewritesLabel_iff (first.named ++ second.named ++ more)).mpr ⟨rfl, ?_⟩)
        ((Term.rewrites_iff (second.named ++ more)).mpr ⟨rfl, ?_⟩)
        ((Term.rewrites_iff more).mpr ⟨?_, rfl⟩)
      all_goals simp only [List.append_assoc]
  | negation inner ih =>
      rw [named_negation, mapLabels]
      exact .negation (ih met more)
  | binary connective left right ih ih' =>
      -- on the left what is met on the right counts as `more`
      have onLeft := ih met (right.named ++ more)
      have onRight := ih' (met ++ left.named) more
      rw [named_binary, mapLabels]
      simp only [List.append_assoc] at onLeft onRight ⊢
      exact .binary onLeft onRight
  | quantified quantifier bound body ih =>
      have onBody := ih (met ++ identifiersIn bound.toList) more
      rw [named_quantified, mapLabels]
      simp only [List.append_assoc] at onBody ⊢
      exact .quantified ((rewritesLabel_iff (body.named ++ more)).mpr ⟨rfl, by simp⟩) onBody
  | leaf label =>
      rw [named_leaf, mapLabels]
      exact .leaf ((rewritesLabel_iff more).mpr ⟨rfl, rfl⟩)

/-- A formula is rewritten in one way only, and renaming and simplifying its text gives the text of
the rewritten formula. -/
theorem exists_rewritten_print (formula : Formula) :
    ∃ rewritten met, (∀ other met', Rewrites [] formula met' other ↔
        other = rewritten ∧ met' = met) ∧
      simplifyRelations (renameVariables formula.print).value = rewritten.print := by
  have rewrites := rewrites_mapLabels [] formula []
  rw [List.append_nil, List.nil_append] at rewrites
  refine ⟨formula.canonical, formula.named, ?_, formula.simplifyRelations_renameVariables_print⟩
  intro other met'
  constructor
  · intro rewrites'
    obtain ⟨rfl, rfl⟩ := rewrites'.eq []
    rw [List.append_nil, List.nil_append]
    exact ⟨rfl, rfl⟩
  · rintro ⟨rfl, rfl⟩
    exact rewrites

end Formula

end FormulaExport
