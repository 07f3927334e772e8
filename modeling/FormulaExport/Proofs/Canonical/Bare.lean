import FormulaExport.Canonical.Text
import FormulaExport.Proofs.Formula.Correspondence

/-!
# Bare texts

A text is **bare** if no opening parenthesis stands in front of a quantifier. Collapsing the
quantifications of a text drops some such parentheses, so it does not change what is left when all
of them are dropped (`bare_collapse`). For a formula with plain labels, that is its printed form
without the parentheses around what begins with a quantifier (`Formula.bare_characters`).
-/

set_option autoImplicit false

namespace FormulaExport

def beginsWithQuantifier : List Char → Bool
  | c :: _ => c == '∀' || c == '∃'
  | [] => false

/-- Drops every opening parenthesis in front of a quantifier, from right to left. -/
def bare : List Char → List Char
  | [] => []
  | c :: text =>
    if c = '(' ∧ beginsWithQuantifier (bare text) then bare text else c :: bare text

theorem bare_cons_of_ne {c : Char} (h : c ≠ '(') (text : List Char) :
    bare (c :: text) = c :: bare text := by
  rw [bare, if_neg fun both => h both.1]

theorem bare_cons_congr (c : Char) {text text' : List Char} (h : bare text = bare text') :
    bare (c :: text) = bare (c :: text') := by
  rw [bare, bare, h]

/-! ## Collapsing -/

theorem bare_parenthesized {sign letter dot : Char} (h : beginsQuantification sign letter dot = true)
    (rest : List Char) :
    bare ('(' :: sign :: letter :: dot :: '(' :: rest) =
      bare (sign :: letter :: dot :: '(' :: rest) := by
  rw [beginsQuantification, Bool.and_eq_true, Bool.and_eq_true, Bool.or_eq_true, beq_iff_eq,
    beq_iff_eq] at h
  have notOpening : sign ≠ '(' := by
    rcases h.1.1 with rfl | rfl <;> decide
  have quantifier : beginsWithQuantifier (bare (sign :: letter :: dot :: '(' :: rest)) = true := by
    rw [bare_cons_of_ne notOpening, beginsWithQuantifier]
    rcases h.1.1 with rfl | rfl <;> rfl
  rw [bare, if_pos ⟨rfl, quantifier⟩]

theorem bare_collapseRound (text : List Char) : bare (collapseRound text) = bare text := by
  fun_induction collapseRound text with
  | case1 sign letter dot rest quantification ih =>
      rw [bare_parenthesized quantification]
      have behind := bare_cons_congr '(' ih
      exact bare_cons_congr sign (bare_cons_congr letter (bare_cons_congr dot behind))
  | case2 sign letter dot rest _ ih => exact bare_cons_congr '(' ih
  | case3 c rest _ ih => exact bare_cons_congr c ih
  | case4 => rfl

/-- Collapsing does not change the bare text. -/
theorem bare_collapse (text : List Char) : bare (collapse text) = bare text := by
  fun_induction collapse text with
  | case1 text _ ih => rw [ih, bare_collapseRound]
  | case2 text _ => rfl

/-! ## Formulas with plain labels -/

/-- A character of a label that is not special. -/
def isPlainChar (c : Char) : Bool :=
  !List.contains ['(', ')', ',', '.', ' ', '¬', '∀', '∃', '→', '∧', '∨'] c

/-- A label is plain if it is not empty and has no special characters. -/
def IsPlain (label : String) : Prop :=
  label.toList ≠ [] ∧ ∀ c ∈ label.toList, isPlainChar c = true

theorem isPlain_iff {label : String} :
    label.toList ≠ [] ∧ label.toList.all isPlainChar = true ↔ IsPlain label :=
  and_congr_right' List.all_eq_true

instance : DecidablePred IsPlain := fun _ => decidable_of_iff _ isPlain_iff

namespace Formula

/-- No variable of an atom looks like a placeholder. -/
def HasProperTerms : Formula → Prop
  | atom _ arguments =>
    arguments.first ≠ .var placeholderMark ∧ arguments.second ≠ .var placeholderMark
  | negation inner => inner.HasProperTerms
  | binary _ left right => left.HasProperTerms ∧ right.HasProperTerms
  | quantified _ _ body => body.HasProperTerms
  | leaf _ => True

/-- A change of labels that makes no placeholders keeps the variables proper. -/
theorem HasProperTerms.mapLabels {formula : Formula} {relation name : String → Prop}
    {change : String → String} (h : formula.HasProperTerms)
    (labelled : formula.Labelled relation name)
    (keeps : ∀ label, name label → label ≠ placeholderMark → change label ≠ placeholderMark) :
    (formula.mapLabels change).HasProperTerms := by
  have ofTerm : ∀ term : Term, term ≠ .var placeholderMark → term.Named name →
      term.mapLabel change ≠ .var placeholderMark := by
    rintro (label | _) proper isNamed same
    · refine keeps label isNamed ?_ (Term.var.inj same)
      rintro rfl
      exact proper rfl
    · cases same
  induction formula with
  | atom label arguments => exact ⟨ofTerm _ h.1 labelled.2.1, ofTerm _ h.2 labelled.2.2⟩
  | negation inner ih => exact ih h labelled
  | binary connective left right ih ih' => exact ⟨ih h.1 labelled.1, ih' h.2 labelled.2⟩
  | quantified quantifier bound body ih => exact ih h labelled.2
  | leaf label => trivial

/-- Whether the bare text of a formula begins with a quantifier. -/
def opensWithQuantifier : Formula → Bool
  | quantified _ _ _ => true
  | binary _ left _ => left.opensWithQuantifier
  | _ => false

/-- The parenthesis that the bare text has in front of a formula. -/
def parenthesis (formula : Formula) : List Char :=
  if formula.opensWithQuantifier then [] else ['(']

def bareText : Formula → List Char
  | atom relation arguments => atomCharacters relation arguments
  | negation inner => '¬' :: (inner.parenthesis ++ (inner.bareText ++ [')']))
  | binary connective left right =>
    left.parenthesis ++ (left.bareText ++ ' ' :: connective.sign :: ' ' :: (right.bareText ++ [')']))
  | quantified quantifier bound body =>
    quantificationCharacters quantifier bound ++
      '.' :: (body.parenthesis ++ (body.bareText ++ [')']))
  | leaf label => label.toList

end Formula

theorem ne_of_isPlainChar {c : Char} (h : isPlainChar c = true) :
    c ≠ '(' ∧ c ≠ ')' ∧ c ≠ '∀' ∧ c ≠ '∃' := by
  refine ⟨?_, ?_, ?_, ?_⟩
  all_goals
    rintro rfl
    exact absurd h (by decide)

theorem bare_plain_append {text : List Char} (h : ∀ c ∈ text, isPlainChar c = true)
    (rest : List Char) : bare (text ++ rest) = text ++ bare rest := by
  induction text with
  | nil => rfl
  | cons c text ih =>
      obtain ⟨notOpening, -⟩ := ne_of_isPlainChar (h c List.mem_cons_self)
      rw [List.cons_append, bare_cons_of_ne notOpening, List.cons_append,
        ih fun d inside => h d (List.mem_cons_of_mem _ inside)]

theorem beginsWithQuantifier_plain {text : List Char} (nonempty : text ≠ [])
    (h : ∀ c ∈ text, isPlainChar c = true) (rest : List Char) :
    beginsWithQuantifier (text ++ rest) = false := by
  cases text with
  | nil => exact absurd rfl nonempty
  | cons c text =>
      obtain ⟨-, -, notAll, notSome⟩ := ne_of_isPlainChar (h c List.mem_cons_self)
      rw [List.cons_append, beginsWithQuantifier, Bool.or_eq_false_iff]
      exact ⟨beq_eq_false_iff_ne.mpr notAll, beq_eq_false_iff_ne.mpr notSome⟩

theorem plain_characters {term : Term} (h : term.Named IsPlain) :
    term.characters ≠ [] ∧ ∀ c ∈ term.characters, isPlainChar c = true := by
  cases term with
  | var name => exact h
  | placeholder => exact ⟨by decide, List.all_eq_true.mp (by decide)⟩

namespace Formula

theorem beginsWithQuantifier_bareText {formula : Formula} (plain : formula.Labelled IsPlain IsPlain)
    (rest : List Char) :
    beginsWithQuantifier (formula.bareText ++ rest) = formula.opensWithQuantifier := by
  induction formula generalizing rest with
  | atom relation arguments =>
      rw [bareText, atomCharacters, List.append_assoc]
      show beginsWithQuantifier (relation.toList ++ _) = false
      exact beginsWithQuantifier_plain plain.1.1 plain.1.2 _
  | negation inner ih => rfl
  | binary connective left right ih ih' =>
      rw [bareText, opensWithQuantifier, parenthesis, List.append_assoc, List.append_assoc]
      cases opens : left.opensWithQuantifier with
      | true => rw [if_pos rfl, List.nil_append, ih plain.1, opens]
      | false => rfl
  | quantified quantifier bound body ih => cases quantifier <;> rfl
  | leaf label =>
      exact beginsWithQuantifier_plain plain.1 plain.2 _

/-- A formula keeps the parenthesis in front of it unless a quantifier follows. -/
theorem bare_parenthesis {formula : Formula} (plain : formula.Labelled IsPlain IsPlain)
    {text rest : List Char} (h : bare text = formula.bareText ++ rest) :
    bare ('(' :: text) = formula.parenthesis ++ (formula.bareText ++ rest) := by
  rw [bare, h, beginsWithQuantifier_bareText plain, parenthesis]
  cases formula.opensWithQuantifier <;> rfl

theorem bare_atomCharacters_append {relation : String} {arguments : Arguments}
    (plain : (atom relation arguments).Labelled IsPlain IsPlain) (rest : List Char) :
    bare (atomCharacters relation arguments ++ rest) =
      atomCharacters relation arguments ++ bare rest := by
  obtain ⟨nonempty, first⟩ := plain_characters plain.2.1
  obtain ⟨-, second⟩ := plain_characters plain.2.2
  have behind : bare (arguments.first.characters ++ ',' :: ' ' ::
      (arguments.second.characters ++ ')' :: rest)) =
        arguments.first.characters ++ ',' :: ' ' ::
          (arguments.second.characters ++ ')' :: bare rest) := by
    rw [bare_plain_append first, bare_cons_of_ne (by decide), bare_cons_of_ne (by decide),
      bare_plain_append second, bare_cons_of_ne (by decide)]
  have noQuantifier := beginsWithQuantifier_plain nonempty first
  simp only [atomCharacters, List.append_assoc, List.cons_append, List.nil_append]
  rw [bare_plain_append plain.1.2, bare, behind, if_neg]
  rintro ⟨-, quantifier⟩
  exact Bool.false_ne_true ((noQuantifier _).symm.trans quantifier)

theorem bare_characters_append {formula : Formula} (plain : formula.Labelled IsPlain IsPlain)
    (rest : List Char) : bare (formula.characters ++ rest) = formula.bareText ++ bare rest := by
  induction formula generalizing rest with
  | atom relation arguments => exact bare_atomCharacters_append plain rest
  | negation inner ih =>
      rw [characters, bareText, negationSign]
      simp only [List.append_assoc, List.cons_append, List.nil_append]
      have plain' : inner.Labelled IsPlain IsPlain := plain
      -- the closing parenthesis is kept, so only the opening one is in question
      have below := ih plain' (')' :: rest)
      rw [bare_cons_of_ne (by decide : ')' ≠ '(')] at below
      rw [bare_cons_of_ne (by decide), bare_parenthesis plain' below]
  | binary connective left right ih ih' =>
      rw [characters, bareText]
      simp only [List.append_assoc, List.cons_append, List.nil_append]
      have signs : connective.sign ≠ '(' := by cases connective <;> decide
      have onLeft := ih plain.1 (' ' :: connective.sign :: ' ' :: (right.characters ++ ')' :: rest))
      rw [bare_cons_of_ne (by decide : ' ' ≠ '('), bare_cons_of_ne signs,
        bare_cons_of_ne (by decide : ' ' ≠ '('), ih' plain.2,
        bare_cons_of_ne (by decide : ')' ≠ '(')] at onLeft
      exact bare_parenthesis plain.1 onLeft
  | quantified quantifier bound body ih =>
      rw [characters, bareText, quantificationCharacters]
      simp only [List.append_assoc, List.cons_append, List.nil_append]
      have signs : quantifier.sign ≠ '(' := by cases quantifier <;> decide
      have below := ih plain.2 (')' :: rest)
      rw [bare_cons_of_ne (by decide : ')' ≠ '(')] at below
      rw [bare_cons_of_ne signs, bare_plain_append plain.1.2, bare_cons_of_ne (by decide),
        bare_parenthesis plain.2 below]
  | leaf label => exact bare_plain_append plain.2 rest

/-- The bare text of the printed form is the bare text of the formula. -/
theorem bare_characters {formula : Formula} (plain : formula.Labelled IsPlain IsPlain) :
    bare formula.characters = formula.bareText := by
  have whole := bare_characters_append plain []
  rwa [List.append_nil, bare, List.append_nil] at whole

end Formula

end FormulaExport
