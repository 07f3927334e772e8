import FormulaExport.Proofs.Canonical.Bare
import FormulaExport.Proofs.Text.Run

/-!
# Reading a bare text back

A bare text has fewer opening than closing parentheses, so it cannot be read from the left by
counting them. Read from right to left it can: behind a closing parenthesis stands the last formula
or variable inside, and what stands in front of that says what it is the last part of. So a formula
with plain labels is known from its bare text (`Formula.eq_of_bareText_eq`), and so from its printed
form before and after collapsing (`Formula.collapseQuantifiers_print_inj`).
-/

set_option autoImplicit false

namespace FormulaExport

/-! ## Reading from right to left -/

def Connective.ofSign? : Char → Option Connective
  | '→' => some .implication
  | '∧' => some .conjunction
  | '∨' => some .disjunction
  | _ => none

def Quantifier.ofSign? : Char → Option Quantifier
  | '∀' => some .universal
  | '∃' => some .existential
  | _ => none

/-- The label at the end of a text, which is given from right to left. -/
def labelBack (text : List Char) : String :=
  String.ofList (text.takeWhile isPlainChar).reverse

/-- What stands in front of the label at the end of a text. -/
def frontOfLabel (text : List Char) : List Char :=
  text.dropWhile isPlainChar

/-- What stands in front of a formula and its parenthesis, if it has one. -/
def frontOf (formula : Formula) (front : List Char) : List Char :=
  if formula.opensWithQuantifier then front else front.tail

/-- The atom whose second argument has been read, from what stands in front of the comma. -/
def atomBack? (last : Formula) (front : List Char) : Option (Formula × List Char) :=
  match last, frontOfLabel front with
  | .leaf second, '(' :: rest =>
    some (.atom (labelBack rest) ⟨.ofLabel (labelBack front), .ofLabel second⟩, frontOfLabel rest)
  | _, _ => none

/-- The negation or quantification of a formula, from what stands in front of its parenthesis. -/
def unaryBack? (last : Formula) : List Char → Option (Formula × List Char)
  | '¬' :: front => some (.negation last, front)
  | '.' :: front =>
    match frontOfLabel front with
    | sign :: rest =>
      (Quantifier.ofSign? sign).map fun quantifier =>
        (.quantified quantifier (labelBack front) last, rest)
    | [] => none
  | _ => none

/-- The formula around one that has been read, from what stands in front of that one. The left side
of a connective still has to be read. -/
def aroundBack? (read? : List Char → Option (Formula × List Char)) (last : Formula) :
    List Char → Option (Formula × List Char)
  | ' ' :: ',' :: front => atomBack? last front
  | ' ' :: sign :: ' ' :: front =>
    (Connective.ofSign? sign).bind fun connective =>
      (read? front).map fun (left, rest) => (.binary connective left last, frontOf left rest)
  | front => unaryBack? last (frontOf last front)

/-- Reads a formula at the end of a bare text, as long as no branch has more nodes than a limit. The
answer is the formula and what stands in front of it. -/
def readBack? : Nat → List Char → Option (Formula × List Char)
  | 0, _ => none
  | limit + 1, ')' :: text =>
    (readBack? limit text).bind fun (last, front) => aroundBack? (readBack? limit) last front
  | _ + 1, text => some (.leaf (labelBack text), frontOfLabel text)

/-! ## Labels -/

/-- A text ends a label behind it if it does not end in a plain character. It is given from right to
left. -/
def EndsLabel (text : List Char) : Prop := ∀ c ∈ text.head?, isPlainChar c = false

theorem endsLabel_cons {c : Char} {text : List Char} :
    EndsLabel (c :: text) ↔ isPlainChar c = false := by
  simp [EndsLabel]

theorem back_label {label : List Char} (plain : ∀ c ∈ label, isPlainChar c = true)
    {front : List Char} (ends : EndsLabel front) :
    labelBack (label.reverse ++ front) = String.ofList label ∧
      frontOfLabel (label.reverse ++ front) = front := by
  have plain' : ∀ c ∈ label.reverse, isPlainChar c = true := fun c inside =>
    plain c (List.mem_reverse.mp inside)
  obtain ⟨taken, left⟩ := Text.takeWhile_run plain' ends
  rw [labelBack, frontOfLabel, taken, left, List.reverse_reverse]
  exact ⟨rfl, rfl⟩

theorem readBack?_label {label : List Char} (nonempty : label ≠ [])
    (plain : ∀ c ∈ label, isPlainChar c = true) (front : List Char) (ends : EndsLabel front)
    (limit : Nat) :
    readBack? (limit + 1) (label.reverse ++ front) = some (.leaf (String.ofList label), front) := by
  obtain ⟨back, before⟩ := back_label plain ends
  cases reversed : label.reverse with
  | nil => exact absurd (List.reverse_eq_nil_iff.mp reversed) nonempty
  | cons c rest =>
      have isPlain := plain c (List.mem_reverse.mp (reversed ▸ List.mem_cons_self))
      obtain ⟨-, notClosing, -⟩ := ne_of_isPlainChar isPlain
      rw [reversed] at back before
      rw [List.cons_append] at back before ⊢
      rw [readBack?, back, before]
      intro text closing
      exact notClosing (List.cons.inj closing).1

theorem ofLabel_characters {term : Term} (proper : term ≠ .var placeholderMark) :
    Term.ofLabel (String.ofList term.characters) = term := by
  cases term with
  | var name =>
      rw [Term.characters, String.ofList_toList, Term.ofLabel, if_neg]
      rintro rfl
      exact proper rfl
  | placeholder => rfl

/-! ## Formulas -/

namespace Formula

theorem frontOf_parenthesis (formula : Formula) (front : List Char) :
    frontOf formula (formula.parenthesis ++ front) = front := by
  unfold frontOf parenthesis
  cases formula.opensWithQuantifier <;> rfl

theorem reverse_parenthesis (formula : Formula) :
    formula.parenthesis.reverse = formula.parenthesis := by
  unfold parenthesis
  cases formula.opensWithQuantifier <;> rfl

theorem endsLabel_parenthesis (formula : Formula) {c : Char} (h : isPlainChar c = false)
    (front : List Char) : EndsLabel (formula.parenthesis ++ c :: front) := by
  unfold parenthesis
  cases formula.opensWithQuantifier
  · exact endsLabel_cons.mpr (by decide)
  · exact endsLabel_cons.mpr h

theorem aroundBack?_parenthesis (read? : List Char → Option (Formula × List Char))
    (last : Formula) {c : Char} (h : c ≠ ' ') (front : List Char) :
    aroundBack? read? last (last.parenthesis ++ c :: front) = unaryBack? last (c :: front) := by
  have whole := frontOf_parenthesis last (c :: front)
  have noSpace : ∀ rest, last.parenthesis ++ c :: front ≠ ' ' :: rest := by
    intro rest same
    unfold parenthesis at same
    cases opens : last.opensWithQuantifier with
    | true =>
        rw [opens] at same
        exact h (List.cons.inj same).1
    | false =>
        rw [opens] at same
        exact absurd (List.cons.inj same).1 (by decide)
  unfold aroundBack?
  split
  · next same => exact absurd same (noSpace _)
  · next same => exact absurd same (noSpace _)
  · rw [whole]

theorem aroundBack?_binary (read? : List Char → Option (Formula × List Char)) (last : Formula)
    (connective : Connective) (front : List Char) :
    aroundBack? read? last (' ' :: connective.sign :: ' ' :: front) =
      (read? front).map fun (left, rest) => (.binary connective left last, frontOf left rest) := by
  cases connective <;> rfl

theorem atomBack?_of_frontOfLabel {second : String} {front rest : List Char}
    (h : frontOfLabel front = '(' :: rest) :
    atomBack? (.leaf second) front =
      some (.atom (labelBack rest) ⟨.ofLabel (labelBack front), .ofLabel second⟩,
        frontOfLabel rest) := by
  unfold atomBack?
  rw [h]
  rfl

theorem unaryBack?_of_frontOfLabel (last : Formula) {quantifier : Quantifier}
    {front rest : List Char} (h : frontOfLabel front = quantifier.sign :: rest) :
    unaryBack? last ('.' :: front) = some (.quantified quantifier (labelBack front) last, rest) := by
  rw [unaryBack?, h]
  cases quantifier <;> rfl

theorem readBack?_closing {limit : Nat} {text front : List Char} {last : Formula}
    (h : readBack? limit text = some (last, front)) :
    readBack? (limit + 1) (')' :: text) = aroundBack? (readBack? limit) last front := by
  rw [readBack?, h]
  rfl

/-! ### One step for each kind of formula -/

section

variable {limit : Nat} {front : List Char}

theorem readBack?_atom {relation : String} {arguments : Arguments}
    (plain : (atom relation arguments).Labelled IsPlain IsPlain)
    (proper : (atom relation arguments).HasProperTerms) (ends : EndsLabel front) :
    readBack? (limit + 2) ((atom relation arguments).bareText.reverse ++ front) =
      some (atom relation arguments, front) := by
  have text : (atom relation arguments).bareText.reverse ++ front =
      ')' :: (arguments.second.characters.reverse ++ ' ' :: ',' ::
        (arguments.first.characters.reverse ++ '(' :: (relation.toList.reverse ++ front))) := by
    simp [bareText, atomCharacters]
  obtain ⟨-, first⟩ := plain_characters plain.2.1
  obtain ⟨nonempty, second⟩ := plain_characters plain.2.2
  -- the second argument is read as a leaf, and then the first one and the relation are labels
  have read := readBack?_label nonempty second (' ' :: ',' ::
    (arguments.first.characters.reverse ++ '(' :: (relation.toList.reverse ++ front)))
    (endsLabel_cons.mpr (by decide)) limit
  have behindFirst : EndsLabel ('(' :: (relation.toList.reverse ++ front)) :=
    endsLabel_cons.mpr (by decide)
  obtain ⟨back, before⟩ := back_label first behindFirst
  obtain ⟨back', before'⟩ := back_label plain.1.2 ends
  rw [text, readBack?_closing read]
  refine (atomBack?_of_frontOfLabel before).trans ?_
  rw [back, back', before', ofLabel_characters proper.1, ofLabel_characters proper.2,
    String.ofList_toList]

theorem readBack?_negation {inner : Formula}
    (read : readBack? limit (inner.bareText.reverse ++ (inner.parenthesis ++ '¬' :: front)) =
      some (inner, inner.parenthesis ++ '¬' :: front)) :
    readBack? (limit + 1) ((negation inner).bareText.reverse ++ front) =
      some (negation inner, front) := by
  have text : (negation inner).bareText.reverse ++ front =
      ')' :: (inner.bareText.reverse ++ (inner.parenthesis ++ '¬' :: front)) := by
    simp [bareText, reverse_parenthesis]
  rw [text, readBack?_closing read, aroundBack?_parenthesis _ _ (by decide), unaryBack?]

theorem readBack?_binary {connective : Connective} {left right : Formula}
    (onRight : readBack? limit (right.bareText.reverse ++ ' ' :: connective.sign :: ' ' ::
        (left.bareText.reverse ++ (left.parenthesis ++ front))) =
      some (right, ' ' :: connective.sign :: ' ' ::
        (left.bareText.reverse ++ (left.parenthesis ++ front))))
    (onLeft : readBack? limit (left.bareText.reverse ++ (left.parenthesis ++ front)) =
      some (left, left.parenthesis ++ front)) :
    readBack? (limit + 1) ((binary connective left right).bareText.reverse ++ front) =
      some (binary connective left right, front) := by
  have text : (binary connective left right).bareText.reverse ++ front =
      ')' :: (right.bareText.reverse ++ ' ' :: connective.sign :: ' ' ::
        (left.bareText.reverse ++ (left.parenthesis ++ front))) := by
    simp [bareText, reverse_parenthesis]
  rw [text, readBack?_closing onRight, aroundBack?_binary, onLeft]
  show some (binary connective left right, frontOf left (left.parenthesis ++ front)) = _
  rw [frontOf_parenthesis]

theorem readBack?_quantified {quantifier : Quantifier} {bound : String} {body : Formula}
    (plain : IsPlain bound)
    (read : readBack? limit (body.bareText.reverse ++ (body.parenthesis ++ '.' ::
        (bound.toList.reverse ++ quantifier.sign :: front))) =
      some (body, body.parenthesis ++ '.' ::
        (bound.toList.reverse ++ quantifier.sign :: front))) :
    readBack? (limit + 1) ((quantified quantifier bound body).bareText.reverse ++ front) =
      some (quantified quantifier bound body, front) := by
  have text : (quantified quantifier bound body).bareText.reverse ++ front =
      ')' :: (body.bareText.reverse ++ (body.parenthesis ++ '.' ::
        (bound.toList.reverse ++ quantifier.sign :: front))) := by
    simp [bareText, quantificationCharacters, reverse_parenthesis]
  have sign : EndsLabel (quantifier.sign :: front) := by
    cases quantifier <;> exact endsLabel_cons.mpr (by decide)
  obtain ⟨back, before⟩ := back_label plain.2 sign
  rw [text, readBack?_closing read, aroundBack?_parenthesis _ _ (by decide),
    unaryBack?_of_frontOfLabel _ before, back, String.ofList_toList]

end

/-- A formula is read from its bare text, whatever stands in front of it. -/
theorem readBack?_bareText {formula : Formula} (plain : formula.Labelled IsPlain IsPlain)
    (proper : formula.HasProperTerms) (front : List Char) (ends : EndsLabel front) {limit : Nat}
    (deep : formula.depth < limit) :
    readBack? limit (formula.bareText.reverse ++ front) = some (formula, front) := by
  -- each case needs one step, and an atom two: its second argument is read by itself
  induction formula generalizing limit front with
  | atom relation arguments =>
      obtain ⟨limit, rfl⟩ : ∃ limit', limit = limit' + 2 := ⟨limit - 2, by
        rw [depth] at deep
        omega⟩
      exact readBack?_atom plain proper ends
  | negation inner ih =>
      obtain ⟨limit, rfl⟩ : ∃ limit', limit = limit' + 1 := ⟨limit - 1, by omega⟩
      rw [depth] at deep
      apply readBack?_negation
      apply ih plain proper
      · exact endsLabel_parenthesis inner (by decide) front
      · omega
  | binary connective left right ih ih' =>
      obtain ⟨limit, rfl⟩ : ∃ limit', limit = limit' + 1 := ⟨limit - 1, by omega⟩
      rw [depth] at deep
      apply readBack?_binary
      · apply ih' plain.2 proper.2
        · exact endsLabel_cons.mpr (by decide)
        · omega
      · apply ih plain.1 proper.1
        · unfold parenthesis
          cases left.opensWithQuantifier
          · exact endsLabel_cons.mpr (by decide)
          · exact ends
        · omega
  | quantified quantifier bound body ih =>
      obtain ⟨limit, rfl⟩ : ∃ limit', limit = limit' + 1 := ⟨limit - 1, by omega⟩
      rw [depth] at deep
      apply readBack?_quantified plain.1
      apply ih plain.2 proper
      · exact endsLabel_parenthesis body (by decide) _
      · omega
  | leaf label =>
      obtain ⟨limit, rfl⟩ : ∃ limit', limit = limit' + 1 := ⟨limit - 1, by omega⟩
      have read := readBack?_label plain.1 plain.2 front ends limit
      rwa [String.ofList_toList] at read

theorem eq_of_bareText_eq {formula other : Formula} (plain : formula.Labelled IsPlain IsPlain)
    (plain' : other.Labelled IsPlain IsPlain) (proper : formula.HasProperTerms)
    (proper' : other.HasProperTerms) (h : formula.bareText = other.bareText) : formula = other := by
  have nothing : EndsLabel [] := nofun
  have read := readBack?_bareText plain proper [] nothing
    (Nat.lt_succ_of_le (Nat.le_max_left formula.depth other.depth))
  have read' := readBack?_bareText plain' proper' [] nothing
    (Nat.lt_succ_of_le (Nat.le_max_right formula.depth other.depth))
  rw [h, read'] at read
  exact (Prod.mk.inj (Option.some.inj read)).1.symm

/-! ## Unique readability -/

/-- A formula is **readable** if its labels are plain and no variable looks like a placeholder. -/
structure Readable (formula : Formula) : Prop where
  plain : formula.Labelled IsPlain IsPlain
  proper : formula.HasProperTerms

/-- A readable formula is known from its collapsed text. How many rounds of collapsing are made does
not matter, since none of them changes the bare text. -/
theorem Readable.eq_of_collapse_eq {formula other : Formula} (h : formula.Readable)
    (h' : other.Readable) (same : collapse formula.characters = collapse other.characters) :
    formula = other := by
  have bared : formula.bareText = other.bareText := by
    calc formula.bareText
        = bare (collapse formula.characters) := by rw [bare_collapse, bare_characters h.plain]
      _ = bare (collapse other.characters) := by rw [same]
      _ = other.bareText := by rw [bare_collapse, bare_characters h'.plain]
  exact eq_of_bareText_eq h.plain h'.plain h.proper h'.proper bared

/-- Two readable formulas have the same text only if they are the same, with and without the opening
parentheses in front of quantifications. -/
theorem collapseQuantifiers_print_inj {formula other : Formula} (h : formula.Readable)
    (h' : other.Readable) :
    (collapseQuantifiers formula.print = collapseQuantifiers other.print ↔ formula = other) ∧
      (formula.print = other.print ↔ formula = other) := by
  have known : collapseQuantifiers formula.print = collapseQuantifiers other.print →
      formula = other := by
    intro same
    rw [collapseQuantifiers, collapseQuantifiers, print, print, String.toList_ofList,
      String.toList_ofList] at same
    exact h.eq_of_collapse_eq h' (String.ofList_inj.mp same)
  constructor
  · exact ⟨known, fun same => by rw [same]⟩
  · exact ⟨fun same => known (by rw [same]), fun same => by rw [same]⟩

def implicationBelow : Formula :=
  quantified .universal "x" (binary .implication
    (quantified .existential "y" (atom "R" ⟨.var "x", .placeholder⟩)) (leaf "L"))

def implicationAbove : Formula :=
  binary .implication (quantified .universal "x"
    (quantified .existential "y" (atom "R" ⟨.var "x", .placeholder⟩))) (leaf "L")

/-- Collapsed, the two begin alike and have the same parentheses: what tells them apart is where the
closing ones stand. -/
theorem collapseQuantifiers_print_implication_ne :
    implicationBelow.Readable ∧ implicationAbove.Readable ∧
      collapseQuantifiers implicationBelow.print ≠ collapseQuantifiers implicationAbove.print := by
  have labels : IsPlain "R" ∧ IsPlain "x" ∧ IsPlain "y" ∧ IsPlain "L" := by decide
  obtain ⟨relation, bound, bound', label⟩ := labels
  have proper : Term.var "x" ≠ .var placeholderMark ∧ Term.placeholder ≠ .var placeholderMark := by
    decide
  have below : implicationBelow.Readable :=
    ⟨⟨bound, ⟨bound', relation, bound, trivial⟩, label⟩, proper, trivial⟩
  have above : implicationAbove.Readable :=
    ⟨⟨⟨bound, bound', relation, bound, trivial⟩, label⟩, proper, trivial⟩
  refine ⟨below, above, fun same => ?_⟩
  exact absurd ((collapseQuantifiers_print_inj below above).1.mp same) (by decide)

end Formula

end FormulaExport
