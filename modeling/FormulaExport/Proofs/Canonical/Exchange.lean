import FormulaExport.Proofs.Canonical.Rename
import FormulaExport.Proofs.Formula.Correspondence

/-!
# Exchanging names

The canonical form of a formula does not change if its identifiers are exchanged for others,
different ones for different ones, and relations that are shown as `E` for one another
(`Formula.Exchanged.canonical_eq`), as long as there are letters for all identifiers and no label
has an identifier in it without being one.
-/

set_option autoImplicit false

namespace FormulaExport

open FormulaExport.Text

/-! ## Labels with and without names -/

theorem FreeOf.not_form {form : List Char → Prop} {text : List Char} (h : FreeOf form text) :
    ¬ form text :=
  h text List.infix_rfl

theorem freeOf_isIdentifier_of_not_mem {text : List Char} (h : 'V' ∉ text) :
    FreeOf IsIdentifier text := by
  rintro word inside ⟨major, minor, -, -, rfl⟩
  exact h (inside.subset List.mem_cons_self)

theorem freeOf_isNumberedRelation_of_not_mem {text : List Char} (h : 'E' ∉ text) :
    FreeOf IsNumberedRelation text := by
  rintro word inside ⟨number, -, rfl⟩
  exact h (inside.subset List.mem_cons_self)

theorem freeOf_isNumberedRelation_singleton (c : Char) : FreeOf IsNumberedRelation [c] := by
  rintro word inside ⟨number, -, rfl⟩
  have short := inside.length_le
  simp at short

theorem identifiersIn_of_isIdentifier {text : List Char} (h : IsIdentifier text) :
    identifiersIn text = [String.ofList text] := by
  rw [identifiersIn, identifiers_takesForm.pieces_of_form h]
  rfl

theorem identifiersIn_of_freeOf {text : List Char} (h : FreeOf IsIdentifier text) :
    identifiersIn text = [] := by
  rw [identifiersIn, identifiers_takesForm.pieces_of_freeOf h, List.flatMap_map]
  exact List.flatMap_eq_nil_iff.mpr fun _ _ => rfl

theorem renameIn_of_freeOf (named : List String) {text : List Char}
    (h : FreeOf IsIdentifier text) : renameIn named text = text := by
  rw [renameIn, identifiers_takesForm.pieces_of_freeOf h, List.flatMap_map]
  exact List.flatMap_singleton' text

theorem renameIn_of_letterIn {named : List String} {text : List Char} (h : IsIdentifier text)
    {letter : Char} (known : letterIn named (String.ofList text) = some letter) :
    renameIn named text = [letter] := by
  rw [renameIn, identifiers_takesForm.pieces_of_form h, List.flatMap_singleton, shownIn, known]
  rfl

theorem simplifyIn_of_freeOf {text : List Char} (h : FreeOf IsNumberedRelation text) :
    simplifyIn text = text := by
  rw [simplifyIn, numberedRelations_takesForm.pieces_of_freeOf h, List.flatMap_map]
  exact List.flatMap_singleton' text

theorem simplifyIn_of_isNumberedRelation {text : List Char} (h : IsNumberedRelation text) :
    simplifyIn text = ['E'] := by
  rw [simplifyIn, numberedRelations_takesForm.pieces_of_form h]
  rfl

/-! ## Canonical labels -/

/-- A relation that is shown as `E`. -/
def IsERelation (label : String) : Prop :=
  label = "E" ∨ IsNumberedRelation label.toList

/-- A label is whole if it is an identifier or has none in it. -/
def IsWhole (label : String) : Prop :=
  IsIdentifier label.toList ∨ FreeOf IsIdentifier label.toList

instance : DecidablePred IsERelation := fun _ => inferInstanceAs (Decidable (_ ∨ _))

instance : DecidablePred IsWhole := fun _ => inferInstanceAs (Decidable (_ ∨ _))

theorem IsERelation.freeOf {label : String} (h : IsERelation label) :
    FreeOf IsIdentifier label.toList := by
  apply freeOf_isIdentifier_of_not_mem
  rcases h with rfl | isNumbered
  · decide
  · intro inside
    rcases isNumbered.mem inside with same | same | digit
    · exact absurd same (by decide)
    · exact absurd same (by decide)
    · exact absurd digit (by decide)

theorem canonicalLabel_of_freeOf (named : List String) {label : String}
    (h : FreeOf IsIdentifier label.toList) :
    canonicalLabel named label = String.ofList (simplifyIn label.toList) := by
  rw [canonicalLabel, renameIn_of_freeOf named h]

theorem canonicalLabel_of_isERelation (named : List String) {label : String}
    (h : IsERelation label) : canonicalLabel named label = "E" := by
  rw [canonicalLabel_of_freeOf named h.freeOf]
  rcases h with rfl | isNumbered
  · exact congrArg String.ofList (simplifyIn_of_freeOf (freeOf_isNumberedRelation_singleton 'E'))
  · rw [simplifyIn_of_isNumberedRelation isNumbered]

theorem canonicalLabel_of_letterIn {named : List String} {label : String}
    (h : IsIdentifier label.toList) {letter : Char} (known : letterIn named label = some letter) :
    canonicalLabel named label = String.ofList [letter] := by
  rw [canonicalLabel, renameIn_of_letterIn h (by rwa [String.ofList_toList]),
    simplifyIn_of_freeOf (freeOf_isNumberedRelation_singleton letter)]

/-! ## Exchange -/

/-- The label in the place of another if identifiers are exchanged. -/
def exchanged (exchange : String → String) (label : String) : String :=
  if IsIdentifier label.toList then exchange label else label

namespace Formula

/-- The identifiers among the labels of a formula, one for each occurrence. -/
def identifiers (formula : Formula) : List String :=
  formula.labels.filter fun label => IsIdentifier label.toList

/-- A formula is another one with identifiers exchanged, and relations that are shown as `E`
exchanged for one another. -/
def Exchanged (exchange : String → String) (formula other : Formula) : Prop :=
  formula.Corresponds
    (fun label label' => IsERelation label ∧ IsERelation label' ∨
      label' = exchanged exchange label)
    (fun label label' => label' = exchanged exchange label) other

variable {formula other : Formula} {exchange : String → String}

theorem named_eq_identifiers (whole : ∀ label ∈ formula.labels, IsWhole label) :
    formula.named = formula.identifiers := by
  unfold named identifiers
  generalize formula.labels = labels at whole
  induction labels with
  | nil => rfl
  | cons label labels ih =>
      have rest := ih fun other inside => whole other (List.mem_cons_of_mem _ inside)
      rw [List.flatMap_cons, rest]
      rcases whole label List.mem_cons_self with isIdentifier | free
      · rw [identifiersIn_of_isIdentifier isIdentifier, String.ofList_toList,
          List.filter_cons_of_pos (by exact decide_eq_true isIdentifier), List.singleton_append]
      · rw [identifiersIn_of_freeOf free, List.nil_append, List.filter_cons_of_neg]
        exact fun h => free.not_form (of_decide_eq_true h)

theorem Exchanged.named_eq (h : formula.Exchanged exchange other)
    (whole : ∀ label ∈ formula.labels, IsWhole label)
    (identifiers : ∀ identifier ∈ formula.identifiers, IsIdentifier (exchange identifier).toList) :
    other.named = formula.named.map exchange := by
  have related := h.labels
  unfold Formula.identifiers at identifiers
  unfold named
  generalize formula.labels = labels at whole identifiers related
  generalize other.labels = labels' at related
  induction related with
  | nil => rfl
  | @cons label label' labels labels' one rest ih =>
      have later := ih (fun other inside => whole other (List.mem_cons_of_mem _ inside))
        fun other inside => identifiers other
          (((List.sublist_cons_self label labels).filter _).subset inside)
      rw [List.flatMap_cons, List.flatMap_cons, List.map_append, later]
      congr 1
      -- a whole label has one identifier, itself, or none
      have exchange' : label' = exchanged exchange label →
          identifiersIn label'.toList = (identifiersIn label.toList).map exchange := by
        rintro rfl
        rcases whole label List.mem_cons_self with isIdentifier | free
        · have target := identifiers label
            (List.mem_filter.mpr ⟨List.mem_cons_self, decide_eq_true isIdentifier⟩)
          rw [exchanged, if_pos isIdentifier, identifiersIn_of_isIdentifier isIdentifier,
            identifiersIn_of_isIdentifier target, String.ofList_toList, String.ofList_toList]
          rfl
        · rw [exchanged, if_neg free.not_form, identifiersIn_of_freeOf free]
          rfl
      rcases one with (⟨isE, isE'⟩ | same) | same
      · rw [identifiersIn_of_freeOf isE.freeOf, identifiersIn_of_freeOf isE'.freeOf]
        rfl
      · exact exchange' same
      · exact exchange' same

/-- Exchanging names does not change the formula with canonical labels. -/
theorem Exchanged.canonical_eq (h : formula.Exchanged exchange other)
    (whole : ∀ label ∈ formula.labels, IsWhole label)
    (injective : Set.InjOn exchange {identifier | identifier ∈ formula.identifiers})
    (identifiers : ∀ identifier ∈ formula.identifiers, IsIdentifier (exchange identifier).toList)
    (enough : ∀ identifier ∈ formula.identifiers,
      ∃ letter, letterIn formula.identifiers identifier = some letter) :
    formula.canonical = other.canonical := by
  have named := named_eq_identifiers whole
  have exchangedNames := h.named_eq whole identifiers
  rw [named] at exchangedNames
  -- the letter of an identifier depends on where it first occurs, and that stays the same
  obtain ⟨-, letters⟩ := letterIn_map injective
  have names : ∀ label label', label' = exchanged exchange label → label ∈ formula.labels →
      canonicalLabel formula.named label = canonicalLabel other.named label' := by
    rintro label _ rfl inside
    rw [named, exchangedNames]
    rcases whole label inside with isIdentifier | free
    · have among : label ∈ formula.identifiers :=
        List.mem_filter.mpr ⟨inside, decide_eq_true isIdentifier⟩
      obtain ⟨letter, known⟩ := enough label among
      have known' := (letters label among).trans known
      rw [exchanged, if_pos isIdentifier, canonicalLabel_of_letterIn isIdentifier known,
        canonicalLabel_of_letterIn (identifiers label among) known']
    · rw [exchanged, if_neg free.not_form, canonicalLabel_of_freeOf _ free,
        canonicalLabel_of_freeOf _ free]
  refine mapLabels_eq_mapLabels_iff.mpr
    (h.imp formula.labelled_mem_labels other.labelled_mem_labels ?_ ?_)
  · rintro label label' (⟨isE, isE'⟩ | same) inside -
    · rw [canonicalLabel_of_isERelation _ isE, canonicalLabel_of_isERelation _ isE']
    · exact names label label' same inside
  · rintro label label' same inside -
    exact names label label' same inside

end Formula

end FormulaExport
