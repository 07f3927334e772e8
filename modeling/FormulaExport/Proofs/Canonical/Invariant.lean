import FormulaExport.Proofs.Canonical.Exchange
import FormulaExport.Proofs.Canonical.ReadBack

/-!
# What the canonical form tells about a formula

The canonical form of a formula with plain labels is read back as the formula with canonical labels.
If there are no more than 52 identifiers, no letter is taken for a label that has kept its name or
for a special character. Then the canonical labels in a place tell whether there are identifiers in
it, and which identifiers of the two formulas have the same letter. So two formulas have the same
canonical form **exactly if** one is the other with names exchanged.
-/

set_option autoImplicit false

namespace FormulaExport

/-! ## Labels that are told apart -/

/-- A label that looks like a letter: one of the first 52 of them. -/
def LooksLikeLetter (label : String) : Prop :=
  ∃ c, label.toList = [c] ∧ 0x78 ≤ c.toNat ∧ c.toNat ≤ 0xAB

/-- A label that keeps its name: there is no name to rewrite in it, and it does not look like a
letter. -/
def KeepsName (label : String) : Prop :=
  FreeOf IsIdentifier label.toList ∧ FreeOf IsNumberedRelation label.toList ∧
    ¬ LooksLikeLetter label

/-- A variable or a leaf of a regular formula: plain, and an identifier or a label that keeps its
name. -/
def IsRegularName (label : String) : Prop :=
  IsPlain label ∧ (IsIdentifier label.toList ∨ KeepsName label)

/-- A relation name of a regular formula: it may also be one that is shown as `E`. -/
def IsRegularRelation (label : String) : Prop :=
  IsPlain label ∧ (IsIdentifier label.toList ∨ IsERelation label ∨ KeepsName label)

/-- A **regular** formula has labels that are told apart, and no more than 52 identifiers. -/
structure Formula.Regular (formula : Formula) : Prop where
  labelled : formula.Labelled IsRegularRelation IsRegularName
  proper : formula.HasProperTerms
  few : formula.identifiers.eraseDups.length ≤ 52

theorem IsRegularName.isRegularRelation {label : String} (h : IsRegularName label) :
    IsRegularRelation label :=
  ⟨h.1, h.2.imp_right Or.inr⟩

theorem IsRegularRelation.isWhole {label : String} (h : IsRegularRelation label) :
    IsWhole label := by
  rcases h.2 with isIdentifier | isE | keeps
  · exact Or.inl isIdentifier
  · exact Or.inr isE.freeOf
  · exact Or.inr keeps.1

theorem IsRegularName.eq_of_isERelation {label : String} (h : IsRegularName label)
    (isE : IsERelation label) : label = "E" := by
  rcases h.2 with isIdentifier | keeps
  · exact absurd isIdentifier isE.freeOf.not_form
  · exact isE.resolve_right keeps.2.1.not_form

theorem canonicalLabel_of_keepsName (named : List String) {label : String} (h : KeepsName label) :
    canonicalLabel named label = label := by
  rw [canonicalLabel_of_freeOf named h.1, simplifyIn_of_freeOf h.2.1, String.ofList_toList]

/-- The first 52 letters are plain characters, and none of them is `E` or a placeholder. -/
theorem isPlainChar_of_letter {c : Char} (low : 0x78 ≤ c.toNat) (high : c.toNat ≤ 0xAB) :
    isPlainChar c = true ∧ c ≠ 'E' ∧ c ≠ '_' := by
  refine ⟨?_, ?_, ?_⟩
  · rw [isPlainChar, Bool.not_eq_true', List.contains_eq_mem, decide_eq_false_iff_not]
    intro special
    simp only [List.mem_cons, List.not_mem_nil, or_false] at special
    rcases special with rfl | rfl | rfl | rfl | rfl | rfl | rfl | rfl | rfl | rfl | rfl <;>
      revert low high <;> decide
  · rintro rfl
    revert low
    decide
  · rintro rfl
    revert low
    decide

/-- The **three ways** in which a label of a regular formula is shown. -/
inductive IsShownAs (named : List String) (label text : String) : Prop where
  | letter {letter : Char} : IsIdentifier label.toList → letterIn named label = some letter →
      0x78 ≤ letter.toNat → letter.toNat ≤ 0xAB → text.toList = [letter] →
      IsShownAs named label text
  | relation : IsERelation label → text = "E" → IsShownAs named label text
  | itself : KeepsName label → text = label → IsShownAs named label text

/-- Labels of two formulas are **alike** if they are identifiers with the same letter, relations
that are shown as `E`, or one label that keeps its name. -/
inductive Alike (named named' : List String) (label label' : String) : Prop where
  | letter {letter : Char} : IsIdentifier label.toList → IsIdentifier label'.toList →
      letterIn named label = some letter → letterIn named' label' = some letter →
      Alike named named' label label'
  | relation : IsERelation label → IsERelation label' → Alike named named' label label'
  | itself : KeepsName label → label' = label → Alike named named' label label'

/-- Labels that are shown alike are alike: no text is shown for labels of two kinds, except `E`. -/
theorem IsShownAs.alike {named named' : List String} {label label' text : String}
    (h : IsShownAs named label text) (h' : IsShownAs named' label' text) :
    Alike named named' label label' := by
  have noLetter : ∀ {letter : Char}, 0x78 ≤ letter.toNat → letter.toNat ≤ 0xAB →
      "E".toList ≠ [letter] := by
    intro letter low high same
    exact (isPlainChar_of_letter low high).2.1 (List.cons.inj same).1.symm
  cases h with
  | @letter letter isIdentifier known low high shown =>
      cases h' with
      | @letter letter' isIdentifier' known' _ _ shown' =>
          obtain rfl : letter = letter' := (List.cons.inj (shown.symm.trans shown')).1
          exact .letter isIdentifier isIdentifier' known known'
      | relation _ shown' => exact absurd (shown' ▸ shown) (noLetter low high)
      -- a label that keeps its name never looks like a letter
      | itself keeps' shown' => exact absurd ⟨letter, shown' ▸ shown, low, high⟩ keeps'.2.2
  | relation isE shown =>
      cases h' with
      | letter _ _ low high shown' => exact absurd (shown ▸ shown') (noLetter low high)
      | relation isE' _ => exact .relation isE isE'
      | itself _ shown' => exact .relation isE (Or.inl (shown'.symm.trans shown))
  | itself keeps shown =>
      cases h' with
      | @letter letter' _ _ low high shown' =>
          exact absurd ⟨letter', shown ▸ shown', low, high⟩ keeps.2.2
      | relation isE' shown' => exact .relation (Or.inl (shown.symm.trans shown')) isE'
      | itself _ shown' => exact .itself keeps (shown'.symm.trans shown)

/-- What an identifier is alike to is an identifier with its letter. -/
theorem Alike.letter_of_isIdentifier {named named' : List String} {label label' : String}
    (h : Alike named named' label label') (isIdentifier : IsIdentifier label.toList) :
    ∃ letter, IsIdentifier label'.toList ∧ letterIn named label = some letter ∧
      letterIn named' label' = some letter := by
  cases h with
  | letter _ isIdentifier' known known' => exact ⟨_, isIdentifier', known, known'⟩
  | relation isE _ => exact absurd isIdentifier isE.freeOf.not_form
  | itself keeps _ => exact absurd isIdentifier keeps.1.not_form

namespace Formula

variable {formula other : Formula}

theorem Regular.isRegularRelation (h : formula.Regular) :
    ∀ label ∈ formula.labels, IsRegularRelation label := by
  intro label inside
  rcases h.labelled.of_mem_labels label inside with relation | name
  · exact relation
  · exact name.isRegularRelation

theorem Regular.named_eq (h : formula.Regular) : formula.named = formula.identifiers :=
  named_eq_identifiers fun label inside => (h.isRegularRelation label inside).isWhole

theorem Regular.isShownAs (h : formula.Regular) {label : String} (inside : label ∈ formula.labels) :
    IsShownAs formula.identifiers label (canonicalLabel formula.named label) := by
  rcases (h.isRegularRelation label inside).2 with isIdentifier | isE | keeps
  · have among : label ∈ formula.identifiers :=
      List.mem_filter.mpr ⟨inside, decide_eq_true isIdentifier⟩
    obtain ⟨letter, known, low, high⟩ := exists_letterIn h.few among
    refine .letter isIdentifier known low high ?_
    rw [canonicalLabel_of_letterIn isIdentifier (h.named_eq ▸ known), String.toList_ofList]
  · exact .relation isE (canonicalLabel_of_isERelation _ isE)
  · exact .itself keeps (canonicalLabel_of_keepsName _ keeps)

theorem Regular.isPlain_canonicalLabel (h : formula.Regular) {label : String}
    (inside : label ∈ formula.labels) :
    IsPlain (canonicalLabel formula.named label) ∧
      (label ≠ placeholderMark → canonicalLabel formula.named label ≠ placeholderMark) := by
  have isPlain := (h.isRegularRelation label inside).1
  cases h.isShownAs inside with
  | @letter letter _ _ low high shown =>
      obtain ⟨isPlainChar, -, notMark⟩ := isPlainChar_of_letter low high
      refine ⟨?_, fun _ same => notMark ?_⟩
      · rw [IsPlain, shown]
        exact ⟨List.cons_ne_nil _ _, List.forall_mem_singleton.mpr isPlainChar⟩
      · rw [same] at shown
        exact (List.cons.inj shown).1.symm
  | relation _ shown =>
      rw [shown]
      have relationIsPlain : IsPlain "E" := by decide
      exact ⟨relationIsPlain, fun _ => by decide⟩
  | itself _ shown =>
      rw [shown]
      exact ⟨isPlain, fun notMark => notMark⟩

theorem Regular.readable_canonical (h : formula.Regular) : formula.canonical.Readable where
  plain := Labelled.mapLabels (formula.labelled_mem_labels.imp
    (fun _ inside => (h.isPlain_canonicalLabel inside).1)
    fun _ inside => (h.isPlain_canonicalLabel inside).1)
  proper := h.proper.mapLabels formula.labelled_mem_labels fun _ inside =>
    (h.isPlain_canonicalLabel inside).2

/-- The formula with canonical labels is known from the canonical form. -/
theorem Regular.canonical_eq (h : formula.Regular) (h' : other.Regular)
    (same : (canonicalize formula.print).value = (canonicalize other.print).value) :
    formula.canonical = other.canonical := by
  rw [canonicalize_print, canonicalize_print, collapseQuantifiers, collapseQuantifiers, print, print,
    String.toList_ofList, String.toList_ofList] at same
  exact h.readable_canonical.eq_of_collapse_eq h'.readable_canonical (String.ofList_inj.mp same)

theorem Regular.corresponds (h : formula.Regular) (h' : other.Regular)
    (same : (canonicalize formula.print).value = (canonicalize other.print).value) :
    formula.Corresponds (Alike formula.identifiers other.identifiers)
      (Alike formula.identifiers other.identifiers) other := by
  have alike : ∀ label label',
      canonicalLabel formula.named label = canonicalLabel other.named label' →
        label ∈ formula.labels → label' ∈ other.labels →
          Alike formula.identifiers other.identifiers label label' := by
    intro label label' shown inside inside'
    exact (h.isShownAs inside).alike (shown ▸ h'.isShownAs inside')
  apply (mapLabels_eq_mapLabels_iff.mp (h.canonical_eq h' same)).imp
    formula.labelled_mem_labels other.labelled_mem_labels
  · exact alike
  · exact alike

/-! ## The exchange -/

/-- The identifier of another formula that has the same letter. -/
def exchangeTo (formula other : Formula) (identifier : String) : String :=
  (other.identifiers.find? fun identifier' =>
    letterIn other.identifiers identifier' = letterIn formula.identifiers identifier).getD identifier

theorem exchangeTo_eq {identifier identifier' : String} {letter : Char}
    (known : letterIn formula.identifiers identifier = some letter)
    (known' : letterIn other.identifiers identifier' = some letter) :
    exchangeTo formula other identifier = identifier' :=
  partner_eq known known'

theorem eq_exchanged_of_alike {label label' : String}
    (h : Alike formula.identifiers other.identifiers label label') :
    IsERelation label ∧ IsERelation label' ∨
      label' = exchanged (exchangeTo formula other) label := by
  cases h with
  | letter isIdentifier _ known known' =>
      right
      rw [exchanged, if_pos isIdentifier, exchangeTo_eq known known']
  | relation isE isE' => exact Or.inl ⟨isE, isE'⟩
  | itself keeps same =>
      right
      rw [exchanged, if_neg keeps.1.not_form, same]

/-- Regular formulas with alike labels are one another with names exchanged. -/
theorem Regular.exchanged (h : formula.Regular) (h' : other.Regular)
    (alike : formula.Corresponds (Alike formula.identifiers other.identifiers)
      (Alike formula.identifiers other.identifiers) other) :
    formula.Exchanged (exchangeTo formula other) other := by
  apply alike.imp h.labelled h'.labelled
  · intro label label' one _ _
    exact eq_exchanged_of_alike one
  · intro label label' one regular regular'
    rcases eq_exchanged_of_alike one with ⟨isE, isE'⟩ | same
    · -- a variable or a leaf is shown as `E` only if it is labelled `E`
      rw [FormulaExport.exchanged, if_neg isE.freeOf.not_form, regular.eq_of_isERelation isE,
        regular'.eq_of_isERelation isE']
    · exact same

/-- Regular formulas have the same canonical form exactly if one is the other with identifiers
exchanged, different ones for different ones, and relations that are shown as `E` exchanged for one
another. -/
theorem canonicalize_print_eq_iff (h : formula.Regular) (h' : other.Regular) :
    (canonicalize formula.print).value = (canonicalize other.print).value ↔
      ∃ exchange : String → String,
        Set.InjOn exchange {identifier | identifier ∈ formula.identifiers} ∧
          (∀ identifier ∈ formula.identifiers, IsIdentifier (exchange identifier).toList) ∧
            formula.Exchanged exchange other := by
  constructor
  · intro same
    have alike := h.corresponds h' same
    have letters : ∀ identifier ∈ formula.identifiers, ∃ identifier' letter,
        IsIdentifier identifier'.toList ∧
          letterIn formula.identifiers identifier = some letter ∧
            letterIn other.identifiers identifier' = some letter := by
      intro identifier among
      obtain ⟨inside, isIdentifier⟩ := List.mem_filter.mp among
      obtain ⟨identifier', -, one⟩ := alike.exists_of_mem_labels inside
      exact ⟨identifier',
        (or_self_iff.mp one).letter_of_isIdentifier (of_decide_eq_true isIdentifier)⟩
    refine ⟨exchangeTo formula other, ?_, ?_, h.exchanged h' alike⟩
    · -- identifiers with one partner have one letter, and that is of one identifier only
      intro identifier among identifier₂ among₂ same
      obtain ⟨_, letter, -, known, known'⟩ := letters identifier among
      obtain ⟨_, letter₂, -, known₂, known₂'⟩ := letters identifier₂ among₂
      rw [exchangeTo_eq known known', exchangeTo_eq known₂ known₂'] at same
      subst same
      obtain rfl : letter = letter₂ := Option.some.inj (known'.symm.trans known₂')
      exact letterIn_injective known known₂
    · intro identifier among
      obtain ⟨identifier', letter, isIdentifier', known, known'⟩ := letters identifier among
      rwa [exchangeTo_eq known known']
  · rintro ⟨exchange, injective, identifiers, isExchanged⟩
    have enough : ∀ identifier ∈ formula.identifiers,
        ∃ letter, letterIn formula.identifiers identifier = some letter := by
      intro identifier among
      obtain ⟨letter, known, -⟩ := exists_letterIn h.few among
      exact ⟨letter, known⟩
    have whole : ∀ label ∈ formula.labels, IsWhole label := fun label inside =>
      (h.isRegularRelation label inside).isWhole
    calc (canonicalize formula.print).value
        = collapseQuantifiers formula.canonical.print := canonicalize_print formula
      _ = collapseQuantifiers other.canonical.print := by
          rw [isExchanged.canonical_eq whole injective identifiers enough]
      _ = (canonicalize other.print).value := (canonicalize_print other).symm

def sample (identifier relation : String) : Formula :=
  .quantified .universal identifier
    (.binary .implication (.atom relation ⟨.var identifier, .placeholder⟩) (.leaf "True"))

theorem canonicalize_print_sample :
    (canonicalize (sample "V0$1" "E$0").print).value =
      (canonicalize (sample "V7$23" "E").print).value := by
  have leaf : IsRegularName "True" := by
    refine ⟨by decide, Or.inr ⟨by decide, by decide, ?_⟩⟩
    rintro ⟨c, single, -⟩
    have length : "True".toList.length = 1 := congrArg List.length single
    exact absurd length (by decide)
  have numbered : IsERelation "E$0" := by decide
  have regular : (sample "V0$1" "E$0").Regular := by
    have bound : IsRegularName "V0$1" := ⟨by decide, Or.inl (by decide)⟩
    have relation : IsRegularRelation "E$0" :=
      ⟨by decide, Or.inr (Or.inl numbered)⟩
    refine ⟨⟨bound, ⟨relation, bound, trivial⟩, leaf⟩, ⟨⟨?_, nofun⟩, trivial⟩, by decide⟩
    exact fun same => absurd (Term.var.inj same) (by decide)
  have regular' : (sample "V7$23" "E").Regular := by
    have bound : IsRegularName "V7$23" := ⟨by decide, Or.inl (by decide)⟩
    have relation : IsRegularRelation "E" :=
      ⟨by decide, Or.inr (Or.inl (Or.inl rfl))⟩
    refine ⟨⟨bound, ⟨relation, bound, trivial⟩, leaf⟩, ⟨⟨?_, nofun⟩, trivial⟩, by decide⟩
    exact fun same => absurd (Term.var.inj same) (by decide)
  refine (canonicalize_print_eq_iff regular regular').mpr ⟨fun _ => "V7$23", ?_, ?_, ?_⟩
  · have only : ∀ identifier ∈ (sample "V0$1" "E$0").identifiers, identifier = "V0$1" := by decide
    exact fun _ among _ among' _ => (only _ among).trans (only _ among').symm
  · exact fun _ _ => (by decide : IsIdentifier "V7$23".toList)
  · exact .quantified (by decide)
      (.binary (.atom (Or.inl ⟨numbered, Or.inl rfl⟩) (.var (by decide)) .placeholder)
        (.leaf (by decide)))

end Formula

end FormulaExport
