import FormulaExport.Proofs.Canonical.Bare
import FormulaExport.Proofs.Canonical.Idempotence
import FormulaExport.Proofs.Formula.Slot

/-!
# Which names are shown alike

The canonical text of a formula shows every slot of the formula: a name by its canonical label, in
full, and everything else without some opening parentheses (`Formula.exists_shown`). Letters are
handed out in order, whatever other labels there are, so different names may be shown alike. They are
exactly in two cases: if they differ only in the numbers of relations like `E$1`, and if one of them
is an identifier and the other is its letter (`canonicalLabel_eq_iff`). A quantifier of the canonical
text binds what it bound before, and **captures** what is shown alike.
-/

set_option autoImplicit false

namespace FormulaExport

/-! ## Labels that are shown alike -/

/-- A label of a variable: an identifier, or a plain label without one. -/
def IsVariableName (label : String) : Prop :=
  IsIdentifier label.toList ∨ (IsPlain label ∧ FreeOf IsIdentifier label.toList)

/-- The letter that an identifier gets is the label of something else. -/
def TakesLetter (named : List String) (identifier label : String) : Prop :=
  IsIdentifier identifier.toList ∧
    (letterIn named identifier).map (fun letter => String.ofList [letter]) = some label

/-- Two labels collide: they differ at most in the numbers of relations, or one of them is an
identifier whose letter is the other. -/
def Collide (named : List String) (label label' : String) : Prop :=
  (¬ IsIdentifier label.toList ∧ ¬ IsIdentifier label'.toList ∧
      simplifyRelations label = simplifyRelations label') ∨
    TakesLetter named label label' ∨ TakesLetter named label' label

instance : DecidablePred IsVariableName := fun _ => inferInstanceAs (Decidable (_ ∨ _))

instance (named : List String) (identifier label : String) :
    Decidable (TakesLetter named identifier label) := inferInstanceAs (Decidable (_ ∧ _))

instance (named : List String) (label label' : String) : Decidable (Collide named label label') :=
  inferInstanceAs (Decidable (_ ∨ _))

section

variable {named : List String} {label label' : String}

theorem canonicalLabel_of_letterIn_eq_none (h : IsIdentifier label.toList)
    (unknown : letterIn named label = none) : canonicalLabel named label = label := by
  have renamed : renameIn named label.toList = label.toList := by
    rw [renameIn, identifiers_takesForm.pieces_of_form h, List.flatMap_singleton, shownIn,
      String.ofList_toList, unknown]
    rfl
  rw [canonicalLabel, renamed, simplifyIn_of_freeOf (freeOf_isNumberedRelation_of_not_mem h.not_mem_E),
    String.ofList_toList]

theorem takesLetter_of_letterIn (h : IsIdentifier label.toList) {letter : Char}
    (known : letterIn named label = some letter) :
    TakesLetter named label (String.ofList [letter]) :=
  ⟨h, congrArg (Option.map fun letter => String.ofList [letter]) known⟩

theorem TakesLetter.not_isIdentifier (h : TakesLetter named label label') :
    ¬ IsIdentifier label'.toList := by
  obtain ⟨letter, -, rfl⟩ := Option.map_eq_some_iff.mp h.2
  rw [String.toList_ofList]
  exact not_isIdentifier_singleton letter

theorem eq_of_canonicalLabel_eq (h : IsIdentifier label.toList) (h' : IsIdentifier label'.toList)
    (same : canonicalLabel named label = canonicalLabel named label') : label = label' := by
  cases found : letterIn named label with
  | some letter =>
      rw [canonicalLabel_of_letterIn h found] at same
      cases found' : letterIn named label' with
      | some letter' =>
          rw [canonicalLabel_of_letterIn h' found'] at same
          cases (List.cons.inj (String.ofList_injective same)).1
          exact letterIn_injective found found'
      | none =>
          rw [canonicalLabel_of_letterIn_eq_none h' found'] at same
          have taken := takesLetter_of_letterIn h found
          exact absurd h' (same ▸ taken).not_isIdentifier
  | none =>
      rw [canonicalLabel_of_letterIn_eq_none h found] at same
      cases found' : letterIn named label' with
      | some letter' =>
          rw [canonicalLabel_of_letterIn h' found'] at same
          have taken := takesLetter_of_letterIn h' found'
          exact absurd h (same ▸ taken).not_isIdentifier
      | none => rwa [canonicalLabel_of_letterIn_eq_none h' found'] at same

/-- An identifier is shown like another label exactly if its letter is that label. -/
theorem canonicalLabel_eq_iff_takesLetter (h : IsIdentifier label.toList)
    (free : FreeOf IsIdentifier label'.toList) :
    canonicalLabel named label = canonicalLabel named label' ↔ TakesLetter named label label' := by
  rw [canonicalLabel_of_freeOf named free, TakesLetter, and_iff_right h]
  cases found : letterIn named label with
  | none =>
      -- simplifying makes no identifier
      rw [canonicalLabel_of_letterIn_eq_none h found, Option.map_none]
      refine ⟨fun same => ?_, nofun⟩
      have simplified := freeOf_isIdentifier_simplifyIn free
      rw [← String.ofList_toList (s := label)] at same
      rw [← String.ofList_injective same] at simplified
      exact absurd h simplified.not_form
  | some letter =>
      rw [canonicalLabel_of_letterIn h found, Option.map_some, Option.some.injEq]
      constructor
      · intro same
        have single := String.ofList_injective same
        rcases simplifyIn_eq_or_mem label'.toList with kept | inside
        · rw [single, kept, String.ofList_toList]
        · -- no letter is an `E`
          rw [← single] at inside
          have low := le_toNat_of_letterIn found
          rw [← List.mem_singleton.mp inside] at low
          exact absurd low (by decide)
      · rintro rfl
        rw [String.toList_ofList, simplifyIn_of_freeOf (freeOf_isNumberedRelation_singleton letter)]

/-- Two names are shown alike exactly if they are the same or collide. -/
theorem canonicalLabel_eq_iff (h : IsVariableName label) (h' : IsVariableName label') :
    canonicalLabel named label = canonicalLabel named label' ↔
      label = label' ∨ Collide named label label' := by
  rcases h with isIdentifier | ⟨-, free⟩
  · rcases h' with isIdentifier' | ⟨-, free'⟩
    · constructor
      · exact fun same => Or.inl (eq_of_canonicalLabel_eq isIdentifier isIdentifier' same)
      · rintro (rfl | ⟨other, -⟩ | taken | taken)
        · rfl
        · exact absurd isIdentifier other
        · exact absurd isIdentifier' taken.not_isIdentifier
        · exact absurd isIdentifier taken.not_isIdentifier
    · -- of the two only the identifier is renamed
      rw [canonicalLabel_eq_iff_takesLetter isIdentifier free']
      constructor
      · exact fun taken => Or.inr (Or.inr (Or.inl taken))
      · rintro (rfl | ⟨other, -⟩ | taken | taken)
        · exact absurd isIdentifier free'.not_form
        · exact absurd isIdentifier other
        · exact taken
        · exact absurd taken.1 free'.not_form
  · rcases h' with isIdentifier' | ⟨-, free'⟩
    · rw [eq_comm, canonicalLabel_eq_iff_takesLetter isIdentifier' free]
      constructor
      · exact fun taken => Or.inr (Or.inr (Or.inr taken))
      · rintro (rfl | ⟨-, other, -⟩ | taken | taken)
        · exact absurd isIdentifier' free.not_form
        · exact absurd isIdentifier' other
        · exact absurd taken.1 free.not_form
        · exact taken
    · -- neither is renamed, so they differ at most in the numbers of relations
      rw [canonicalLabel_of_freeOf named free, canonicalLabel_of_freeOf named free']
      constructor
      · exact fun same => Or.inr (Or.inl ⟨free.not_form, free'.not_form, same⟩)
      · rintro (rfl | ⟨-, -, same⟩ | taken | taken)
        · rfl
        · exact same
        · exact absurd taken.1 free.not_form
        · exact absurd taken.1 free'.not_form

theorem opening_not_mem_canonicalLabel (h : IsVariableName label) :
    '(' ∉ (canonicalLabel named label).toList := by
  rcases h with isIdentifier | ⟨plain, free⟩
  · cases found : letterIn named label with
    | some letter =>
        rw [canonicalLabel_of_letterIn isIdentifier found, String.toList_ofList]
        intro inside
        have low := le_toNat_of_letterIn found
        rw [← List.mem_singleton.mp inside] at low
        exact absurd low (by decide)
    | none =>
        rw [canonicalLabel_of_letterIn_eq_none isIdentifier found]
        exact (separates_isIdentifier (by decide)).2 _ isIdentifier
  · rw [canonicalLabel_of_freeOf named free, String.toList_ofList]
    intro inside
    rcases mem_of_mem_simplifyIn inside with same | inside
    · exact absurd same (by decide)
    · exact absurd (plain.2 _ inside) (by decide)

end

/-! ## What is shown in a slot -/

/-- A text without **some of its opening parentheses**. -/
inductive WithoutOpenings : List Char → List Char → Prop where
  | nil : WithoutOpenings [] []
  | keep (c : Char) {text part : List Char} : WithoutOpenings text part →
      WithoutOpenings (c :: text) (c :: part)
  | drop {text part : List Char} : WithoutOpenings text part → WithoutOpenings ('(' :: text) part

theorem Loosened.withoutOpenings {text loose : List Char} (h : Loosened text loose) :
    WithoutOpenings text loose := by
  induction h with
  | nil => exact .nil
  | keep c _ ih => exact .keep c ih
  | drop _ _ ih => exact .drop ih

namespace WithoutOpenings

/-- Opening parentheses are dropped from the front and from the back separately. -/
theorem exists_append {front back part : List Char} (h : WithoutOpenings (front ++ back) part) :
    ∃ front' back', part = front' ++ back' ∧ WithoutOpenings front front' ∧
      WithoutOpenings back back' := by
  induction front generalizing part with
  | nil => exact ⟨[], part, rfl, .nil, h⟩
  | cons c front ih =>
      cases h with
      | keep _ h =>
          obtain ⟨front', back', rfl, atFront, atBack⟩ := ih h
          exact ⟨c :: front', back', rfl, .keep c atFront, atBack⟩
      | drop h =>
          obtain ⟨front', back', rfl, atFront, atBack⟩ := ih h
          exact ⟨front', back', rfl, .drop atFront, atBack⟩

theorem eq_of_not_mem {text part : List Char} (h : WithoutOpenings text part)
    (noOpening : '(' ∉ text) : part = text := by
  induction h with
  | nil => rfl
  | keep c _ ih => rw [ih fun inside => noOpening (List.mem_cons_of_mem c inside)]
  | drop _ _ => exact absurd List.mem_cons_self noOpening

/-- What is left of a row of texts is a row of parts, one for each of them. -/
theorem exists_parts {texts : List (List Char)} {whole : List Char}
    (h : WithoutOpenings texts.flatten whole) :
    ∃ parts, whole = parts.flatten ∧ List.Forall₂ WithoutOpenings texts parts := by
  induction texts generalizing whole with
  | nil =>
      cases h
      exact ⟨[], rfl, .nil⟩
  | cons text texts ih =>
      obtain ⟨part, behind, rfl, shown, h⟩ := h.exists_append
      obtain ⟨parts, rfl, all⟩ := ih h
      exact ⟨part :: parts, rfl, .cons shown all⟩

end WithoutOpenings

/-- A part of a text shows a slot: a name in full, and everything else without some opening
parentheses. -/
def Slot.ShownAs : Slot → List Char → Prop
  | name label, part => part = label.toList
  | slot, part => WithoutOpenings slot.token.characters part

namespace Formula

variable {formula : Formula}

/-- The canonical text of a formula shows the slots of the formula with canonical labels, one after
the other. -/
theorem exists_shown (h : formula.Labelled (fun _ => True) IsVariableName) :
    ∃ parts, (canonicalize formula.print).value.toList = parts.flatten ∧
      List.Forall₂ Slot.ShownAs formula.canonical.slots parts := by
  have canonicalNames : formula.canonical.Labelled (fun _ => True) fun label => '(' ∉ label.toList :=
    Labelled.mapLabels (h.imp (fun _ _ => trivial) fun _ => opening_not_mem_canonicalLabel)
  have text : formula.canonical.characters =
      (formula.canonical.slots.map fun slot => slot.token.characters).flatten := by
    rw [characters_eq, ← map_token_slots, List.flatMap_map]
    rfl
  have dropped := (loosened_collapse formula.canonical.characters).withoutOpenings
  rw [text] at dropped
  obtain ⟨parts, same, shown⟩ := dropped.exists_parts
  refine ⟨parts, ?_, ?_⟩
  · rw [canonicalize_print, collapseQuantifiers, print, String.toList_ofList, String.toList_ofList,
      text, same]
  · -- in the slot of a name there is no parenthesis that could have been dropped
    have names : ∀ slot ∈ formula.canonical.slots,
        ∀ label, slot = .name label → '(' ∉ label.toList := by
      rintro _ inside label rfl
      exact canonicalNames.of_mem_slots inside
    rw [List.forall₂_map_left_iff] at shown
    refine ((List.forall₂_and_left _ _).mpr ⟨names, shown⟩).imp ?_
    rintro (c | label | label) part ⟨noOpening, dropped⟩
    · exact dropped
    · exact dropped
    · exact dropped.eq_of_not_mem (noOpening label rfl)

theorem getElem?_parts {parts : List (List Char)}
    (shown : List.Forall₂ Slot.ShownAs formula.canonical.slots parts) {i : Nat} {label : String}
    (slot : formula.slots[i]? = some (.name label)) :
    parts[i]? = some (canonicalLabel formula.named label).toList := by
  have slot' : formula.canonical.slots[i]? =
      some (.name (canonicalLabel formula.named label)) := by
    rw [canonical, slots_mapLabels, List.getElem?_map, slot]
    rfl
  obtain ⟨inside, same⟩ := List.getElem?_eq_some_iff.mp slot'
  have inside' : i < parts.length := shown.length_eq ▸ inside
  have shownAs := shown.get inside inside'
  rw [List.get_eq_getElem, same] at shownAs
  exact List.getElem?_eq_some_iff.mpr ⟨inside', shownAs⟩

/-! ## Binding -/

/-- In the canonical formula an occurrence is bound by the innermost quantifier around it whose
variable is the same or collides with it. -/
theorem binders_canonical (h : formula.Labelled (fun _ => True) IsVariableName) :
    formula.canonical.binders = (formula.occurrences []).map fun occurrence =>
      occurrence.scope.findIdx? fun bound =>
        bound = occurrence.label ∨ Collide formula.named bound occurrence.label := by
  have kept := occurrences_mapLabels (canonicalLabel formula.named) [] formula
  rw [List.map_nil] at kept
  rw [binders, canonical, kept, List.map_map]
  refine List.map_congr_left fun occurrence inside => binder?_mapLabels fun bound around => ?_
  obtain ⟨isName, areNames⟩ := h.of_mem_occurrences (List.forall_mem_nil _) inside
  rw [decide_eq_true_iff, canonicalLabel_eq_iff (areNames bound around) isName]

/-- The canonical text of a formula shows alike exactly the names that are related: its parts show
the slots of the formula, and two names are related if and only if the parts in their slots are
equal. -/
def ShowsAlike (formula : Formula) (related : String → String → Prop) : Prop :=
  ∃ parts : List (List Char), (canonicalize formula.print).value.toList = parts.flatten ∧
    List.Forall₂ Slot.ShownAs formula.canonical.slots parts ∧
    ∀ (i j : Nat) (label label' : String), formula.slots[i]? = some (.name label) →
      formula.slots[j]? = some (.name label') →
      (parts[i]? = parts[j]? ↔ related label label')

/-- Two names are shown alike in the canonical text exactly if they are the same or collide, and an
occurrence is bound there by the innermost quantifier whose variable is shown like it. -/
theorem showsAlike_and_binders_canonical (h : formula.Labelled (fun _ => True) IsVariableName) :
    (formula.ShowsAlike fun label label' =>
      label = label' ∨ Collide formula.named label label') ∧
    formula.canonical.binders = (formula.occurrences []).map fun occurrence =>
      occurrence.scope.findIdx? fun bound =>
        bound = occurrence.label ∨ Collide formula.named bound occurrence.label := by
  refine ⟨?_, binders_canonical h⟩
  obtain ⟨parts, text, shown⟩ := exists_shown h
  refine ⟨parts, text, shown, ?_⟩
  intro i j label label' slot slot'
  have isName := h.of_mem_slots (List.mem_of_getElem? slot)
  have isName' := h.of_mem_slots (List.mem_of_getElem? slot')
  rw [getElem?_parts shown slot, getElem?_parts shown slot', Option.some_inj, String.toList_inj,
    canonicalLabel_eq_iff isName isName']

def quantifiedAtom (bound other : String) : Formula :=
  .quantified .universal bound (.atom "R" ⟨.var other, .var bound⟩)

/-- With `V0$0` shown as `x`, the name `y` is shown apart and stays free. -/
theorem shown_apart_quantifiedAtom :
    (quantifiedAtom "V0$0" "y").Labelled (fun _ => True) IsVariableName ∧
      (quantifiedAtom "V0$0" "y").ShowsAlike (fun label label' => label = label' ∨
        Collide (quantifiedAtom "V0$0" "y").named label label') ∧
      ¬ Collide (quantifiedAtom "V0$0" "y").named "V0$0" "y" ∧
      (quantifiedAtom "V0$0" "y").canonical.binders = [none, some 0] := by
  have bound : IsVariableName "V0$0" := by decide
  have other : IsVariableName "y" := by decide
  have labelled : (quantifiedAtom "V0$0" "y").Labelled (fun _ => True) IsVariableName :=
    ⟨bound, trivial, other, bound⟩
  obtain ⟨alike, binders⟩ := showsAlike_and_binders_canonical labelled
  exact ⟨labelled, alike, by decide +kernel, binders.trans (by decide +kernel)⟩

/-- The name `x` of a free variable is captured by the quantifier of `V0$0`, which is shown as `x`
too. -/
theorem captures_quantifiedAtom :
    (quantifiedAtom "V0$0" "x").Labelled (fun _ => True) IsVariableName ∧
      (canonicalize (quantifiedAtom "V0$0" "x").print).value = "∀x.(R(x, x))" ∧
      ¬ (quantifiedAtom "V0$0" "x").ShowsAlike (fun label label' => label = label') ∧
      (quantifiedAtom "V0$0" "x").binders = [none, some 0] ∧
      (quantifiedAtom "V0$0" "x").canonical.binders = [some 0, some 0] := by
  have bound : IsVariableName "V0$0" := by decide
  have other : IsVariableName "x" := by decide
  have canonical : (quantifiedAtom "V0$0" "x").canonical = quantifiedAtom "x" "x" := by
    decide +kernel
  have nothing : hasParenthesized (quantifiedAtom "x" "x").print.toList = false := by decide +kernel
  rw [canonicalize_print, canonical, collapseQuantifiers, collapse_of_not_hasParenthesized nothing,
    String.ofList_toList]
  refine ⟨⟨bound, trivial, other, bound⟩, by decide +kernel, ?_, by decide +kernel, by decide +kernel⟩
  rintro ⟨parts, -, shown, alike⟩
  have slot : (quantifiedAtom "V0$0" "x").slots[1]? = some (.name "V0$0") := rfl
  have slot' : (quantifiedAtom "V0$0" "x").slots[6]? = some (.name "x") := rfl
  have same : canonicalLabel (quantifiedAtom "V0$0" "x").named "V0$0" =
      canonicalLabel (quantifiedAtom "V0$0" "x").named "x" := by
    decide +kernel
  have sameParts : parts[1]? = parts[6]? := by
    rw [getElem?_parts shown slot, getElem?_parts shown slot', same]
  exact absurd ((alike 1 6 _ _ slot slot').mp sameParts) (by decide)

end Formula

end FormulaExport
