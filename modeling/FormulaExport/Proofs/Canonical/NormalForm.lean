import Mathlib.SetTheory.Cardinal.Arithmetic
import FormulaExport.Proofs.Canonical.Replacement

/-!
# Renaming as a normal form

A renamed text keeps nothing of the identifiers but where each of them stands and which of them are
the same. So exchanging the identifiers of a text for others, different ones for different ones, does
not change the renamed text. If no letter that is handed out stands anywhere else, the converse holds
as well: a letter of the renamed text is then known to come from an identifier, and two texts are
renamed alike **exactly if** one is the other with identifiers exchanged
(`renameVariables_eq_iff_isExchanged`).
-/

set_option autoImplicit false

namespace FormulaExport

open FormulaExport.Text

/-! ## Exchanging the identifiers of a text -/

def Piece.exchange (exchange : String → String) : Piece → Piece
  | .word characters => .word (exchange (String.ofList characters)).toList
  | .plain c => .plain c

/-- A text with its identifiers exchanged, each occurrence by itself. -/
def exchangeIn (exchange : String → String) (text : List Char) : List Char :=
  ((identifiers.pieces text).map (Piece.exchange exchange)).flatMap Piece.characters

theorem names_exchange (exchange : String → String) (pieces : List Piece) :
    (pieces.map (Piece.exchange exchange)).flatMap Piece.names =
      (pieces.flatMap Piece.names).map exchange := by
  rw [List.flatMap_map, List.map_flatMap]
  refine List.flatMap_congr fun piece _ => ?_
  cases piece with
  | word name => exact congrArg ([·]) String.ofList_toList
  | plain c => rfl

theorem IsIdentifier.not_mem_tail {c : Char} {rest : List Char} (h : IsIdentifier (c :: rest)) :
    c ∉ rest := by
  obtain ⟨major, minor, isMajor, isMinor, same⟩ := h
  obtain ⟨rfl, rfl⟩ := List.cons.inj same
  rw [List.mem_append, List.mem_cons]
  rintro (inside | same | inside)
  · exact absurd (isMajor.2 _ inside) (by decide)
  · exact absurd same (by decide)
  · exact absurd (isMinor.2 _ inside) (by decide)

/-- What identifiers in a text are exchanged for are identifiers. -/
def KeepsIdentifiers (exchange : String → String) (text : List Char) : Prop :=
  ∀ identifier ∈ identifiersIn text, IsIdentifier (exchange identifier).toList

section

variable {exchange : String → String} {c : Char} {text word rest : List Char}

theorem identifiersIn_of_take?_eq_some (found : identifiers.take? text = some (word, rest)) :
    identifiersIn text = String.ofList word :: identifiersIn rest := by
  rw [identifiersIn, Pattern.pieces_of_take?_eq_some found]
  rfl

theorem identifiersIn_of_take?_eq_none (found : identifiers.take? (c :: text) = none) :
    identifiersIn (c :: text) = identifiersIn text := by
  rw [identifiersIn, Pattern.pieces_of_take?_eq_none found]
  rfl

theorem exchangeIn_of_take?_eq_some (found : identifiers.take? text = some (word, rest)) :
    exchangeIn exchange text =
      (exchange (String.ofList word)).toList ++ exchangeIn exchange rest := by
  rw [exchangeIn, Pattern.pieces_of_take?_eq_some found]
  rfl

theorem exchangeIn_of_take?_eq_none (found : identifiers.take? (c :: text) = none) :
    exchangeIn exchange (c :: text) = c :: exchangeIn exchange text := by
  rw [exchangeIn, Pattern.pieces_of_take?_eq_none found]
  rfl

theorem endsNumber_exchangeIn (keeps : KeepsIdentifiers exchange text) (ends : EndsNumber text) :
    EndsNumber (exchangeIn exchange text) := by
  cases text with
  | nil =>
      rw [exchangeIn, Pattern.pieces_nil]
      exact ends
  | cons c text =>
      cases found : identifiers.take? (c :: text) with
      | none =>
          rw [exchangeIn_of_take?_eq_none found]
          exact endsNumber_cons.mpr (endsNumber_cons.mp ends)
      | some split =>
          obtain ⟨word, rest⟩ := split
          have first := identifiersIn_of_take?_eq_some found
          obtain ⟨back, begins⟩ := (keeps _ (first ▸ List.mem_cons_self)).exists_cons
          rw [exchangeIn_of_take?_eq_some found, begins]
          exact endsNumber_cons.mpr (by decide)

/-- What stands at the front of an exchanged text and holds no beginning of an identifier stood
there before. -/
theorem prefix_of_prefix_exchangeIn (keeps : KeepsIdentifiers exchange text) (noV : 'V' ∉ word)
    (front : word <+: exchangeIn exchange text) : word <+: text := by
  rw [exchangeIn, List.flatMap_map] at front
  rw [← identifiers.characters_pieces text]
  refine prefix_flatMap_of_prefix (f := fun piece => (piece.exchange exchange).characters)
    (fun _ => rfl) keepsPlain_characters ?_ front
  intro name inside
  obtain ⟨back, begins⟩ := (keeps _ (mem_identifiersIn inside)).exists_cons
  refine ⟨'V', ?_, noV⟩
  show 'V' ∈ (exchange (String.ofList name)).toList.head?
  rw [begins]
  rfl

/-- The text between the identifiers does not combine with others in their place: the pieces of the
exchanged text are the exchanged pieces. -/
theorem pieces_exchangeIn (keeps : KeepsIdentifiers exchange text) :
    identifiers.pieces (exchangeIn exchange text) =
      (identifiers.pieces text).map (Piece.exchange exchange) := by
  have takes := identifiers_takesForm
  fun_induction Pattern.pieces identifiers text with
  | case1 =>
      rw [exchangeIn, Pattern.pieces_nil]
      exact Pattern.pieces_nil identifiers
  | case2 c text word rest found ih =>
      rw [KeepsIdentifiers, identifiersIn_of_take?_eq_some found] at keeps
      obtain ⟨first, later⟩ := List.forall_mem_cons.mp keeps
      -- no digit goes on the identifier, since none begins what stands behind it
      have ends := endsNumber_exchangeIn later (takes.take?_eq_some_iff.mp found).2.2
      have taken := takes.take?_eq_some_iff.mpr ⟨exchangeIn_of_take?_eq_some found, first, ends⟩
      rw [Pattern.pieces_of_take?_eq_some taken, ih later]
      rfl
  | case3 c text found ih =>
      rw [KeepsIdentifiers, identifiersIn_of_take?_eq_none found] at keeps
      have nothing : identifiers.take? (c :: exchangeIn exchange text) = none := by
        refine takes.take?_eq_none_iff.mpr fun word front isWord => ?_
        obtain ⟨back, rfl⟩ := isWord.exists_cons
        obtain ⟨rfl, behind⟩ := List.cons_prefix_cons.mp front
        -- an identifier that begins here would have stood here before the exchange
        have before := prefix_of_prefix_exchangeIn keeps isWord.not_mem_tail behind
        exact takes.take?_eq_none_iff.mp found _ (List.cons_prefix_cons.mpr ⟨rfl, before⟩) isWord
      rw [exchangeIn_of_take?_eq_none found, Pattern.pieces_of_take?_eq_none nothing, ih keeps]
      rfl

theorem identifiersIn_exchangeIn (keeps : KeepsIdentifiers exchange text) :
    identifiersIn (exchangeIn exchange text) = (identifiersIn text).map exchange := by
  rw [identifiersIn, pieces_exchangeIn keeps, names_exchange, identifiersIn]

theorem exchangeIn_congr {exchange' : String → String}
    (same : ∀ identifier ∈ identifiersIn text, exchange identifier = exchange' identifier) :
    exchangeIn exchange text = exchangeIn exchange' text := by
  unfold exchangeIn
  refine congrArg _ (List.map_congr_left fun piece inside => ?_)
  cases piece with
  | word name => rw [Piece.exchange, Piece.exchange, same _ (mem_identifiersIn inside)]
  | plain c => rfl

end

/-! ## Injective maps of identifiers -/

/-- An **injective map of identifiers**: identifiers become identifiers, and different ones become
different ones. -/
structure IsExchange (exchange : String → String) : Prop where
  mapsTo : Set.MapsTo exchange {label | IsIdentifier label.toList} {label | IsIdentifier label.toList}
  injOn : Set.InjOn exchange {label | IsIdentifier label.toList}

/-- A text is another one with its identifiers exchanged through an injective map. -/
def IsExchanged (text other : String) : Prop :=
  ∃ exchange : String → String, IsExchange exchange ∧
    other.toList = exchangeIn exchange text.toList

theorem exists_word_of_mem {text : List Char} {identifier : String}
    (h : identifier ∈ identifiersIn text) :
    ∃ name, .word name ∈ identifiers.pieces text ∧ identifier = String.ofList name := by
  obtain ⟨piece, inside, named⟩ := List.mem_flatMap.mp h
  cases piece with
  | word name => exact ⟨name, inside, List.mem_singleton.mp named⟩
  | plain c => exact absurd named List.not_mem_nil

theorem isIdentifier_of_mem {text : List Char} {identifier : String}
    (h : identifier ∈ identifiersIn text) : IsIdentifier identifier.toList := by
  obtain ⟨name, inside, rfl⟩ := exists_word_of_mem h
  rw [String.toList_ofList]
  exact identifiers_takesForm.form_of_mem_pieces inside

theorem infinite_identifiers : Infinite {label : String // IsIdentifier label.toList} := by
  have digits : ∀ n, IsNumber (List.replicate (n + 1) '0') := fun n =>
    ⟨List.cons_ne_nil _ _, fun c inside => (List.eq_of_mem_replicate inside) ▸ by decide⟩
  refine Infinite.of_injective (fun n : ℕ => ⟨String.ofList ('V' :: (['0'] ++ '$' ::
    List.replicate (n + 1) '0')), ?_⟩) ?_
  · rw [String.toList_ofList]
    exact ⟨['0'], _, digits 0, digits n, rfl⟩
  · intro n n' same
    have lengths := congrArg List.length (String.ofList_inj.mp (Subtype.mk.inj same))
    simpa using lengths

/-- A map that is injective on finitely many identifiers extends to all of them. -/
theorem exists_isExchange {named : List String} {f : String → String}
    (isIdentifier : ∀ identifier ∈ named, IsIdentifier identifier.toList ∧
      IsIdentifier (f identifier).toList)
    (injective : Set.InjOn f {identifier | identifier ∈ named}) :
    ∃ exchange, IsExchange exchange ∧ ∀ identifier ∈ named, f identifier = exchange identifier := by
  have := infinite_identifiers
  have finite : {label : {label : String // IsIdentifier label.toList} | label.1 ∈ named}.Finite :=
    named.finite_toSet.preimage Subtype.val_injective.injOn
  -- finitely many identifiers leave enough others, so the map extends to a permutation
  obtain ⟨extended, agrees⟩ := Cardinal.extend_function_of_lt
    (s := {label : {label : String // IsIdentifier label.toList} | label.1 ∈ named})
    ⟨fun label => ⟨f label.1.1, (isIdentifier _ label.2).2⟩, fun label label' same =>
      Subtype.ext (Subtype.ext (injective label.2 label'.2 (congrArg Subtype.val same)))⟩
    (finite.lt_aleph0.trans_le (Cardinal.aleph0_le_mk _)) ⟨Equiv.refl _⟩
  obtain ⟨exchange, onIdentifiers⟩ : ∃ exchange : String → String,
      ∀ (label : String) (h : IsIdentifier label.toList),
        exchange label = (extended ⟨label, h⟩).1 :=
    ⟨fun label => if h : IsIdentifier label.toList then (extended ⟨label, h⟩).1 else label,
      fun _ h => dif_pos h⟩
  refine ⟨exchange, ⟨?_, ?_⟩, ?_⟩
  · intro label (isLabel : IsIdentifier label.toList)
    show IsIdentifier (exchange label).toList
    rw [onIdentifiers label isLabel]
    exact (extended ⟨label, isLabel⟩).2
  · intro label (isLabel : IsIdentifier label.toList) label' (isLabel' : IsIdentifier label'.toList)
      same
    rw [onIdentifiers label isLabel, onIdentifiers label' isLabel'] at same
    exact congrArg Subtype.val (extended.injective (Subtype.ext same))
  · intro identifier inside
    have isLabel := (isIdentifier identifier inside).1
    rw [onIdentifiers identifier isLabel]
    exact congrArg Subtype.val (agrees ⟨⟨identifier, isLabel⟩, inside⟩).symm

/-! ## Exchanged texts are renamed alike -/

/-- There is a letter for every identifier when a text is renamed. -/
def HasLetters (text : String) : Prop :=
  ∀ identifier, Diagnostic.outOfLetters identifier ∉ (renameVariables text).log

theorem HasLetters.exists_letterIn {text identifier : String} (h : HasLetters text)
    (inside : identifier ∈ identifiersIn text.toList) :
    ∃ letter, letterIn (identifiersIn text.toList) identifier = some letter := by
  refine Option.ne_none_iff_exists'.mp fun nothing => h identifier ?_
  exact outOfLetters_mem_log_renameVariables_iff.mpr ⟨inside, nothing⟩

/-- The letters depend on the order of the identifiers alone, and an exchange keeps it. -/
theorem IsExchanged.renameVariables_eq {text other : String} (h : IsExchanged text other)
    (enough : HasLetters text) : (renameVariables text).value = (renameVariables other).value := by
  obtain ⟨exchange, isExchange, same⟩ := h
  have keeps : KeepsIdentifiers exchange text.toList := fun _ inside =>
    isExchange.mapsTo (isIdentifier_of_mem inside)
  obtain ⟨-, letters⟩ := letterIn_map (isExchange.injOn.mono fun _ => isIdentifier_of_mem)
  rw [value_renameVariables, value_renameVariables, same, identifiersIn_exchangeIn keeps, renameIn,
    renameIn, pieces_exchangeIn keeps, List.flatMap_map]
  refine congrArg String.ofList (List.flatMap_congr fun piece inside => ?_)
  cases piece with
  | plain c => rfl
  | word name =>
      have among := mem_identifiersIn inside
      obtain ⟨letter, known⟩ := enough.exists_letterIn among
      rw [Piece.exchange, shownIn, shownIn, String.ofList_toList, letters _ among, known]
      rfl

/-! ## Texts that are renamed alike are exchanged -/

/-- The character that stands for a piece, if some identifiers are named one after the other. -/
def letterOf? (named : List String) : Piece → Option Char
  | .word characters => letterIn named (String.ofList characters)
  | .plain c => some c

theorem map_letterOf? {named : List String} {pieces : List Piece}
    (enough : ∀ piece ∈ pieces, ∃ c, letterOf? named piece = some c) :
    pieces.map (letterOf? named) = (pieces.flatMap (shownIn named)).map some := by
  induction pieces with
  | nil => rfl
  | cons piece pieces ih =>
      obtain ⟨⟨c, first⟩, later⟩ := List.forall_mem_cons.mp enough
      have shown : shownIn named piece = [c] := by
        cases piece with
        | word name => rw [shownIn, show letterIn _ _ = _ from first]; rfl
        | plain d => exact congrArg ([·]) (Option.some.inj first)
      rw [List.map_cons, ih later, first, List.flatMap_cons, shown]
      rfl

theorem HasLetters.exists_letterOf? {text : String} (h : HasLetters text) :
    ∀ piece ∈ identifiers.pieces text.toList,
      ∃ c, letterOf? (identifiersIn text.toList) piece = some c := by
  intro piece inside
  cases piece with
  | word name => exact h.exists_letterIn (mem_identifiersIn inside)
  | plain c => exact ⟨c, rfl⟩

/-- A letter that is handed out when a text is renamed. -/
def HandsOut (text : String) (letter : Char) : Prop :=
  ∃ identifier, Diagnostic.renaming identifier letter ∈ (renameVariables text).log

/-- A character that stands outside the identifiers of a text. -/
def StandsOutside (text : String) (c : Char) : Prop :=
  .plain c ∈ identifiers.pieces text.toList

/-- No letter that is handed out for one of two texts stands outside the identifiers of either. -/
def LettersApart (text other : String) : Prop :=
  ∀ letter, HandsOut text letter ∨ HandsOut other letter →
    ¬ StandsOutside text letter ∧ ¬ StandsOutside other letter

/-- Pieces with the same character are exchanged for one another, unless a letter stands outside the
identifiers. -/
theorem LettersApart.eq_exchange {text other : String} (apart : LettersApart text other)
    {piece piece' : Piece} (inside : piece ∈ identifiers.pieces text.toList)
    (inside' : piece' ∈ identifiers.pieces other.toList) {c : Char}
    (known : letterOf? (identifiersIn text.toList) piece = some c)
    (known' : letterOf? (identifiersIn other.toList) piece' = some c) :
    piece' = piece.exchange
      (partner (identifiersIn text.toList) (identifiersIn other.toList)) := by
  cases piece with
  | word name =>
      have announced := renaming_mem_log_renameVariables_iff.mpr known
      cases piece' with
      | word name' =>
          rw [Piece.exchange, partner_eq known known', String.toList_ofList]
      | plain d =>
          obtain rfl := Option.some.inj known'
          -- a letter of the one text stands outside the identifiers of the other
          exact absurd inside' (apart _ (Or.inl ⟨_, announced⟩)).2
  | plain d =>
      obtain rfl := Option.some.inj known
      cases piece' with
      | word name' =>
          have announced := renaming_mem_log_renameVariables_iff.mpr known'
          exact absurd inside (apart _ (Or.inr ⟨_, announced⟩)).1
      | plain d' =>
          rw [Piece.exchange, Option.some.inj known']

section

variable {text other : String} (enough : HasLetters text) (enough' : HasLetters other)
  (same : (renameVariables text).value = (renameVariables other).value)

include enough enough' same

/-- Texts that are renamed alike have, piece by piece, the same characters. -/
theorem map_letterOf?_eq_of_renameVariables_eq :
    (identifiers.pieces text.toList).map (letterOf? (identifiersIn text.toList)) =
      (identifiers.pieces other.toList).map (letterOf? (identifiersIn other.toList)) := by
  rw [value_renameVariables, value_renameVariables] at same
  rw [map_letterOf? enough.exists_letterOf?, map_letterOf? enough'.exists_letterOf?]
  exact congrArg (List.map some) (String.ofList_inj.mp same)

theorem pieces_eq_of_renameVariables_eq (apart : LettersApart text other) :
    identifiers.pieces other.toList = (identifiers.pieces text.toList).map
      (Piece.exchange (partner (identifiersIn text.toList) (identifiersIn other.toList))) := by
  have letters := map_letterOf?_eq_of_renameVariables_eq enough enough' same
  rw [← List.forall₂_eq_eq_eq, List.forall₂_map_left_iff, List.forall₂_map_right_iff,
    List.forall₂_iff_zip] at letters
  obtain ⟨length, related⟩ := letters
  rw [eq_comm, ← List.forall₂_eq_eq_eq, List.forall₂_map_left_iff, List.forall₂_iff_zip]
  refine ⟨length, fun {piece piece'} both => ?_⟩
  obtain ⟨inside, inside'⟩ := List.of_mem_zip both
  obtain ⟨c, known⟩ := enough.exists_letterOf? piece inside
  exact (apart.eq_exchange inside inside' known ((related both).symm.trans known)).symm

/-- An exchange between texts that are renamed alike hands on the letters, so it takes different
identifiers to different ones. -/
theorem injOn_of_pieces_eq {exchange : String → String}
    (pieces : identifiers.pieces other.toList =
      (identifiers.pieces text.toList).map (Piece.exchange exchange)) :
    Set.InjOn exchange {identifier | identifier ∈ identifiersIn text.toList} := by
  have letters := map_letterOf?_eq_of_renameVariables_eq enough enough' same
  rw [pieces, List.map_map, List.map_inj_left] at letters
  have handedOn : ∀ identifier ∈ identifiersIn text.toList,
      letterIn (identifiersIn text.toList) identifier =
        letterIn (identifiersIn other.toList) (exchange identifier) := by
    intro identifier inside
    obtain ⟨name, word, rfl⟩ := exists_word_of_mem inside
    have letter := letters _ word
    rwa [Function.comp_apply, Piece.exchange, letterOf?, letterOf?, String.ofList_toList] at letter
  intro identifier inside identifier' inside' exchanged
  obtain ⟨letter, known⟩ := enough.exists_letterIn inside
  refine letterIn_injective known ?_
  rw [handedOn identifier' inside', ← exchanged, ← handedOn identifier inside, known]

theorem isExchanged_of_renameVariables_eq (apart : LettersApart text other) :
    IsExchanged text other := by
  have pieces := pieces_eq_of_renameVariables_eq enough enough' same apart
  generalize partner (identifiersIn text.toList) (identifiersIn other.toList) = partner at pieces
  have named : identifiersIn other.toList = (identifiersIn text.toList).map partner := by
    rw [identifiersIn, pieces, names_exchange, identifiersIn]
  have isIdentifier : ∀ identifier ∈ identifiersIn text.toList,
      IsIdentifier identifier.toList ∧ IsIdentifier (partner identifier).toList := by
    intro identifier inside
    have inside' : partner identifier ∈ identifiersIn other.toList := by
      rw [named]
      exact List.mem_map_of_mem inside
    exact ⟨isIdentifier_of_mem inside, isIdentifier_of_mem inside'⟩
  obtain ⟨exchange, isExchange, agrees⟩ :=
    exists_isExchange isIdentifier (injOn_of_pieces_eq enough enough' same pieces)
  refine ⟨exchange, isExchange, ?_⟩
  rw [← exchangeIn_congr agrees, exchangeIn, ← pieces, identifiers.characters_pieces]

end

/-- Renaming is a normal form for the exchange of identifiers, as long as there are letters for all
of them: exchanged texts are renamed alike, and if no letter stands outside the identifiers, only
exchanged texts are. -/
theorem renameVariables_eq_iff_isExchanged {text other : String} (enough : HasLetters text)
    (enough' : HasLetters other) :
    (IsExchanged text other → (renameVariables text).value = (renameVariables other).value) ∧
      (LettersApart text other →
        ((renameVariables text).value = (renameVariables other).value ↔ IsExchanged text other)) :=
  ⟨fun h => h.renameVariables_eq enough, fun apart =>
    ⟨fun same => isExchanged_of_renameVariables_eq enough enough' same apart,
      fun h => h.renameVariables_eq enough⟩⟩

theorem hasLetters_of_few {text : String}
    (few : (identifiersIn text.toList).eraseDups.length ≤ 52) : HasLetters text := by
  intro identifier reported
  obtain ⟨inside, nothing⟩ := outOfLetters_mem_log_renameVariables_iff.mp reported
  obtain ⟨letter, known, -⟩ := exists_letterIn few inside
  rw [known] at nothing
  cases nothing

theorem lettersApart_of_lt {text other : String}
    (low : (text.toList ++ other.toList).all (·.toNat < 'x'.toNat) = true) :
    LettersApart text other := by
  have inText : ∀ {text : String} {c : Char}, StandsOutside text c → c ∈ text.toList := by
    intro text c outside
    rw [← identifiers.characters_pieces text.toList]
    exact List.mem_flatMap.mpr ⟨.plain c, outside, List.mem_singleton_self c⟩
  intro letter handedOut
  have high : 'x'.toNat ≤ letter.toNat := by
    rcases handedOut with ⟨identifier, announced⟩ | ⟨identifier, announced⟩
    · exact le_toNat_of_letterIn (renaming_mem_log_renameVariables_iff.mp announced)
    · exact le_toNat_of_letterIn (renaming_mem_log_renameVariables_iff.mp announced)
  have absent : letter ∉ text.toList ++ other.toList := fun inside =>
    Nat.not_lt.mpr high (of_decide_eq_true (List.all_eq_true.mp low letter inside))
  rw [List.mem_append, not_or] at absent
  exact ⟨fun outside => absent.1 (inText outside), fun outside => absent.2 (inText outside)⟩

/-- The identifiers `V0$1` and `V12$34` are exchanged for one another, of different lengths and
behind the beginning `V1$` of another one. -/
theorem renameVariables_eq_swapped :
    HasLetters "V1$V0$1(V0$1, V12$34)" ∧ HasLetters "V1$V12$34(V12$34, V0$1)" ∧
      LettersApart "V1$V0$1(V0$1, V12$34)" "V1$V12$34(V12$34, V0$1)" ∧
      IsExchanged "V1$V0$1(V0$1, V12$34)" "V1$V12$34(V12$34, V0$1)" ∧
      (renameVariables "V1$V0$1(V0$1, V12$34)").value =
        (renameVariables "V1$V12$34(V12$34, V0$1)").value := by
  have enough : HasLetters "V1$V0$1(V0$1, V12$34)" := hasLetters_of_few (by decide +kernel)
  have enough' : HasLetters "V1$V12$34(V12$34, V0$1)" := hasLetters_of_few (by decide +kernel)
  have apart : LettersApart "V1$V0$1(V0$1, V12$34)" "V1$V12$34(V12$34, V0$1)" :=
    lettersApart_of_lt (by decide)
  have exchanged : IsExchanged "V1$V0$1(V0$1, V12$34)" "V1$V12$34(V12$34, V0$1)" := by
    refine ⟨Equiv.swap "V0$1" "V12$34", ⟨?_, (Equiv.injective _).injOn⟩, by decide +kernel⟩
    intro label isLabel
    rw [Equiv.swap_apply_def]
    split
    · exact (by decide : IsIdentifier "V12$34".toList)
    · split
      · exact (by decide : IsIdentifier "V0$1".toList)
      · exact isLabel
  exact ⟨enough, enough', apart, exchanged,
    ((renameVariables_eq_iff_isExchanged enough enough').2 apart).mpr exchanged⟩

end FormulaExport
