import FormulaExport.Proofs.OrderedMap
import FormulaExport.Proofs.Markup.Lexeme
import FormulaExport.Proofs.Text.Run

/-!
# Names, attributes and tags

For each reader of a part of a tag there are two statements: what it takes off a text is a text of
the grammar, and a text of the grammar is taken off whatever stands behind it. Only a name has to
know what stands behind it, because it is read as long as possible (`EndsName`).
-/

set_option autoImplicit false

namespace FormulaExport.Markup

open FormulaExport.Text

/-! ## Names -/

theorem endsName_cons {c : Char} {text : List Char} (h : isNamePart c = false) :
    EndsName (c :: text) := by
  intro d hd
  cases hd
  exact h

/-- What ends a name stands at the front, so more text behind it changes nothing. -/
theorem EndsName.append {text rest : List Char} (nonempty : text ≠ []) (h : EndsName text) :
    EndsName (text ++ rest) := by
  cases text with
  | nil => exact absurd rfl nonempty
  | cons c text => exact endsName_cons (h c rfl)

theorem isNamePart_of_isNameStart {c : Char} (h : isNameStart c = true) : isNamePart c = true := by
  simp only [isNameStart, isNamePart, Char.isAlphanum, Bool.or_eq_true] at h ⊢
  rcases h with (h | h) | h
  · exact Or.inl (Or.inl (Or.inl (Or.inl (Or.inl h))))
  · exact Or.inl (Or.inl (Or.inl (Or.inr h)))
  · exact Or.inl (Or.inl (Or.inr h))

/-- No part of a name is one of the characters that the other parts of a tag begin with. -/
theorem ne_of_isNamePart {c : Char} (h : isNamePart c = true) :
    isBlank c = false ∧ c ≠ '<' ∧ c ≠ '!' ∧ c ≠ '/' ∧ c ≠ '?' := by
  refine ⟨?_, ?_, ?_, ?_, ?_⟩
  · by_contra blank
    rw [Bool.not_eq_false] at blank
    simp only [isBlank, Bool.or_eq_true, beq_iff_eq] at blank
    rcases blank with ((rfl | rfl) | rfl) | rfl <;> revert h <;> decide
  all_goals
    rintro rfl
    revert h
    decide

theorem isName_of_all {c : Char} {text : List Char} (first : isNameStart c = true)
    (further : text.all isNamePart = true) : IsName (c :: text) :=
  ⟨c, text, rfl, first, List.all_eq_true.mp further⟩

theorem IsName.solid {name text : List Char} (h : IsName name) : Solid (name ++ text) := by
  obtain ⟨c, rest, rfl, start, -⟩ := h
  obtain ⟨blank, other, -⟩ := ne_of_isNamePart (isNamePart_of_isNameStart start)
  exact solid_of_ne blank other

theorem of_name? {text name rest : List Char} (h : name? text = some (name, rest)) :
    IsName name ∧ EndsName rest ∧ text = name ++ rest := by
  cases text with
  | nil => cases h
  | cons c text =>
      rw [name?] at h
      split at h
      · next start =>
        cases h
        refine ⟨⟨c, _, rfl, start, fun d => List.mem_takeWhile_imp⟩,
          stop_dropWhile isNamePart text, ?_⟩
        rw [List.cons_append, List.takeWhile_append_dropWhile]
      · cases h

theorem name?_append {name rest : List Char} (h : IsName name) (ends : EndsName rest) :
    name? (name ++ rest) = some (name, rest) := by
  obtain ⟨c, inside, rfl, start, parts⟩ := h
  obtain ⟨taken, left⟩ := takeWhile_run parts ends
  rw [List.cons_append, name?, if_pos start, taken, left]

/-! ## Attributes -/

theorem exists_of_valueUpTo? {quote : Char} {text raw rest : List Char}
    (h : valueUpTo? quote text = some (raw, rest)) :
    (∀ c ∈ raw, c ≠ quote ∧ c ≠ '<') ∧ text = raw ++ quote :: rest := by
  unfold valueUpTo? at h
  have whole := List.takeWhile_append_dropWhile (p := fun c => c != quote && c != '<') (l := text)
  cases d : text.dropWhile (fun c => c != quote && c != '<') with
  | nil => simp [d] at h
  | cons c after =>
      simp only [d] at h
      split at h
      · next same =>
        cases h
        refine ⟨fun e inside => ?_, ?_⟩
        · simpa using List.mem_takeWhile_imp inside
        · rw [d, same] at whole
          exact whole.symm
      · cases h

theorem valueUpTo?_append {quote : Char} {raw : List Char} (h : ∀ c ∈ raw, c ≠ quote ∧ c ≠ '<')
    (rest : List Char) :
    valueUpTo? quote (raw ++ quote :: rest) = some (raw, rest) := by
  have inside : ∀ c ∈ raw, (c != quote && c != '<') = true := by
    intro c member
    simpa using h c member
  have stop : ∀ c ∈ (quote :: rest).head?, (c != quote && c != '<') = false := by
    rintro _ ⟨⟩
    simp
  obtain ⟨taken, left⟩ := takeWhile_run inside stop
  rw [valueUpTo?, taken, left]
  exact if_pos rfl

theorem exists_of_value? {text raw rest : List Char} (h : value? text = some (raw, rest)) :
    ∃ value, IsValue raw value ∧ text = value ++ rest := by
  unfold value? at h
  split at h
  · obtain ⟨inside, rfl⟩ := exists_of_valueUpTo? h
    exact ⟨_, ⟨'"', Or.inl rfl, inside, rfl⟩, by simp⟩
  · obtain ⟨inside, rfl⟩ := exists_of_valueUpTo? h
    exact ⟨_, ⟨'\'', Or.inr rfl, inside, rfl⟩, by simp⟩
  · cases h

theorem value?_append {raw value rest : List Char} (h : IsValue raw value) :
    value? (value ++ rest) = some (raw, rest) := by
  obtain ⟨quote, rfl | rfl, inside, rfl⟩ := h
  · simpa [value?] using valueUpTo?_append inside rest
  · simpa [value?] using valueUpTo?_append inside rest

theorem IsValue.solid {raw value text : List Char} (h : IsValue raw value) :
    Solid (value ++ text) := by
  obtain ⟨quote, rfl | rfl, -, rfl⟩ := h
  · exact solid_of_ne (by decide) (by decide)
  · exact solid_of_ne (by decide) (by decide)

theorem exists_of_attribute? {text rest : List Char} {entry : String × String}
    (h : attribute? text = some (entry, rest)) :
    ∃ front, AttributeText front entry ∧ text = front ++ rest := by
  unfold attribute? at h
  obtain ⟨⟨key, afterKey⟩, hk, h⟩ := Option.bind_eq_some_iff.mp h
  obtain ⟨afterSign, hs, h⟩ := Option.bind_eq_some_iff.mp h
  obtain ⟨⟨raw, after⟩, hv, h⟩ := Option.map_eq_some_iff.mp h
  cases h
  obtain ⟨isName, ends, rfl⟩ := of_name? hk
  obtain ⟨beforeSign, first, split⟩ := exists_trivia afterKey
  obtain ⟨behindSign, second, split'⟩ := exists_trivia afterSign
  obtain ⟨value, isValue, split''⟩ := exists_of_value? hv
  rw [behind?_eq_some_iff.mp hs, split', split''] at split
  -- what stands behind the equals sign does not show where the key ends
  have endsSign : EndsName (beforeSign ++ ['=']) := by
    intro c hc
    refine ends c ?_
    rw [split]
    cases beforeSign with
    | nil => exact hc
    | cons d gap => exact hc
  have unescaped : String.ofList (Reference.decode raw) = unescape (String.ofList raw) := by
    rw [unescape, String.toList_ofList]
  rw [unescaped]
  exact ⟨_, .mk isName first endsSign second isValue, by rw [split]; simp⟩

theorem behind?_mark (mark : Char) (text : List Char) :
    behind? [mark] (mark :: text) = some text :=
  behind?_append [mark] text

/-- An attribute of the grammar is taken off, whatever stands behind it. -/
theorem attribute?_append {text rest : List Char} {entry : String × String}
    (h : AttributeText text entry) : attribute? (text ++ rest) = some (entry, rest) := by
  cases h with
  | @mk key beforeSign behindSign raw value isName first ends second isValue =>
      have endsAll : EndsName (beforeSign ++ ['='] ++ (behindSign ++ (value ++ rest))) :=
        ends.append (by simp)
      have sign : skipTrivia (beforeSign ++ '=' :: (behindSign ++ (value ++ rest))) =
          '=' :: (behindSign ++ (value ++ rest)) :=
        skipTrivia_append_solid first (solid_of_ne (by decide) (by decide))
      have skipped : skipTrivia (behindSign ++ (value ++ rest)) = value ++ rest :=
        skipTrivia_append_solid second isValue.solid
      simp only [List.append_assoc, List.cons_append, List.nil_append] at endsAll ⊢
      rw [attribute?, name?_append isName endsAll, Option.bind_some]
      dsimp only
      rw [sign, behind?_mark, Option.bind_some, skipped, value?_append isValue, Option.map_some,
        unescape, String.toList_ofList]

theorem AttributeText.solid {text rest : List Char} {entry : String × String}
    (h : AttributeText text entry) : Solid (text ++ rest) := by
  cases h with
  | mk isName _ _ _ _ =>
      rw [List.append_assoc]
      exact isName.solid

theorem attributesFrom_eq (known : OrderedMap String String) (text : List Char) :
    attributesFrom known text =
      match attribute? (skipTrivia text) with
      | some ((name, value), rest) => attributesFrom (known.insert name value) rest
      | none => (known, text) := by
  rw [attributesFrom]
  grind

theorem exists_of_attributesFrom (known : OrderedMap String String) (text : List Char) :
    ∃ front entries, AttributesText front entries ∧
      text = front ++ (attributesFrom known text).2 ∧
      (attributesFrom known text).1 = known.insertAll entries := by
  fun_induction attributesFrom known text with
  | case1 known text key value rest found ih =>
      obtain ⟨front, entries, attributes, behind, map⟩ := ih
      obtain ⟨gap, trivia, split⟩ := exists_trivia text
      obtain ⟨first, isAttribute, front'⟩ := exists_of_attribute? found
      refine ⟨gap ++ (first ++ front), (key, value) :: entries, .more trivia isAttribute attributes,
        ?_, map⟩
      calc text = gap ++ (first ++ rest) := by rw [← front', ← split]
        _ = gap ++ (first ++ front) ++ (attributesFrom (known.insert key value) rest).2 := by
            rw [List.append_assoc, List.append_assoc, ← behind]
  | case2 known text _ => exact ⟨[], [], .none, rfl, rfl⟩

/-- Attributes of the grammar are taken off, if no attribute stands behind them. -/
theorem attributesFrom_append {attributes rest : List Char} {entries : List (String × String)}
    (h : AttributesText attributes entries) (stop : attribute? (skipTrivia rest) = none)
    (known : OrderedMap String String) :
    attributesFrom known (attributes ++ rest) = (known.insertAll entries, rest) := by
  induction h generalizing known with
  | none =>
      rw [List.nil_append, attributesFrom_eq, stop]
      rfl
  | @more gap text behind entry entries trivia isAttribute _ ih =>
      have found : attribute? (skipTrivia (gap ++ (text ++ behind) ++ rest)) =
          some (entry, behind ++ rest) := by
        rw [List.append_assoc, List.append_assoc, skipTrivia_append_solid trivia isAttribute.solid,
          attribute?_append isAttribute]
      rw [attributesFrom_eq, found]
      exact ih _

/-! ## Tags -/

theorem tagEnd?_tagMark (isWhole : Bool) (rest : List Char) :
    tagEnd? (tagMark isWhole ++ rest) = some (isWhole, rest) := by
  cases isWhole <;> rfl

theorem of_tagEnd? {text rest : List Char} {isWhole : Bool}
    (h : tagEnd? text = some (isWhole, rest)) : text = tagMark isWhole ++ rest := by
  unfold tagEnd? at h
  split at h
  · cases h
    rfl
  · cases h
    rfl
  · cases h

theorem solid_tagMark (isWhole : Bool) (rest : List Char) : Solid (tagMark isWhole ++ rest) := by
  cases isWhole <;> exact solid_of_ne (by decide) (by decide)

theorem attribute?_tagMark (isWhole : Bool) (rest : List Char) :
    attribute? (tagMark isWhole ++ rest) = none := by
  cases isWhole <;> rfl

theorem exists_of_tag? {text rest : List Char} {tag : Tag} (h : tag? text = some (tag, rest)) :
    ∃ front, TagText front tag ∧ text = front ++ rest := by
  unfold tag? at h
  obtain ⟨afterMark, hm, h⟩ := Option.bind_eq_some_iff.mp h
  obtain ⟨⟨name, afterName⟩, hn, h⟩ := Option.bind_eq_some_iff.mp h
  obtain ⟨⟨isWhole, after⟩, he, h⟩ := Option.map_eq_some_iff.mp h
  cases h
  obtain ⟨gap, first, onMark⟩ := exists_trivia afterMark
  obtain ⟨isName, ends, onName⟩ := of_name? hn
  obtain ⟨attributes, entries, isAttributes, onAttributes, map⟩ :=
    exists_of_attributesFrom ∅ afterName
  obtain ⟨back, second, onEnd⟩ := exists_trivia (attributesFrom ∅ afterName).2
  rw [onEnd, of_tagEnd? he] at onAttributes
  rw [onAttributes] at ends
  -- nor does what stands behind the tag
  have endsMark : EndsName (attributes ++ (back ++ tagMark isWhole)) := by
    intro c hc
    refine ends c ?_
    rw [Option.mem_def] at hc ⊢
    simp only [← List.append_assoc] at hc ⊢
    rw [List.head?_append, hc]
    rfl
  have tree : (⟨String.ofList name, (attributesFrom ∅ afterName).1, isWhole⟩ : Tag) =
      ⟨String.ofList name, .ofList entries, isWhole⟩ := by
    rw [map, OrderedMap.insertAll_empty]
  rw [tree]
  refine ⟨_, .mk first isName endsMark isAttributes second, ?_⟩
  rw [behind?_eq_some_iff.mp hm, onMark, onName, onAttributes]
  simp only [List.append_assoc, List.cons_append, List.nil_append]

/-- A tag of the grammar is taken off, whatever stands behind it. -/
theorem tag?_append {text rest : List Char} {tag : Tag} (h : TagText text tag) :
    tag? (text ++ rest) = some (tag, rest) := by
  cases h with
  | @mk gap name attributes back entries isWhole first isName ends isAttributes second =>
      have endsAll : EndsName (attributes ++ (back ++ tagMark isWhole) ++ rest) :=
        ends.append (by cases isWhole <;> simp [tagMark])
      have stop : skipTrivia (back ++ (tagMark isWhole ++ rest)) = tagMark isWhole ++ rest :=
        skipTrivia_append_solid second (solid_tagMark isWhole rest)
      have none : attribute? (skipTrivia (back ++ (tagMark isWhole ++ rest))) = none := by
        rw [stop, attribute?_tagMark]
      have skipped : skipTrivia (gap ++ (name ++ (attributes ++ (back ++
          (tagMark isWhole ++ rest))))) = name ++ (attributes ++ (back ++
          (tagMark isWhole ++ rest))) :=
        skipTrivia_append_solid first isName.solid
      simp only [List.append_assoc, List.cons_append] at endsAll ⊢
      rw [tag?, behind?_mark, Option.bind_some, skipped, name?_append isName endsAll,
        Option.bind_some]
      dsimp only
      rw [attributesFrom_append isAttributes none]
      dsimp only
      rw [stop, tagEnd?_tagMark, OrderedMap.insertAll_empty]
      rfl

theorem exists_of_behindClosingTag? {name : String} {text rest : List Char}
    (h : behindClosingTag? name text = some rest) :
    ∃ closing, ClosingTagText name closing ∧ text = closing ++ rest := by
  unfold behindClosingTag? at h
  obtain ⟨afterMark, hm, h⟩ := Option.bind_eq_some_iff.mp h
  obtain ⟨afterName, hn, he⟩ := Option.bind_eq_some_iff.mp h
  obtain ⟨gap, first, onMark⟩ := exists_trivia afterMark
  obtain ⟨back, second, onName⟩ := exists_trivia afterName
  rw [behind?_eq_some_iff.mp hn, onName, behind?_eq_some_iff.mp he] at onMark
  refine ⟨_, .mk first second, ?_⟩
  rw [behind?_eq_some_iff.mp hm, onMark]
  simp only [List.append_assoc, List.cons_append, List.nil_append]

theorem behindClosingTag?_append {name : String} {closing rest : List Char}
    (isName : IsName name.toList) (h : ClosingTagText name closing) :
    behindClosingTag? name (closing ++ rest) = some rest := by
  cases h with
  | @mk gap back first second =>
      have skipped : skipTrivia (gap ++ (name.toList ++ (back ++ '>' :: rest))) =
          name.toList ++ (back ++ '>' :: rest) :=
        skipTrivia_append_solid first isName.solid
      have stop : skipTrivia (back ++ '>' :: rest) = '>' :: rest :=
        skipTrivia_append_solid second (solid_of_ne (by decide) (by decide))
      have mark : behind? ['<', '/'] ('<' :: '/' :: (gap ++ (name.toList ++ (back ++ '>' :: rest))))
          = some (gap ++ (name.toList ++ (back ++ '>' :: rest))) :=
        behind?_append ['<', '/'] _
      simp only [List.append_assoc, List.cons_append, List.nil_append]
      rw [behindClosingTag?, mark, Option.bind_some, skipped, behind?_append, Option.bind_some,
        stop, behind?_mark]

end FormulaExport.Markup
