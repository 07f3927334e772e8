import FormulaExport.Markup.Reference
import FormulaExport.Proofs.Text.Numeral
import FormulaExport.Proofs.Text.Run

/-!
# Decoding and writing references

A reference is an ampersand, a text that stands for a character, and a semicolon; what stands for a
character is one of five names or a numeral of its code point (`StandsFor`). Neither mark of a
reference stands inside it, so a reference is found whatever surrounds it: an ampersand in front of it
reaches no further than the next one. Decoding replaces **each** reference by its character and leaves
the text around it to itself (`decode_append_reference`); it changes nothing exactly if there is no
reference. What is written for a value is read as that value (`decode_escape`).
-/

set_option autoImplicit false

namespace FormulaExport.Markup.Reference

open FormulaExport.Text

/-! ## What stands for a character -/

def names : List (List Char × Char) :=
  [(['l', 't'], '<'), (['g', 't'], '>'), (['a', 'm', 'p'], '&'), (['q', 'u', 'o', 't'], '"'),
    (['a', 'p', 'o', 's'], '\'')]

/-- What a text between ampersand and semicolon **stands for**: a name for its character, a numeral
for the character with that code point. -/
inductive StandsFor : List Char → Char → Prop where
  | name {body : List Char} {c : Char} : (body, c) ∈ names → StandsFor body c
  | decimal {number : List Char} {c : Char} :
      IsNumeral 10 number c.toNat → StandsFor ('#' :: number) c
  | hexadecimal {mark : Char} {number : List Char} {c : Char} : mark = 'x' ∨ mark = 'X' →
      IsNumeral 16 number c.toNat → StandsFor ('#' :: mark :: number) c

theorem characterOf?_eq_some_iff {n : Nat} {c : Char} : characterOf? n = some c ↔ n = c.toNat := by
  unfold characterOf?
  constructor
  · intro h
    split at h
    · next valid =>
      cases h
      rw [Char.ofNat, dif_pos valid]
      rfl
    · cases h
  · rintro rfl
    exact (if_pos c.valid).trans (congrArg some (Char.ofNat_toNat c))

theorem bind_characterOf?_eq_some_iff {base : Nat} (small : base ≤ 16) {number : List Char}
    {c : Char} :
    (numeral? base number).bind characterOf? = some c ↔ IsNumeral base number c.toNat := by
  rw [Option.bind_eq_some_iff]
  constructor
  · rintro ⟨n, read, isCode⟩
    rw [characterOf?_eq_some_iff] at isCode
    exact (numeral?_eq_some_iff small).mp (isCode ▸ read)
  · intro isNumeral
    exact ⟨_, (numeral?_eq_some_iff small).mpr isNumeral, characterOf?_eq_some_iff.mpr rfl⟩

theorem named?_eq_some_iff {body : List Char} {c : Char} :
    named? body = some c ↔ StandsFor body c := by
  constructor
  · intro h
    unfold named? at h
    split at h
    case h_6 => exact .hexadecimal (Or.inl rfl) ((bind_characterOf?_eq_some_iff (by decide)).mp h)
    case h_7 => exact .hexadecimal (Or.inr rfl) ((bind_characterOf?_eq_some_iff (by decide)).mp h)
    case h_8 => exact .decimal ((bind_characterOf?_eq_some_iff (by decide)).mp h)
    case h_9 => cases h
    all_goals
      cases h
      exact .name (by decide)
  · rintro (inside | isNumeral | ⟨rfl | rfl, isNumeral⟩)
    · simp only [names, List.mem_cons, List.not_mem_nil, or_false, Prod.mk.injEq] at inside
      rcases inside with ⟨rfl, rfl⟩ | ⟨rfl, rfl⟩ | ⟨rfl, rfl⟩ | ⟨rfl, rfl⟩ | ⟨rfl, rfl⟩ <;> rfl
    · rename_i number
      have read := (numeral?_eq_some_iff (by decide)).mpr isNumeral
      rw [named?]
      · exact (bind_characterOf?_eq_some_iff (by decide)).mpr isNumeral
      -- neither mark of a hexadecimal numeral is a decimal digit
      · rintro number rfl
        cases read
      · rintro number rfl
        cases read
    · exact (bind_characterOf?_eq_some_iff (by decide)).mpr isNumeral
    · exact (bind_characterOf?_eq_some_iff (by decide)).mpr isNumeral

theorem StandsFor.ne_of_mem {body : List Char} {c : Char} (h : StandsFor body c) {d : Char}
    (inside : d ∈ body) : d ≠ '&' ∧ d ≠ ';' := by
  have ofNumeral : ∀ {base n : Nat} {number : List Char}, base ≤ 16 → IsNumeral base number n →
      d ∈ number → d ≠ '&' ∧ d ≠ ';' := by
    intro base n number small isNumeral inside
    rcases isNumeral.mem small inside with rfl | ⟨digit, isDigit⟩
    · decide
    · constructor
      all_goals
        rintro rfl
        cases isDigit
  cases h with
  | name among =>
      have all : (names.all fun name => name.1.all fun d => d != '&' && d != ';') = true := by
        decide
      simpa using List.all_eq_true.mp (List.all_eq_true.mp all _ among) d inside
  | decimal isNumeral =>
      rcases List.mem_cons.mp inside with rfl | inside
      · decide
      · exact ofNumeral (by decide) isNumeral inside
  | hexadecimal isMark isNumeral =>
      rcases List.mem_cons.mp inside with rfl | inside
      · decide
      · rcases List.mem_cons.mp inside with rfl | inside
        · rcases isMark with rfl | rfl <;> decide
        · exact ofNumeral (by decide) isNumeral inside

/-! ## References -/

/-- A reference to a character. -/
def IsReference (text : List Char) (c : Char) : Prop :=
  ∃ body, StandsFor body c ∧ text = '&' :: (body ++ [';'])

theorem untilSemicolon?_eq_some_iff {text body rest : List Char} :
    untilSemicolon? text = some (body, rest) ↔ text = body ++ ';' :: rest ∧ ';' ∉ body := by
  unfold untilSemicolon?
  constructor
  · intro h
    cases behind : text.dropWhile (· != ';') with
    | nil => simp [behind] at h
    | cons c after =>
        rw [behind] at h
        cases h
        have stop := stop_dropWhile (· != ';') text
        rw [behind] at stop
        obtain rfl : c = ';' := by simpa using stop c rfl
        refine ⟨?_, fun inside => ?_⟩
        · rw [← behind, List.takeWhile_append_dropWhile]
        · simpa using List.mem_takeWhile_imp inside
  · rintro ⟨rfl, without⟩
    have all : ∀ c ∈ body, (c != ';') = true := fun c inside =>
      bne_iff_ne.mpr fun same => without (same ▸ inside)
    have stop : ∀ c ∈ (';' :: rest).head?, (c != ';') = false := by simp
    obtain ⟨taken, left⟩ := takeWhile_run all stop
    rw [taken, left]

/-- A reference is read behind its ampersand exactly if the text goes on with one. -/
theorem afterAmpersand?_eq_some_iff {text rest : List Char} {c : Char} :
    afterAmpersand? text = some (c, rest) ↔
      ∃ body, StandsFor body c ∧ text = body ++ ';' :: rest := by
  unfold afterAmpersand?
  constructor
  · intro h
    split at h
    · next body behind found =>
      obtain ⟨d, named, same⟩ := Option.map_eq_some_iff.mp h
      cases same
      exact ⟨body, named?_eq_some_iff.mp named, (untilSemicolon?_eq_some_iff.mp found).1⟩
    · cases h
  · rintro ⟨body, standsFor, split⟩
    have without : ';' ∉ body := fun inside => (standsFor.ne_of_mem inside).2 rfl
    rw [untilSemicolon?_eq_some_iff.mpr ⟨split, without⟩]
    dsimp only
    rw [named?_eq_some_iff.mpr standsFor]
    rfl

/-! ## Decoding -/

theorem decode_cons (c : Char) (text : List Char) :
    decode (c :: text) =
      if c = '&' then
        match afterAmpersand? text with
        | some (character, rest) => character :: decode rest
        | none => c :: decode text
      else c :: decode text := by
  rw [decode]
  grind

theorem decode_of_reference {text rest : List Char} {c : Char}
    (h : afterAmpersand? text = some (c, rest)) : decode ('&' :: text) = c :: decode rest := by
  rw [decode_cons, if_pos rfl, h]

theorem decode_of_stray {text : List Char} (h : afterAmpersand? text = none) :
    decode ('&' :: text) = '&' :: decode text := by
  rw [decode_cons, if_pos rfl, h]

theorem decode_of_ne {c : Char} (h : c ≠ '&') (text : List Char) :
    decode (c :: text) = c :: decode text := by
  rw [decode_cons, if_neg h]

/-- An ampersand that begins no reference in a text begins none with a reference behind it either:
it would reach over the ampersand of that one. -/
theorem afterAmpersand?_append_eq_none {text : List Char} (h : afterAmpersand? text = none)
    (more : List Char) : afterAmpersand? (text ++ '&' :: more) = none := by
  cases found : afterAmpersand? (text ++ '&' :: more) with
  | none => rfl
  | some split =>
      obtain ⟨c, rest⟩ := split
      obtain ⟨body, standsFor, whole⟩ := afterAmpersand?_eq_some_iff.mp found
      rcases List.append_eq_append_iff.mp whole with ⟨middle, rfl, reached⟩ | ⟨middle, rfl, reached⟩
      · cases middle with
        | nil => cases reached
        | cons d middle =>
            obtain ⟨rfl, -⟩ := List.cons.inj reached
            exact absurd rfl (standsFor.ne_of_mem
              (List.mem_append_right _ List.mem_cons_self)).1
      · cases middle with
        | nil => cases reached
        | cons d middle =>
            -- the semicolon stands in the text, so the reference was there before
            obtain ⟨rfl, -⟩ := List.cons.inj reached
            rw [afterAmpersand?_eq_some_iff.mpr ⟨body, standsFor, rfl⟩] at h
            cases h

/-- A reference is decoded whatever surrounds it, and the text around it by itself. -/
theorem decode_append_reference {reference : List Char} {c : Char} (h : IsReference reference c)
    (front back : List Char) :
    decode (front ++ (reference ++ back)) = decode front ++ c :: decode back := by
  obtain ⟨body, standsFor, rfl⟩ := h
  have reference : '&' :: (body ++ [';']) ++ back = '&' :: (body ++ ';' :: back) := by
    rw [List.cons_append, List.append_assoc, List.singleton_append]
  rw [reference]
  fun_induction decode front with
  | case1 => exact decode_of_reference (afterAmpersand?_eq_some_iff.mpr ⟨body, standsFor, rfl⟩)
  | case2 text character rest found ih =>
      -- the text goes on with a reference of its own, and that ends before the one behind it
      obtain ⟨body', standsFor', rfl⟩ := afterAmpersand?_eq_some_iff.mp found
      have found' : afterAmpersand? (body' ++ ';' :: rest ++ '&' :: (body ++ ';' :: back)) =
          some (character, rest ++ '&' :: (body ++ ';' :: back)) :=
        afterAmpersand?_eq_some_iff.mpr ⟨body', standsFor', by
          rw [List.append_assoc, List.cons_append]⟩
      rw [List.cons_append, decode_of_reference found', ih, List.cons_append]
  | case3 text stray ih =>
      rw [List.cons_append, decode_of_stray (afterAmpersand?_append_eq_none stray _), ih,
        List.cons_append]
  | case4 d text other ih => rw [List.cons_append, decode_of_ne other, ih, List.cons_append]

/-- A text with a reference in it. -/
def HasReference (text : List Char) : Prop :=
  ∃ reference c, IsReference reference c ∧ reference <:+: text

theorem length_decode_le (text : List Char) : (decode text).length ≤ text.length := by
  fun_induction decode text with
  | case1 => exact Nat.le_refl 0
  | case2 text character rest found ih =>
      have shorter := length_of_afterAmpersand? found
      simp only [List.length_cons]
      omega
  | case3 text _ ih => exact Nat.succ_le_succ ih
  | case4 d text _ ih => exact Nat.succ_le_succ ih

/-- Decoding leaves a text as it is exactly if there is no reference in it. -/
theorem decode_eq_self_iff {text : List Char} : decode text = text ↔ ¬ HasReference text := by
  constructor
  · rintro same ⟨reference, c, isReference, front, back, rfl⟩
    -- each reference has at least two characters in the place of one
    have shorter := congrArg List.length same
    rw [List.append_assoc, decode_append_reference isReference] at shorter
    obtain ⟨body, -, rfl⟩ := isReference
    have atFront := length_decode_le front
    have atBack := length_decode_le back
    simp only [List.length_append, List.length_cons, List.length_nil] at shorter
    omega
  · intro without
    fun_induction decode text with
    | case1 => rfl
    | case2 text character rest found ih =>
        obtain ⟨body, standsFor, rfl⟩ := afterAmpersand?_eq_some_iff.mp found
        exact absurd ⟨_, character, ⟨body, standsFor, rfl⟩, [], rest, by simp⟩ without
    | case3 text _ ih =>
        refine congrArg ('&' :: ·) (ih ?_)
        rintro ⟨reference, c, isReference, inside⟩
        exact without ⟨reference, c, isReference, List.infix_cons inside⟩
    | case4 d text _ ih =>
        refine congrArg (d :: ·) (ih ?_)
        rintro ⟨reference, c, isReference, inside⟩
        exact without ⟨reference, c, isReference, List.infix_cons inside⟩

/-! ## Writing -/

theorem decode_escapeChar (c : Char) (rest : List Char) :
    decode (escapeChar c ++ rest) = c :: decode rest := by
  unfold escapeChar
  split
  case h_5 notAmpersand _ => exact decode_of_ne notAmpersand rest
  all_goals exact decode_of_reference rfl

theorem decode_escape (value : List Char) : decode (escape value) = value := by
  induction value with
  | nil => rw [escape, List.flatMap_nil, decode]
  | cons c value ih =>
      rw [escape, List.flatMap_cons, decode_escapeChar, ← escape, ih]

theorem ne_of_mem_escape {value : List Char} {c : Char} (h : c ∈ escape value) :
    c ≠ '"' ∧ c ≠ '<' := by
  obtain ⟨d, -, inside⟩ := List.mem_flatMap.mp h
  unfold escapeChar at inside
  split at inside
  case h_5 notOpening _ _ notQuote =>
    rw [List.mem_singleton] at inside
    subst inside
    exact ⟨notQuote, notOpening⟩
  all_goals
    simp only [List.mem_cons, List.not_mem_nil, or_false] at inside
    rcases inside with rfl | rfl | rfl | rfl | rfl | rfl <;> decide

end FormulaExport.Markup.Reference

namespace FormulaExport.Markup

/-- Every reference in a value is decoded once, whatever surrounds it: what stands in front of it
and behind it is decoded by itself, and its character is not looked at again. A value without
references is kept, and no other value is. -/
theorem unescape_append_reference :
    (∀ (front reference back : String) (c : Char), Reference.IsReference reference.toList c →
      unescape (front ++ reference ++ back) =
        unescape front ++ String.singleton c ++ unescape back) ∧
      ∀ value : String, unescape value = value ↔ ¬ Reference.HasReference value.toList := by
  constructor
  · intro front reference back c isReference
    apply String.toList_inj.mp
    simp only [unescape, String.toList_append, String.toList_ofList, String.toList_singleton,
      List.append_assoc, List.singleton_append]
    exact Reference.decode_append_reference isReference front.toList back.toList
  · intro value
    rw [← Reference.decode_eq_self_iff, unescape, ← String.toList_inj, String.toList_ofList]

/-- A reference to an ampersand, behind a stray one and in front of what would be a reference with
it: neither is decoded again. -/
theorem unescape_append_ampersand :
    Reference.IsReference "&#x26;".toList '&' ∧
      unescape ("&am" ++ "&#x26;" ++ "lt;") = "&am&lt;" := by
  have isReference : Reference.IsReference "&#x26;".toList '&' :=
    ⟨['#', 'x', '2', '6'], Reference.named?_eq_some_iff.mp (by decide), by decide⟩
  refine ⟨isReference, ?_⟩
  rw [unescape_append_reference.1 "&am" "&#x26;" "lt;" '&' isReference]
  decide +kernel

end FormulaExport.Markup
