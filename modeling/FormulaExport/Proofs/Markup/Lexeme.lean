import Mathlib.Data.List.TakeWhile
import FormulaExport.Proofs.Markup.Grammar

/-!
# Ignored material, white space and comments

What the readers of ignored material take off a text is what the grammar says, and nothing stands
between two marks twice: none of the closing marks overlaps itself, so its first occurrence behind
the opening mark ends the material (`bind_behindFirst?_eq_some_iff`).

White space and comments need more care. `skipTrivia` leaves out as much as it can, while the
grammar lets any part of it stand. What matters is that leaving out a part first makes no difference
(`skipTrivia_append`).
-/

set_option autoImplicit false

namespace FormulaExport.Markup

open FormulaExport.Text

/-! ## Material between two marks -/

theorem behind?_append (word rest : List Char) : behind? word (word ++ rest) = some rest :=
  behind?_eq_some_iff.mpr rfl

theorem behind?_eq_none {word text : List Char} (h : ¬ word <+: text) : behind? word text = none := by
  cases b : behind? word text with
  | none => rfl
  | some rest => exact absurd ⟨rest, (behind?_eq_some_iff.mp b).symm⟩ h

theorem exists_of_behindFirst? {word text rest : List Char} (nonempty : word ≠ [])
    (h : behindFirst? word text = some rest) :
    ∃ body, ¬ word <:+: body ∧ text = body ++ (word ++ rest) := by
  have outside : ¬ word <:+: [] := fun inside => nonempty (List.infix_nil.mp inside)
  induction text with
  | nil =>
      rw [behindFirst?] at h
      rw [behind?_eq_some_iff] at h
      exact ⟨[], outside, h⟩
  | cons c text ih =>
      rw [behindFirst?] at h
      cases b : behind? word (c :: text) with
      | some found =>
          rw [b] at h
          cases h
          rw [behind?_eq_some_iff] at b
          exact ⟨[], outside, b⟩
      | none =>
          rw [b] at h
          obtain ⟨body, without, rfl⟩ := ih h
          refine ⟨c :: body, ?_, rfl⟩
          intro inside
          rcases List.infix_cons_iff.mp inside with ⟨back, front⟩ | later
          · -- the word would begin with `c`, but it is not found there
            have found := behind?_append word (back ++ (word ++ rest))
            rw [← List.append_assoc, front, List.cons_append, b] at found
            cases found
          · exact without later

/-- A word whose last character stands nowhere else in it does not overlap itself: in front of a
text and the word it begins only where it occurs in the text. -/
theorem infix_of_prefix_append {front body back : List Char} {last : Char} (alone : last ∉ front)
    (nonempty : body ≠ []) (h : front ++ [last] <+: body ++ (front ++ [last] ++ back)) :
    front ++ [last] <:+: body := by
  obtain ⟨after, split⟩ := h
  rcases List.append_eq_append_iff.mp split with ⟨more, rfl, -⟩ | ⟨tail, word, behind⟩
  · exact (List.prefix_append _ _).isInfix
  · rcases List.eq_nil_or_concat tail with rfl | ⟨tail, last', rfl⟩
    · rw [List.append_nil] at word
      exact word ▸ List.infix_refl _
    · -- a part of the word that is not all of it would end with the last character
      exfalso
      rw [List.concat_eq_append, ← List.append_assoc] at word
      obtain ⟨rfl, same⟩ := List.append_inj' word rfl
      cases same
      have longer := List.length_pos_iff.mpr nonempty
      rw [List.concat_eq_append, List.append_assoc, List.append_assoc tail] at behind
      rcases List.append_eq_append_iff.mp behind with ⟨more, e, -⟩ | ⟨more, e, f⟩
      · have := congrArg List.length e
        simp only [List.length_append] at this
        omega
      · cases more with
        | nil =>
            have := congrArg List.length e
            simp only [List.length_append, List.length_nil] at this
            omega
        | cons c more =>
            obtain ⟨rfl, -⟩ := List.cons.inj f
            apply alone
            rw [e]
            exact List.mem_append_right _ List.mem_cons_self

theorem behindFirst?_append {front body rest : List Char} {last : Char} (alone : last ∉ front)
    (without : ¬ front ++ [last] <:+: body) :
    behindFirst? (front ++ [last]) (body ++ (front ++ [last] ++ rest)) = some rest := by
  induction body with
  | nil =>
      have found := behind?_append (front ++ [last]) rest
      rw [List.nil_append]
      cases t : front ++ [last] ++ rest with
      | nil => simp at t
      | cons c text => rw [behindFirst?, ← t, found]
  | cons c body ih =>
      have later : ¬ front ++ [last] <+: c :: body ++ (front ++ [last] ++ rest) := fun h =>
        without (infix_of_prefix_append alone (List.cons_ne_nil _ _) h)
      rw [List.cons_append] at later ⊢
      rw [behindFirst?, behind?_eq_none later]
      exact ih fun inside => without (List.infix_cons inside)

/-- Taking off an opening mark and everything up to the closing one takes off an enclosed text. -/
theorem bind_behindFirst?_eq_some_iff {opening text rest : List Char} (front : List Char)
    {last : Char} (alone : last ∉ front) :
    (behind? opening text).bind (behindFirst? (front ++ [last])) = some rest ↔
      ∃ taken, Enclosed opening (front ++ [last]) taken ∧ text = taken ++ rest := by
  constructor
  · intro h
    obtain ⟨middle, first, last⟩ := Option.bind_eq_some_iff.mp h
    obtain ⟨body, without, rfl⟩ := exists_of_behindFirst? (by simp) last
    refine ⟨_, ⟨body, without, rfl⟩, ?_⟩
    rw [behind?_eq_some_iff.mp first]
    simp only [List.append_assoc]
  · rintro ⟨-, ⟨body, without, rfl⟩, rfl⟩
    rw [List.append_assoc, behind?_append, Option.bind_some, List.append_assoc]
    exact behindFirst?_append alone without

theorem behindComment?_eq_some_iff {text rest : List Char} :
    behindComment? text = some rest ↔ ∃ comment, IsComment comment ∧ text = comment ++ rest :=
  bind_behindFirst?_eq_some_iff ['-', '-'] (by decide : '>' ∉ ['-', '-'])

theorem behindDeclaration?_eq_some_iff {text rest : List Char} :
    behindDeclaration? text = some rest ↔
      ∃ declaration, IsDeclaration declaration ∧ text = declaration ++ rest :=
  bind_behindFirst?_eq_some_iff ['?'] (by decide : '>' ∉ ['?'])

theorem behindLiteral?_eq_some_iff {text rest : List Char} :
    behindLiteral? text = some rest ↔ ∃ literal, IsLiteral literal ∧ text = literal ++ rest :=
  bind_behindFirst?_eq_some_iff [']', ']'] (by decide : '>' ∉ [']', ']'])

theorem behindDocumentType?_eq_some_iff {text rest : List Char} :
    behindDocumentType? text = some rest ↔
      ∃ documentType, IsDocumentType documentType ∧ text = documentType ++ rest :=
  bind_behindFirst?_eq_some_iff [] (by decide : '>' ∉ [])

theorem exists_of_behindCharacters? {text rest : List Char}
    (h : behindCharacters? text = some rest) :
    ∃ run, IsCharacters run ∧ text = run ++ rest := by
  cases text with
  | nil => cases h
  | cons c text =>
      rw [behindCharacters?] at h
      split at h
      · cases h
      · next other =>
        cases h
        refine ⟨c :: text.takeWhile (· != '<'), ⟨List.cons_ne_nil _ _, ?_⟩, ?_⟩
        · intro d member
          rcases List.mem_cons.mp member with rfl | inside
          · exact other
          · simpa using List.mem_takeWhile_imp inside
        · rw [List.cons_append, List.takeWhile_append_dropWhile]

theorem exists_of_behindIgnored? {text rest : List Char} (h : behindIgnored? text = some rest) :
    ∃ item, IsIgnored item ∧ text = item ++ rest := by
  unfold behindIgnored? at h
  simp only [Option.orElse_eq_orElse, Option.orElse_eq_or, Option.or_eq_some_iff] at h
  rcases h with first | ⟨-, second | ⟨-, third⟩⟩
  · obtain ⟨literal, is, split⟩ := behindLiteral?_eq_some_iff.mp first
    exact ⟨literal, Or.inl is, split⟩
  · obtain ⟨declaration, is, split⟩ := behindDeclaration?_eq_some_iff.mp second
    exact ⟨declaration, Or.inr (Or.inl is), split⟩
  · obtain ⟨run, is, split⟩ := exists_of_behindCharacters? third
    exact ⟨run, Or.inr (Or.inr is), split⟩

/-! ## White space and comments -/

theorem exists_trivia (text : List Char) : ∃ gap, Trivia gap ∧ text = gap ++ skipTrivia text := by
  fun_induction skipTrivia text with
  | case1 => exact ⟨[], .nothing, rfl⟩
  | case2 c text isBlank ih =>
      obtain ⟨gap, trivia, split⟩ := ih
      exact ⟨c :: gap, .blank isBlank trivia, by rw [List.cons_append, ← split]⟩
  | case3 c text _ rest found ih =>
      obtain ⟨gap, trivia, split⟩ := ih
      obtain ⟨comment, isComment, front⟩ := behindComment?_eq_some_iff.mp found
      exact ⟨comment ++ gap, .comment isComment trivia,
        by rw [List.append_assoc, ← split, front]⟩
  | case4 c text _ _ => exact ⟨[], .nothing, rfl⟩

theorem skipTrivia_cons (c : Char) (text : List Char) :
    skipTrivia (c :: text) =
      if isBlank c then skipTrivia text
      else
        match behindComment? (c :: text) with
        | some rest => skipTrivia rest
        | none => c :: text := by
  rw [skipTrivia]
  grind

theorem skipTrivia_comment {comment text : List Char} (h : IsComment comment) :
    skipTrivia (comment ++ text) = skipTrivia text := by
  have found : behindComment? (comment ++ text) = some text :=
    behindComment?_eq_some_iff.mpr ⟨comment, h, rfl⟩
  obtain ⟨body, -, rfl⟩ := h
  simp only [List.cons_append] at found ⊢
  rw [skipTrivia_cons, if_neg (by decide), found]

/-- Leaving out a part first makes no difference. -/
theorem skipTrivia_append {gap text : List Char} (h : Trivia gap) :
    skipTrivia (gap ++ text) = skipTrivia text := by
  induction h with
  | nothing => rfl
  | blank isBlank _ ih => rw [List.cons_append, skipTrivia_cons, if_pos isBlank, ih]
  | comment isComment _ ih => rw [List.append_assoc, skipTrivia_comment isComment, ih]

/-- A text is solid if neither white space nor a comment begins it. -/
def Solid (text : List Char) : Prop := skipTrivia text = text

theorem solid_cons {c : Char} {text : List Char} (blank : isBlank c = false)
    (comment : behindComment? (c :: text) = none) : Solid (c :: text) := by
  rw [Solid, skipTrivia_cons, if_neg (by rw [blank]; exact Bool.false_ne_true), comment]

theorem solid_of_ne {c : Char} {text : List Char} (blank : isBlank c = false) (other : c ≠ '<') :
    Solid (c :: text) := by
  refine solid_cons blank ?_
  have none : behind? ['<', '!', '-', '-'] (c :: text) = none := by
    rw [behind?, if_neg other.symm]
  rw [behindComment?, none, Option.bind_none]

theorem solid_of_ne_mark {c : Char} {text : List Char} (other : c ≠ '!') :
    Solid ('<' :: c :: text) := by
  refine solid_cons (by decide) ?_
  have none : behind? ['<', '!', '-', '-'] ('<' :: c :: text) = none := by
    rw [behind?, if_pos rfl, behind?, if_neg other.symm]
  rw [behindComment?, none, Option.bind_none]

theorem solid_of_ne_hyphen {c : Char} {text : List Char} (other : c ≠ '-') :
    Solid ('<' :: '!' :: c :: text) := by
  refine solid_cons (by decide) ?_
  have none : behind? ['<', '!', '-', '-'] ('<' :: '!' :: c :: text) = none := by
    rw [behind?, if_pos rfl, behind?, if_pos rfl, behind?, if_neg other.symm]
  rw [behindComment?, none, Option.bind_none]

/-- In front of a solid text exactly the white space and the comments are left out. -/
theorem skipTrivia_append_solid {gap text : List Char} (h : Trivia gap) (solid : Solid text) :
    skipTrivia (gap ++ text) = text :=
  (skipTrivia_append h).trans solid

theorem skipTrivia_eq_nil {gap : List Char} (h : Trivia gap) : skipTrivia gap = [] := by
  rw [← List.append_nil gap, skipTrivia_append h, skipTrivia]

end FormulaExport.Markup
