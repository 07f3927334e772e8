import FormulaExport.Canonical.Text
import FormulaExport.Proofs.Canonical.Name

/-!
# What collapsing drops

An opening parenthesis is to be dropped if it belongs to a run of them that stands directly in front
of a quantification with a one-letter variable and a parenthesis behind it. No other character is
ever dropped (`loosened_collapse`), but not every such parenthesis is: the parenthesis behind a
quantification is not looked at again in the same round, and when it is gone, the quantification in
front of it is no longer one that is looked for. It takes three quantifications in a row to get
there. In a text without such a row **all** of these parentheses are dropped
(`toList_collapseQuantifiers`).
-/

set_option autoImplicit false

namespace FormulaExport

/-! ## Parentheses in front of quantifications -/

/-- Whether a text begins with a quantification, or with opening parentheses in front of one. -/
def opensQuantification : List Char → Bool
  | '(' :: rest => opensQuantification rest
  | sign :: letter :: dot :: '(' :: _ => beginsQuantification sign letter dot
  | _ => false

/-- Drops every opening parenthesis of the runs in front of quantifications. -/
def dropOpenings : List Char → List Char
  | [] => []
  | c :: text =>
    if c = '(' ∧ opensQuantification text then dropOpenings text else c :: dropOpenings text

/-- A text is **loosened** if some of the opening parentheses in front of quantifications are
dropped. -/
inductive Loosened : List Char → List Char → Prop where
  | nil : Loosened [] []
  | keep (c : Char) {text loose : List Char} : Loosened text loose →
      Loosened (c :: text) (c :: loose)
  | drop {text loose : List Char} : opensQuantification text = true → Loosened text loose →
      Loosened ('(' :: text) loose

/-- What a round looks for: a quantification with a one-letter variable, between opening
parentheses. -/
def IsParenthesized (word : List Char) : Prop :=
  ∃ sign letter, (sign = '∀' ∨ sign = '∃') ∧ ('a' ≤ letter ∧ letter ≤ 'z') ∧
    word = ['(', sign, letter, '.', '(']

/-- A **row** of quantifications, each with opening parentheses in front of it, and the parentheses
behind the last one. -/
inductive IsRow : Nat → List Char → Prop where
  | behind : IsRow 0 ['(']
  | opening {count : Nat} {text : List Char} : IsRow count text → IsRow count ('(' :: text)
  | quantification {count : Nat} {text : List Char} {sign letter dot : Char} :
      beginsQuantification sign letter dot = true → IsRow count text →
      IsRow (count + 1) ('(' :: sign :: letter :: dot :: text)

/-! ## Beginning with a quantification -/

theorem beginsQuantification_eq_true_iff {sign letter dot : Char} :
    beginsQuantification sign letter dot = true ↔
      (sign = '∀' ∨ sign = '∃') ∧ ('a' ≤ letter ∧ letter ≤ 'z') ∧ dot = '.' := by
  simp [beginsQuantification, and_assoc]

theorem ne_of_beginsQuantification {sign letter dot : Char}
    (h : beginsQuantification sign letter dot = true) :
    (sign = '∀' ∨ sign = '∃') ∧ (letter ≠ '(' ∧ letter ≠ '∀' ∧ letter ≠ '∃') ∧ dot = '.' := by
  obtain ⟨isSign, isLetter, isDot⟩ := beginsQuantification_eq_true_iff.mp h
  refine ⟨isSign, ⟨?_, ?_, ?_⟩, isDot⟩
  all_goals
    rintro rfl
    exact absurd isLetter (by decide)

theorem opensQuantification_of_begins {sign letter dot : Char}
    (h : beginsQuantification sign letter dot = true) (rest : List Char) :
    opensQuantification (sign :: letter :: dot :: '(' :: rest) = true := by
  rw [opensQuantification, h]
  rintro rfl
  exact absurd (ne_of_beginsQuantification h).1 (by decide)

/-- A text that begins with a quantification, or with parentheses in front of one, begins with a
parenthesis or a quantification. -/
theorem opensQuantification_eq_true_iff {text : List Char} :
    opensQuantification text = true ↔
      (∃ rest, text = '(' :: rest ∧ opensQuantification rest = true) ∨
        ∃ sign letter dot rest, text = sign :: letter :: dot :: '(' :: rest ∧
          beginsQuantification sign letter dot = true := by
  constructor
  · intro h
    fun_cases opensQuantification text with
    | case1 rest => exact Or.inl ⟨rest, rfl, h⟩
    | case2 sign letter dot rest _ =>
        rw [opensQuantification] at h
        · exact Or.inr ⟨sign, letter, dot, rest, rfl, h⟩
        · assumption
    | case3 =>
        rw [opensQuantification] at h
        · cases h
        · assumption
        · assumption
  · rintro (⟨rest, rfl, opens⟩ | ⟨sign, letter, dot, rest, rfl, begins⟩)
    · exact opens
    · exact opensQuantification_of_begins begins rest

/-! ## Loosened texts -/

theorem Loosened.refl (text : List Char) : Loosened text text := by
  induction text with
  | nil => exact .nil
  | cons c text ih => exact .keep c ih

/-- A word without parentheses and quantifiers at the front of a loosened text is at the front of
the text too: what is dropped stands in front of a quantifier. -/
theorem Loosened.prefix_of_prefix {text loose : List Char} (h : Loosened text loose)
    {word : List Char} (plain : ∀ c ∈ word, c ≠ '(' ∧ c ≠ '∀' ∧ c ≠ '∃') (front : word <+: loose) :
    word <+: text := by
  induction h generalizing word with
  | nil => exact front
  | keep c _ ih =>
      cases word with
      | nil => exact List.nil_prefix
      | cons d word =>
          obtain ⟨rfl, behind⟩ := List.cons_prefix_cons.mp front
          refine List.cons_prefix_cons.mpr ⟨rfl, ih (fun d inside => ?_) behind⟩
          exact plain d (List.mem_cons_of_mem _ inside)
  | @drop text loose opens _ ih =>
      cases word with
      | nil => exact List.nil_prefix
      | cons d word =>
          -- the word would begin with a parenthesis or a quantifier
          obtain ⟨notOpening, notAll, notSome⟩ := plain d List.mem_cons_self
          have behind := ih plain front
          rcases opensQuantification_eq_true_iff.mp opens with
            ⟨rest, rfl, -⟩ | ⟨sign, letter, dot, rest, rfl, begins⟩
          · exact absurd (List.cons_prefix_cons.mp behind).1 notOpening
          · obtain ⟨rfl, -⟩ := List.cons_prefix_cons.mp behind
            rcases (ne_of_beginsQuantification begins).1 with same | same
            · exact absurd same notAll
            · exact absurd same notSome

theorem Loosened.prefix_loose {word text loose : List Char} (h : Loosened text loose)
    (noOpening : '(' ∉ word) (front : word <+: text) : word <+: loose := by
  induction h generalizing word with
  | nil => exact front
  | keep c _ ih =>
      cases word with
      | nil => exact List.nil_prefix
      | cons d word =>
          obtain ⟨same, behind⟩ := List.cons_prefix_cons.mp front
          exact List.cons_prefix_cons.mpr
            ⟨same, ih (fun inside => noOpening (List.mem_cons_of_mem _ inside)) behind⟩
  | drop _ _ _ =>
      cases word with
      | nil => exact List.nil_prefix
      | cons d word =>
          obtain ⟨rfl, -⟩ := List.cons_prefix_cons.mp front
          exact absurd List.mem_cons_self noOpening

theorem Loosened.infix_loose {word text loose : List Char} (h : Loosened text loose)
    (noOpening : '(' ∉ word) (inside : word <:+: text) : word <:+: loose := by
  induction h with
  | nil => exact inside
  | keep c kept ih =>
      rcases List.infix_cons_iff.mp inside with front | later
      · exact ((kept.keep c).prefix_loose noOpening front).isInfix
      · exact (ih later).trans (List.suffix_cons c _).isInfix
  | drop opens kept ih =>
      rcases List.infix_cons_iff.mp inside with front | later
      · exact ((Loosened.drop opens kept).prefix_loose noOpening front).isInfix
      · exact ih later

theorem Loosened.exists_cons {c : Char} {text loose : List Char} (h : Loosened text (c :: loose))
    (plain : c ≠ '(' ∧ c ≠ '∀' ∧ c ≠ '∃') : ∃ rest, text = c :: rest ∧ Loosened rest loose := by
  have front : [c] <+: text :=
    h.prefix_of_prefix (List.forall_mem_singleton.mpr plain) ⟨loose, rfl⟩
  cases h with
  | keep _ h => exact ⟨_, rfl, h⟩
  | drop _ _ => exact absurd (List.cons_prefix_cons.mp front).1 plain.1

theorem Loosened.exists_quantification {sign letter dot : Char} {text loose : List Char}
    (h : Loosened text (letter :: dot :: loose))
    (begins : beginsQuantification sign letter dot = true) :
    ∃ rest, text = letter :: dot :: rest ∧ Loosened rest loose := by
  obtain ⟨-, isLetter, rfl⟩ := ne_of_beginsQuantification begins
  obtain ⟨behind, rfl, kept⟩ := h.exists_cons isLetter
  obtain ⟨rest, rfl, kept'⟩ := kept.exists_cons (by decide)
  exact ⟨rest, rfl, kept'⟩

theorem Loosened.exists_opening {text loose : List Char} (h : Loosened text ('(' :: loose)) :
    ∃ rest, text = '(' :: rest := by
  cases h with
  | keep _ _ => exact ⟨_, rfl⟩
  | drop _ _ => exact ⟨_, rfl⟩

theorem Loosened.opensQuantification {text loose : List Char} (h : Loosened text loose)
    (opens : opensQuantification loose = true) : opensQuantification text = true := by
  induction h with
  | nil => exact opens
  | @keep c text loose kept ih =>
      rcases opensQuantification_eq_true_iff.mp opens with
        ⟨rest, same, opens'⟩ | ⟨sign, letter, dot, rest, same, begins⟩
      · obtain ⟨rfl, rfl⟩ := List.cons.inj same
        exact ih opens'
      · obtain ⟨rfl, rfl⟩ := List.cons.inj same
        obtain ⟨behind, rfl, kept'⟩ := kept.exists_quantification begins
        obtain ⟨rest', rfl⟩ := kept'.exists_opening
        exact opensQuantification_of_begins begins rest'
  | drop opens' _ _ => exact opens'

theorem Loosened.trans {text loose looser : List Char} (h : Loosened text loose)
    (h' : Loosened loose looser) : Loosened text looser := by
  induction h generalizing looser with
  | nil => exact h'
  | keep c h ih =>
      cases h' with
      | keep _ h' => exact .keep c (ih h')
      | drop opens h' => exact .drop (h.opensQuantification opens) (ih h')
  | drop opens _ ih => exact .drop opens (ih h')

theorem Loosened.length_le {text loose : List Char} (h : Loosened text loose) :
    loose.length ≤ text.length := by
  induction h with
  | nil => exact Nat.le_refl 0
  | keep c _ ih => exact Nat.succ_le_succ ih
  | drop _ _ ih => exact Nat.le_succ_of_le ih

theorem loosened_collapseRound (text : List Char) : Loosened text (collapseRound text) := by
  fun_induction collapseRound text with
  | case1 sign letter dot rest begins ih =>
      have kept := ((((ih.keep '(').keep dot).keep letter).keep sign)
      exact .drop (opensQuantification_of_begins begins rest) kept
  | case2 sign letter dot rest _ ih => exact ih.keep '('
  | case3 c rest _ ih => exact ih.keep c
  | case4 => exact .nil

/-- Collapsing loosens a text: it drops nothing but opening parentheses in front of quantifications.
-/
theorem loosened_collapse (text : List Char) : Loosened text (collapse text) := by
  fun_induction collapse text with
  | case1 text _ ih => exact (loosened_collapseRound text).trans ih
  | case2 text _ => exact .refl text

/-! ## What a round looks for -/

theorem exists_prefix_isParenthesized_iff {text : List Char} :
    (∃ word, word <+: text ∧ IsParenthesized word) ↔
      ∃ sign letter dot rest, text = '(' :: sign :: letter :: dot :: '(' :: rest ∧
        beginsQuantification sign letter dot = true := by
  constructor
  · rintro ⟨_, ⟨rest, rfl⟩, sign, letter, isSign, isLetter, rfl⟩
    exact ⟨sign, letter, '.', rest, rfl, beginsQuantification_eq_true_iff.mpr ⟨isSign, isLetter, rfl⟩⟩
  · rintro ⟨sign, letter, dot, rest, rfl, begins⟩
    obtain ⟨isSign, isLetter, rfl⟩ := beginsQuantification_eq_true_iff.mp begins
    exact ⟨_, ⟨rest, rfl⟩, sign, letter, isSign, isLetter, rfl⟩

theorem hasParenthesized_cons_iff {c : Char} {text : List Char} :
    hasParenthesized (c :: text) = true ↔
      (∃ word, word <+: c :: text ∧ IsParenthesized word) ∨ hasParenthesized text = true := by
  rw [exists_prefix_isParenthesized_iff, hasParenthesized.eq_def (c :: text)]
  split
  · next same =>
    obtain ⟨rfl, rfl⟩ := List.cons.inj same
    simp
  · next other same =>
    obtain ⟨rfl, rfl⟩ := List.cons.inj same
    refine ⟨Or.inr, fun either => either.resolve_left ?_⟩
    rintro ⟨sign, letter, dot, rest, same, -⟩
    obtain ⟨rfl, rfl⟩ := List.cons.inj same
    exact other sign letter dot rest rfl rfl
  · next same => cases same

/-- There is something to collapse in a text exactly if what a round looks for stands in it. -/
theorem hasParenthesized_eq_false_iff {text : List Char} :
    hasParenthesized text = false ↔ FreeOf IsParenthesized text := by
  induction text with
  | nil =>
      refine ⟨fun _ word inside => ?_, fun _ => rfl⟩
      rintro ⟨sign, letter, -, -, rfl⟩
      exact absurd (List.infix_nil.mp inside) (List.cons_ne_nil _ _)
  | cons c text ih =>
      rw [← Bool.not_eq_true, hasParenthesized_cons_iff, not_or, Bool.not_eq_true, ih]
      constructor
      · rintro ⟨front, behind⟩ word inside isWord
        rcases List.infix_cons_iff.mp inside with atFront | later
        · exact front ⟨word, atFront, isWord⟩
        · exact behind word later isWord
      · intro free
        refine ⟨?_, free.of_infix (List.suffix_cons c text).isInfix⟩
        rintro ⟨word, front, isWord⟩
        exact free word front.isInfix isWord

/-! ## Nothing left to collapse -/

theorem collapse_of_not_hasParenthesized {text : List Char} (h : hasParenthesized text = false) :
    collapse text = text := by
  rw [collapse, dif_neg (Bool.not_eq_true _ ▸ h)]

theorem hasParenthesized_collapse (text : List Char) : hasParenthesized (collapse text) = false := by
  fun_induction collapse text with
  | case1 text _ ih => exact ih
  | case2 text done => exact Bool.not_eq_true _ ▸ done

theorem hasParenthesized_cons {text : List Char} (h : hasParenthesized text = true) (c : Char) :
    hasParenthesized (c :: text) = true :=
  hasParenthesized_cons_iff.mpr (Or.inr h)

theorem hasParenthesized_opening {text : List Char} (h : opensQuantification text = true) :
    hasParenthesized ('(' :: text) = true := by
  induction text with
  | nil => cases h
  | cons c text ih =>
      rcases opensQuantification_eq_true_iff.mp h with
        ⟨rest, same, opens⟩ | ⟨sign, letter, dot, rest, same, begins⟩
      · obtain ⟨rfl, rfl⟩ := List.cons.inj same
        exact hasParenthesized_cons (ih opens) '('
      · rw [same, hasParenthesized, begins, Bool.true_or]

theorem dropOpenings_of_not_hasParenthesized {text : List Char}
    (h : hasParenthesized text = false) : dropOpenings text = text := by
  induction text with
  | nil => rfl
  | cons c text ih =>
      rw [dropOpenings, if_neg, ih]
      · by_contra more
        rw [hasParenthesized_cons (Bool.not_eq_false _ ▸ more) c] at h
        cases h
      · rintro ⟨rfl, opens⟩
        rw [hasParenthesized_opening opens] at h
        cases h

/-! ## Rows of quantifications -/

theorem IsRow.openings {count : Nat} {text : List Char} (h : IsRow count text) (more : Nat) :
    IsRow count (List.replicate more '(' ++ text) := by
  induction more with
  | zero => exact h
  | succ more ih => exact ih.opening

theorem IsRow.openings_behind {count : Nat} {text : List Char} (h : IsRow count ('(' :: text))
    (more : Nat) : IsRow count ('(' :: (List.replicate more '(' ++ text)) := by
  induction more with
  | zero => exact h
  | succ more ih => exact ih.opening

theorem Loosened.exists_openings {c : Char} {text loose : List Char}
    (h : Loosened text (c :: loose)) :
    ∃ more rest, text = List.replicate more '(' ++ c :: rest ∧ Loosened rest loose := by
  generalize whole : c :: loose = loose' at h
  induction h with
  | nil => cases whole
  | keep _ kept _ =>
      cases whole
      exact ⟨0, _, rfl, kept⟩
  | drop _ _ ih =>
      obtain ⟨more, rest, rfl, kept⟩ := ih whole
      exact ⟨more + 1, rest, rfl, kept⟩

/-- Where a row begins in a loosened text, one of the same number of quantifications begins in the
text. -/
theorem Loosened.exists_row {count : Nat} {word text loose : List Char} (row : IsRow count word)
    (h : Loosened text loose) (front : word <+: loose) :
    ∃ word', word' <+: text ∧ IsRow count word' := by
  induction row generalizing text loose with
  | behind =>
      obtain ⟨back, rfl⟩ := front
      obtain ⟨rest, rfl⟩ := h.exists_opening
      exact ⟨['('], ⟨rest, rfl⟩, .behind⟩
  | @opening count word row ih =>
      obtain ⟨back, rfl⟩ := front
      obtain ⟨more, rest, rfl, kept⟩ := h.exists_openings
      obtain ⟨word', front', row'⟩ := ih kept (List.prefix_append word back)
      exact ⟨_, (List.prefix_append_right_inj _).mpr (List.cons_prefix_cons.mpr ⟨rfl, front'⟩),
        row'.opening.openings more⟩
  | @quantification count word sign letter dot begins row ih =>
      obtain ⟨back, rfl⟩ := front
      have whole : Loosened text ('(' :: sign :: letter :: dot :: (word ++ back)) := h
      obtain ⟨more, behind, rfl, kept⟩ := whole.exists_openings
      obtain ⟨more', behind', rfl, kept'⟩ := kept.exists_openings
      obtain ⟨rest, rfl, kept''⟩ := kept'.exists_quantification begins
      obtain ⟨word', front', row'⟩ := ih kept'' (List.prefix_append word back)
      -- the parentheses that were dropped stand between that of the row and the quantification
      have row'' := ((row'.quantification begins).openings_behind more').openings more
      refine ⟨_, (List.prefix_append_right_inj _).mpr (List.cons_prefix_cons.mpr ⟨rfl, ?_⟩), row''⟩
      refine (List.prefix_append_right_inj _).mpr ?_
      simpa only [List.cons_prefix_cons, true_and] using front'

theorem Loosened.exists_suffix {front text loose : List Char} (h : Loosened text (front ++ loose)) :
    ∃ rest, rest <:+ text ∧ Loosened rest loose := by
  induction front generalizing text with
  | nil => exact ⟨text, List.suffix_rfl, h⟩
  | cons c front ih =>
      obtain ⟨more, behind, rfl, kept⟩ := h.exists_openings
      obtain ⟨rest, back, kept'⟩ := ih kept
      exact ⟨rest, back.trans ((List.suffix_cons c behind).trans (List.suffix_append _ _)), kept'⟩

theorem Loosened.freeOf_row {count : Nat} {text loose : List Char} (h : Loosened text loose)
    (free : FreeOf (IsRow count) text) : FreeOf (IsRow count) loose := by
  rintro word ⟨front, back, rfl⟩ row
  rw [List.append_assoc] at h
  obtain ⟨rest, suffix, kept⟩ := h.exists_suffix
  obtain ⟨word', front', row'⟩ := kept.exists_row row (List.prefix_append word back)
  exact free word' (List.infix_iff_prefix_suffix.mpr ⟨rest, front', suffix⟩) row'

/-! ## Texts without long rows -/

theorem collapseRound_parenthesized {sign letter dot : Char}
    (h : beginsQuantification sign letter dot = true) (rest : List Char) :
    collapseRound ('(' :: sign :: letter :: dot :: '(' :: rest) =
      sign :: letter :: dot :: '(' :: collapseRound rest := by
  rw [collapseRound, if_pos h]

theorem collapseRound_cons_of_ne {c : Char} (h : c ≠ '(') (text : List Char) :
    collapseRound (c :: text) = c :: collapseRound text := by
  rw [collapseRound]
  rintro _ _ _ _ rfl
  exact absurd rfl h

theorem collapseRound_opening {text : List Char}
    (h : ∀ sign letter dot rest, text = sign :: letter :: dot :: '(' :: rest →
      beginsQuantification sign letter dot = false) :
    collapseRound ('(' :: text) = '(' :: collapseRound text := by
  rw [collapseRound.eq_def]
  split
  · next sign letter dot rest same =>
    obtain ⟨-, same⟩ := List.cons.inj same
    rw [h sign letter dot rest same, if_neg Bool.false_ne_true, same]
  · next same =>
    obtain ⟨rfl, rfl⟩ := List.cons.inj same
    rfl
  · next same => cases same

theorem collapseRound_opening_opening (text : List Char) :
    collapseRound ('(' :: '(' :: text) = '(' :: collapseRound ('(' :: text) := by
  apply collapseRound_opening
  rintro _ _ _ _ same
  obtain ⟨rfl, -⟩ := List.cons.inj same
  rfl

/-- A round leaves a run of parentheses in front of a quantification, if it is in front of one: it
takes the last parenthesis, and keeps the one behind the quantification. -/
theorem opensQuantification_collapseRound_opening {text : List Char}
    (h : opensQuantification text = true) :
    opensQuantification (collapseRound ('(' :: text)) = true := by
  induction text with
  | nil => cases h
  | cons c text ih =>
      rcases opensQuantification_eq_true_iff.mp h with
        ⟨rest, same, opens⟩ | ⟨sign, letter, dot, rest, same, begins⟩
      · obtain ⟨rfl, rfl⟩ := List.cons.inj same
        rw [collapseRound_opening_opening]
        exact ih opens
      · rw [same, collapseRound_parenthesized begins]
        exact opensQuantification_of_begins begins _

/-- Without a row of two at the front, a round leaves a quantification at the front as it is. -/
theorem opensQuantification_collapseRound {text : List Char} (h : opensQuantification text = true)
    (short : ∀ word, word <+: '(' :: text → ¬ IsRow 2 word) :
    opensQuantification (collapseRound text) = true := by
  rcases opensQuantification_eq_true_iff.mp h with
    ⟨rest, rfl, opens⟩ | ⟨sign, letter, dot, rest, rfl, begins⟩
  · exact opensQuantification_collapseRound_opening opens
  · obtain ⟨isSign, isLetter, rfl⟩ := ne_of_beginsQuantification begins
    have notOpening : sign ≠ '(' := by
      rcases isSign with rfl | rfl <;> decide
    have kept : collapseRound ('(' :: rest) = '(' :: collapseRound rest := by
      -- a quantification behind the parenthesis would be the second one of a row
      apply collapseRound_opening
      rintro sign' letter' dot' rest' rfl
      by_contra begins'
      have row := (IsRow.behind.quantification (Bool.not_eq_false _ ▸ begins')).quantification begins
      exact short _ ⟨rest', rfl⟩ row
    rw [collapseRound_cons_of_ne notOpening, collapseRound_cons_of_ne isLetter.1,
      collapseRound_cons_of_ne (by decide), kept]
    exact opensQuantification_of_begins begins _

theorem dropOpenings_cons_congr {c : Char} {text text' : List Char}
    (same : dropOpenings text = dropOpenings text')
    (opens : c = '(' → opensQuantification text = opensQuantification text') :
    dropOpenings (c :: text) = dropOpenings (c :: text') := by
  by_cases opening : c = '('
  · rw [dropOpenings, dropOpenings, same, opens opening]
  · rw [dropOpenings, dropOpenings, same, if_neg fun both => opening both.1,
      if_neg fun both => opening both.1]

theorem opensQuantification_collapseRound_eq {text : List Char}
    (h : opensQuantification text = true → opensQuantification (collapseRound text) = true) :
    opensQuantification (collapseRound text) = opensQuantification text :=
  Bool.eq_iff_iff.mpr ⟨(loosened_collapseRound text).opensQuantification, h⟩

/-- Behind a parenthesis that stays, a quantification is left as it is: another parenthesis is in
front of it. -/
theorem opensQuantification_collapseRound_behind {text : List Char}
    (h : ∀ sign letter dot rest, text = sign :: letter :: dot :: '(' :: rest →
      beginsQuantification sign letter dot = false) :
    opensQuantification (collapseRound text) = opensQuantification text := by
  apply opensQuantification_collapseRound_eq
  intro opens
  rcases opensQuantification_eq_true_iff.mp opens with
    ⟨rest, rfl, opens'⟩ | ⟨sign, letter, dot, rest, same, begins⟩
  · exact opensQuantification_collapseRound_opening opens'
  · rw [h sign letter dot rest same] at begins
    cases begins

/-- In a text without a row of three quantifications a round changes nothing about what is left when
all parentheses are dropped. -/
theorem dropOpenings_collapseRound {text : List Char} (free : FreeOf (IsRow 3) text) :
    dropOpenings (collapseRound text) = dropOpenings text := by
  have tail : ∀ {c : Char} {rest : List Char}, FreeOf (IsRow 3) (c :: rest) →
      FreeOf (IsRow 3) rest := fun free => free.of_infix (List.suffix_cons _ _).isInfix
  fun_induction collapseRound text with
  | case1 sign letter dot rest begins ih =>
      obtain ⟨isSign, isLetter, isDot⟩ := ne_of_beginsQuantification begins
      have dropped : dropOpenings ('(' :: sign :: letter :: dot :: '(' :: rest) =
          dropOpenings (sign :: letter :: dot :: '(' :: rest) := by
        rw [dropOpenings, if_pos ⟨rfl, opensQuantification_of_begins begins rest⟩]
      have behind : opensQuantification (collapseRound rest) = opensQuantification rest := by
        apply opensQuantification_collapseRound_eq
        intro opens
        apply opensQuantification_collapseRound opens
        -- with a row of two behind it, this quantification would begin a row of three
        intro word front row
        apply free ('(' :: sign :: letter :: dot :: word) _ (row.quantification begins)
        exact List.IsPrefix.isInfix (by simpa only [List.cons_prefix_cons, true_and] using front)
      rw [dropped]
      have atOpening := dropOpenings_cons_congr (c := '(') (ih (tail (tail (tail (tail (tail free))))))
        fun _ => behind
      refine dropOpenings_cons_congr (dropOpenings_cons_congr
        (dropOpenings_cons_congr atOpening ?_) ?_) ?_
      · rintro rfl
        exact absurd isDot (by decide)
      · intro opening
        exact absurd opening isLetter.1
      · rintro rfl
        exact absurd isSign (by decide)
  | case2 sign letter dot rest other ih =>
      refine dropOpenings_cons_congr (ih (tail free)) fun _ => ?_
      apply opensQuantification_collapseRound_behind
      intro _ _ _ _ same
      cases same
      exact Bool.not_eq_true _ ▸ other
  | case3 c rest other ih =>
      refine dropOpenings_cons_congr (ih (tail free)) fun opening => ?_
      apply opensQuantification_collapseRound_behind
      intro sign letter dot rest' same
      exact absurd same (other sign letter dot rest' opening)
  | case4 => rfl

theorem collapse_eq_dropOpenings {text : List Char} (free : FreeOf (IsRow 3) text) :
    collapse text = dropOpenings text := by
  fun_induction collapse text with
  | case1 text _ ih =>
      rw [ih ((loosened_collapseRound text).freeOf_row free), dropOpenings_collapseRound free]
  | case2 text done =>
      exact (dropOpenings_of_not_hasParenthesized (Bool.not_eq_true _ ▸ done)).symm

/-- Only opening parentheses of the runs in front of quantifications are dropped, and in a text
without a row of three quantifications all of them are. -/
theorem toList_collapseQuantifiers (text : String) :
    Loosened text.toList (collapseQuantifiers text).toList ∧
      (FreeOf (IsRow 3) text.toList →
        (collapseQuantifiers text).toList = dropOpenings text.toList) := by
  rw [collapseQuantifiers, String.toList_ofList]
  exact ⟨loosened_collapse text.toList, collapse_eq_dropOpenings⟩

def isQuantifierSign (c : Char) : Bool := c == '∀' || c == '∃'

/-- A row has as many quantifiers as quantifications, so there is none of three in a text with two
quantifiers. -/
theorem IsRow.count_le {count : Nat} {text : List Char} (h : IsRow count text) :
    count ≤ text.countP isQuantifierSign := by
  induction h with
  | behind => exact Nat.zero_le _
  | opening _ ih => rwa [List.countP_cons_of_neg (by decide)]
  | @quantification count text sign letter dot begins _ ih =>
      have isSign : isQuantifierSign sign = true := by
        rcases (ne_of_beginsQuantification begins).1 with rfl | rfl <;> rfl
      rw [List.countP_cons_of_neg (by decide), List.countP_cons_of_pos isSign]
      have behind : text.countP isQuantifierSign ≤ (letter :: dot :: text).countP isQuantifierSign :=
        List.Sublist.countP_le (List.IsSuffix.sublist ⟨[letter, dot], rfl⟩)
      omega

theorem freeOf_isRow_of_countP_lt {count : Nat} {text : List Char}
    (few : text.countP isQuantifierSign < count) : FreeOf (IsRow count) text := by
  intro word inside row
  have most := inside.sublist.countP_le (p := isQuantifierSign)
  have least := row.count_le
  omega

theorem toList_collapseQuantifiers_nested :
    FreeOf (IsRow 3) "((∀x.((∃y.(E(x, y)".toList ∧
      (collapseQuantifiers "((∀x.((∃y.(E(x, y)").toList = "∀x.∃y.(E(x, y)".toList := by
  have free : FreeOf (IsRow 3) "((∀x.((∃y.(E(x, y)".toList :=
    freeOf_isRow_of_countP_lt (by decide)
  exact ⟨free, ((toList_collapseQuantifiers _).2 free).trans (by decide)⟩

/-- In a row of three the parenthesis in front of the second quantification stays. -/
theorem toList_collapseQuantifiers_row_of_three :
    (collapseQuantifiers "¬(∀x.(∃y.(∃z.(R(x, y)))))").toList =
        "¬∀x.(∃y.∃z.(R(x, y)))))".toList ∧
      dropOpenings "¬(∀x.(∃y.(∃z.(R(x, y)))))".toList = "¬∀x.∃y.∃z.(R(x, y)))))".toList := by
  have one : hasParenthesized "¬(∀x.(∃y.(∃z.(R(x, y)))))".toList = true := by decide
  have round : collapseRound "¬(∀x.(∃y.(∃z.(R(x, y)))))".toList =
      "¬∀x.(∃y.∃z.(R(x, y)))))".toList := by decide
  have none : ¬ hasParenthesized "¬∀x.(∃y.∃z.(R(x, y)))))".toList = true := by decide
  refine ⟨?_, by decide⟩
  rw [collapseQuantifiers, String.toList_ofList, collapse, dif_pos one, round, collapse,
    dif_neg none]

end FormulaExport
