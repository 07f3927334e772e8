import Mathlib.Data.List.Forall2
import Mathlib.Data.Nat.Digits.Defs
import FormulaExport.Text.Numeral

/-!
# The values of numerals

What a numeral is, said without a reader: an optional `+` and one or more digits, in small or capital
letters, whose value is that of its digits (`IsNumeral`). The reader accepts exactly the numerals of a
base and answers their values (`numeral?_eq_some_iff`).
-/

set_option autoImplicit false

namespace FormulaExport.Text

/-- A character is the digit of a value in a base. -/
def IsDigit (base : Nat) (c : Char) (digit : Nat) : Prop :=
  digit < base ∧ (c = Nat.digitChar digit ∨ c = (Nat.digitChar digit).toUpper)

/-- A **numeral** and its value: an optional `+` and one or more digits, the last one that of the
units. -/
inductive IsNumeral (base : Nat) : List Char → Nat → Prop where
  | mk {sign characters : List Char} {digits : List Nat} : sign = [] ∨ sign = ['+'] →
      digits ≠ [] → List.Forall₂ (IsDigit base) characters digits →
      IsNumeral base (sign ++ characters) (Nat.ofDigits base digits.reverse)

/-! ## Digits -/

theorem toNat_le_of_digitValue? {c : Char} {digit : Nat} (h : digitValue? c = some digit) :
    c.toNat ≤ 'f'.toNat := by
  have upTo : ∀ {last : Char}, c ≤ last → c.toNat ≤ last.toNat := UInt32.le_iff_toNat_le.mp
  unfold digitValue? at h
  split at h
  · next decimal => exact (upTo decimal.2).trans (by decide)
  · split at h
    · next small => exact upTo small.2
    · split at h
      · next capital => exact (upTo capital.2).trans (by decide)
      · cases h

/-- The sixteen digits are found among the first characters one by one. -/
theorem digitValue?_eq_some_iff {c : Char} {digit : Nat} :
    digitValue? c = some digit ↔ IsDigit 16 c digit := by
  constructor
  · intro h
    have all : ∀ n ≤ 'f'.toNat, ∀ d ∈ digitValue? (Char.ofNat n), d < 16 ∧
        (Char.ofNat n = Nat.digitChar d ∨ Char.ofNat n = (Nat.digitChar d).toUpper) := by decide
    have found := all c.toNat (toNat_le_of_digitValue? h) digit
    rw [Char.ofNat_toNat] at found
    exact found h
  · have all : ∀ d < 16, digitValue? (Nat.digitChar d) = some d ∧
        digitValue? (Nat.digitChar d).toUpper = some d := by decide
    rintro ⟨small, rfl | rfl⟩
    · exact (all digit small).1
    · exact (all digit small).2

section

variable {base : Nat} (small : base ≤ 16)

include small

theorem digitOf?_eq_some_iff {c : Char} {digit : Nat} :
    digitOf? base c = some digit ↔ IsDigit base c digit := by
  rw [digitOf?, Option.filter_eq_some_iff, digitValue?_eq_some_iff, decide_eq_true_iff]
  constructor
  · rintro ⟨⟨-, isDigit⟩, below⟩
    exact ⟨below, isDigit⟩
  · rintro ⟨below, isDigit⟩
    exact ⟨⟨below.trans_le small, isDigit⟩, below⟩

/-! ## Runs of digits -/

/-- Digits behind a value that has been read already add the value of their run. -/
theorem digitsFrom?_eq_some_iff {value n : Nat} {text : List Char} :
    digitsFrom? base value text = some n ↔
      ∃ digits : List Nat, List.Forall₂ (IsDigit base) text digits ∧
        n = Nat.ofDigits base digits.reverse + base ^ digits.length * value := by
  induction text generalizing value with
  | nil =>
      simp only [digitsFrom?, Option.some.injEq, List.forall₂_nil_left_iff]
      constructor
      · rintro rfl
        exact ⟨[], rfl, by simp⟩
      · rintro ⟨_, rfl, rfl⟩
        simp
  | cons c text ih =>
      -- the first digit has as many places behind it as there are further digits
      have shift : ∀ (digit : Nat) (digits : List Nat),
          Nat.ofDigits base (digit :: digits).reverse + base ^ (digit :: digits).length * value =
            Nat.ofDigits base digits.reverse + base ^ digits.length * (base * value + digit) := by
        intro digit digits
        rw [List.reverse_cons, Nat.ofDigits_append, Nat.ofDigits_singleton, List.length_reverse,
          List.length_cons, pow_succ]
        ring
      rw [digitsFrom?]
      constructor
      · intro h
        split at h
        · next digit found =>
          obtain ⟨digits, areDigits, rfl⟩ := ih.mp h
          exact ⟨digit :: digits, .cons ((digitOf?_eq_some_iff small).mp found) areDigits,
            (shift digit digits).symm⟩
        · cases h
      · rintro ⟨digits, areDigits, rfl⟩
        obtain ⟨digit, rest, isDigit, areRest, rfl⟩ := List.forall₂_cons_left_iff.mp areDigits
        rw [(digitOf?_eq_some_iff small).mpr isDigit]
        exact ih.mpr ⟨rest, areRest, shift digit rest⟩

theorem digits?_eq_some_iff {text : List Char} {n : Nat} :
    digits? base text = some n ↔
      ∃ digits ≠ [], List.Forall₂ (IsDigit base) text digits ∧
        n = Nat.ofDigits base digits.reverse := by
  cases text with
  | nil =>
      constructor
      · nofun
      · rintro ⟨_, nonempty, areDigits, -⟩
        cases areDigits
        exact absurd rfl nonempty
  | cons c text =>
      rw [digits?, digitsFrom?_eq_some_iff small]
      constructor
      · rintro ⟨digits, areDigits, rfl⟩
        refine ⟨digits, ?_, areDigits, by simp⟩
        rintro rfl
        cases areDigits
      · rintro ⟨digits, -, areDigits, rfl⟩
        exact ⟨digits, areDigits, by simp⟩

/-- The reader of numerals accepts exactly the numerals, and answers their values. -/
theorem numeral?_eq_some_iff {text : List Char} {n : Nat} :
    numeral? base text = some n ↔ IsNumeral base text n := by
  constructor
  · intro h
    unfold numeral? at h
    split at h
    · obtain ⟨digits, nonempty, areDigits, rfl⟩ := (digits?_eq_some_iff small).mp h
      exact .mk (Or.inr rfl) nonempty areDigits
    · obtain ⟨digits, nonempty, areDigits, rfl⟩ := (digits?_eq_some_iff small).mp h
      exact .mk (Or.inl rfl) nonempty areDigits
  · rintro @⟨sign, characters, digits, isSign, nonempty, areDigits⟩
    have read := (digits?_eq_some_iff small).mpr ⟨digits, nonempty, areDigits, rfl⟩
    rcases isSign with rfl | rfl
    · rw [List.nil_append, numeral?, read]
      -- a sign is no digit
      rintro text rfl
      obtain ⟨digit, _, isDigit, -, -⟩ := List.forall₂_cons_left_iff.mp areDigits
      have found := (digitOf?_eq_some_iff small).mpr isDigit
      have nothing : digitOf? base '+' = none := rfl
      rw [nothing] at found
      cases found
    · exact read

theorem IsNumeral.mem {text : List Char} {n : Nat} (h : IsNumeral base text n) {c : Char}
    (inside : c ∈ text) : c = '+' ∨ ∃ digit, digitOf? base c = some digit := by
  obtain ⟨isSign, -, areDigits⟩ := h
  rcases List.mem_append.mp inside with inside | inside
  · rcases isSign with rfl | rfl
    · cases inside
    · exact Or.inl (List.mem_singleton.mp inside)
  · obtain ⟨place, here, rfl⟩ := List.getElem_of_mem inside
    exact Or.inr ⟨_, (digitOf?_eq_some_iff small).mpr (areDigits.get here (areDigits.length_eq ▸ here))⟩

end

end FormulaExport.Text
