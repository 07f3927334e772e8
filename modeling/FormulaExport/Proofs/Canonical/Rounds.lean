import Mathlib.Data.Finset.Image
import Mathlib.Logic.Function.Iterate
import FormulaExport.Proofs.Canonical.Collapse

/-!
# The rounds of collapsing

Collapsing repeats a round as long as there is something to collapse. A round can leave something
new to collapse, so the measure is not what there is to collapse but the number of opening
parentheses: every round takes one away at least (`count_collapseRound_lt`). What all rounds together
take away is told by places of the text from which they started, and each of these places is in a
run of parentheses in front of a quantification (`Loosened.exists_without`).
-/

set_option autoImplicit false

namespace FormulaExport

/-! ## The number of rounds -/

theorem Loosened.filter_eq {text loose : List Char} (h : Loosened text loose) :
    loose.filter (· ≠ '(') = text.filter (· ≠ '(') := by
  induction h with
  | nil => rfl
  | keep c _ ih => rw [List.filter_cons, List.filter_cons, ih]
  | drop _ _ ih => rw [List.filter_cons_of_neg (by decide), ih]

theorem length_eq_count_add (text : List Char) :
    text.length = text.count '(' + (text.filter (· ≠ '(')).length := by
  rw [List.length_eq_countP_add_countP (· == '('), ← List.countP_eq_length_filter]
  simp [List.count]

/-- A round with something to collapse takes away an opening parenthesis at least. -/
theorem count_collapseRound_lt {text : List Char} (h : hasParenthesized text = true) :
    (collapseRound text).count '(' < text.count '(' := by
  have shorter := length_collapseRound_lt h
  have kept := congrArg List.length (loosened_collapseRound text).filter_eq
  rw [length_eq_count_add, length_eq_count_add text] at shorter
  omega

/-- Collapsing makes no more rounds than there are opening parentheses. There is something to
collapse before each of them. -/
theorem exists_rounds (text : List Char) :
    ∃ rounds ≤ text.count '(', collapse text = collapseRound^[rounds] text ∧
      ∀ earlier < rounds, hasParenthesized (collapseRound^[earlier] text) = true := by
  fun_induction collapse text with
  | case1 text more ih =>
      obtain ⟨rounds, few, result, before⟩ := ih
      have less := count_collapseRound_lt more
      refine ⟨rounds + 1, by omega, result, ?_⟩
      intro earlier early
      cases earlier with
      | zero => exact more
      | succ earlier =>
          rw [Function.iterate_succ_apply]
          exact before earlier (by omega)
  | case2 text _ =>
      refine ⟨0, Nat.zero_le _, rfl, ?_⟩
      intro earlier early
      exact absurd early (Nat.not_lt_zero earlier)

/-! ## Places -/

/-- The place of an opening parenthesis that belongs to a run of them directly in front of a
quantification with a one-letter variable and a parenthesis behind it. -/
def IsInFront (text : List Char) (place : ℕ) : Prop :=
  ∃ more sign letter rest, (sign = '∀' ∨ sign = '∃') ∧ ('a' ≤ letter ∧ letter ≤ 'z') ∧
    text.drop place = '(' :: (List.replicate more '(' ++ sign :: letter :: '.' :: '(' :: rest)

/-- What is left of a text without the characters in some places. -/
def without (dropped : Finset ℕ) (text : List Char) : List Char :=
  (text.zipIdx.filter fun entry => entry.2 ∉ dropped).map Prod.fst

theorem without_cons {dropped behind : Finset ℕ} (h : ∀ place, place + 1 ∈ dropped ↔ place ∈ behind)
    (c : Char) (text : List Char) :
    without dropped (c :: text) =
      if 0 ∈ dropped then without behind text else c :: without behind text := by
  have shifted : ∀ entry : Char × ℕ,
      decide ((Prod.map id (· + 1) entry).2 ∉ dropped) = decide (entry.2 ∉ behind) :=
    fun entry => decide_eq_decide.mpr (not_congr (h entry.2))
  have later : (((text.zipIdx).map (Prod.map id (· + 1))).filter fun entry => entry.2 ∉ dropped).map
      Prod.fst = without behind text := by
    rw [List.filter_map, List.map_map, without]
    exact congrArg₂ List.map rfl (List.filter_congr fun entry _ => shifted entry)
  rw [without, List.zipIdx_cons', List.filter_cons]
  by_cases first : 0 ∈ dropped
  · rw [if_neg (by simp [first]), if_pos first, later]
  · rw [if_pos (by simp [first]), if_neg first, List.map_cons, later]

theorem exists_replicate_of_opensQuantification {text : List Char}
    (h : opensQuantification text = true) :
    ∃ more sign letter rest, (sign = '∀' ∨ sign = '∃') ∧ ('a' ≤ letter ∧ letter ≤ 'z') ∧
      text = List.replicate more '(' ++ sign :: letter :: '.' :: '(' :: rest := by
  induction text with
  | nil => cases h
  | cons c text ih =>
      rcases opensQuantification_eq_true_iff.mp h with
        ⟨rest, same, opens⟩ | ⟨sign, letter, dot, rest, same, begins⟩
      · obtain ⟨rfl, rfl⟩ := List.cons.inj same
        obtain ⟨more, sign, letter, rest, isSign, isLetter, rfl⟩ := ih opens
        exact ⟨more + 1, sign, letter, rest, isSign, isLetter, rfl⟩
      · obtain ⟨isSign, isLetter, rfl⟩ := beginsQuantification_eq_true_iff.mp begins
        exact ⟨0, sign, letter, rest, isSign, isLetter, same⟩

/-- What is dropped from a loosened text stands in places in front of quantifications. -/
theorem Loosened.exists_without {text loose : List Char} (h : Loosened text loose) :
    ∃ dropped : Finset ℕ, (∀ place ∈ dropped, IsInFront text place) ∧
      loose = without dropped text := by
  induction h with
  | nil => exact ⟨∅, by simp, rfl⟩
  | @keep c text loose _ ih =>
      obtain ⟨behind, inFront, rfl⟩ := ih
      -- behind a kept character every place is one further
      refine ⟨behind.image (· + 1), ?_, ?_⟩
      · intro place inside
        obtain ⟨place', inside', rfl⟩ := Finset.mem_image.mp inside
        exact inFront place' inside'
      · have shift : ∀ place, place + 1 ∈ behind.image (· + 1) ↔ place ∈ behind := by simp
        rw [without_cons shift, if_neg (by simp)]
  | @drop text loose opens _ ih =>
      obtain ⟨behind, inFront, rfl⟩ := ih
      refine ⟨insert 0 (behind.image (· + 1)), ?_, ?_⟩
      · intro place inside
        rcases Finset.mem_insert.mp inside with rfl | inside
        · obtain ⟨more, sign, letter, rest, isSign, isLetter, same⟩ :=
            exists_replicate_of_opensQuantification opens
          exact ⟨more, sign, letter, rest, isSign, isLetter, congrArg ('(' :: ·) same⟩
        · obtain ⟨place', inside', rfl⟩ := Finset.mem_image.mp inside
          exact inFront place' inside'
      · have shift : ∀ place, place + 1 ∈ insert 0 (behind.image (· + 1)) ↔ place ∈ behind := by simp
        rw [without_cons shift, if_pos (Finset.mem_insert_self 0 _)]

/-! ## The whole loop -/

/-- Collapsing comes to an end on every text, after no more rounds than it has opening parentheses.
Then there is nothing left to collapse, so that collapsing again changes nothing. Only characters in
places in front of quantifications are dropped, and all but opening parentheses are kept in order.
-/
theorem collapseQuantifiers_rounds (text : String) :
    (∃ rounds ≤ text.toList.count '(',
      (collapseQuantifiers text).toList = collapseRound^[rounds] text.toList ∧
        ∀ earlier < rounds, ¬ FreeOf IsParenthesized (collapseRound^[earlier] text.toList)) ∧
      FreeOf IsParenthesized (collapseQuantifiers text).toList ∧
      collapseQuantifiers (collapseQuantifiers text) = collapseQuantifiers text ∧
      (∃ dropped : Finset ℕ, (∀ place ∈ dropped, IsInFront text.toList place) ∧
        (collapseQuantifiers text).toList = without dropped text.toList) ∧
      (collapseQuantifiers text).toList.filter (· ≠ '(') = text.toList.filter (· ≠ '(') := by
  have loosened := loosened_collapse text.toList
  have done := hasParenthesized_collapse text.toList
  have again : collapseQuantifiers (collapseQuantifiers text) = collapseQuantifiers text := by
    rw [collapseQuantifiers, collapseQuantifiers, String.toList_ofList,
      collapse_of_not_hasParenthesized done]
  have asList : (collapseQuantifiers text).toList = collapse text.toList := String.toList_ofList
  rw [asList]
  refine ⟨?_, hasParenthesized_eq_false_iff.mp done, again, loosened.exists_without,
    loosened.filter_eq⟩
  obtain ⟨rounds, few, result, before⟩ := exists_rounds text.toList
  refine ⟨rounds, few, result, fun earlier early free => ?_⟩
  rw [← hasParenthesized_eq_false_iff, before earlier early] at free
  cases free

end FormulaExport
