import FormulaExport.Canonical.Pattern
import FormulaExport.Canonical.Letters

/-!
# Canonical text

The printed form of a formula still carries the names of its export. Three steps take them out of
the text: identifiers become letters in order of first occurrence (`renameVariables`), numbered
relations lose their number (`simplifyRelations`), and quantifications lose the opening parentheses
in front of them (`collapseQuantifiers`). Together they make the **canonical** form.
-/

set_option autoImplicit false

namespace FormulaExport

/-! ## Identifiers -/

/-- What an identifier is replaced by: its letter, or itself if there is none. -/
def shownAs (identifier : List Char) : Option Char → List Char
  | some letter => [letter]
  | none => identifier

/-- Replaces the identifiers among the pieces of a text, from left to right, and answers the letters
that are known then. -/
def renamePieces (letters : Letters) : List Piece → Traced (Letters × List Char)
  | [] => pure (letters, [])
  | .plain c :: rest =>
    (fun (letters, text) => (letters, c :: text)) <$> renamePieces letters rest
  | .word identifier :: rest => do
    let (letter, letters) ← letters.name (String.ofList identifier)
    (fun (letters, text) => (letters, shownAs identifier letter ++ text)) <$>
      renamePieces letters rest

/-- Replaces the identifiers of a text by letters. -/
def renameVariables (text : String) : Traced String := do
  let (letters, renamed) ← renamePieces .fresh (identifiers.pieces text.toList)
  Traced.note (.renamed letters.size)
  pure (String.ofList renamed)

/-! ## Relations -/

/-- The replacement of a piece: a numbered relation loses its number. -/
def simplifyPiece : Piece → List Char
  | .word _ => ['E']
  | .plain c => [c]

/-- Drops the number of the numbered relations of a text. -/
def simplifyRelations (text : String) : String :=
  String.ofList ((numberedRelations.pieces text.toList).flatMap simplifyPiece)

/-! ## Quantifications -/

/-- Whether a quantification with a one-letter variable begins with three given characters. -/
def beginsQuantification (sign letter dot : Char) : Bool :=
  (sign == '∀' || sign == '∃') && ('a' ≤ letter && letter ≤ 'z') && dot == '.'

/-- Whether somewhere in a text an opening parenthesis stands in front of a quantification with a
one-letter variable and a parenthesis behind it. -/
def hasParenthesized : List Char → Bool
  | '(' :: sign :: letter :: dot :: '(' :: rest =>
    beginsQuantification sign letter dot ||
      hasParenthesized (sign :: letter :: dot :: '(' :: rest)
  | _ :: rest => hasParenthesized rest
  | [] => false

/-- One round: from left to right, each such quantification loses the parenthesis in front of it.
The search goes on behind the parenthesis that follows the quantification. -/
def collapseRound : List Char → List Char
  | '(' :: sign :: letter :: dot :: '(' :: rest =>
    if beginsQuantification sign letter dot then
      -- the parenthesis behind the quantification is not looked at again in this round
      sign :: letter :: dot :: '(' :: collapseRound rest
    else '(' :: collapseRound (sign :: letter :: dot :: '(' :: rest)
  | c :: rest => c :: collapseRound rest
  | [] => []

theorem length_collapseRound_le (text : List Char) :
    (collapseRound text).length ≤ text.length := by
  fun_induction collapseRound text with
  | case1 sign letter dot rest _ ih =>
      simp only [List.length_cons]
      omega
  | case2 sign letter dot rest _ ih =>
      simp only [List.length_cons] at ih ⊢
      omega
  | case3 c rest _ ih =>
      simp only [List.length_cons]
      omega
  | case4 => exact Nat.le_refl _

/-- A round makes a text shorter if there is something to collapse. -/
theorem length_collapseRound_lt {text : List Char} (h : hasParenthesized text = true) :
    (collapseRound text).length < text.length := by
  fun_induction collapseRound text with
  | case1 sign letter dot rest _ ih =>
      have := length_collapseRound_le rest
      simp only [List.length_cons]
      omega
  | case2 sign letter dot rest plain ih =>
      rw [hasParenthesized] at h
      simp only [plain, Bool.false_or] at h
      have := ih h
      simp only [List.length_cons] at this ⊢
      omega
  | case3 c rest plain ih =>
      rw [hasParenthesized] at h
      · have := ih h
        simp only [List.length_cons]
        omega
      · exact plain
  | case4 => simp [hasParenthesized] at h

/-- Rounds until nothing is left to collapse. One round is not enough: it can leave a parenthesis in
front of a quantification that had two. -/
def collapse (text : List Char) : List Char :=
  if _more : hasParenthesized text then collapse (collapseRound text) else text
termination_by text.length
decreasing_by exact length_collapseRound_lt _more

/-- Drops the opening parentheses in front of quantifications. -/
def collapseQuantifiers (text : String) : String :=
  String.ofList (collapse text.toList)

/-! ## The canonical form -/

/-- The canonical form of the text of a formula. -/
def canonicalize (text : String) : Traced String := do
  let renamed ← renameVariables text
  pure (collapseQuantifiers (simplifyRelations renamed))

end FormulaExport
