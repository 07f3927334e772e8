import Mathlib.Data.List.Basic
import FormulaExport.Formula.Printer

/-!
# Tokens of a printed formula

A printed formula is a row of marks and labels, in which no two labels stand side by side. So what
is done to its text piece by piece can be done to each label on its own
(`flatMap_tokens_of_splitsAt`): the result is the printed form of the formula with changed labels.
-/

set_option autoImplicit false

namespace FormulaExport

/-- A **token** of a printed formula: a mark of the printer, or a label of the formula. -/
inductive Token where
  | mark (c : Char)
  | label (text : String)

namespace Token

def characters : Token → List Char
  | mark c => [c]
  | label text => text.toList

def label? : Token → Option String
  | mark _ => none
  | label text => some text

@[simp] theorem label?_mark (c : Char) : (mark c).label? = none := rfl

@[simp] theorem label?_label (text : String) : (label text).label? = some text := rfl

def mapLabel (change : String → String) : Token → Token
  | mark c => mark c
  | label text => label (change text)

/-- The marks that the printer writes. -/
def marks : List Char := ['(', ')', ',', ' ', '.', '_', '¬', '→', '∧', '∨', '∀', '∃']

end Token

def Term.token : Term → Token
  | .var name => .label name
  | .placeholder => .mark '_'

/-- Changes the label of a term. A placeholder has none. -/
def Term.mapLabel (change : String → String) : Term → Term
  | .var name => .var (change name)
  | .placeholder => .placeholder

namespace Formula

/-- The tokens of a formula, in printing order. -/
def tokens : Formula → List Token
  | atom relation arguments =>
    [.label relation, .mark '(', arguments.first.token, .mark ',', .mark ' ',
      arguments.second.token, .mark ')']
  | negation inner => .mark '¬' :: .mark '(' :: (inner.tokens ++ [.mark ')'])
  | binary connective left right =>
    .mark '(' :: (left.tokens ++ .mark ' ' :: .mark connective.sign :: .mark ' ' ::
      (right.tokens ++ [.mark ')']))
  | quantified quantifier bound body =>
    .mark quantifier.sign :: .label bound :: .mark '.' :: .mark '(' :: (body.tokens ++ [.mark ')'])
  | leaf label => [.label label]

/-- The labels of a formula, in printing order. -/
def labels (formula : Formula) : List String :=
  formula.tokens.filterMap Token.label?

/-- Changes every label of a formula. -/
def mapLabels (change : String → String) : Formula → Formula
  | atom relation arguments =>
    atom (change relation) ⟨arguments.first.mapLabel change, arguments.second.mapLabel change⟩
  | negation inner => negation (inner.mapLabels change)
  | binary connective left right =>
    binary connective (left.mapLabels change) (right.mapLabels change)
  | quantified quantifier bound body =>
    quantified quantifier (change bound) (body.mapLabels change)
  | leaf label => leaf (change label)

theorem labels_atom (label : String) (arguments : Arguments) :
    (atom label arguments).labels =
      label :: (arguments.first.token.label?.toList ++ arguments.second.token.label?.toList) := by
  obtain ⟨first, second⟩ := arguments
  cases first <;> cases second <;> rfl

theorem labels_negation (inner : Formula) : (negation inner).labels = inner.labels := by
  simp [labels, tokens, List.filterMap_cons]

theorem labels_binary (connective : Connective) (left right : Formula) :
    (binary connective left right).labels = left.labels ++ right.labels := by
  simp [labels, tokens, List.filterMap_cons]

theorem labels_quantified (quantifier : Quantifier) (bound : String) (body : Formula) :
    (quantified quantifier bound body).labels = bound :: body.labels := by
  simp [labels, tokens, List.filterMap_cons]

end Formula

/-! ## What is done piece by piece -/

section

variable {β : Type} {f : List Char → List β}

/-- A function of texts splits at a character if it can be computed from what stands in front of it,
the character and what stands behind it. -/
def SplitsAt (f : List Char → List β) (c : Char) : Prop :=
  ∀ front back, f (front ++ c :: back) = f front ++ (f [c] ++ f back)

theorem characters_token (term : Term) : term.token.characters = term.characters := by
  cases term <;> rfl

theorem sign_mem_marks (connective : Connective) : connective.sign ∈ Token.marks := by
  cases connective <;> decide

theorem sign_mem_marks' (quantifier : Quantifier) : quantifier.sign ∈ Token.marks := by
  cases quantifier <;> decide

/-- What splits at every mark is computed token by token. -/
theorem flatMap_tokens_of_splitsAt (nothing : f [] = [])
    (splits : ∀ c ∈ Token.marks, SplitsAt f c) (formula : Formula) :
    f formula.characters = formula.tokens.flatMap fun token => f token.characters := by
  have first : ∀ {c}, c ∈ Token.marks → ∀ rest, f (c :: rest) = f [c] ++ f rest := by
    intro c inside rest
    have split := splits c inside [] rest
    rwa [nothing] at split
  have last : ∀ {c}, c ∈ Token.marks → ∀ front, f (front ++ [c]) = f front ++ f [c] := by
    intro c inside front
    rw [splits c inside front [], nothing, List.append_nil]
  -- a label always has a mark on either side, and the text is cut at these
  induction formula with
  | atom relation arguments =>
      rw [Formula.characters, Formula.atomCharacters, splits '(' (by decide),
        splits ',' (by decide), first (by decide : ' ' ∈ Token.marks),
        last (by decide : ')' ∈ Token.marks), ← characters_token, ← characters_token]
      simp [Formula.tokens, Token.characters]
  | negation inner ih =>
      rw [Formula.characters, negationSign, first (by decide : '¬' ∈ Token.marks),
        first (by decide : '(' ∈ Token.marks), last (by decide : ')' ∈ Token.marks), ih]
      simp [Formula.tokens, Token.characters]
  | binary connective left right ih ih' =>
      rw [Formula.characters, first (by decide : '(' ∈ Token.marks), splits ' ' (by decide),
        first (sign_mem_marks connective),
        first (by decide : ' ' ∈ Token.marks) (right.characters ++ [')']),
        last (by decide : ')' ∈ Token.marks), ih, ih']
      simp [Formula.tokens, Token.characters]
  | quantified quantifier bound body ih =>
      rw [Formula.characters, Formula.quantificationCharacters, List.cons_append,
        first (sign_mem_marks' quantifier), splits '.' (by decide),
        first (by decide : '(' ∈ Token.marks), last (by decide : ')' ∈ Token.marks), ih]
      simp [Formula.tokens, Token.characters]
  | leaf label => simp [Formula.tokens, Formula.characters, Token.characters]

end

namespace Formula

theorem characters_eq (formula : Formula) :
    formula.characters = formula.tokens.flatMap Token.characters :=
  flatMap_tokens_of_splitsAt (f := id) rfl (fun _ _ _ _ => rfl) formula

theorem token_mapLabel (change : String → String) (term : Term) :
    (term.mapLabel change).token = term.token.mapLabel change := by
  cases term <;> rfl

theorem tokens_mapLabels (change : String → String) (formula : Formula) :
    (formula.mapLabels change).tokens = formula.tokens.map (Token.mapLabel change) := by
  induction formula with
  | atom relation arguments => simp [mapLabels, tokens, Token.mapLabel, token_mapLabel]
  | negation inner ih => simp [mapLabels, tokens, Token.mapLabel, ih]
  | binary connective left right ih ih' => simp [mapLabels, tokens, Token.mapLabel, ih, ih']
  | quantified quantifier bound body ih => simp [mapLabels, tokens, Token.mapLabel, ih]
  | leaf label => rfl

theorem mem_marks_of_token {term : Term} {c : Char} (h : term.token = .mark c) :
    c ∈ Token.marks := by
  cases term with
  | var name => cases h
  | placeholder =>
      cases h
      decide

theorem mem_marks_of_mem_tokens {formula : Formula} {c : Char} (h : .mark c ∈ formula.tokens) :
    c ∈ Token.marks := by
  induction formula with
  | atom relation arguments =>
      simp only [tokens, List.mem_cons, Token.mark.injEq, List.not_mem_nil, or_false, reduceCtorEq,
        false_or] at h
      rcases h with rfl | h | rfl | rfl | h | rfl
      · decide
      · exact mem_marks_of_token h.symm
      · decide
      · decide
      · exact mem_marks_of_token h.symm
      · decide
  | negation inner ih =>
      simp only [tokens, List.mem_cons, List.mem_append, Token.mark.injEq, List.not_mem_nil,
        or_false] at h
      rcases h with rfl | rfl | h | rfl
      · decide
      · decide
      · exact ih h
      · decide
  | binary connective left right ih ih' =>
      simp only [tokens, List.mem_cons, List.mem_append, Token.mark.injEq, List.not_mem_nil,
        or_false] at h
      rcases h with rfl | h | rfl | rfl | rfl | h | rfl
      · decide
      · exact ih h
      · decide
      · exact sign_mem_marks connective
      · decide
      · exact ih' h
      · decide
  | quantified quantifier bound body ih =>
      simp only [tokens, List.mem_cons, List.mem_append, Token.mark.injEq, List.not_mem_nil,
        or_false, reduceCtorEq, false_or] at h
      rcases h with rfl | rfl | rfl | h | rfl
      · exact sign_mem_marks' quantifier
      · decide
      · decide
      · exact ih h
      · decide
  | leaf label => simp [tokens] at h

/-- What splits at the marks and leaves them as they are changes the labels. -/
theorem characters_mapLabels {f : List Char → List Char} (nothing : f [] = [])
    (marks : ∀ c ∈ Token.marks, f [c] = [c]) (splits : ∀ c ∈ Token.marks, SplitsAt f c)
    (formula : Formula) :
    f formula.characters =
      (formula.mapLabels fun label => String.ofList (f label.toList)).characters := by
  rw [flatMap_tokens_of_splitsAt nothing splits, characters_eq, tokens_mapLabels,
    List.flatMap_map]
  refine List.flatMap_congr fun token inside => ?_
  cases token with
  | mark c => exact marks c (mem_marks_of_mem_tokens inside)
  | label text => exact String.toList_ofList.symm

end Formula

end FormulaExport
