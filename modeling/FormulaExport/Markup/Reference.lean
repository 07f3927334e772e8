import FormulaExport.Text.Numeral

/-!
# Character references

A **reference** stands for one character of an attribute value. It begins with an ampersand and
ends at the next semicolon; between them stands one of five names or the number of a character.
`decode` replaces the references of a raw value, `escape` writes a value so that `decode` reads it
back.
-/

set_option autoImplicit false

namespace FormulaExport.Markup.Reference

open FormulaExport.Text

/-- The character of a code point; a number that is no Unicode scalar value has none. -/
def characterOf? (n : Nat) : Option Char :=
  if n.isValidChar then some (Char.ofNat n) else none

/-- The character that the text between ampersand and semicolon stands for. -/
def named? : List Char → Option Char
  | ['l', 't'] => some '<'
  | ['g', 't'] => some '>'
  | ['a', 'm', 'p'] => some '&'
  | ['q', 'u', 'o', 't'] => some '"'
  | ['a', 'p', 'o', 's'] => some '\''
  | '#' :: 'x' :: number => (numeral? 16 number).bind characterOf?
  | '#' :: 'X' :: number => (numeral? 16 number).bind characterOf?
  | '#' :: number => (numeral? 10 number).bind characterOf?
  | _ => none

/-- Splits a text at its first semicolon, which neither part keeps. -/
def untilSemicolon? (text : List Char) : Option (List Char × List Char) :=
  match text.dropWhile (· != ';') with
  | [] => none
  | _ :: rest => some (text.takeWhile (· != ';'), rest)

/-- The reference whose ampersand stands before a text: its character and the text behind it. -/
def afterAmpersand? (text : List Char) : Option (Char × List Char) :=
  match untilSemicolon? text with
  | some (body, rest) => (named? body).map fun c => (c, rest)
  | none => none

theorem length_of_untilSemicolon? {text body rest : List Char}
    (h : untilSemicolon? text = some (body, rest)) : rest.length < text.length := by
  have bound : (text.dropWhile (· != ';')).length ≤ text.length :=
    (List.dropWhile_sublist _).length_le
  unfold untilSemicolon? at h
  cases d : text.dropWhile (· != ';') with
  | nil => simp [d] at h
  | cons c after =>
      simp only [d, Option.some.injEq, Prod.mk.injEq] at h
      obtain ⟨_, rfl⟩ := h
      rw [d, List.length_cons] at bound
      omega

theorem length_of_afterAmpersand? {text rest : List Char} {c : Char}
    (h : afterAmpersand? text = some (c, rest)) : rest.length < text.length := by
  unfold afterAmpersand? at h
  cases u : untilSemicolon? text with
  | none => simp [u] at h
  | some found =>
      obtain ⟨body, after⟩ := found
      simp only [u, Option.map_eq_some_iff, Prod.mk.injEq] at h
      obtain ⟨_, _, _, rfl⟩ := h
      exact length_of_untilSemicolon? u

/-- Replaces every reference by its character, from left to right. An ampersand that begins no
reference stays as it is. -/
def decode : List Char → List Char
  | [] => []
  | c :: text =>
    if c = '&' then
      match _found : afterAmpersand? text with
      | some (character, rest) => character :: decode rest
      | none => c :: decode text
    else c :: decode text
termination_by text => text.length
decreasing_by
  · have := length_of_afterAmpersand? _found
    simp only [List.length_cons]
    omega
  · simp
  · simp

/-- How one character is written in an attribute value between double quotes. -/
def escapeChar : Char → List Char
  | '<' => ['&', 'l', 't', ';']
  | '>' => ['&', 'g', 't', ';']
  | '&' => ['&', 'a', 'm', 'p', ';']
  | '"' => ['&', 'q', 'u', 'o', 't', ';']
  | c => [c]

/-- Writes a value so that it can stand between double quotes. -/
def escape (value : List Char) : List Char :=
  value.flatMap escapeChar

end FormulaExport.Markup.Reference

namespace FormulaExport.Markup

/-- Decodes the character references of an attribute value. -/
def unescape (value : String) : String :=
  String.ofList (Reference.decode value.toList)

end FormulaExport.Markup
