/-!
# Scanning

The two steps from which every reader of this library is made: taking a word off the front of a
text, and leaving out everything up to the end of the first occurrence of a word. Both answer the
text that follows, which is never longer.
-/

set_option autoImplicit false

namespace FormulaExport.Text

def behind? : List Char → List Char → Option (List Char)
  | [], text => some text
  | _ :: _, [] => none
  | w :: word, c :: text => if w = c then behind? word text else none

/-- The text behind the first occurrence of a word. -/
def behindFirst? (word : List Char) : List Char → Option (List Char)
  | [] => behind? word []
  | c :: text =>
    match behind? word (c :: text) with
    | some rest => some rest
    | none => behindFirst? word text

/-- A word is behind what it begins: `behind?` takes off the word and nothing else. -/
theorem behind?_eq_some_iff {word text rest : List Char} :
    behind? word text = some rest ↔ text = word ++ rest := by
  induction word generalizing text with
  | nil => simp [behind?]
  | cons w word ih =>
      cases text with
      | nil => simp [behind?]
      | cons c text =>
          by_cases h : w = c
          · simp [behind?, h, ih]
          · have h' : ¬ c = w := fun e => h e.symm
            simp [behind?, h, h']

theorem length_of_behind? {word text rest : List Char} (h : behind? word text = some rest) :
    text.length = word.length + rest.length := by
  rw [behind?_eq_some_iff.mp h, List.length_append]

theorem length_of_behindFirst? {word text rest : List Char}
    (h : behindFirst? word text = some rest) : word.length + rest.length ≤ text.length := by
  induction text with
  | nil =>
      have := length_of_behind? h
      omega
  | cons c text ih =>
      rw [behindFirst?] at h
      cases b : behind? word (c :: text) with
      | some found =>
          rw [b] at h
          cases h
          have := length_of_behind? b
          omega
      | none =>
          rw [b] at h
          have := ih h
          simp only [List.length_cons]
          omega

/-- Taking off a word and everything up to the end of another one takes off at least the two. -/
theorem length_of_bind_behindFirst? {opening closing text rest : List Char}
    (h : (behind? opening text).bind (behindFirst? closing) = some rest) :
    opening.length + closing.length + rest.length ≤ text.length := by
  obtain ⟨middle, first, second⟩ := Option.bind_eq_some_iff.mp h
  have front := length_of_behind? first
  have back := length_of_behindFirst? second
  omega

theorem length_dropWhile_le (p : Char → Bool) (text : List Char) :
    (text.dropWhile p).length ≤ text.length :=
  (List.dropWhile_sublist p).length_le

end FormulaExport.Text
