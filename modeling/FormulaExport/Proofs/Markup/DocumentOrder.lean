import FormulaExport.Markup.Element
import FormulaExport.Proofs.Lexicographic

/-!
# Document order

The elements of several trees in document order are those of the first tree, then those of the
second, and so on, and those of a tree are its root and what stands below it.

What stands in a tree has a **place** there (`Element.at?`), and the places of what is listed are
the places of the tree in lexicographic order (`inDocumentOrder_descendants`): nothing is left out
or listed twice, an element comes before what stands below it, and siblings come from left to right.
-/

set_option autoImplicit false

namespace FormulaExport.Markup.Element

theorem inOrder_nil : inOrder [] = [] := by rw [inOrder]

theorem inOrder_append (front back : List Element) :
    inOrder (front ++ back) = inOrder front ++ inOrder back := by
  fun_induction inOrder front with
  | case1 => rfl
  | case2 element rest ih =>
      rw [List.cons_append, inOrder, ← List.append_assoc, ih, List.cons_append]

theorem inOrder_cons (element : Element) (rest : List Element) :
    inOrder (element :: rest) = element :: (element.descendants ++ inOrder rest) := by
  rw [inOrder, inOrder_append, descendants]

/-- The trees stand one behind the other, each with its root before everything below it. -/
theorem inOrder_eq_flatMap (trees : List Element) :
    inOrder trees = trees.flatMap fun element => element :: element.descendants := by
  induction trees with
  | nil => exact inOrder_nil
  | cons element rest ih => rw [inOrder_cons, ih, List.flatMap_cons, List.cons_append]

/-! ## Places -/

/-- The element at a place in a tree. A place is given by the numbers of the children that lead
there from the root. -/
def at? : Element → List Nat → Option Element
  | root, [] => some root
  | root, number :: place => root.children[number]?.bind fun child => child.at? place

/-- A list of elements goes through everything strictly below a root in document order: it takes the
places there in lexicographic order, each of them once. -/
def InDocumentOrder (root : Element) (elements : List Element) : Prop :=
  ∃ places : List (List Nat), places.map root.at? = elements.map some ∧
    places.Pairwise (· < ·) ∧ ∀ place, place ∈ places ↔ place ≠ [] ∧ (root.at? place).isSome

/-- The places of all elements of several trees that are numbered from a number on. -/
def placesFrom (number : Nat) : List Element → List (List Nat)
  | [] => []
  | element :: rest =>
    ([] :: placesFrom 0 element.children).map (number :: ·) ++ placesFrom (number + 1) rest
termination_by trees => weightOfAll trees
decreasing_by
  all_goals
    rw [weightOfAll, weight_eq]
    omega

theorem at?_cons {root child : Element} {number : Nat} (h : root.children[number]? = some child)
    (place : List Nat) : root.at? (number :: place) = child.at? place := by
  rw [at?, h, Option.bind_some]

theorem exists_of_mem_placesFrom {number : Nat} {trees : List Element} {place : List Nat}
    (h : place ∈ placesFrom number trees) :
    ∃ first behind, place = first :: behind ∧ number ≤ first := by
  fun_induction placesFrom number trees with
  | case1 => cases h
  | case2 number element rest _ ih =>
      rcases List.mem_append.mp h with here | later
      · obtain ⟨behind, -, rfl⟩ := List.mem_map.mp here
        exact ⟨number, behind, rfl, Nat.le_refl number⟩
      · obtain ⟨first, behind, rfl, le⟩ := ih later
        exact ⟨first, behind, rfl, Nat.le_of_succ_le le⟩

theorem pairwise_placesFrom (number : Nat) (trees : List Element) :
    (placesFrom number trees).Pairwise (· < ·) := by
  fun_induction placesFrom number trees with
  | case1 => exact .nil
  | case2 number element rest ihBelow ih =>
      refine pairwise_lt_append (List.pairwise_cons.mpr ⟨?_, ihBelow⟩) ih ?_
      · intro place inside
        obtain ⟨first, behind, rfl, -⟩ := exists_of_mem_placesFrom inside
        exact List.nil_lt_cons first behind
      · intro place inside
        exact exists_of_mem_placesFrom inside

section

variable {root : Element} {number : Nat} {trees : List Element}

theorem child_of_eq_drop {element : Element} (h : element :: trees = root.children.drop number) :
    root.children[number]? = some element ∧ trees = root.children.drop (number + 1) := by
  constructor
  · rw [← List.head?_drop, ← h, List.head?_cons]
  · rw [← List.tail_drop, ← h, List.tail_cons]

/-- At the places stand the elements of the trees, in order. -/
theorem map_at?_placesFrom (h : trees = root.children.drop number) :
    (placesFrom number trees).map root.at? = (inOrder trees).map some := by
  fun_induction placesFrom number trees generalizing root with
  | case1 => rw [inOrder_nil, List.map_nil, List.map_nil]
  | case2 number element rest ihBelow ih =>
      obtain ⟨here, behind⟩ := child_of_eq_drop h
      have below : (placesFrom 0 element.children).map element.at? = element.descendants.map some :=
        ihBelow rfl
      have into : root.at? ∘ (number :: ·) = element.at? := funext (at?_cons here)
      rw [List.map_append, List.map_map, into, List.map_cons, below, ih behind, inOrder_cons,
        List.map_cons, List.map_append]
      rfl

theorem mem_placesFrom (h : trees = root.children.drop number) {first : Nat} {place : List Nat}
    (le : number ≤ first) (found : (root.at? (first :: place)).isSome) :
    first :: place ∈ placesFrom number trees := by
  fun_induction placesFrom number trees generalizing root first place with
  | case1 number =>
      have outside : root.children[first]? = none :=
        List.getElem?_eq_none (Nat.le_trans (List.drop_eq_nil_iff.mp h.symm) le)
      rw [at?, outside, Option.bind_none] at found
      cases found
  | case2 number element rest ihBelow ih =>
      obtain ⟨here, behind⟩ := child_of_eq_drop h
      rcases Nat.lt_or_eq_of_le le with later | rfl
      · exact List.mem_append_right _ (ih behind later found)
      · rw [at?_cons here] at found
        refine List.mem_append_left _ (List.mem_map.mpr ⟨place, ?_, rfl⟩)
        cases place with
        | nil => exact List.mem_cons_self
        | cons next place => exact List.mem_cons_of_mem _ (ihBelow rfl (Nat.zero_le _) found)

end

/-- The descendants of an element are what stands strictly below it, in document order. -/
theorem inDocumentOrder_descendants (root : Element) : root.InDocumentOrder root.descendants := by
  have elements : (placesFrom 0 root.children).map root.at? = root.descendants.map some :=
    map_at?_placesFrom rfl
  refine ⟨placesFrom 0 root.children, elements, pairwise_placesFrom 0 root.children, ?_⟩
  intro place
  constructor
  · intro inside
    obtain ⟨first, behind, rfl, -⟩ := exists_of_mem_placesFrom inside
    have among := List.mem_map_of_mem (f := root.at?) inside
    rw [elements] at among
    obtain ⟨element, -, found⟩ := List.mem_map.mp among
    rw [← found]
    exact ⟨List.cons_ne_nil _ _, rfl⟩
  · rintro ⟨below, found⟩
    obtain ⟨first, behind, rfl⟩ := List.exists_cons_of_ne_nil below
    exact mem_placesFrom rfl (Nat.zero_le first) found

end FormulaExport.Markup.Element
