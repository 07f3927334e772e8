import FormulaExport.OrderedMap

/-!
# Relations

The content of an export as far as formulas go: for every field the list of its **tuples**, and
every tuple a list of labels. Fields stand in the order in which they first came in, the tuples of
a field in the order in which they were added.
-/

set_option autoImplicit false

namespace FormulaExport

/-- A tuple of labels. -/
abbrev Tuple := List String

/-- The **relations** of an export: the tuples of every field. -/
structure Relations where
  fields : OrderedMap String (List Tuple)

namespace Relations

instance : EmptyCollection Relations := ⟨⟨∅⟩⟩

instance : Inhabited Relations := ⟨∅⟩

/-- The tuples of a field; a field that does not occur has none. -/
def tuples (relations : Relations) (field : String) : List Tuple :=
  (relations.fields.get? field).getD []

/-- Adds tuples at the end of a field. The field occurs afterwards, even if no tuple was added. -/
def extend (relations : Relations) (field : String) (tuples : List Tuple) : Relations :=
  ⟨relations.fields.insert field (relations.tuples field ++ tuples)⟩

def insert (relations : Relations) (field : String) (tuple : Tuple) : Relations :=
  relations.extend field [tuple]

/-- The relations of a list of tuples with their fields, added one after the other. -/
def ofList (tuples : List (String × Tuple)) : Relations :=
  tuples.foldl (fun relations entry => relations.insert entry.1 entry.2) ∅

def fieldNames (relations : Relations) : List String := relations.fields.keys

/-- Two relations are the same if the same fields occur and have the same tuples in the same order.
The order of the fields does not matter. -/
def same (left right : Relations) : Bool := left.fields.same right.fields

theorem tuples_extend (relations : Relations) (field other : String) (added : List Tuple) :
    (relations.extend field added).tuples other =
      if field = other then relations.tuples field ++ added else relations.tuples other := by
  unfold extend
  by_cases h : field = other
  · simp [tuples, OrderedMap.get?_insert, h]
  · simp [tuples, OrderedMap.get?_insert, h]

theorem fieldNames_extend (relations : Relations) (field : String) (added : List Tuple) :
    (relations.extend field added).fieldNames =
      if field ∈ relations.fieldNames then relations.fieldNames
      else relations.fieldNames ++ [field] :=
  OrderedMap.keys_insert _ _ _

end Relations

end FormulaExport
