/-!
# The fields of an export

An export describes a formula by **fields**: named relations between the labels of its nodes. Eight
of them have a meaning here.
-/

set_option autoImplicit false

namespace FormulaExport

/-- The **fields** with a meaning. -/
inductive Field where
  | vars
  | relation
  | boundVar
  | body
  | child
  | left
  | right
  | root
deriving DecidableEq, Repr

/-- The label under which a field stands in an export. -/
def Field.label : Field → String
  | .vars => "vars"
  | .relation => "relation"
  | .boundVar => "bound_var"
  | .body => "body"
  | .child => "child"
  | .left => "left"
  | .right => "right"
  | .root => "root"

theorem Field.label_injective {field other : Field} (h : field.label = other.label) :
    field = other := by
  cases field <;> cases other <;> simp_all [Field.label]

end FormulaExport
