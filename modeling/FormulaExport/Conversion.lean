import FormulaExport.Instance
import FormulaExport.Formula.OfIndex
import FormulaExport.Formula.Printer
import FormulaExport.Canonical.Text

/-!
# From relations to text

The relations of an export are indexed, the formula is found from the index, and printed
(`Relations.rawText`). The printed form without the names of the export is the other text of the
relations (`Relations.canonicalText`).
-/

set_option autoImplicit false

namespace FormulaExport

/-- Why relations **have no text**. -/
inductive ConversionError where
  | indexing (cause : IndexError)
  | reconstruction (cause : ReconstructionError)
deriving DecidableEq, Repr

namespace ConversionError

/-- What failed. -/
def message : ConversionError → String
  | indexing _ => "the relations could not be indexed"
  | reconstruction _ => "the formula could not be reconstructed"

/-- Why it failed. -/
def causeMessage : ConversionError → String
  | indexing cause => cause.message
  | reconstruction cause => cause.message

end ConversionError

namespace Relations

/-- The formula that relations describe. -/
def formula (relations : Relations) : Attempt ConversionError Formula := do
  let index ← (Index.build relations).adapt .indexing
  index.formula.adapt .reconstruction

def rawText (relations : Relations) : Attempt ConversionError String := do
  let formula ← relations.formula
  Traced.note (.reconstructed formula.depth)
  pure formula.print

def canonicalText (relations : Relations) : Attempt ConversionError String := do
  let text ← relations.rawText
  canonicalize text

end Relations

end FormulaExport
