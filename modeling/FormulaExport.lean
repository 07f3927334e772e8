import FormulaExport.Markup.Expectation
import FormulaExport.Markup.Printer
import FormulaExport.Main
import FormulaExport.Proofs.Canonical.Invariant
import FormulaExport.Proofs.Export.Import
import FormulaExport.Proofs.Isomorphism.Text
import FormulaExport.Proofs.Program.Batch
import FormulaExport.Proofs.Tuples.Order
import FormulaExport.Proofs.Tuples.Stray
import FormulaExport.Proofs.Canonical.Collapse
import FormulaExport.Proofs.Canonical.Threaded
import FormulaExport.Proofs.Canonical.Replacement
import FormulaExport.Proofs.Canonical.Idempotence
import FormulaExport.Proofs.Canonical.Binding
import FormulaExport.Proofs.Canonical.NormalForm
import FormulaExport.Proofs.Markup.Trailing
import FormulaExport.Proofs.Formula.Missing
import FormulaExport.Proofs.Index.Reading
import FormulaExport.Proofs.Files.Collect
import FormulaExport.Proofs.Canonical.Rounds
import FormulaExport.Proofs.Formula.Nesting
import FormulaExport.Proofs.Canonical.Naming
