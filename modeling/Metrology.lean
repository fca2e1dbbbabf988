import Metrology.Catalog
import Metrology.CommandLine
import Metrology.Converter.Shared
import Metrology.Error.Given
import Metrology.Main
import Metrology.Operand
import Metrology.Registries
import Metrology.Scalar.Exact
import Metrology.Proofs.Converter.Transparency
import Metrology.Proofs.Expression.Completeness
import Metrology.Proofs.Expression.Printing
import Metrology.Proofs.Registry.History
import Metrology.Proofs.Scalar.One
import Metrology.Proofs.Registry.Naming
import Metrology.Proofs.Registry.Refusals
import Metrology.Proofs.Expression.Grouped
import Metrology.Proofs.Registry.Algebra
import Metrology.Proofs.Catalog.Factors
import Metrology.Proofs.Converter.Failures
import Metrology.Proofs.Converter.Recency
import Metrology.Proofs.Registry.Building
import Metrology.Proofs.Expression.Distinct
import Metrology.Proofs.Dimension.Signature
import Metrology.Proofs.Converter.Compatibility
import Metrology.Proofs.Registry.Registration
import Metrology.Proofs.Registry.Substitution
import Metrology.Proofs.Registry.Independence
import Metrology.Proofs.BaseForm.Operations
import Metrology.Proofs.BaseForm.Terms
import Metrology.Proofs.Definition.Construction
import Metrology.Proofs.Expression.Regrouping
import Metrology.Proofs.Expression.Blanks
import Metrology.Proofs.Converter.Latching
import Metrology.Proofs.Converter.Chains
import Metrology.Proofs.Dimension.Rendering
import Metrology.Proofs.Expression.Totality
import Metrology.Proofs.Expression.Cuts
import Metrology.Proofs.Expression.ExponentSpans
import Metrology.Proofs.Expression.Wrapping
