import RowExpr.Expr.Evaluation
import RowExpr.Invariant
import RowExpr.Query
import RowExpr.Proofs.Number.Integer
import RowExpr.Proofs.Code.Frame
import RowExpr.Proofs.Code.Operator
import RowExpr.Proofs.Generation.Conversion
import RowExpr.Proofs.Generation.Numbering
import RowExpr.Proofs.Expr.Nullity
import RowExpr.Proofs.Generation.Simulation
import RowExpr.Proofs.Code.Registry
import RowExpr.Proofs.Unit.Loading
import RowExpr.Proofs.Expr.Fault
import RowExpr.Proofs.Session
import RowExpr.Proofs.Correctness
import RowExpr.Proofs.TypeSafety
import RowExpr.Proofs.Query
import RowExpr.Proofs.Expr.Presence
import RowExpr.Proofs.Generation.Placement
import RowExpr.Proofs.Absence
import RowExpr.Proofs.Generation.Parallel
import RowExpr.Proofs.Placeholder
import RowExpr.Proofs.Batch
import RowExpr.Proofs.Code.Identifier
import RowExpr.Proofs.Generation.Binding
import RowExpr.Proofs.Hygiene
import RowExpr.Proofs.Code.Flow
import RowExpr.Proofs.Generation.Scoping
import RowExpr.Proofs.Unit.Scoping
import RowExpr.Proofs.Number.Exact
import RowExpr.Proofs.Expr.Integral
import RowExpr.Proofs.Acceptance
import RowExpr.Proofs.TwosComplement
import RowExpr.Proofs.Bookkeeping
import RowExpr.Proofs.Generation.Renumbering
import RowExpr.Proofs.History
import RowExpr.Proofs.Pointwise
import RowExpr.Proofs.Generation.Likeness
import RowExpr.Proofs.Naming
import RowExpr.Proofs.Renaming
import RowExpr.Proofs.Verdict
import RowExpr.Proofs.Text.Quoted
import RowExpr.Proofs.Code.Lines
import RowExpr.Proofs.Source
import RowExpr.Proofs.Built
import RowExpr.Proofs.Conjunction
import RowExpr.Proofs.IntegralDivision
import RowExpr.Proofs.Number.Division
import RowExpr.Proofs.Number.Nearest
import RowExpr.Proofs.Number.SignedZero
import RowExpr.Proofs.Number.Truncation
import RowExpr.Proofs.NegativeZero
import RowExpr.Proofs.Number.Shortest
import RowExpr.Proofs.Number.Layout
import RowExpr.Proofs.Unit.Lexing
import RowExpr.Proofs.Unit.Legible
import RowExpr.Proofs.Unit.Cutting
import RowExpr.Proofs.Unit.Reading
import RowExpr.Proofs.Unit.Spelling
import RowExpr.Proofs.Unit.ReadBack
import RowExpr.Proofs.Generation.Legibility
import RowExpr.Proofs.SourceText
import RowExpr.Proofs.Literals
import RowExpr.Proofs.Text.Runs
import RowExpr.Proofs.Number.Rounded
import RowExpr.Proofs.Text.Integer
import RowExpr.Proofs.IntegralText
import RowExpr.Proofs.Calendar.Civil
import RowExpr.Proofs.Calendar.Pattern
import RowExpr.Proofs.Calendar.Standard
import RowExpr.Proofs.DateReading
import RowExpr.Proofs.Number.IntegerText
import RowExpr.Proofs.Projection
import RowExpr.Proofs.DateRoundTrip
import RowExpr.Proofs.EpochText
import RowExpr.Proofs.Text.Decimal
import RowExpr.Proofs.DecimalText
import RowExpr.Proofs.Widening
import RowExpr.Proofs.PrimitiveText
import RowExpr.Proofs.CharCode
import RowExpr.Proofs.Narrowing
import RowExpr.Proofs.Equality
import RowExpr.Proofs.FieldAccess
import RowExpr.Proofs.Substring
import RowExpr.Proofs.FreshNames
import RowExpr.Proofs.Quoting
import RowExpr.Proofs.Registration
