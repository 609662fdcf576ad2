import ScopedLisp.CommandLine.Report
import ScopedLisp.Evaluation
import ScopedLisp.Form.Reader
import ScopedLisp.Main
import ScopedLisp.Proofs.Effect
import ScopedLisp.Proofs.OperatorCall
import ScopedLisp.Proofs.Parts
import ScopedLisp.Session
import ScopedLisp.Proofs.Likeness
import ScopedLisp.Proofs.StaticScoping
import ScopedLisp.Proofs.Discipline
import ScopedLisp.Proofs.Nested
import ScopedLisp.Proofs.Code
import ScopedLisp.Proofs.SessionInvariant
import ScopedLisp.Proofs.IntegerRange
import ScopedLisp.Proofs.Balance
import ScopedLisp.Proofs.Relocation
import ScopedLisp.Proofs.Numeral
import ScopedLisp.Proofs.ReadBack
import ScopedLisp.Proofs.Incremental
import ScopedLisp.Proofs.Limit
import ScopedLisp.Proofs.Provenance
import ScopedLisp.Proofs.RepeatedCalls
import ScopedLisp.Proofs.UnreferencedNames
import ScopedLisp.Proofs.Shadowing
import ScopedLisp.Proofs.OperatorOutcome
import ScopedLisp.Proofs.ValueOrigins
import ScopedLisp.Proofs.Reporting
import ScopedLisp.Proofs.ExactTotals
import ScopedLisp.Proofs.IntegerDivision
import ScopedLisp.Proofs.ExactOrder
import ScopedLisp.Proofs.Tiling
import ScopedLisp.Proofs.ReadFloats
import ScopedLisp.Proofs.SourceLayout
import ScopedLisp.Proofs.ScanModes
import ScopedLisp.Proofs.LazyReading
import ScopedLisp.Proofs.NumeralGrammar
import ScopedLisp.Proofs.ParameterGrammar
import ScopedLisp.Proofs.ArgumentBinding
import ScopedLisp.Proofs.ClosureText
import ScopedLisp.Proofs.LambdaFree
import ScopedLisp.Proofs.CallOrder
