import GeoLint.Main
import GeoLint.Proofs.Token.Pattern
import GeoLint.Proofs.Token.Lexeme
import GeoLint.Proofs.Token.Tiling
import GeoLint.Proofs.Token.Place
import GeoLint.Proofs.Token.Unique
import GeoLint.Proofs.Token.Exchange
import GeoLint.Proofs.Token.Numeral
import GeoLint.Proofs.Token.Quotation
import GeoLint.Proofs.Syntax.Moved
import GeoLint.Proofs.Syntax.Grammar
import GeoLint.Proofs.Syntax.Soundness
import GeoLint.Proofs.Syntax.Completeness
import GeoLint.Proofs.Syntax.Exchange
import GeoLint.Proofs.Syntax.Machine
import GeoLint.Proofs.Syntax.Simulation
import GeoLint.Proofs.Syntax.Acceptance
import GeoLint.Proofs.Syntax.Safety
import GeoLint.Proofs.Syntax.Kinds
import GeoLint.Proofs.Syntax.Viable
import GeoLint.Proofs.Syntax.Depth
import GeoLint.Proofs.Rule.Walk
import GeoLint.Proofs.Rule.Findings
import GeoLint.Proofs.Rule.Independence
import GeoLint.Proofs.Syntax.Spans
import GeoLint.Proofs.Joining
import GeoLint.Proofs.Layout
import GeoLint.Proofs.Rule.Moved
import GeoLint.Proofs.Location
import GeoLint.Proofs.Syntax.Blank
import GeoLint.Proofs.Gate
import GeoLint.Proofs.Syntax.Nesting
import GeoLint.Proofs.Syntax.Atoms
import GeoLint.Proofs.Catalogue.Cutting
import GeoLint.Proofs.Catalogue.Notation
import GeoLint.Proofs.Catalogue.Grouping
import GeoLint.Proofs.Rule.Mismatches
import GeoLint.Proofs.History
import GeoLint.Proofs.EditDistance.Scripts
import GeoLint.Proofs.EditDistance.Nearest
import GeoLint.Proofs.Rule.Assignments
import GeoLint.Proofs.Catalogue.ParameterList
import GeoLint.Proofs.Commands
import GeoLint.Proofs.Config.Loading
import GeoLint.Proofs.FileFaults
import GeoLint.Proofs.Transcript
import GeoLint.Proofs.Verdict
import GeoLint.Proofs.Catalogue.BlankBranches
import GeoLint.Proofs.Syntax.Dump
import GeoLint.Proofs.Catalogue.AcceptedTypes
import GeoLint.Proofs.Decimal.Whole
import GeoLint.Proofs.Diagnostic
import GeoLint.Proofs.Catalogue.TopLevel
import GeoLint.Proofs.Text.Lines
import GeoLint.Proofs.Syntax.Complaints
import GeoLint.Proofs.Catalogue.OneLine
import GeoLint.Proofs.OneLine
